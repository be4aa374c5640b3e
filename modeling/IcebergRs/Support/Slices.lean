import IcebergRs.Support.Outcome
import Mathlib.Data.List.Basic

/-! Slices with checked bounds: reading or writing past the end is a panic. -/
namespace IcebergRs.Slice

universe u
variable {α : Type u}

def outOfRange : String := "range out of bounds of the slice"

/-- `slice::from_raw_parts`: the first `n` elements behind a pointer, and the memory after
them. -/
def rawParts (mem : List α) (n : ℕ) : Outcome (List α × List α) :=
  if n ≤ mem.length then .ok (mem.take n, mem.drop n) else .panic outOfRange

/-- `xs[s..e]`. -/
def get (xs : List α) (s e : ℕ) : Outcome (List α) :=
  if s ≤ e ∧ e ≤ xs.length then .ok ((xs.drop s).take (e - s)) else .panic outOfRange

/-- `xs[i] = x`. -/
def set (xs : List α) (i : ℕ) (x : α) : Outcome (List α) :=
  if i < xs.length then .ok (xs.set i x) else .panic outOfRange

/-- `xs[s..e].copy_from_slice(src)`, which panics too if the lengths differ. -/
def copy (xs : List α) (s e : ℕ) (src : List α) : Outcome (List α) :=
  if s ≤ e ∧ e ≤ xs.length ∧ src.length = e - s then .ok (xs.take s ++ (src ++ xs.drop e))
  else .panic outOfRange

theorem rawParts_eq {mem : List α} {n : ℕ} (h : n ≤ mem.length) :
    rawParts mem n = .ok (mem.take n, mem.drop n) := if_pos h

theorem get_eq {xs : List α} {s e : ℕ} (hs : s ≤ e) (he : e ≤ xs.length) :
    get xs s e = .ok ((xs.drop s).take (e - s)) := if_pos ⟨hs, he⟩

/-- Setting the first element of what comes after a prefix. -/
theorem set_append (pre : List α) (y x : α) (post : List α) :
    set (pre ++ y :: post) pre.length x = .ok (pre ++ x :: post) := by
  have h : pre.length < (pre ++ y :: post).length := by simp
  rw [set, if_pos h, List.set_append_right _ _ (Nat.le_refl _)]
  simp

/-- Copying over the beginning of what comes after a prefix. -/
theorem copy_append (pre post src : List α) (h : src.length ≤ post.length) :
    copy (pre ++ post) pre.length (pre.length + src.length) src =
      .ok (pre ++ (src ++ post.drop src.length)) := by
  have hin : pre.length + src.length ≤ (pre ++ post).length := by simpa using h
  rw [copy, if_pos ⟨Nat.le_add_right _ _, hin, by simp⟩, List.take_left,
    List.drop_length_add_append]

end IcebergRs.Slice
