import Mathlib.Algebra.Group.Nat.Defs
import Mathlib.Data.List.Basic

/-! Rows of items packed one behind the other into one list, found again by the positions
where they start and end, which travel as an array of 64-bit integers. -/
namespace IcebergRs

variable {α : Type*}

/-- Where row `i` starts; with `i` the number of rows, where the last one ends. -/
def offset (rows : List (List α)) (i : ℕ) : ℕ := (rows.take i).flatten.length

/-- The position after each row, when the first row starts at `pos`. -/
def ends (pos : ℕ) : List (List α) → List ℕ
  | [] => []
  | row :: rows => (pos + row.length) :: ends (pos + row.length) rows

@[simp] theorem offset_length (rows : List (List α)) :
    offset rows rows.length = rows.flatten.length := by simp [offset]

theorem offset_succ {rows : List (List α)} {i : ℕ} (h : i < rows.length) :
    offset rows (i + 1) = offset rows i + rows[i].length := by
  rw [offset, offset, List.take_succ_eq_append_getElem h, List.flatten_append, List.length_append]
  simp

theorem offset_mono (rows : List (List α)) {i j : ℕ} (h : i ≤ j) :
    offset rows i ≤ offset rows j := by
  obtain ⟨rest, hrest⟩ := List.take_prefix_take_left (l := rows) h
  rw [offset, offset, ← hrest, List.flatten_append, List.length_append]
  exact Nat.le_add_right _ _

theorem offset_le (rows : List (List α)) (i : ℕ) : offset rows i ≤ rows.flatten.length := by
  conv_rhs => rw [← List.take_append_drop i rows, List.flatten_append, List.length_append]
  exact Nat.le_add_right _ _

@[simp] theorem ends_length (pos : ℕ) (rows : List (List α)) :
    (ends pos rows).length = rows.length := by
  induction rows generalizing pos with
  | nil => rfl
  | cons row rows ih => simp [ends, ih]

theorem ends_getElem? {pos : ℕ} {rows : List (List α)} {i : ℕ} (h : i < rows.length) :
    (ends pos rows)[i]? = some (pos + offset rows (i + 1)) := by
  induction rows generalizing pos i with
  | nil => simp at h
  | cons row rows ih =>
    cases i with
    | zero => simp [ends, offset]
    | succ i =>
      have hi : i < rows.length := by simpa using h
      simp [ends, ih hi, offset, Nat.add_assoc]

theorem ends_append (pos : ℕ) (rows more : List (List α)) :
    ends pos (rows ++ more) = ends pos rows ++ ends (pos + rows.flatten.length) more := by
  induction rows generalizing pos with
  | nil => rfl
  | cons row rows ih => simp [ends, ih, Nat.add_assoc]

/-- The 64-bit array of all positions, the start of the first row included. -/
def offsets (rows : List (List α)) : List Int64 := (0 :: ends 0 rows).map Int64.ofNat

@[simp] theorem offsets_length (rows : List (List α)) :
    (offsets rows).length = rows.length + 1 := by simp [offsets]

theorem offsets_ne_nil (rows : List (List α)) : offsets rows ≠ [] := by simp [offsets]

theorem offsets_getElem? {rows : List (List α)} {i : ℕ} (h : i ≤ rows.length) :
    (offsets rows)[i]? = some (Int64.ofNat (offset rows i)) := by
  cases i with
  | zero => rfl
  | succ i => simp [offsets, ends_getElem? h]

/-- More rows add positions at the end only. -/
theorem offsets_prefix (rows more : List (List α)) : offsets rows <+: offsets (rows ++ more) := by
  rw [offsets, offsets, ends_append, ← List.cons_append, List.map_append]
  exact List.prefix_append _ _

theorem offsets_pairwise {rows : List (List α)} (h : rows.flatten.length < 2 ^ 63) :
    (offsets rows).Pairwise (· ≤ ·) := by
  rw [List.pairwise_iff_getElem]
  intro i j hi hj hij
  rw [offsets_length] at hi hj
  have hpos : ∀ k (hk : k < (offsets rows).length),
      (offsets rows)[k].toInt = offset rows k ∧ k ≤ rows.length := by
    intro k hk
    have hle : k ≤ rows.length := by
      rw [offsets_length] at hk
      omega
    have hget := offsets_getElem? hle
    rw [List.getElem?_eq_getElem hk, Option.some.injEq] at hget
    rw [hget, Int64.toInt_ofNat_of_lt (Nat.lt_of_le_of_lt (offset_le rows k) h)]
    exact ⟨rfl, hle⟩
  rw [Int64.le_iff_toInt_le, (hpos i _).1, (hpos j _).1]
  exact Int.ofNat_le.mpr (offset_mono rows (Nat.le_of_lt hij))

/-- A row is what lies between its two positions, whatever comes after the last row. -/
theorem window_eq (rows : List (List α)) {i : ℕ} (h : i < rows.length) (tail : List α) :
    ((rows.flatten ++ tail).drop (offset rows i)).take (offset rows (i + 1) - offset rows i) =
      rows[i] := by
  have hsplit : rows.flatten ++ tail =
      (rows.take i).flatten ++ (rows[i] ++ ((rows.drop (i + 1)).flatten ++ tail)) := by
    conv_lhs => rw [← List.take_append_drop i rows, List.drop_eq_getElem_cons h]
    simp only [List.flatten_append, List.flatten_cons, List.append_assoc]
  have hlen : offset rows (i + 1) - offset rows i = rows[i].length := by
    rw [offset_succ h, Nat.add_sub_cancel_left]
  rw [hlen, hsplit, offset, List.drop_left', List.take_left'] <;> rfl

end IcebergRs
