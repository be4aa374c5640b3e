import Mathlib.Data.List.Basic
import Mathlib.Order.Lattice

/-! Lists in which every element comes after its parents, and when sorting by a key gives one. -/
namespace IcebergRs

variable {α κ : Type*} {parent : α → α → Prop} {l : List α}

/-- The parents of an element that are in the list stand before it. -/
def ParentsFirst (parent : α → α → Prop) (l : List α) : Prop :=
  ∀ pre x post, l = pre ++ x :: post → ∀ p ∈ l, parent p x → p ∈ pre

/-- In a list without repetitions an element is not its own parent. -/
theorem ParentsFirst.irrefl {x : α} (h : ParentsFirst parent l) (hl : l.Nodup) (hx : x ∈ l) :
    ¬ parent x x := by
  intro hxx
  obtain ⟨pre, post, rfl⟩ := List.append_of_mem hx
  exact (List.nodup_append.mp hl).2.2 x (h pre x post rfl x hx hxx) x List.mem_cons_self rfl

/-- In a list without repetitions no parent stands behind its child. -/
theorem not_parentsFirst_of_sublist {p x : α} (hl : l.Nodup) (hsub : [x, p].Sublist l)
    (hpx : parent p x) : ¬ ParentsFirst parent l := by
  intro h
  obtain ⟨front, back, rfl, hx, hp⟩ := List.cons_sublist_iff.mp hsub
  have hp := List.singleton_sublist.mp hp
  obtain ⟨pre, mid, rfl⟩ := List.append_of_mem hx
  rw [List.append_assoc, List.cons_append] at h hl
  have hpre := h pre x (mid ++ back) rfl p (by simp [hp]) hpx
  exact (List.nodup_append.mp hl).2.2 p hpre p (by simp [hp]) rfl

section
variable [LinearOrder κ] {key : α → κ}

theorem parentsFirst_of_sorted (hl : l.Pairwise fun a b => key a ≤ key b)
    (hkey : ∀ p ∈ l, ∀ x ∈ l, parent p x → key p < key x) : ParentsFirst parent l := by
  rintro pre x post rfl p hp hpx
  have hlt := hkey p hp x (by simp) hpx
  have hpost := (List.pairwise_cons.mp (List.pairwise_append.mp hl).2.1).1
  rcases List.mem_append.mp hp with hpre | hrest
  · exact hpre
  · rcases List.mem_cons.mp hrest with rfl | hp
    · exact absurd hlt (lt_irrefl _)
    · exact absurd (hpost p hp) (not_le_of_gt hlt)

private theorem key_le_trans (a b c : α) (hab : decide (key a ≤ key b) = true)
    (hbc : decide (key b ≤ key c) = true) : decide (key a ≤ key c) = true :=
  decide_eq_true (le_trans (of_decide_eq_true hab) (of_decide_eq_true hbc))

private theorem key_le_total (a b : α) :
    (decide (key a ≤ key b) || decide (key b ≤ key a)) = true := by
  simpa using le_total (key a) (key b)

/-- Sorting by a key that grows from parents to children puts parents first. -/
theorem parentsFirst_mergeSort (hkey : ∀ p ∈ l, ∀ x ∈ l, parent p x → key p < key x) :
    ParentsFirst parent (l.mergeSort fun a b => key a ≤ key b) := by
  have hperm := List.mergeSort_perm l fun a b => key a ≤ key b
  have hsorted : (l.mergeSort fun a b => key a ≤ key b).Pairwise fun a b =>
      decide (key a ≤ key b) = true := List.pairwise_mergeSort key_le_trans key_le_total l
  refine parentsFirst_of_sorted (hsorted.imp fun h => of_decide_eq_true h) fun p hp x hx => ?_
  exact hkey p (hperm.mem_iff.mp hp) x (hperm.mem_iff.mp hx)

/-- A stable sort by a key puts parents first, whatever order it is given, exactly when the key
grows from parents to children. -/
theorem parentsFirst_mergeSort_iff (hl : l.Nodup) :
    (∀ l' : List α, l'.Perm l → ParentsFirst parent (l'.mergeSort fun a b => key a ≤ key b)) ↔
      ∀ p ∈ l, ∀ x ∈ l, parent p x → key p < key x := by
  constructor
  · intro hall p hp x hx hpx
    by_contra hlt
    by_cases hne : p = x
    · subst hne
      have hperm := List.mergeSort_perm l fun a b => key a ≤ key b
      exact (hall l (.refl l)).irrefl (hperm.nodup_iff.mpr hl) (hperm.mem_iff.mpr hp) hpx
    · -- with the child in front, the sort leaves it before its parent
      obtain ⟨pre, post, rfl⟩ := List.append_of_mem hx
      have hperm : (x :: (pre ++ post)).Perm (pre ++ x :: post) := List.perm_middle.symm
      have hmem : p ∈ pre ++ post := (List.mem_cons.mp (hperm.mem_iff.mpr hp)).resolve_left hne
      have hsub := List.pair_sublist_mergeSort key_le_trans key_le_total
        (decide_eq_true (not_lt.mp hlt)) ((List.singleton_sublist.mpr hmem).cons_cons x)
      have hsort := List.mergeSort_perm (x :: (pre ++ post)) fun a b => key a ≤ key b
      exact not_parentsFirst_of_sublist ((hsort.trans hperm).nodup_iff.mpr hl) hsub hpx
        (hall _ hperm)
  · intro hkey l' hperm
    refine parentsFirst_mergeSort fun p hp x hx => ?_
    exact hkey p (hperm.mem_iff.mp hp) x (hperm.mem_iff.mp hx)

/-- Sorting by a key that is the same for all elements leaves their order. -/
theorem mergeSort_of_key_eq (hkey : ∀ a ∈ l, ∀ b ∈ l, key a = key b) :
    (l.mergeSort fun a b => key a ≤ key b) = l := by
  refine List.mergeSort_of_pairwise (List.pairwise_of_forall_mem_list fun a ha b hb => ?_)
  exact decide_eq_true (le_of_eq (hkey a ha b hb))

end
end IcebergRs
