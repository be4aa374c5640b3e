import Mathlib.Data.List.Count
import Mathlib.Data.List.Nodup
import Mathlib.Logic.Function.Basic

/-! A ledger of items that owners issue. An item waits with its owner until the owner
settles everything that waits, as one batch, or drops it. -/
namespace IcebergRs

structure Ledger (ι α : Type*) where
  issued : ι → List α
  pending : ι → List α
  dropped : ι → List α
  settled : List (List α)

/-- The item occurs in one batch only, and once there. -/
def InOneBatch {α : Type*} [DecidableEq α] (x : α) (batches : List (List α)) : Prop :=
  ∃ before b after, batches = before ++ b :: after ∧ b.count x = 1 ∧
    ∀ c ∈ before ++ after, x ∉ c

namespace Ledger
open Function
variable {ι α : Type*} [DecidableEq α]

/-- Every issued item is counted once over the three places, what waits is the end of what
was issued, and no item has two owners. -/
structure Inv (L : Ledger ι α) : Prop where
  once : ∀ i, ∀ x ∈ L.issued i,
    (L.pending i).count x + L.settled.flatten.count x + (L.dropped i).count x = 1
  waits : ∀ i, L.pending i <:+ L.issued i
  dropped : ∀ i, ∀ x ∈ L.dropped i, x ∈ L.issued i
  owner : ∀ i j x, x ∈ L.issued i → x ∈ L.issued j → i = j

/-- The item is in exactly one place, and with no other owner. -/
structure AtOnePlace (L : Ledger ι α) (i : ι) (x : α) : Prop where
  place :
    (L.pending i).count x = 1 ∧ (∀ b ∈ L.settled, x ∉ b) ∧ x ∉ L.dropped i ∨
    x ∉ L.pending i ∧ InOneBatch x L.settled ∧ x ∉ L.dropped i ∨
    x ∉ L.pending i ∧ (∀ b ∈ L.settled, x ∉ b) ∧ (L.dropped i).count x = 1
  others : ∀ j ≠ i, x ∉ L.pending j ∧ x ∉ L.dropped j

variable {L L' : Ledger ι α}

theorem Inv.pending_mem (h : Inv L) {i : ι} {x : α} (hx : x ∈ L.pending i) : x ∈ L.issued i :=
  (h.waits i).subset hx

theorem Inv.count_pending_other (h : Inv L) {i j : ι} (hij : j ≠ i) {x : α}
    (hx : x ∈ L.issued j) : (L.pending i).count x = 0 :=
  List.count_eq_zero.mpr fun hp => hij (h.owner j i x hx (h.pending_mem hp))

theorem inOneBatch_of_count {x : α} {batches : List (List α)}
    (h : batches.flatten.count x = 1) : InOneBatch x batches := by
  have hmem : x ∈ batches.flatten := List.count_pos_iff.mp (by omega)
  obtain ⟨b, hb, hxb⟩ := List.mem_flatten.mp hmem
  obtain ⟨before, after, rfl⟩ := List.append_of_mem hb
  have hpos := List.count_pos_iff.mpr hxb
  simp only [List.flatten_append, List.flatten_cons, List.count_append] at h
  refine ⟨before, b, after, rfl, by omega, fun c hc hxc => ?_⟩
  have hrest : 0 < before.flatten.count x + after.flatten.count x := by
    rw [← List.count_append, ← List.flatten_append]
    exact List.count_pos_iff.mpr (List.mem_flatten.mpr ⟨c, hc, hxc⟩)
  omega

/-- An issued item is in exactly one place. -/
theorem Inv.atOnePlace (h : Inv L) {i : ι} {x : α} (hx : x ∈ L.issued i) : AtOnePlace L i x where
  place := by
    have ho := h.once i x hx
    have hnone : L.settled.flatten.count x = 0 → ∀ b ∈ L.settled, x ∉ b := fun hz b hb hxb =>
      List.count_eq_zero.mp hz (List.mem_flatten.mpr ⟨b, hb, hxb⟩)
    rcases Nat.eq_zero_or_pos ((L.pending i).count x) with hp | hp
    · rcases Nat.eq_zero_or_pos (L.settled.flatten.count x) with hs | hs
      · exact .inr (.inr ⟨List.count_eq_zero.mp hp, hnone hs, by omega⟩)
      · exact .inr (.inl ⟨List.count_eq_zero.mp hp, inOneBatch_of_count (by omega),
          List.count_eq_zero.mp (by omega)⟩)
    · exact .inl ⟨by omega, hnone (by omega), List.count_eq_zero.mp (by omega)⟩
  others j hj :=
    ⟨fun hp => hj (h.owner j i x (h.pending_mem hp) hx),
      fun hd => hj (h.owner j i x (h.dropped j x hd) hx)⟩

variable [DecidableEq ι]

inductive Step : Ledger ι α → Ledger ι α → Prop
  | issue {L : Ledger ι α} (i : ι) (xs : List α) (nodup : xs.Nodup)
      (new : ∀ x ∈ xs, x ∉ L.settled.flatten ∧ ∀ j, x ∉ L.issued j) :
      Step L { L with
        issued := update L.issued i (L.issued i ++ xs)
        pending := update L.pending i (L.pending i ++ xs) }
  | settle {L : Ledger ι α} (i : ι) :
      Step L { L with
        settled := L.settled ++ [L.pending i]
        pending := update L.pending i [] }
  | drop {L : Ledger ι α} (i : ι) :
      Step L { L with
        dropped := update L.dropped i (L.dropped i ++ L.pending i)
        pending := update L.pending i [] }
  | idle {L : Ledger ι α} : Step L L

theorem Inv.issue (h : Inv L) (i : ι) {xs : List α} (nodup : xs.Nodup)
    (new : ∀ x ∈ xs, x ∉ L.settled.flatten ∧ ∀ j, x ∉ L.issued j) :
    Inv { L with
      issued := update L.issued i (L.issued i ++ xs)
      pending := update L.pending i (L.pending i ++ xs) } where
  once j x hx := by
    by_cases hji : j = i
    · subst hji
      simp only [update_self, List.mem_append, List.count_append] at hx ⊢
      rcases hx with hx | hx
      · have hxs : xs.count x = 0 := List.count_eq_zero.mpr fun hm => (new x hm).2 j hx
        simpa [hxs] using h.once j x hx
      · obtain ⟨hs, hi⟩ := new x hx
        have hp : (L.pending j).count x = 0 :=
          List.count_eq_zero.mpr fun hm => hi j (h.pending_mem hm)
        have hd : (L.dropped j).count x = 0 :=
          List.count_eq_zero.mpr fun hm => hi j (h.dropped j x hm)
        simp [hp, hd, List.count_eq_zero.mpr hs, List.count_eq_one_of_mem nodup hx]
    · simp only [update_of_ne hji] at hx ⊢
      exact h.once j x hx
  waits j := by
    by_cases hji : j = i
    · subst hji
      simp only [update_self]
      obtain ⟨pre, hpre⟩ := h.waits j
      exact ⟨pre, by rw [← List.append_assoc, hpre]⟩
    · simpa only [update_of_ne hji] using h.waits j
  dropped j x hx := by
    by_cases hji : j = i
    · subst hji
      simpa using Or.inl (h.dropped j x hx)
    · simpa only [update_of_ne hji] using h.dropped j x hx
  owner j k x hj hk := by
    by_cases hji : j = i <;> by_cases hki : k = i
    · rw [hji, hki]
    · subst hji
      simp only [update_self, List.mem_append, update_of_ne hki] at hj hk
      exact hj.elim (fun hj => h.owner j k x hj hk) fun hj => absurd hk ((new x hj).2 k)
    · subst hki
      simp only [update_self, List.mem_append, update_of_ne hji] at hj hk
      exact hk.elim (fun hk => h.owner j k x hj hk) fun hk => absurd hj ((new x hk).2 j)
    · simp only [update_of_ne hji, update_of_ne hki] at hj hk
      exact h.owner j k x hj hk

theorem Inv.settle (h : Inv L) (i : ι) :
    Inv { L with
      settled := L.settled ++ [L.pending i]
      pending := update L.pending i [] } where
  once j x hx := by
    have ho := h.once j x hx
    by_cases hji : j = i
    · subst hji
      simp only [update_self, List.count_nil, List.flatten_append, List.flatten_singleton,
        List.count_append]
      omega
    · simp only [update_of_ne hji, List.flatten_append, List.flatten_singleton,
        List.count_append, h.count_pending_other hji hx]
      omega
  waits j := by
    by_cases hji : j = i
    · subst hji
      simp
    · simpa only [update_of_ne hji] using h.waits j
  dropped := h.dropped
  owner := h.owner

theorem Inv.drop (h : Inv L) (i : ι) :
    Inv { L with
      dropped := update L.dropped i (L.dropped i ++ L.pending i)
      pending := update L.pending i [] } where
  once j x hx := by
    have ho := h.once j x hx
    by_cases hji : j = i
    · subst hji
      simp only [update_self, List.count_nil, List.count_append]
      omega
    · simpa only [update_of_ne hji] using ho
  waits j := by
    by_cases hji : j = i
    · subst hji
      simp
    · simpa only [update_of_ne hji] using h.waits j
  dropped j x hx := by
    by_cases hji : j = i
    · subst hji
      simp only [update_self, List.mem_append] at hx
      exact hx.elim (h.dropped j x) h.pending_mem
    · simp only [update_of_ne hji] at hx
      exact h.dropped j x hx
  owner := h.owner

theorem Inv.step (h : Inv L) (hs : Step L L') : Inv L' := by
  cases hs with
  | issue i xs nodup new => exact h.issue i nodup new
  | settle i => exact h.settle i
  | drop i => exact h.drop i
  | idle => exact h

end Ledger
end IcebergRs
