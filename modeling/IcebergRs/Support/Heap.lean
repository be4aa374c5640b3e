import Mathlib.Data.List.AList

/-! Finite heaps of values at addresses that are not 0, allocators that may hand out again what
was freed, and reference counts kept on a heap. -/
namespace IcebergRs

abbrev Heap (ν : Type*) := AList fun _ : ℕ => ν

/-- An allocator hands out an address that is not in use. -/
structure Allocator (ν : Type*) where
  place : Heap ν → ℕ
  nonnull : ∀ h, place h ≠ 0
  unused : ∀ h, place h ∉ h

/-- The allocator that goes beyond all addresses in use. -/
def Allocator.beyond (ν : Type*) : Allocator ν where
  place h := h.keys.foldr max 0 + 1
  nonnull _ := Nat.succ_ne_zero _
  unused h := by
    have bound (l : List ℕ) (p : ℕ) (hp : p ∈ l) : p ≤ l.foldr max 0 := by
      induction l with
      | nil => cases hp
      | cons q l ih =>
        rcases List.mem_cons.mp hp with rfl | hp
        · exact Nat.le_max_left _ _
        · exact Nat.le_trans (ih hp) (Nat.le_max_right _ _)
    intro hp
    exact absurd (bound h.keys _ hp) (by omega)

namespace Heap
variable {ν τ : Type*} {h h' h'' : Heap ν} {tag : ν → τ} {p q : ℕ} {v w : ν} {U V : List ℕ}

theorem perm_erase_of_lookup (hv : h.lookup p = some v) :
    h.entries.Perm (⟨p, v⟩ :: (h.erase p).entries) := by
  have hmem : p ∈ h.entries.keys := AList.lookup_isSome.mp (by rw [hv]; rfl)
  obtain ⟨w, l₁, l₂, -, hl, he⟩ := List.exists_of_kerase hmem
  have hw : h.lookup p = some w :=
    AList.mem_lookup_iff.mpr (hl ▸ List.mem_append_right _ List.mem_cons_self)
  obtain rfl := Option.some.inj (hw.symm.trans hv)
  change h.entries.Perm (⟨p, w⟩ :: h.entries.kerase p)
  rw [he, hl]
  exact List.perm_middle

theorem eq_empty (hnone : ∀ p, h.lookup p = none) : h = ∅ := by
  refine AList.ext (List.eq_nil_iff_forall_not_mem.mpr fun e he => ?_)
  exact Option.some_ne_none _ ((AList.mem_lookup_iff.mpr he).symm.trans (hnone e.1))

/-- The addresses in use, each with the tag of its value. -/
def census (tag : ν → τ) (h : Heap ν) : List (ℕ × τ) := h.entries.map fun e => (e.1, tag e.2)

theorem mem_census {t : τ} : (p, t) ∈ h.census tag ↔ ∃ v, h.lookup p = some v ∧ tag v = t := by
  simp only [census, List.mem_map]
  constructor
  · rintro ⟨⟨q, v⟩, he, hq⟩
    obtain ⟨rfl, ht⟩ := Prod.mk.inj hq
    exact ⟨v, AList.mem_lookup_iff.mpr he, ht⟩
  · rintro ⟨v, hv, rfl⟩
    exact ⟨⟨p, v⟩, AList.mem_lookup_iff.mp hv, rfl⟩

theorem census_nodup : ((h.census tag).map Prod.fst).Nodup := by
  rw [census, List.map_map]
  exact h.nodupKeys

theorem census_insert (hp : p ∉ h) : census tag (h.insert p v) = (p, tag v) :: h.census tag := by
  rw [census, AList.entries_insert_of_notMem hp, List.map_cons]
  rfl

theorem census_erase (hv : h.lookup p = some v) :
    (h.census tag).Perm ((p, tag v) :: census tag (h.erase p)) :=
  (perm_erase_of_lookup hv).map _

/-- A value may be replaced by one with the same tag. -/
theorem census_store (hv : h.lookup p = some v) (ht : tag w = tag v) :
    (census tag (h.insert p w)).Perm (h.census tag) := by
  have hins : census tag (h.insert p w) = (p, tag w) :: census tag (h.erase p) := by
    simp only [census, AList.entries_insert, List.map_cons]
    rfl
  rw [hins, ht]
  exact (census_erase hv).symm

/-- Everything that is not at one of the addresses has stayed as it was. -/
def Keeps (U : List ℕ) (h h' : Heap ν) : Prop :=
  ∀ p v, p ∉ U → h.lookup p = some v → h'.lookup p = some v

theorem Keeps.refl (U : List ℕ) (h : Heap ν) : Keeps U h h := fun _ _ _ hv => hv

theorem Keeps.trans (hU : Keeps U h h') (hV : Keeps U h' h'') : Keeps U h h'' :=
  fun p v hp hv => hV p v hp (hU p v hp hv)

theorem Keeps.mono (hU : Keeps U h h') (hsub : U ⊆ V) : Keeps V h h' :=
  fun p v hp hv => hU p v (fun hpU => hp (hsub hpU)) hv

/-- What is done to an address that was not in use touches nothing. -/
theorem Keeps.fresh (hU : Keeps (p :: U) h h') (hp : p ∉ h) : Keeps U h h' := by
  intro q v hq hv
  have hqp : q ≠ p := by
    rintro rfl
    exact hp (AList.lookup_isSome.mp (by rw [hv]; rfl))
  exact hU q v (by simpa [hqp] using hq) hv

theorem keeps_insert (hp : p ∈ U) : Keeps U h (h.insert p v) := by
  intro q w hq hw
  have hqp : q ≠ p := fun he => hq (he ▸ hp)
  rwa [AList.lookup_insert_ne hqp]

theorem keeps_alloc (hp : p ∉ h) : Keeps U h (h.insert p v) :=
  ((keeps_insert (U := p :: U) List.mem_cons_self).fresh hp)

theorem keeps_erase (hp : p ∈ U) : Keeps U h (h.erase p) := by
  intro q w hq hw
  have hqp : q ≠ p := fun he => hq (he ▸ hp)
  rwa [AList.lookup_erase_ne hqp]

/-! Reference counts: an object lives while it has a count, and the count is not 0. -/

def retain (c : ℕ) (counts : Heap ℕ) : Option (Heap ℕ) :=
  (counts.lookup c).map fun n => counts.insert c (n + 1)

def release (c : ℕ) (counts : Heap ℕ) : Option (Heap ℕ) :=
  (counts.lookup c).map fun n => if n = 1 then counts.erase c else counts.insert c (n - 1)

/-- Every object has the count that it should have, and none if that is 0. -/
def Counts (counts : Heap ℕ) (refs : ℕ → ℕ) : Prop :=
  ∀ c, counts.lookup c = if refs c = 0 then none else some (refs c)

variable {counts : Heap ℕ} {refs refs' : ℕ → ℕ} {c : ℕ}

theorem Counts.lookup (hc : Counts counts refs) (hpos : refs c ≠ 0) :
    counts.lookup c = some (refs c) := by
  rw [hc c, if_neg hpos]

theorem Counts.refs_eq_zero (hc : Counts counts refs) (hfree : c ∉ counts) : refs c = 0 := by
  by_contra hpos
  exact hfree (AList.lookup_isSome.mp (by rw [hc.lookup hpos]; rfl))

theorem Counts.congr (hc : Counts counts refs) (h : ∀ d, refs' d = refs d) :
    Counts counts refs' := fun d => by rw [h d, hc d]

theorem Counts.set (hc : Counts counts refs) {n : ℕ} (hn : n ≠ 0) (hself : refs' c = n)
    (hother : ∀ d ≠ c, refs' d = refs d) : Counts (counts.insert c n) refs' := by
  intro d
  by_cases hd : d = c
  · subst hd
    rw [AList.lookup_insert, hself, if_neg hn]
  · rw [AList.lookup_insert_ne hd, hother d hd, hc d]

/-- The first reference to a new object. -/
theorem Counts.share (hc : Counts counts refs) (hfree : c ∉ counts)
    (h : ∀ d, refs' d = refs d + if d = c then 1 else 0) :
    Counts (counts.insert c 1) refs' :=
  hc.set (by decide) (by simp [h, hc.refs_eq_zero hfree]) fun d hd => by simp [h, hd]

theorem Counts.retain (hc : Counts counts refs) (hpos : refs c ≠ 0)
    (h : ∀ d, refs' d = refs d + if d = c then 1 else 0) :
    ∃ counts', Heap.retain c counts = some counts' ∧ Counts counts' refs' := by
  refine ⟨_, by rw [Heap.retain, hc.lookup hpos]; rfl, ?_⟩
  exact hc.set (by omega) (by simp [h]) fun d hd => by simp [h, hd]

/-- With its last reference the object goes. -/
theorem Counts.release (hc : Counts counts refs)
    (h : ∀ d, refs d = refs' d + if d = c then 1 else 0) :
    ∃ counts', Heap.release c counts = some counts' ∧ Counts counts' refs' := by
  have hself : refs c = refs' c + 1 := by simp [h]
  have hother : ∀ d ≠ c, refs' d = refs d := fun d hd => by simp [h, hd]
  have hone : refs c = 1 ↔ refs' c = 0 := by omega
  refine ⟨_, by rw [Heap.release, hc.lookup (by omega), Option.map_some], ?_⟩
  by_cases hlast : refs c = 1
  · rw [if_pos hlast]
    intro d
    by_cases hd : d = c
    · subst hd
      rw [AList.lookup_erase, if_pos (hone.mp hlast)]
    · rw [AList.lookup_erase_ne hd, hother d hd, hc d]
  · rw [if_neg hlast]
    exact hc.set (fun h0 => hlast (by omega)) (by omega) hother

end Heap
end IcebergRs
