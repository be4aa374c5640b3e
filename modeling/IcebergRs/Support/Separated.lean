import Mathlib.Data.List.DropRight
import Mathlib.Data.List.TakeWhile

/-! Lists written with separators and blanks: the segments between the separators, without the
blanks around them and without the empty ones. -/
namespace Separated

variable {α : Type*} {p : α → Bool} {sep : α}

def Blank (p : α → Bool) (w : List α) : Prop := ∀ x ∈ w, p x

/-- The list without the blanks at its ends. -/
def strip (p : α → Bool) (l : List α) : List α := (l.dropWhile p).rdropWhile p

section strip

theorem strip_eq_nil_iff {l : List α} : strip p l = [] ↔ Blank p l := by
  rw [strip, List.rdropWhile_eq_nil_iff]
  constructor
  · intro h x hx
    rw [← List.takeWhile_append_dropWhile (p := p) (l := l), List.mem_append] at hx
    exact hx.elim List.mem_takeWhile_imp (h x)
  · exact fun h x hx => h x ((List.dropWhile_suffix p).subset hx)

theorem strip_append_left {w : List α} (hw : Blank p w) (l : List α) :
    strip p (w ++ l) = strip p l := by
  rw [strip, List.dropWhile_append_of_pos hw, strip]

theorem rdropWhile_append_blank {w : List α} (hw : Blank p w) (l : List α) :
    (l ++ w).rdropWhile p = l.rdropWhile p := by
  have hrev : ∀ x ∈ w.reverse, p x := fun x hx => hw x (List.mem_reverse.mp hx)
  rw [List.rdropWhile, List.reverse_append, List.dropWhile_append_of_pos hrev, List.rdropWhile]

theorem strip_append_right {w : List α} (hw : Blank p w) (l : List α) :
    strip p (l ++ w) = strip p l := by
  by_cases hl : Blank p l
  · rw [strip_eq_nil_iff.mpr hl, strip_eq_nil_iff]
    exact fun x hx => (List.mem_append.mp hx).elim (hl x) (hw x)
  · have hne : l.dropWhile p ≠ [] := fun h => hl (List.dropWhile_eq_nil_iff.mp h)
    rw [strip, List.dropWhile_append, if_neg (by simpa using hne), rdropWhile_append_blank hw,
      strip]

/-- Stripping takes away blanks on both sides. -/
theorem exists_blanks (p : α → Bool) (l : List α) :
    ∃ w w', Blank p w ∧ Blank p w' ∧ l = w ++ strip p l ++ w' := by
  refine ⟨l.takeWhile p, (l.dropWhile p).rtakeWhile p, fun x => List.mem_takeWhile_imp,
    fun x => List.mem_rtakeWhile_imp, ?_⟩
  rw [List.append_assoc, strip, List.rdropWhile_append_rtakeWhile,
    List.takeWhile_append_dropWhile]

/-- What blanks satisfy holds of the list if it holds of what stripping leaves. -/
theorem forall_mem_strip {P : α → Prop} (hp : ∀ x, p x → P x) {l : List α} :
    (∀ x ∈ strip p l, P x) ↔ ∀ x ∈ l, P x := by
  obtain ⟨w, w', hw, hw', hl⟩ := exists_blanks p l
  constructor
  · intro h x hx
    rw [hl, List.mem_append, List.mem_append] at hx
    exact hx.elim (fun hx => hx.elim (fun hx => hp x (hw x hx)) (h x)) fun hx => hp x (hw' x hx)
  · intro h x hx
    refine h x ?_
    rw [hl]
    exact List.mem_append_left _ (List.mem_append_right _ hx)

/-- A list that neither starts nor ends with a blank. -/
structure Bare (p : α → Bool) (l : List α) : Prop where
  head : ∀ x ∈ l.head?, ¬ p x
  last : ∀ x ∈ l.getLast?, ¬ p x

theorem Bare.strip_eq {l : List α} (h : Bare p l) : strip p l = l := by
  have hd : l.dropWhile p = l := by
    cases l with
    | nil => rfl
    | cons x l => exact List.dropWhile_cons_of_neg (h.head x rfl)
  rw [strip, hd, List.rdropWhile_eq_self_iff]
  exact fun hl => h.last _ (List.getLast_mem_getLast? hl)

end strip

/-- Names, in order, among blank segments and with blanks around them. -/
inductive Padded (p : α → Bool) (sep : α) : List (List α) → List (List α) → Prop
  | nil : Padded p sep [] []
  | blank {names segs w} : Blank p w → Padded p sep names segs → Padded p sep names (w :: segs)
  | name {names segs n w w'} : n ≠ [] → sep ∉ n → Bare p n → Blank p w → Blank p w' →
      Padded p sep names segs → Padded p sep (n :: names) ((w ++ n ++ w') :: segs)

/-- The list is the names, joined by separators with blanks around them and with blank
segments anywhere. -/
def Spells (p : α → Bool) (sep : α) (names : List (List α)) (l : List α) : Prop :=
  ∃ segs, Padded p sep names segs ∧ l = [sep].intercalate segs

theorem Blank.sep_not_mem {w : List α} (hw : Blank p w) (hsep : ¬ p sep) : sep ∉ w :=
  fun h => hsep (hw sep h)

theorem Padded.sep_not_mem {names segs : List (List α)} (h : Padded p sep names segs)
    (hsep : ¬ p sep) : ∀ s ∈ segs, sep ∉ s := by
  induction h with
  | nil => simp
  | blank hw _ ih => exact List.forall_mem_cons.mpr ⟨hw.sep_not_mem hsep, ih⟩
  | name _ hn _ hw hw' _ ih =>
    refine List.forall_mem_cons.mpr ⟨?_, ih⟩
    simpa [hn] using And.intro (hw.sep_not_mem hsep) (hw'.sep_not_mem hsep)

theorem Padded.strip_eq {names segs : List (List α)} (h : Padded p sep names segs) :
    (segs.map (strip p)).filter (· ≠ []) = names := by
  induction h with
  | nil => rfl
  | blank hw _ ih => simpa [strip_eq_nil_iff.mpr hw] using ih
  | name hne _ hn hw hw' _ ih =>
    rw [List.map_cons, strip_append_right hw', strip_append_left hw, hn.strip_eq,
      List.filter_cons_of_pos (by simpa using hne), ih]

variable [BEq α] [LawfulBEq α]

/-- Blanks before a list belong to its first segment. -/
theorem splitOn_append_left {w : List α} (hw : sep ∉ w) (l : List α) :
    ∃ first rest, l.splitOn sep = first :: rest ∧ (w ++ l).splitOn sep = (w ++ first) :: rest := by
  obtain ⟨first, rest, hl⟩ := List.exists_cons_of_ne_nil (List.splitOn_ne_nil sep l)
  refine ⟨first, rest, hl, ?_⟩
  induction w with
  | nil => exact hl
  | cons c w ih =>
    obtain ⟨hc, hw⟩ := not_or.mp (List.mem_cons.not.mp hw)
    rw [List.cons_append, List.splitOn_cons_eq_if_modifyHead, if_neg (by simpa using Ne.symm hc),
      ih hw]
    rfl

/-- Blanks after a list belong to its last segment. -/
theorem splitOn_append_right {w : List α} (hw : sep ∉ w) (l : List α) :
    ∃ init last, l.splitOn sep = init ++ [last] ∧ (l ++ w).splitOn sep = init ++ [last ++ w] := by
  induction l with
  | nil => exact ⟨[], [], rfl, List.splitOn_eq_singleton hw⟩
  | cons c l ih =>
    obtain ⟨init, last, hl, hlw⟩ := ih
    rw [List.cons_append, List.splitOn_cons_eq_if_modifyHead, List.splitOn_cons_eq_if_modifyHead,
      hl, hlw]
    split
    · exact ⟨[] :: init, last, rfl, rfl⟩
    · cases init with
      | nil => exact ⟨[], c :: last, rfl, rfl⟩
      | cons first init => exact ⟨(c :: first) :: init, last, rfl, rfl⟩

/-- What holds in all segments holds of everything but the separators. -/
theorem forall_mem_splitOn {P : α → Prop} {l : List α} :
    (∀ s ∈ l.splitOn sep, ∀ x ∈ s, P x) ↔ ∀ x ∈ l, P x ∨ x = sep := by
  induction l with
  | nil => simp
  | cons c l ih =>
    obtain ⟨first, rest, hsplit⟩ := List.exists_cons_of_ne_nil (List.splitOn_ne_nil sep l)
    rw [List.forall_mem_cons, ← ih, List.splitOn_cons_eq_if_modifyHead, hsplit]
    by_cases hc : c = sep
    · simp [hc]
    · simp [hc, and_assoc]

/-- The stripped segments that are not empty. -/
def segments (p : α → Bool) (sep : α) (l : List α) : List (List α) :=
  ((l.splitOn sep).map (strip p)).filter (· ≠ [])

section
variable (hsep : ¬ p sep)
include hsep

/-- Stripping the list strips no more than its segments. -/
theorem segments_strip (l : List α) : segments p sep (strip p l) = segments p sep l := by
  obtain ⟨w, w', hw, hw', hl⟩ := exists_blanks p l
  obtain ⟨init, last, hm, hr⟩ := splitOn_append_right (hw'.sep_not_mem hsep) (strip p l)
  obtain ⟨first, rest, hm', hl'⟩ :=
    splitOn_append_left (hw.sep_not_mem hsep) (strip p l ++ w')
  have hmap : (l.splitOn sep).map (strip p) = ((strip p l).splitOn sep).map (strip p) := calc
    (l.splitOn sep).map (strip p)
        = ((w ++ (strip p l ++ w')).splitOn sep).map (strip p) := by
          rw [← List.append_assoc, ← hl]
    _ = ((strip p l ++ w').splitOn sep).map (strip p) := by
          rw [hl', hm', List.map_cons, strip_append_left hw, List.map_cons]
    _ = ((strip p l).splitOn sep).map (strip p) := by
          rw [hr, hm, List.map_append, List.map_singleton, strip_append_right hw',
            List.map_append, List.map_singleton]
  rw [segments, segments, hmap]

/-- The names a list spells are its segments. -/
theorem Spells.segments_eq {names : List (List α)} {l : List α} (h : Spells p sep names l) :
    segments p sep l = names := by
  obtain ⟨segs, hpad, rfl⟩ := h
  cases segs with
  | nil => cases hpad; rfl
  | cons s segs =>
    rw [segments, List.splitOn_intercalate _ (hpad.sep_not_mem hsep) (List.cons_ne_nil s segs)]
    exact hpad.strip_eq

end

/-- A list of blanks and separators has no names. -/
theorem segments_eq_nil {l : List α} (h : ∀ x ∈ l, p x ∨ x = sep) : segments p sep l = [] := by
  rw [segments, List.filter_eq_nil_iff]
  intro s hs
  obtain ⟨seg, hseg, rfl⟩ := List.mem_map.mp hs
  have hblank : Blank p seg := forall_mem_splitOn (P := fun x => p x).mpr h seg hseg
  simpa using strip_eq_nil_iff.mpr hblank

/-- What blanks and the separator satisfy holds of the list if it holds of its segments. -/
theorem forall_mem_segments {P : α → Prop} (hp : ∀ x, p x → P x) (hs : P sep) {l : List α} :
    (∀ s ∈ segments p sep l, ∀ x ∈ s, P x) ↔ ∀ x ∈ l, P x := by
  have hsplit : (∀ x ∈ l, P x) ↔ ∀ s ∈ l.splitOn sep, ∀ x ∈ strip p s, P x := by
    simp only [forall_mem_strip hp, forall_mem_splitOn]
    exact forall₂_congr fun x _ => ⟨Or.inl, fun h => h.elim id (· ▸ hs)⟩
  rw [hsplit, segments]
  constructor
  · intro h s hs x hx
    refine h _ (List.mem_filter.mpr ⟨List.mem_map_of_mem hs, ?_⟩) x hx
    simpa using List.ne_nil_of_mem hx
  · intro h s hs
    obtain ⟨seg, hseg, rfl⟩ := List.mem_map.mp (List.mem_filter.mp hs).1
    exact h seg hseg

end Separated
