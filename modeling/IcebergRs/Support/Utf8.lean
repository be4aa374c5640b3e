import Mathlib.Data.List.Basic
import Mathlib.Data.List.TakeWhile

/-! The UTF-8 bytes of a string, and the check that bytes are the encoding of one. -/
namespace IcebergRs

def utf8 (s : String) : List UInt8 := s.toList.flatMap String.utf8EncodeChar

/-- `str::from_utf8`. -/
def fromUtf8 (bs : List UInt8) : Option String := String.fromUTF8? bs.toByteArray

theorem toByteArray_utf8 (s : String) : (utf8 s).toByteArray = s.toByteArray := by
  rw [← String.utf8Encode_toList]
  rfl

theorem fromUtf8_utf8 (s : String) : fromUtf8 (utf8 s) = some s := by
  have h : (utf8 s).toByteArray.IsValidUTF8 := toByteArray_utf8 s ▸ s.isValidUTF8
  simp only [fromUtf8, String.fromUTF8?, h, ↓reduceDIte, Option.some.injEq]
  exact String.toByteArray_inj.mp (toByteArray_utf8 s)

/-- Bytes are accepted exactly as the encoding of the text they are read as. -/
theorem fromUtf8_eq_some {bs : List UInt8} {s : String} : fromUtf8 bs = some s ↔ utf8 s = bs := by
  constructor
  · intro h
    obtain ⟨hvalid, hs⟩ := Option.dite_none_right_eq_some.mp h
    obtain rfl := Option.some.inj hs
    exact List.toByteArray_inj.mp (toByteArray_utf8 _)
  · rintro rfl
    exact fromUtf8_utf8 s

theorem utf8_injective : Function.Injective utf8 := fun s t h =>
  Option.some.inj (by rw [← fromUtf8_utf8 s, h, fromUtf8_utf8])

/-- Only the zero character has a zero byte in its encoding. -/
theorem eq_of_zero_mem_encode {c : Char} (h : 0 ∈ String.utf8EncodeChar c) :
    c = Char.ofNat 0 := by
  have hne : ∀ n, n % 256 ≠ 0 → (0 : UInt8) ≠ UInt8.ofNat n := by
    intro n hn he
    have := congrArg UInt8.toNat he
    rw [UInt8.toNat_ofNat'] at this
    exact hn this.symm
  unfold String.utf8EncodeChar at h
  dsimp only at h
  split_ifs at h with h1 h2 h3
  · have hz : c.val.toNat = 0 := by
      by_contra hz
      exact hne c.val.toNat (by omega) (List.mem_singleton.mp h)
    exact Char.ext (UInt32.toNat_inj.mp hz)
  all_goals simp only [List.mem_cons, List.not_mem_nil, or_false] at h
  · rcases h with h | h <;> exact absurd h (hne _ (by omega))
  · rcases h with h | h | h <;> exact absurd h (hne _ (by omega))
  · rcases h with h | h | h | h <;> exact absurd h (hne _ (by omega))

/-- The part of a text before its first zero character. -/
def uptoNul (s : String) : String := String.ofList (s.toList.takeWhile (· ≠ Char.ofNat 0))

theorem takeWhile_utf8 (s : String) :
    (utf8 s ++ [0]).takeWhile (· ≠ 0) = utf8 (uptoNul s) := by
  simp only [utf8, uptoNul, String.toList_ofList]
  induction s.toList with
  | nil => rfl
  | cons c cs ih =>
    by_cases hc : c = Char.ofNat 0
    · subst hc
      rfl
    · have hne : ∀ b ∈ String.utf8EncodeChar c, decide (b ≠ 0) = true := by
        intro b hb
        simpa using fun hb0 : b = 0 => hc (eq_of_zero_mem_encode (hb0 ▸ hb))
      rw [List.takeWhile_cons_of_pos (by simpa using hc), List.flatMap_cons, List.flatMap_cons,
        List.append_assoc, List.takeWhile_append_of_pos hne, ih]

theorem uptoNul_eq {s : String} (h : (0 : UInt8) ∉ utf8 s) : uptoNul s = s := by
  refine utf8_injective ?_
  rw [← takeWhile_utf8, List.takeWhile_append_of_pos fun b hb => ?_]
  · simp
  · simpa using ne_of_mem_of_not_mem hb h

/-- A text without zero characters, which a C string can hold. -/
def NulFree (s : String) : Prop := Char.ofNat 0 ∉ s.toList

instance (s : String) : Decidable (NulFree s) := inferInstanceAs (Decidable (¬ _))

@[simp] theorem nulFree_empty : NulFree "" := by decide

theorem nulFree_uptoNul (s : String) : NulFree (uptoNul s) := by
  intro h
  rw [uptoNul, String.toList_ofList] at h
  simpa using List.mem_takeWhile_imp h

theorem uptoNul_eq_self_iff {s : String} : uptoNul s = s ↔ NulFree s := by
  rw [uptoNul, ← String.toList_inj, String.toList_ofList, List.takeWhile_eq_self_iff]
  constructor
  · intro h hz
    simpa using h _ hz
  · intro h c hc
    simpa using fun hz : c = Char.ofNat 0 => h (hz ▸ hc)

/-- The bytes of a cell of text; a null has none. -/
def cellBytes : Option String → List UInt8
  | some s => utf8 s
  | none => []

/-- The bytes of all cells that are present. -/
def utf8Bytes (cells : List (Option String)) : List UInt8 := cells.flatMap cellBytes

theorem cellBytes_eq (cell : Option String) : cellBytes cell = utf8 (cell.getD "") := by
  cases cell <;> rfl

/-- The loops that add up the lengths of the cells. -/
theorem foldl_cellBytes (cells : List (Option String)) (n : ℕ) :
    cells.foldl (fun total cell => total + (cellBytes cell).length) n =
      n + (utf8Bytes cells).length := by
  induction cells generalizing n with
  | nil => rfl
  | cons cell cells ih => simp [ih, utf8Bytes, Nat.add_assoc]

end IcebergRs
