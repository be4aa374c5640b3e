import IcebergRs.Support.Utf8
import Mathlib.Algebra.Group.Nat.Defs
import Mathlib.Algebra.Ring.Int.Defs
import Mathlib.Tactic.Common

/-! JSON values as `serde_json` holds them, with the views and the compact text the
`Value` type offers, and induction over a value with all elements of an array at once. -/
namespace IcebergRs

/-- An integer that fits 64 bits keeps its value; any other number is a float. -/
inductive Number where
  | posInt (n : UInt64)
  | negInt (n : Int64) (neg : n < 0)
  | float (f : Float)

inductive Json where
  | null
  | bool (b : Bool)
  | number (n : Number)
  | string (s : String)
  | array (xs : List Json)
  | object (fields : List (String × Json))

/-- The value of an integer literal, in whichever half of the 64-bit range it lies. -/
def Number.integer? : Number → Option Int
  | .posInt n => some n.toNat
  | .negInt n _ => some n.toInt
  | .float _ => none

/-- The count as an `i64`, absent for floats and for integers above `i64::MAX`. -/
def Number.asI64 : Number → Option Int64
  | .posInt n => if n.toNat < 2 ^ 63 then some (Int64.ofNat n.toNat) else none
  | .negInt n _ => some n
  | .float _ => none

def Number.ofInt64 (i : Int64) : Number := if h : i < 0 then .negInt i h else .posInt i.toUInt64

def Number.asF64 : Number → Float
  | .posInt n => n.toFloat
  | .negInt n _ => n.toFloat
  | .float f => f

/-- `fmt` is the shortest decimal text of a float. -/
def Number.text (fmt : Float → String) : Number → String
  | .posInt n => toString n.toNat
  | .negInt n _ => toString n.toInt
  | .float f => fmt f

theorem Number.integer?_of_asI64 {n : Number} {i : Int64} (h : n.asI64 = some i) :
    n.integer? = some i.toInt := by
  cases n with
  | posInt n =>
    simp only [asI64, Option.ite_none_right_eq_some, Option.some.injEq] at h
    obtain ⟨hn, rfl⟩ := h
    simp only [integer?, Option.some.injEq]
    rw [Int64.toInt_ofNat_of_lt hn]
  | negInt n _ =>
    simp only [asI64, Option.some.injEq] at h
    simp [integer?, h]
  | float f => simp [asI64] at h

theorem Number.asI64_ofInt64 (i : Int64) : (Number.ofInt64 i).asI64 = some i := by
  unfold ofInt64
  split
  · rfl
  next h =>
    have hnonneg : 0 ≤ i := Int64.not_lt.mp h
    rw [asI64, Int64.toNat_toUInt64_of_le hnonneg, if_pos i.toNatClampNeg_lt,
      Int64.ofNat_toNatClampNeg i hnonneg]

namespace Json

def asBool : Json → Option Bool
  | .bool b => some b
  | _ => none

def asStr : Json → Option String
  | .string s => some s
  | _ => none

def asI64 : Json → Option Int64
  | .number n => n.asI64
  | _ => none

def asF64 : Json → Option Float
  | .number n => some n.asF64
  | _ => none

def asArray : Json → Option (List Json)
  | .array xs => some xs
  | _ => none

/-- The integer a JSON integer denotes. -/
def integer? : Json → Option Int
  | .number n => n.integer?
  | _ => none

def hexDigit (n : Nat) : Char := if n < 10 then Char.ofNat (48 + n) else Char.ofNat (87 + n)

def escape (c : Char) : List Char :=
  if c = '"' then ['\\', '"']
  else if c = '\\' then ['\\', '\\']
  else if c.toNat = 8 then ['\\', 'b']
  else if c.toNat = 9 then ['\\', 't']
  else if c.toNat = 10 then ['\\', 'n']
  else if c.toNat = 12 then ['\\', 'f']
  else if c.toNat = 13 then ['\\', 'r']
  else if c.toNat < 32 then
    ['\\', 'u', '0', '0', hexDigit (c.toNat / 16), hexDigit (c.toNat % 16)]
  else [c]

def quote (s : String) : String :=
  "\"" ++ String.ofList (s.toList.flatMap escape) ++ "\""

mutual
/-- The compact text that `Display` writes. -/
def text (fmt : Float → String) : Json → String
  | .null => "null"
  | .bool b => if b then "true" else "false"
  | .number n => n.text fmt
  | .string s => quote s
  | .array xs => "[" ++ String.intercalate "," (texts fmt xs) ++ "]"
  | .object fields => "\x7b" ++ String.intercalate "," (fieldTexts fmt fields) ++ "\x7d"

def texts (fmt : Float → String) : List Json → List String
  | [] => []
  | v :: vs => text fmt v :: texts fmt vs

def fieldTexts (fmt : Float → String) : List (String × Json) → List String
  | [] => []
  | (k, v) :: fs => (quote k ++ ":" ++ text fmt v) :: fieldTexts fmt fs
end

theorem nulFree_append {s t : String} (hs : NulFree s) (ht : NulFree t) : NulFree (s ++ t) := by
  intro h
  rw [String.toList_append] at h
  exact (List.mem_append.mp h).elim hs ht

theorem nulFree_intercalate {sep : String} (hsep : NulFree sep) {texts : List String}
    (h : ∀ s ∈ texts, NulFree s) : NulFree (sep.intercalate texts) := by
  induction texts with
  | nil => rw [String.intercalate_nil]; decide
  | cons s texts ih =>
    have hs := h s List.mem_cons_self
    by_cases hne : texts = []
    · rw [hne, String.intercalate_singleton]
      exact hs
    · rw [String.intercalate_cons_of_ne_nil hne]
      exact nulFree_append (nulFree_append hs hsep) (ih fun t ht => h t (List.mem_cons_of_mem _ ht))

/-- The escapes of `serde_json` leave no zero character. -/
theorem nulFree_quote (s : String) : NulFree (quote s) := by
  have hdigit : ∀ n < 16, hexDigit n ≠ Char.ofNat 0 := by decide
  have hescape : ∀ c, Char.ofNat 0 ∉ escape c := by
    intro c hc
    unfold escape at hc
    split_ifs at hc with h1 h2 h3 h4 h5 h6 h7 h8
    iterate 7 exact absurd hc (by decide)
    · have hhigh := hdigit (c.toNat / 16) (by omega)
      have hlow := hdigit (c.toNat % 16) (by omega)
      have hfixed : Char.ofNat 0 ∉ ['\\', 'u', '0', '0'] := by decide
      simp only [List.mem_cons, List.not_mem_nil, or_false] at hc hfixed
      tauto
    · obtain rfl := List.mem_singleton.mp hc
      exact h8 (by decide)
  intro h
  simp only [quote, String.toList_append, String.toList_ofList, List.mem_append,
    List.mem_flatMap] at h
  rcases h with (h | ⟨c, -, hc⟩) | h
  · revert h
    decide
  · exact hescape c hc
  · revert h
    decide

section
variable {fmt : Float → String}

theorem nulFree_ofInt64 (i : Int64) : NulFree (text fmt (.number (.ofInt64 i))) := by
  have hnat : ∀ n : ℕ, NulFree n.repr := by
    intro n h
    rw [Nat.toList_repr] at h
    exact absurd (Nat.isDigit_of_mem_toDigits (by decide) (by decide) h) (by decide)
  rw [text, Number.ofInt64]
  split
  · rw [Number.text, Int.toString_eq_repr, Int.repr_eq_if]
    split
    · exact hnat _
    · exact nulFree_append (by decide) (hnat _)
  · exact hnat _

theorem nulFree_array {xs : List Json} (h : ∀ x ∈ xs, NulFree (text fmt x)) :
    NulFree (text fmt (.array xs)) := by
  have htexts : ∀ s ∈ texts fmt xs, NulFree s := by
    induction xs with
    | nil => simp [texts]
    | cons x xs ih =>
      intro s hs
      rw [texts, List.mem_cons] at hs
      rcases hs with rfl | hs
      · exact h x List.mem_cons_self
      · exact ih (fun y hy => h y (List.mem_cons_of_mem _ hy)) s hs
  rw [text]
  exact nulFree_append (nulFree_append (by decide) (nulFree_intercalate (by decide) htexts))
    (by decide)

theorem nulFree_object {fields : List (String × Json)} (h : ∀ p ∈ fields, NulFree (text fmt p.2)) :
    NulFree (text fmt (.object fields)) := by
  have htexts : ∀ s ∈ fieldTexts fmt fields, NulFree s := by
    induction fields with
    | nil => simp [fieldTexts]
    | cons p fields ih =>
      intro s hs
      rw [fieldTexts, List.mem_cons] at hs
      rcases hs with rfl | hs
      · exact nulFree_append (nulFree_append (nulFree_quote _) (by decide)) (h p List.mem_cons_self)
      · exact ih (fun q hq => h q (List.mem_cons_of_mem _ hq)) s hs
  rw [text]
  exact nulFree_append (nulFree_append (by decide) (nulFree_intercalate (by decide) htexts))
    (by decide)

end

theorem asStr_eq_some {v : Json} {s : String} : v.asStr = some s ↔ v = .string s := by
  cases v <;> simp [asStr]

theorem asArray_eq_some {v : Json} {xs : List Json} : v.asArray = some xs ↔ v = .array xs := by
  cases v <;> simp [asArray]

/-- Induction in which an array has the property once all its elements do. Objects are
leaves here: no consumer of this principle looks inside one. -/
theorem arrayInduction {P : Json → Prop} (leaf : ∀ v, v.asArray = none → P v)
    (array : ∀ xs, (∀ x ∈ xs, P x) → P (.array xs)) (v : Json) : P v := by
  refine Json.rec (motive_1 := P) (motive_2 := fun xs => ∀ x ∈ xs, P x)
    (motive_3 := fun _ => True) (motive_4 := fun _ => True)
    (leaf _ rfl) (fun _ => leaf _ rfl) (fun _ => leaf _ rfl) (fun _ => leaf _ rfl)
    array (fun _ _ => leaf _ rfl) (by simp) ?_ trivial (fun _ _ _ _ => trivial)
    (fun _ _ _ => trivial) v
  intro x xs hx hxs y hy
  rcases List.mem_cons.mp hy with rfl | hy
  · exact hx
  · exact hxs y hy

end Json
end IcebergRs
