import IcebergRs.Support.JsonRead

/-! Values of other types out of JSON values: numbers of a width, lists, what may be null, and the
fields of objects. -/
namespace IcebergRs.Json

def asU64 : Json → Option UInt64
  | .number (.posInt n) => some n
  | _ => none

def asI32 (v : Json) : Option Int32 :=
  v.asI64.bind fun i => if i.toInt32.toInt64 = i then some i.toInt32 else none

section
variable {α β : Type}

def orNull (f : Json → Option α) : Json → Option (Option α)
  | .null => some none
  | v => (f v).map some

def asList (f : Json → Option α) (v : Json) : Option (List α) := v.asArray.bind (List.mapM f)

/-- The fields of an object, whatever their names. -/
def asDict (f : Json → Option α) : Json → Option (List (String × α))
  | .object fields => fields.mapM fun p => (f p.2).map (p.1, ·)
  | _ => none

def field (v : Json) (name : String) : Option Json :=
  match v with
  | .object fields => (fields.find? fun p => p.1 = name).map Prod.snd
  | _ => none

variable {f : Json → Option α} {xs : List β} {g : β → α}

theorem mapM_map {write : β → Json} (h : ∀ x, f (write x) = some (g x)) :
    (xs.map write).mapM f = some (xs.map g) := by
  induction xs with
  | nil => rfl
  | cons x xs ih => simp [h, ih]

theorem asList_map {write : β → Json} (h : ∀ x, f (write x) = some (g x)) :
    asList f (.array (xs.map write)) = some (xs.map g) := mapM_map h

theorem asDict_map {ps : List (String × β)} {write : β → Json}
    (h : ∀ x, f (write x) = some (g x)) :
    asDict f (.object (ps.map fun p => (p.1, write p.2))) =
      some (ps.map fun p => (p.1, g p.2)) := by
  induction ps with
  | nil => rfl
  | cons p ps ih =>
    have htail : (ps.map fun p => (p.1, write p.2)).mapM (fun p => (f p.2).map (p.1, ·)) =
        some (ps.map fun p => (p.1, g p.2)) := ih
    simp [asDict, h, htail]

end

@[simp] theorem asStr_string (s : String) : asStr (.string s) = some s := rfl

@[simp] theorem asU64_posInt (n : UInt64) : asU64 (.number (.posInt n)) = some n := rfl

@[simp] theorem asI64_ofInt64 (i : Int64) : asI64 (.number (.ofInt64 i)) = some i :=
  Number.asI64_ofInt64 i

@[simp] theorem asI32_ofInt64 (i : Int32) :
    asI32 (.number (.ofInt64 i.toInt64)) = some i := by
  rw [asI32, asI64_ofInt64, Option.bind_some, Int32.toInt32_toInt64, if_pos rfl]

end IcebergRs.Json

namespace IcebergRs.JsonRead
open Json

@[simp] theorem plain_ofInt64 (i : Int64) : Plain (.number (.ofInt64 i)) := by
  unfold Number.ofInt64
  split <;> trivial

@[simp] theorem plain_posInt (n : UInt64) : Plain (.number (.posInt n)) := trivial

@[simp] theorem plain_string (s : String) : Plain (.string s) := trivial

@[simp] theorem plain_bool (b : Bool) : Plain (.bool b) := trivial

@[simp] theorem plain_null : Plain .null := trivial

@[simp] theorem plain_array {xs : List Json} : Plain (.array xs) ↔ ∀ x ∈ xs, Plain x :=
  allPlain_iff

@[simp] theorem plain_object {fields : List (String × Json)} :
    Plain (.object fields) ↔ ∀ p ∈ fields, Plain p.2 := fieldsPlain_iff

/-- Texts of values without floats have no zero characters. -/
theorem nulFree_text (fmt : Float → String) (v : Json) (hv : Plain v) : NulFree (text fmt v) := by
  induction v using wholeInduction with
  | null =>
    rw [text]
    decide
  | bool b =>
    rw [text]
    cases b <;> decide
  | number x =>
    cases x with
    | posInt u =>
      intro h
      rw [text, Number.text, Nat.toString_eq_repr, Nat.toList_repr] at h
      exact absurd (Nat.isDigit_of_mem_toDigits (by decide) (by decide) h) (by decide)
    | negInt i neg =>
      have h : NulFree (text fmt (.number (.ofInt64 i))) := nulFree_ofInt64 i
      rwa [Number.ofInt64, dif_pos neg] at h
    | float f => exact absurd hv (by simp [Plain])
  | string s =>
    rw [text]
    exact nulFree_quote s
  | array xs ih => exact nulFree_array fun x hx => ih x hx (plain_array.mp hv x hx)
  | object fields ih => exact nulFree_object fun p hp => ih p hp (plain_object.mp hv p hp)

end IcebergRs.JsonRead
