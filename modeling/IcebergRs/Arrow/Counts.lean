import IcebergRs.Arrow.Cast

/-! Integers, dates, times and timestamps as counts. Each of these types holds a count in its
own unit, and the casts between them and the 64-bit integers keep the count. -/
namespace IcebergRs

def TimeUnit.nanos : TimeUnit → ℤ
  | .second => 1000000000
  | .millisecond => 1000000
  | .microsecond => 1000
  | .nanosecond => 1

/-- What a value of a column or a literal stands for. Times are nanoseconds since midnight and
instants nanoseconds since the epoch, in UTC if zoned. -/
inductive Meaning where
  | number (n : ℤ)
  | date (days : ℤ)
  | time (nanos : ℤ)
  | instant (nanos : ℤ) (zoned : Bool)
  deriving DecidableEq

namespace DataType

/-- The types whose values are counts that a 64-bit integer can give. -/
def IsCount : DataType → Prop
  | .int32 | .int64 | .date32 | .time64 _ | .timestamp _ _ => True
  | _ => False

/-- The value of a type with a given count, if the count fits the type. -/
def ofCount : (t : DataType) → Int64 → Option t.Val
  | .int32, i | .date32, i => toI32 i
  | .int64, i | .time64 _, i | .timestamp _ _, i => some i
  | _, _ => none

def toCount : (t : DataType) → t.Val → Option Int64
  | .int32, i | .date32, i => some (Int32.toInt64 i)
  | .int64, i | .time64 _, i | .timestamp _ _, i => some i
  | _, _ => none

def meaning : (t : DataType) → t.Val → Option Meaning
  | .int32, i => some (.number (Int32.toInt i))
  | .int64, i => some (.number (Int64.toInt i))
  | .date32, i => some (.date (Int32.toInt i))
  | .time64 u, i => some (.time (Int64.toInt i * u.nanos))
  | .timestamp u tz, i => some (.instant (Int64.toInt i * u.nanos) tz.isSome)
  | _, _ => none

theorem toInt64_of_toI32 {i : Int64} {k : Int32} (h : toI32 i = some k) : k.toInt64 = i :=
  Int64.toInt_inj.mp (by rw [Int32.toInt_toInt64, toInt_of_toI32 h])

/-- A value has the count that it was made from. -/
theorem toCount_of_ofCount {t : DataType} {i : Int64} {v : t.Val} (h : ofCount t i = some v) :
    toCount t v = some i := by
  cases t with
  | int32 | date32 => exact congrArg some (toInt64_of_toI32 h)
  | int64 | time64 _ | timestamp _ _ => exact h.symm
  | _ => cases h

end DataType

/-- Casts between 64-bit integers and the types of counts keep a count that fits the target,
and give a null for one that does not. -/
structure Arrow.IntegerCasts (A : Arrow) : Prop where
  fromInt64 : ∀ (a : ArrayRef) (t : DataType), a.dataType = .int64 → t.IsCount → t ≠ .int64 →
    A.refuse a t = none
  toInt64 : ∀ a : ArrayRef, a.dataType.IsCount → a.dataType ≠ .int64 → A.refuse a .int64 = none
  ofCount : ∀ t : DataType, t.IsCount → t ≠ .int64 → A.conv .int64 t = t.ofCount
  toCount : ∀ t : DataType, t.IsCount → t ≠ .int64 → A.conv t .int64 = t.toCount

namespace Arrow

theorem basic_integerCasts : basic.IntegerCasts where
  fromInt64 a t ha ht hne := by
    cases t <;> simp_all [basic, DataType.IsCount]
  toInt64 a ht hne := by
    obtain ⟨t, cells⟩ := a
    cases t <;> simp_all [basic, DataType.IsCount]
  ofCount t ht hne := by
    cases t <;> first | rfl | exact absurd rfl hne
  toCount t ht hne := by
    cases t <;> first | rfl | exact absurd rfl hne | cases ht

theorem castTo_int64_self (A : Arrow) (cells : List (Option Int64)) :
    A.castTo ⟨.int64, cells⟩ .int64 = .ok (cells.map (·.bind some)) := by
  rw [castTo_self]
  exact congrArg Except.ok (List.map_id'' Option.bind_fun_some cells).symm

variable {A : Arrow} (hA : A.IntegerCasts) {t : DataType} (ht : t.IsCount)
include hA ht

/-- Supplied integers become the values of the target type with these counts. -/
theorem castTo_ofCount (cells : List (Option Int64)) :
    A.castTo ⟨.int64, cells⟩ t = .ok (cells.map (·.bind t.ofCount)) := by
  by_cases hne : t = .int64
  · subst hne
    exact castTo_int64_self A cells
  · rw [castTo_of_ne (fun h => hne h.symm), cast_eq_ok]
    refine ⟨hA.fromInt64 _ _ rfl ht hne, ?_⟩
    rw [hA.ofCount t ht hne]
    rfl

theorem castTo_toCount (cells : List (Option t.Val)) :
    A.castTo ⟨t, cells⟩ .int64 = .ok (cells.map (·.bind t.toCount)) := by
  by_cases hne : t = .int64
  · subst hne
    exact castTo_int64_self A cells
  · rw [castTo_of_ne hne, cast_eq_ok]
    exact ⟨hA.toInt64 _ ht hne, by rw [hA.toCount t ht hne]⟩

end Arrow
end IcebergRs
