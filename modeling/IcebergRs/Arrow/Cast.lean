import IcebergRs.Arrow.Columns

/-! The `arrow` crate as the shim relies on it, and its `kernels::cast::cast` with the
default options: cells are converted one by one and a value the target type cannot
represent becomes a null. -/
namespace IcebergRs

/-- What the shim takes from the `arrow` crate. `conv` is the conversion of one value,
`none` where the target type has no such value, and `refuse` the text of the error for
an array the kernel will not cast at all. -/
structure Arrow where
  typeText : DataType → String
  conv : (a b : DataType) → a.Val → Option b.Val
  refuse : ArrayRef → DataType → Option String
  tryNewError : ArrowSchema → List ArrayRef → String

namespace Arrow
variable (A : Arrow)

/-- `kernels::cast::cast` with `CastOptions { safe: true, .. }`. -/
def cast (a : ArrayRef) (t : DataType) : Except String (List (Option t.Val)) :=
  match A.refuse a t with
  | some e => .error e
  | none => .ok (a.cells.map (·.bind (A.conv a.dataType t)))

/-- A cast that is skipped when the array already has the type, as every caller writes it. -/
def castTo (a : ArrayRef) (t : DataType) : Except String (List (Option t.Val)) :=
  if h : a.dataType = t then .ok (h ▸ a.cells) else A.cast a t

/-- What one value becomes in a column that is cast. -/
def convTo (a b : DataType) (v : a.Val) : Option b.Val :=
  if h : a = b then some (h ▸ v) else A.conv a b v

/-- Every value present in the column is one the target type represents. -/
def Keeps (a : ArrayRef) (t : DataType) : Prop :=
  a.dataType ≠ t → ∀ v, some v ∈ a.cells → (A.conv a.dataType t v).isSome

variable {A}

theorem cast_eq_ok {a : ArrayRef} {t : DataType} {cs : List (Option t.Val)} :
    A.cast a t = .ok cs ↔
      A.refuse a t = none ∧ cs = a.cells.map (·.bind (A.conv a.dataType t)) := by
  unfold cast
  cases A.refuse a t <;> simp [eq_comm]

theorem castTo_self (a : ArrayRef) : A.castTo a a.dataType = .ok a.cells := by simp [castTo]

theorem castTo_of_ne {a : ArrayRef} {t : DataType} (h : a.dataType ≠ t) :
    A.castTo a t = A.cast a t := by simp [castTo, h]

theorem castTo_cells {a : ArrayRef} {t : DataType} {cs : List (Option t.Val)}
    (h : A.castTo a t = .ok cs) : cs = a.cells.map (·.bind (A.convTo a.dataType t)) := by
  by_cases ht : a.dataType = t
  · subst ht
    rw [castTo_self] at h
    obtain rfl := Except.ok.inj h
    have hconv : A.convTo a.dataType a.dataType = some := funext fun v => dif_pos rfl
    simp [hconv]
  · rw [castTo_of_ne ht, cast_eq_ok] at h
    have hconv : A.convTo a.dataType t = A.conv a.dataType t := funext fun v => dif_neg ht
    rw [h.2, hconv]

theorem castTo_length {a : ArrayRef} {t : DataType} {cs : List (Option t.Val)}
    (h : A.castTo a t = .ok cs) : cs.length = a.len := by
  by_cases ht : a.dataType = t
  · subst ht
    rw [castTo_self] at h
    cases h
    rfl
  · rw [castTo_of_ne ht, cast_eq_ok] at h
    simp [h.2, ArrayRef.len]

/-- The nulls among the first rows of a cast column are those of the original exactly when
every value present in these rows can be represented. -/
theorem castTo_take_validity_iff {a : ArrayRef} {t : DataType} {cs : List (Option t.Val)}
    (h : A.castTo a t = .ok cs) (n : ℕ) :
    (cs.take n).map Option.isSome = a.validity.take n ↔ A.Keeps (a.firstRows n) t := by
  by_cases ht : a.dataType = t
  · subst ht
    rw [castTo_self] at h
    cases h
    simp [Keeps, ArrayRef.validity, ArrayRef.firstRows, List.map_take]
  · rw [castTo_of_ne ht, cast_eq_ok] at h
    rw [h.2, ArrayRef.validity, ← List.map_take, ← List.map_take, List.map_map, List.map_inj_left]
    constructor
    · intro hm _ v hv
      exact hm (some v) hv
    · intro hk c hc
      cases c with
      | none => rfl
      | some v => exact hk ht v hc

theorem castTo_validity_iff {a : ArrayRef} {t : DataType} {cs : List (Option t.Val)}
    (h : A.castTo a t = .ok cs) : cs.map Option.isSome = a.validity ↔ A.Keeps a t := by
  have hlen : cs.length ≤ a.len := Nat.le_of_eq (castTo_length h)
  have hv : a.validity.length ≤ a.len := Nat.le_of_eq a.validity_length
  simpa only [List.take_of_length_le hlen, List.take_of_length_le hv, ArrayRef.firstRows_len]
    using castTo_take_validity_iff h a.len

/-- The value of an unsigned decimal text that fits a 64-bit integer. -/
def parseInt64 (s : String) : Option Int64 :=
  let n := s.toList.foldl (fun n c => 10 * n + (c.toNat - 48)) 0
  if s ≠ "" ∧ s.toList.all Char.isDigit ∧ n < 2 ^ 63 then some (Int64.ofNat n) else none

def basicConv : (a b : DataType) → a.Val → Option b.Val
  | .int64, .int32, i | .int64, .date32, i => toI32 i
  | .int64, .time64 _, i | .int64, .timestamp _ _, i => some i
  | .time64 _, .int64, i | .timestamp _ _, .int64, i => some i
  | .int32, .int64, i | .date32, .int64, i => some (Int32.toInt64 i)
  | .utf8, .int64, s => parseInt64 s
  | _, _, _ => none

/-- Casts between integers, counts and text as the kernel does them; it refuses all others. -/
def basic : Arrow where
  typeText t := (repr t).pretty
  conv := basicConv
  refuse a t :=
    match a.dataType, t with
    | .int64, .int32 | .int64, .date32 | .int64, .time64 _ | .int64, .timestamp _ _
    | .time64 _, .int64 | .timestamp _ _, .int64 | .int32, .int64 | .date32, .int64
    | .utf8, .int64 => none
    | _, _ => some "unsupported cast"
  tryNewError _ _ := "invalid columns"

end Arrow
end IcebergRs
