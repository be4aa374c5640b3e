import Mathlib.Algebra.Group.Nat.Defs
import Mathlib.Algebra.Ring.Int.Defs
import Mathlib.Data.List.Nodup

/-! Arrow columns as the shim holds them. A cell of a column has the Lean type of the
column's Arrow type, so a downcast after a cast needs no check. -/
namespace IcebergRs

/-- `i32::try_from(i64)`. -/
def toI32 (i : Int64) : Option Int32 :=
  if -2 ^ 31 ≤ i.toInt ∧ i.toInt < 2 ^ 31 then some i.toInt32 else none

theorem toInt_of_toI32 {i : Int64} {k : Int32} (h : toI32 i = some k) : k.toInt = i.toInt := by
  simp only [toI32, Option.ite_none_right_eq_some, Option.some.injEq] at h
  obtain ⟨⟨hl, hu⟩, rfl⟩ := h
  rw [Int64.toInt_toInt32, Int.bmod_eq_of_le] <;> omega

inductive TimeUnit where
  | second | millisecond | microsecond | nanosecond
  deriving DecidableEq, Repr

/-- The Arrow types a batch may carry; struct, list and map types keep their display text. -/
inductive DataType where
  | boolean
  | int8 | int16 | int32 | int64
  | uint8 | uint16 | uint32 | uint64
  | float32 | float64
  | decimal128 (precision scale : ℕ)
  | date32 | date64
  | time32 (unit : TimeUnit) | time64 (unit : TimeUnit)
  | timestamp (unit : TimeUnit) (tz : Option String)
  | utf8 | largeUtf8
  | binary | largeBinary | fixedSizeBinary (size : ℕ)
  | nested (display : String)
  deriving DecidableEq, Repr

/-- The values of one type. Dates, times and timestamps are raw counts in their own unit. -/
def DataType.Val : DataType → Type
  | .boolean => Bool
  | .int8 => Int8
  | .int16 => Int16
  | .int32 | .date32 | .time32 _ => Int32
  | .int64 | .date64 | .time64 _ | .timestamp _ _ => Int64
  | .uint8 => UInt8
  | .uint16 => UInt16
  | .uint32 => UInt32
  | .uint64 => UInt64
  | .float32 => Float32
  | .float64 => Float
  | .decimal128 _ _ => ℤ
  | .utf8 | .largeUtf8 => String
  | .fixedSizeBinary n => Vector UInt8 n
  | .binary | .largeBinary | .nested _ => List UInt8

/-- A column: its type and one optional value for each row. -/
structure ArrayRef where
  dataType : DataType
  cells : List (Option dataType.Val)

namespace ArrayRef

def len (a : ArrayRef) : ℕ := a.cells.length

/-- One flag for each row, true where the value is present. -/
def validity (a : ArrayRef) : List Bool := a.cells.map Option.isSome

def nullCount (a : ArrayRef) : ℕ := a.cells.countP Option.isNone

/-- A string column. -/
abbrev texts (cells : List (Option String)) : ArrayRef := ⟨.utf8, cells⟩

/-- The first `n` rows. -/
def firstRows (a : ArrayRef) (n : ℕ) : ArrayRef := ⟨a.dataType, a.cells.take n⟩

/-- `arrow_array::new_null_array`. -/
def newNullArray (t : DataType) (rows : ℕ) : ArrayRef := ⟨t, List.replicate rows none⟩

@[simp] theorem validity_length (a : ArrayRef) : a.validity.length = a.len := by
  simp [validity, len]

@[simp] theorem newNullArray_len (t : DataType) (n : ℕ) : (newNullArray t n).len = n := by
  simp [newNullArray, len]

@[simp] theorem firstRows_len (a : ArrayRef) : a.firstRows a.len = a := by
  simp [firstRows, len]

end ArrayRef

structure Field where
  name : String
  dataType : DataType
  nullable : Bool
  /-- The `PARQUET:field_id` metadata the Parquet writer places data by. -/
  fieldId : Option ℤ
  deriving DecidableEq, Repr

structure ArrowSchema where
  fields : List Field
  deriving DecidableEq, Repr

/-- `schema.fields().iter().find(|f| f.name() == name)`. -/
def ArrowSchema.find (s : ArrowSchema) (name : String) : Option Field :=
  s.fields.find? (fun f => f.name = name)

theorem ArrowSchema.find_name {s : ArrowSchema} {name : String} {f : Field}
    (h : s.find name = some f) : f.name = name := by
  simpa using List.find?_some h

theorem ArrowSchema.find_mem {s : ArrowSchema} {name : String} {f : Field}
    (h : s.find name = some f) : f ∈ s.fields := List.mem_of_find?_eq_some h

/-- With distinct keys, an element is the one its own key finds. -/
theorem find?_key {α κ : Type*} [DecidableEq κ] (key : α → κ) {l : List α}
    (hl : (l.map key).Nodup) {x : α} (hx : x ∈ l) :
    l.find? (fun y => key y = key x) = some x := by
  induction l with
  | nil => simp at hx
  | cons y l ih =>
    obtain ⟨hy, hl⟩ := List.nodup_cons.mp hl
    rcases List.mem_cons.mp hx with rfl | hx
    · simp
    · have hne : key y ≠ key x := fun he => hy (he ▸ List.mem_map_of_mem hx)
      simpa [List.find?_cons, hne] using ih hl hx

theorem ArrowSchema.find_of_mem {s : ArrowSchema} (hs : (s.fields.map Field.name).Nodup)
    {f : Field} (hf : f ∈ s.fields) : s.find f.name = some f := find?_key Field.name hs hf

end IcebergRs
