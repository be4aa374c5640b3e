import IcebergRs.Arrow.Columns
import Mathlib.Data.List.Forall2

/-! Iceberg table schemas as the shim reads them, and their Arrow form. -/
namespace IcebergRs

inductive PrimitiveType where
  | boolean | int | long | float | double
  | decimal (precision scale : ℕ)
  | date | time | timestamp | timestamptz | timestampNs | timestamptzNs
  | string | uuid | fixed (size : ℕ) | binary
  deriving DecidableEq, Repr

/-- A field's type; struct, list and map types keep their display text. -/
inductive FieldType where
  | primitive (p : PrimitiveType)
  | nested (display : String)
  deriving DecidableEq, Repr

structure NestedField where
  id : ℤ
  name : String
  required : Bool
  fieldType : FieldType
  deriving DecidableEq, Repr

/-- A schema's top-level fields, and the fields below them under their dotted full names.
Full names and field ids are unique, which building a schema checks. -/
structure Schema where
  fields : List NestedField
  nested : List (String × NestedField)
  names : (fields.map NestedField.name ++ nested.map Prod.fst).Nodup
  ids : (fields.map NestedField.id ++ nested.map (fun p => p.2.id)).Nodup

namespace Schema
variable (s : Schema)

/-- Every field of the schema with its full name. -/
def byName : List (String × NestedField) := s.fields.map (fun f => (f.name, f)) ++ s.nested

/-- `Schema::field_by_name`. -/
def fieldByName (name : String) : Option NestedField :=
  (s.byName.find? (fun p => p.1 = name)).map Prod.snd

/-- The type of the primitive column that a name resolves to. -/
def primitive? (name : String) : Option PrimitiveType :=
  match s.fieldByName name with
  | some ⟨_, _, _, .primitive p⟩ => some p
  | _ => none

variable {s}

theorem fields_names_nodup : (s.fields.map NestedField.name).Nodup :=
  (List.nodup_append.mp s.names).1

theorem primitive?_eq_some {name : String} {p : PrimitiveType} :
    s.primitive? name = some p ↔
      ∃ f, s.fieldByName name = some f ∧ f.fieldType = .primitive p := by
  unfold primitive?
  split
  next id n r q h => simp [h]
  next h =>
    simp only [reduceCtorEq, false_iff, not_exists, not_and]
    rintro ⟨id, n, r, t⟩ hf rfl
    exact h id n r p hf

/-- A table with one column of each kind that the concrete runs need. -/
def orders : Schema where
  fields := [⟨1, "id", true, .primitive .long⟩, ⟨2, "region", false, .primitive .string⟩,
    ⟨3, "count", false, .primitive .int⟩, ⟨4, "price", false, .primitive (.decimal 10 2)⟩,
    ⟨5, "ts", false, .primitive .timestamp⟩]
  nested := []
  names := by decide
  ids := by decide

end Schema

/-- The Arrow type the `iceberg` crate writes a primitive type with. -/
def PrimitiveType.arrowType : PrimitiveType → DataType
  | .boolean => .boolean
  | .int => .int32
  | .long => .int64
  | .float => .float32
  | .double => .float64
  | .decimal p s => .decimal128 p s
  | .date => .date32
  | .time => .time64 .microsecond
  | .timestamp => .timestamp .microsecond none
  | .timestamptz => .timestamp .microsecond (some "+00:00")
  | .timestampNs => .timestamp .nanosecond none
  | .timestamptzNs => .timestamp .nanosecond (some "+00:00")
  | .string => .utf8
  | .uuid => .fixedSizeBinary 16
  | .fixed n => .fixedSizeBinary n
  | .binary => .largeBinary

/-- An Arrow field carries the name, nullability, id and type of its Iceberg field. -/
structure ArrowFieldOf (f : NestedField) (g : Field) : Prop where
  name : g.name = f.name
  nullable : g.nullable = !f.required
  fieldId : g.fieldId = some f.id
  dataType : ∀ p, f.fieldType = .primitive p → g.dataType = p.arrowType

/-- `iceberg::arrow::schema_to_arrow_schema`. -/
abbrev SchemaToArrow := Schema → Except String ArrowSchema

/-- What the shim relies on: the fields of the Arrow schema are those of the table
schema, in order. -/
def SchemaToArrow.Lawful (toArrow : SchemaToArrow) : Prop :=
  ∀ s a, toArrow s = .ok a → List.Forall₂ ArrowFieldOf s.fields a.fields

namespace SchemaToArrow
variable {toArrow : SchemaToArrow} {s : Schema} {a : ArrowSchema}

theorem Lawful.names_eq (h : toArrow.Lawful) (ha : toArrow s = .ok a) :
    a.fields.map Field.name = s.fields.map NestedField.name := by
  have hf := h s a ha
  generalize s.fields = fs at hf ⊢
  generalize a.fields = gs at hf ⊢
  induction hf with
  | nil => rfl
  | cons hg _ ih => simp [hg.name, ih]

theorem Lawful.names_nodup (h : toArrow.Lawful) (ha : toArrow s = .ok a) :
    (a.fields.map Field.name).Nodup := h.names_eq ha ▸ Schema.fields_names_nodup

/-- The conversion field by field, which never fails. -/
def fieldwise (s : Schema) : ArrowSchema := ⟨s.fields.map fun f =>
  ⟨f.name, match f.fieldType with
    | .primitive p => p.arrowType
    | .nested display => .nested display, !f.required, some f.id⟩⟩

def direct : SchemaToArrow := fun s => .ok (fieldwise s)

theorem direct_lawful : direct.Lawful := by
  intro s a h
  obtain rfl := Except.ok.inj h
  unfold fieldwise
  induction s.fields with
  | nil => exact .nil
  | cons f fs ih =>
    refine .cons ⟨rfl, rfl, rfl, fun p hp => ?_⟩ ih
    simp [hp]

end SchemaToArrow
end IcebergRs
