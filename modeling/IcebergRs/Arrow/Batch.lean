import IcebergRs.Arrow.Cast
import Mathlib.Data.List.Zip

/-! Record batches. A batch carries the facts that its columns have the types of its
fields and one common length; nulls in required fields are only checked by `tryNew`,
because a batch that came in through the C Data Interface is never checked for them. -/
namespace IcebergRs

structure RecordBatch where
  schema : ArrowSchema
  columns : List ArrayRef
  numRows : ℕ
  typed : columns.map ArrayRef.dataType = schema.fields.map Field.dataType
  rows : ∀ c ∈ columns, c.len = numRows

/-- A batch of rows without columns. -/
def RecordBatch.ofRows (n : ℕ) : RecordBatch := ⟨⟨[]⟩, [], n, rfl, by simp⟩

/-- A batch of one column. -/
def RecordBatch.single (f : Field) (cells : List (Option f.dataType.Val)) : RecordBatch :=
  ⟨⟨[f]⟩, [⟨f.dataType, cells⟩], cells.length, rfl, by simp [ArrayRef.len]⟩

/-- What `RecordBatch::try_new` checks. -/
structure BatchFits (s : ArrowSchema) (columns : List ArrayRef) : Prop where
  typed : columns.map ArrayRef.dataType = s.fields.map Field.dataType
  nonempty : columns ≠ []
  rows : ∀ c ∈ columns, ∀ d ∈ columns, c.len = d.len
  required : ∀ p ∈ s.fields.zip columns, p.1.nullable = false → p.2.nullCount = 0

instance (s : ArrowSchema) (columns : List ArrayRef) : Decidable (BatchFits s columns) :=
  decidable_of_iff (columns.map ArrayRef.dataType = s.fields.map Field.dataType ∧ columns ≠ [] ∧
      (∀ c ∈ columns, ∀ d ∈ columns, c.len = d.len) ∧
      ∀ p ∈ s.fields.zip columns, p.1.nullable = false → p.2.nullCount = 0)
    ⟨fun ⟨a, b, c, d⟩ => ⟨a, b, c, d⟩, fun ⟨a, b, c, d⟩ => ⟨a, b, c, d⟩⟩

namespace RecordBatch

def ofFits (s : ArrowSchema) (columns : List ArrayRef) (h : BatchFits s columns) :
    RecordBatch where
  schema := s
  columns := columns
  numRows := (columns.head h.nonempty).len
  typed := h.typed
  rows := fun c hc => h.rows c hc _ (List.head_mem h.nonempty)

def tryNew (A : Arrow) (s : ArrowSchema) (columns : List ArrayRef) :
    Except String RecordBatch :=
  if h : BatchFits s columns then .ok (ofFits s columns h) else .error (A.tryNewError s columns)

variable {A : Arrow} {s : ArrowSchema} {columns : List ArrayRef}

theorem tryNew_eq_ok {b : RecordBatch} :
    tryNew A s columns = .ok b ↔ ∃ h : BatchFits s columns, ofFits s columns h = b := by
  unfold tryNew
  split
  next h => simp [h]
  next h => simp [h]

theorem tryNew_isOk : (∃ b, tryNew A s columns = .ok b) ↔ BatchFits s columns := by
  simp only [tryNew_eq_ok]
  exact ⟨fun ⟨_, h, _⟩ => h, fun h => ⟨_, h, rfl⟩⟩

theorem tryNew_schema {b : RecordBatch} (h : tryNew A s columns = .ok b) : b.schema = s := by
  obtain ⟨_, rfl⟩ := tryNew_eq_ok.mp h
  rfl

theorem tryNew_columns {b : RecordBatch} (h : tryNew A s columns = .ok b) :
    b.columns = columns := by
  obtain ⟨_, rfl⟩ := tryNew_eq_ok.mp h
  rfl

variable (b : RecordBatch)

/-- `RecordBatch::column_by_name`, which takes the first field of that name. -/
def columnByName (name : String) : Option ArrayRef :=
  ((b.schema.fields.zip b.columns).find? (fun p => p.1.name = name)).map Prod.snd

variable {b}

theorem columns_length (b : RecordBatch) : b.columns.length = b.schema.fields.length := by
  simpa using congrArg List.length b.typed

theorem columnByName_mem {name : String} {c : ArrayRef} (h : b.columnByName name = some c) :
    c ∈ b.columns := by
  obtain ⟨p, hp, rfl⟩ := Option.map_eq_some_iff.mp h
  exact (List.of_mem_zip (List.mem_of_find?_eq_some hp)).2

theorem columnByName_len {name : String} {c : ArrayRef} (h : b.columnByName name = some c) :
    c.len = b.numRows := b.rows c (columnByName_mem h)

/-- With distinct names, the pairs of fields and columns are what names find. -/
theorem columnByName_of_mem (hs : (b.schema.fields.map Field.name).Nodup) {f : Field}
    {c : ArrayRef} (h : (f, c) ∈ b.schema.fields.zip b.columns) :
    b.columnByName f.name = some c := by
  have hnd : ((b.schema.fields.zip b.columns).map (fun p => p.1.name)).Nodup := by
    rwa [← List.map_fst_zip (Nat.le_of_eq b.columns_length.symm), List.map_map] at hs
  simp [columnByName, find?_key (fun p : Field × ArrayRef => p.1.name) hnd h]

theorem columnByName_single (f : Field) (cells : List (Option f.dataType.Val)) :
    (single f cells).columnByName f.name = some ⟨f.dataType, cells⟩ :=
  columnByName_of_mem (by simp [single]) (List.mem_singleton.mpr rfl)

end RecordBatch
end IcebergRs
