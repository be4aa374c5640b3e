import IcebergRs.Arrow.CData
import IcebergRs.Shim.Append
import IcebergRs.Shim.Scan

/-! The C Data Interface entry points of `batch.rs` and `write.rs` on the memory of the pair.
A pair is `none` where one of its two pointers is null. -/
namespace IcebergRs

def ibBatchExport (toFfi : RecordBatch → Except String Unit) (batch : RecordBatch)
    (out : Option FfiPair) : Reply (Option FfiPair) ℤ :=
  match out with
  | none => .fail none (-1) "ib_batch_export: null out pointer"
  | some pair =>
    match exportBatch toFfi batch with
    | .ok () => .done (some .exported) 0
    | .error m => .fail (some pair) (-1) m

/-- `import_batch` on memory. `from_ffi` takes the array over, whatever it answers, and what
it answers is dropped where no batch comes out of it. -/
def Memory.importBatch (answer : Except String FfiData) (pair : FfiPair) :
    FfiPair × Except String RecordBatch :=
  let pair := { pair with array := pair.array.read }
  let dropped := { pair with array := pair.array.drop }
  match answer with
  | .error e => (dropped, .error s!"arrow import: {e}")
  | .ok (.other typeText) =>
    (dropped, .error (s!"arrow import: expected a struct array (one child per column), " ++
      s!"got {typeText}"))
  | .ok (.struct nullCount batch) =>
    if 0 < nullCount then
      (dropped, .error "arrow import: the top-level struct array must not contain nulls")
    else ({ pair with schema := pair.schema.release }, .ok batch)

def ibBatchImport (answer : Except String FfiData) (pair : Option FfiPair) :
    Reply (Option FfiPair) (Option RecordBatch) :=
  match pair with
  | none => .fail none none "arrow import: null pointer"
  | some pair =>
    match Memory.importBatch answer pair with
    | (pair, .ok batch) => .done (some pair) (some batch)
    | (pair, .error m) => .fail (some pair) none m

/-- `ib_table_append_batch` on memory, with a table handle that may be null. The imported
batch is dropped when staging is over. -/
def Memory.ibTableAppendBatch (A : Arrow) (toArrow : SchemaToArrow) (io : WriterApi)
    (answer : Except String FfiData) (h : Option TableHandle) (pair : Option FfiPair) :
    Reply (Option TableHandle × Option FfiPair) ℤ :=
  match h, pair with
  | none, pair => .fail (none, pair) (-1) "table handle is null"
  | some h, none => .fail (some h, none) (-1) "arrow import: null pointer"
  | some h, some pair =>
    match Memory.importBatch answer pair with
    | (pair, .error m) => .fail (some h, some pair) (-1) m
    | (pair, .ok batch) =>
      let r := stage A toArrow io h batch "ib_table_append_batch"
      ⟨r.ret, (some r.state, some { pair with array := pair.array.drop }), r.lastError⟩

def ibArrowRelease (array schema : Option FfiStruct) : Option FfiStruct × Option FfiStruct :=
  (array.map FfiStruct.release, schema.map FfiStruct.release)

/-- Either pointer may be null, and a second release does nothing. -/
theorem ibArrowRelease_twice (array schema : Option FfiStruct) :
    ibArrowRelease (ibArrowRelease array schema).1 (ibArrowRelease array schema).2 =
      ibArrowRelease array schema := by
  have twice (s : Option FfiStruct) :
      (s.map FfiStruct.release).map FfiStruct.release = s.map FfiStruct.release := by
    cases s with
    | none => rfl
    | some s => exact congrArg some FfiStruct.release_release
  exact Prod.ext (twice array) (twice schema)

variable {A : Arrow} {toArrow : SchemaToArrow} {io : WriterApi}
variable {answer : Except String FfiData} {pair : FfiPair}

variable (answer pair) in
/-- What comes out of the memory is what `from_ffi` lets `import_batch` make of it. -/
theorem memory_importBatch_result :
    (Memory.importBatch answer pair).2 = importBatch (some answer) := by
  unfold Memory.importBatch importBatch
  cases answer with
  | error e => rfl
  | ok data =>
    cases data with
    | other typeText => rfl
    | struct nullCount batch => by_cases h : 0 < nullCount <;> simp [h]

/-- On a live handle the append answers and stages as it does without looking at memory. -/
theorem memory_ibTableAppendBatch_reply (h : TableHandle) :
    (Memory.ibTableAppendBatch A toArrow io answer (some h) (some pair)).ret =
      (ibTableAppendBatch A toArrow io h (some answer)).ret ∧
    (Memory.ibTableAppendBatch A toArrow io answer (some h) (some pair)).state.1 =
      some (ibTableAppendBatch A toArrow io h (some answer)).state ∧
    (Memory.ibTableAppendBatch A toArrow io answer (some h) (some pair)).lastError =
      (ibTableAppendBatch A toArrow io h (some answer)).lastError := by
  simp only [Memory.ibTableAppendBatch, ibTableAppendBatch,
    ← memory_importBatch_result answer pair]
  rcases Memory.importBatch answer pair with ⟨pair', _ | batch⟩
  · exact ⟨rfl, rfl, rfl⟩
  · exact ⟨rfl, rfl, rfl⟩

/-- `from_ffi` accepts the pair as a struct array without top-level nulls. -/
def ImportsAs (answer : Except String FfiData) (batch : RecordBatch) : Prop :=
  answer = .ok (.struct 0 batch)

/-- An import of a live pair takes the array over. If a batch comes out of it, the schema has
been released and the array belongs to the batch. Otherwise the array has been released and
the schema is as it was. -/
theorem memory_importBatch_exported (answer : Except String FfiData) :
    (∃ batch, ImportsAs answer batch ∧
      Memory.importBatch answer .exported = (⟨⟨true, 1, 0⟩, ⟨false, 0, 1⟩⟩, .ok batch)) ∨
    (∀ batch, ¬ ImportsAs answer batch) ∧
      ∃ m, Memory.importBatch answer .exported = (⟨⟨true, 0, 1⟩, .exported⟩, .error m) := by
  cases answer with
  | error e => exact .inr ⟨by simp [ImportsAs], _, rfl⟩
  | ok data =>
    cases data with
    | other typeText => exact .inr ⟨by simp [ImportsAs], _, rfl⟩
    | struct nullCount batch =>
      cases nullCount with
      | zero => exact .inl ⟨batch, rfl, rfl⟩
      | succ n => exact .inr ⟨by simp [ImportsAs], _, rfl⟩

/-- The callback of the schema has run once and nobody owns the schema, and the same is true
of the array when `held`, the batch that owns it, has been dropped. -/
def Consumed (pair : FfiPair) (held : Option RecordBatch) : Prop :=
  let array := if held.isSome then pair.array.drop else pair.array
  (pair.schema.runs = 1 ∧ pair.schema.owners = 0) ∧ array.runs = 1 ∧ array.owners = 0

/-- `ib_batch_import` consumes a live pair. -/
def ImportConsumes (answer : Except String FfiData) : Prop :=
  let r := ibBatchImport answer (some .exported)
  ∃ pair, r.state = some pair ∧ Consumed pair r.ret

/-- `ib_table_append_batch` consumes a live pair; it keeps no batch. -/
def AppendConsumes (A : Arrow) (toArrow : SchemaToArrow) (io : WriterApi)
    (answer : Except String FfiData) (h : Option TableHandle) : Prop :=
  ∃ pair, (Memory.ibTableAppendBatch A toArrow io answer h (some .exported)).state.2 = some pair ∧
    Consumed pair none

theorem not_consumed {pair : FfiPair} {held : Option RecordBatch} (h : pair.schema = .exported) :
    ¬ Consumed pair held := by
  rintro ⟨⟨hruns, -⟩, -⟩
  rw [h] at hruns
  cases hruns

/-- Imports and appends consume a live pair exactly when `from_ffi` accepts it as a struct
array without top-level nulls and, for an append, the table handle is not null. -/
theorem pair_consumed_iff (A : Arrow) (toArrow : SchemaToArrow) (io : WriterApi)
    (answer : Except String FfiData) :
    (ImportConsumes answer ↔ ∃ batch, ImportsAs answer batch) ∧
    ∀ h, AppendConsumes A toArrow io answer h ↔ h.isSome ∧ ∃ batch, ImportsAs answer batch := by
  rcases memory_importBatch_exported answer with ⟨batch, hb, he⟩ | ⟨hb, m, he⟩
  · refine ⟨iff_of_true ?_ ⟨batch, hb⟩, fun h => ?_⟩
    · simp only [ImportConsumes, ibBatchImport, he]
      exact ⟨_, rfl, ⟨rfl, rfl⟩, rfl, rfl⟩
    · cases h with
      | none =>
        refine iff_of_false ?_ fun h => by cases h.1
        rintro ⟨pair, hp, hc⟩
        obtain rfl := Option.some.inj hp
        exact not_consumed rfl hc
      | some h =>
        refine iff_of_true ?_ ⟨rfl, batch, hb⟩
        simp only [AppendConsumes, Memory.ibTableAppendBatch, he]
        exact ⟨_, rfl, ⟨rfl, rfl⟩, rfl, rfl⟩
  · have hno : ¬ ∃ batch, ImportsAs answer batch := fun ⟨batch, h⟩ => hb batch h
    refine ⟨iff_of_false ?_ hno, fun h => iff_of_false ?_ fun h => hno h.2⟩
    · simp only [ImportConsumes, ibBatchImport, he]
      rintro ⟨pair, hp, hc⟩
      obtain rfl := Option.some.inj hp
      exact not_consumed rfl hc
    · rintro ⟨pair, hp, hc⟩
      cases h with
      | none =>
        obtain rfl := Option.some.inj hp
        exact not_consumed rfl hc
      | some h =>
        simp only [Memory.ibTableAppendBatch, he] at hp
        obtain rfl := Option.some.inj hp
        exact not_consumed rfl hc

/-- Of a pair that is not a struct array only the array is released, and a null table handle
leaves both unreleased. -/
theorem import_leaves_schema :
    (ibBatchImport (.ok (.other "Int64")) (some .exported)).ret = none ∧
    (ibBatchImport (.ok (.other "Int64")) (some .exported)).state =
      some ⟨⟨true, 0, 1⟩, ⟨true, 0, 0⟩⟩ ∧
    (Memory.ibTableAppendBatch .basic .direct (.single "f")
      (.ok (.struct 0 ⟨⟨[]⟩, [], 0, rfl, by simp⟩)) none (some .exported)).state.2 =
        some ⟨⟨true, 0, 0⟩, ⟨true, 0, 0⟩⟩ :=
  ⟨rfl, rfl, rfl⟩

end IcebergRs
