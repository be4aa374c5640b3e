import IcebergRs.Shim.Builder

/-! Staged appends of `write.rs`: a batch is brought onto the Arrow schema of the table as
the handle holds it now, written to data files, and the files are kept as pending. -/
namespace IcebergRs

/-- The column that goes under a field: the batch's column of that name, cast. -/
def conformColumn (A : Arrow) (batch : RecordBatch) (schema : ArrowSchema) (field : Field) :
    Except String ArrayRef :=
  match batch.columnByName field.name with
  | none =>
    let names := String.intercalate ", " (schema.fields.map Field.name)
    .error s!"the batch has no column '{field.name}' (table columns: {names})"
  | some col =>
    match A.castTo col field.dataType with
    | .ok cells => .ok ⟨field.dataType, cells⟩
    | .error e => .error s!"column '{field.name}': {e}"

def conform (A : Arrow) (batch : RecordBatch) (schema : ArrowSchema) :
    Except String RecordBatch :=
  match schema.fields.mapM (conformColumn A batch schema) with
  | .ok columns => batchFromColumns A schema columns
  | .error e => .error e

/-- `io` answers for the writers that are opened on the table. -/
def writeDataFiles (io : WriterApi) (t : Table) (batches : List RecordBatch) :
    Except String (List DataFile) := do
  mapErr "reading table properties" io.tableProperties
  mapErr "location generator" io.location
  if t.unpartitioned then
    let writer ← mapErr "opening the data file writer" io.build
    let writer ← batches.foldlM (fun w b => mapErr "writing a batch" (io.write w b)) writer
    mapErr "closing the data file writer" (io.close writer)
  else
    mapErr "partition splitter" io.splitter
    let fanout ← batches.foldlM (fun w b => do
      let parts ← mapErr "splitting a batch by partition" (io.split b)
      parts.foldlM (fun w p => mapErr "writing a partition" (io.writePartition w p.1 p.2)) w)
      io.fanout
    mapErr "closing the partition writer" (io.closeFanout fanout)

def stage (A : Arrow) (toArrow : SchemaToArrow) (io : WriterApi) (h : TableHandle)
    (batch : RecordBatch) (what : String) : Reply TableHandle ℤ :=
  match tableArrowSchema toArrow h.table with
  | .error e => .fail h (-1) s!"{what}: {e}"
  | .ok schema =>
    match conform A batch schema with
    | .error e => .fail h (-1) s!"{what}: {e}"
    | .ok conformed =>
      match writeDataFiles io h.table [conformed] with
      | .ok files => .done { h with pending := h.pending ++ files } 0
      | .error e => .fail h (-1) s!"{what}: {e}"

def ibTableAppend (A : Arrow) (toArrow : SchemaToArrow) (io : WriterApi) (h : TableHandle)
    (batch : RecordBatch) : Reply TableHandle ℤ :=
  stage A toArrow io h batch "ib_table_append"

/-- What `from_ffi` makes of a C Data Interface pair. -/
inductive FfiData where
  | struct (nullCount : ℕ) (batch : RecordBatch)
  | other (typeText : String)

/-- `pair` is `none` where one of the two pointers is null. -/
def importBatch (pair : Option (Except String FfiData)) : Except String RecordBatch :=
  match pair with
  | none => .error "arrow import: null pointer"
  | some (.error e) => .error s!"arrow import: {e}"
  | some (.ok (.other typeText)) =>
    .error s!"arrow import: expected a struct array (one child per column), got {typeText}"
  | some (.ok (.struct nullCount batch)) =>
    if 0 < nullCount then
      .error "arrow import: the top-level struct array must not contain nulls"
    else .ok batch

def ibTableAppendBatch (A : Arrow) (toArrow : SchemaToArrow) (io : WriterApi) (h : TableHandle)
    (pair : Option (Except String FfiData)) : Reply TableHandle ℤ :=
  match importBatch pair with
  | .error m => .fail h (-1) m
  | .ok batch => stage A toArrow io h batch "ib_table_append_batch"

section
variable {A : Arrow} {toArrow : SchemaToArrow} {io : WriterApi} {h : TableHandle}
variable {batch b : RecordBatch} {schema : ArrowSchema}

theorem batchFromColumns_eq_ok {columns : List ArrayRef} :
    batchFromColumns A schema columns = .ok b ↔ RecordBatch.tryNew A schema columns = .ok b := by
  unfold batchFromColumns
  cases RecordBatch.tryNew A schema columns <;> simp

theorem conformColumn_eq_ok {field : Field} {c : ArrayRef} :
    conformColumn A batch schema field = .ok c ↔ ∃ col cells,
      batch.columnByName field.name = some col ∧ A.castTo col field.dataType = .ok cells ∧
        c = ⟨field.dataType, cells⟩ := by
  unfold conformColumn
  cases batch.columnByName field.name with
  | none => simp
  | some col => cases hc : A.castTo col field.dataType <;> simp [hc, @eq_comm _ c]

/-- A conformed batch has the schema's fields, each with the batch's column of its name. -/
theorem conform_eq_ok (hb : conform A batch schema = .ok b) : b.schema = schema ∧
    List.Forall₂ (fun f c => conformColumn A batch schema f = .ok c) schema.fields b.columns := by
  unfold conform at hb
  split at hb
  next columns hc =>
    rw [batchFromColumns_eq_ok] at hb
    rw [RecordBatch.tryNew_columns hb]
    exact ⟨RecordBatch.tryNew_schema hb, except_mapM_eq_ok.mp hc⟩
  next => cases hb

/-- What a successful `stage` has done: the batch it handed to the writer, and the files
the writer returned. -/
structure Stages (A : Arrow) (toArrow : SchemaToArrow) (io : WriterApi) (h : TableHandle)
    (batch b : RecordBatch) (files : List DataFile) : Prop where
  conformed : ∃ schema, toArrow h.table.currentSchema = .ok schema ∧
    conform A batch schema = .ok b
  written : writeDataFiles io h.table [b] = .ok files

theorem Stages.stage_eq {files : List DataFile} (hst : Stages A toArrow io h batch b files)
    (what : String) :
    stage A toArrow io h batch what = .done { h with pending := h.pending ++ files } 0 := by
  obtain ⟨⟨schema, hs, hb⟩, hw⟩ := hst
  simp [stage, tableArrowSchema_eq_ok.mpr hs, hb, hw]

theorem stage_cases (what : String) :
    (∃ b files, Stages A toArrow io h batch b files ∧
      stage A toArrow io h batch what = .done { h with pending := h.pending ++ files } 0) ∨
    ∃ m, stage A toArrow io h batch what = .fail h (-1) m := by
  unfold stage
  split
  next => exact .inr ⟨_, rfl⟩
  next schema hs =>
    split
    next => exact .inr ⟨_, rfl⟩
    next b hc =>
      split
      next files hw => exact .inl ⟨b, files, ⟨⟨schema, tableArrowSchema_eq_ok.mp hs, hc⟩, hw⟩, rfl⟩
      next => exact .inr ⟨_, rfl⟩

theorem ibTableAppendBatch_cases (pair : Option (Except String FfiData)) :
    (∃ batch, importBatch pair = .ok batch ∧ ibTableAppendBatch A toArrow io h pair =
      stage A toArrow io h batch "ib_table_append_batch") ∨
    ∃ m, ibTableAppendBatch A toArrow io h pair = .fail h (-1) m := by
  unfold ibTableAppendBatch
  split
  next => exact .inr ⟨_, rfl⟩
  next batch hb => exact .inl ⟨batch, hb, rfl⟩

end
end IcebergRs
