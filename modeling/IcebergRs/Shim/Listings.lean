import IcebergRs.Shim.Namespaces
import IcebergRs.Shim.Scan
import IcebergRs.Shim.SnapshotOrder
import IcebergRs.Support.JsonViews

/-! Readers of the JSON texts that the shim hands out. Each gets back what a text was written from,
so what is printed determines the tasks of a plan and the snapshots of a table. -/
namespace IcebergRs
open Json JsonRead

def DataContentType.ofDebug (s : String) : Option DataContentType :=
  if s = "Data" then some .data
  else if s = "PositionDeletes" then some .positionDeletes
  else if s = "EqualityDeletes" then some .equalityDeletes
  else none

theorem DataContentType.ofDebug_debug (t : DataContentType) : ofDebug t.debug = some t := by
  cases t <;> decide

def FileScanTaskDeleteFile.ofJson (v : Json) : Option FileScanTaskDeleteFile := do
  let filePath ← (← v.field "file-path").asStr
  let fileSizeInBytes ← (← v.field "file-size-in-bytes").asU64
  let fileType ← DataContentType.ofDebug (← (← v.field "file-type").asStr)
  let partitionSpecId ← (← v.field "partition-spec-id").asI32
  let equalityIds ← orNull (asList Json.asI32) (← v.field "equality-ids")
  pure ⟨filePath, fileSizeInBytes, fileType, partitionSpecId, equalityIds⟩

def FileScanTask.ofJson (v : Json) : Option FileScanTask := do
  let dataFilePath ← (← v.field "data-file-path").asStr
  let dataFileFormat ← (← v.field "file-format").asStr
  let recordCount ← orNull asU64 (← v.field "record-count")
  let fileSizeInBytes ← (← v.field "file-size-in-bytes").asU64
  let start ← (← v.field "start").asU64
  let length ← (← v.field "length").asU64
  let projectFieldIds ← asList Json.asI32 (← v.field "project-field-ids")
  let deletes ← asList FileScanTaskDeleteFile.ofJson (← v.field "deletes")
  pure ⟨dataFilePath, dataFileFormat, recordCount, fileSizeInBytes, start, length,
    projectFieldIds, deletes⟩

def SnapshotMetadata.ofJson (v : Json) : Option SnapshotMetadata := do
  let snapshotId ← (← v.field "snapshot-id").asI64
  let parentSnapshotId ← orNull Json.asI64 (← v.field "parent-snapshot-id")
  let sequenceNumber ← (← v.field "sequence-number").asI64
  let timestampMs ← (← v.field "timestamp-ms").asI64
  let manifestList ← (← v.field "manifest-list").asStr
  let schemaId ← orNull Json.asI32 (← v.field "schema-id")
  let operation ← (← v.field "operation").asStr
  let additionalProperties ← asDict asStr (← v.field "summary")
  pure ⟨snapshotId, parentSnapshotId, sequenceNumber, timestampMs, manifestList, schemaId,
    operation, additionalProperties⟩

theorem asList_ids (ids : List Int32) :
    asList Json.asI32 (.array (ids.map fun i => .number (.ofInt64 i.toInt64))) = some ids :=
  (asList_map (g := id) Json.asI32_ofInt64).trans (by rw [List.map_id])

theorem deleteFile_ofJson (d : FileScanTaskDeleteFile) :
    FileScanTaskDeleteFile.ofJson (deleteFileJson d) = some d := by
  obtain ⟨path, size, type, spec, ids⟩ := d
  cases ids with
  | none => simp [FileScanTaskDeleteFile.ofJson, deleteFileJson, field,
      DataContentType.ofDebug_debug, orNull]
  | some ids => simp [FileScanTaskDeleteFile.ofJson, deleteFileJson, field,
      DataContentType.ofDebug_debug, orNull, asList_ids]

theorem fileScanTask_ofJson (t : FileScanTask) :
    FileScanTask.ofJson (fileScanTaskJson t) = some t := by
  obtain ⟨path, format, count, size, start, length, ids, deletes⟩ := t
  have hdeletes : asList FileScanTaskDeleteFile.ofJson (.array (deletes.map deleteFileJson)) =
      some deletes := (asList_map (g := id) deleteFile_ofJson).trans (by rw [List.map_id])
  cases count with
  | none => simp [FileScanTask.ofJson, fileScanTaskJson, field, orNull, asList_ids, hdeletes]
  | some n => simp [FileScanTask.ofJson, fileScanTaskJson, field, orNull, asList_ids, hdeletes]

/-- The snapshot with the properties of its summary in the order of their names. -/
def SnapshotMetadata.ordered (s : SnapshotMetadata) : SnapshotMetadata :=
  { s with additionalProperties := s.additionalProperties.mergeSort fun a b => a.1 ≤ b.1 }

theorem snapshot_ofJson (s : SnapshotMetadata) :
    SnapshotMetadata.ofJson (snapshotJson s) = some s.ordered := by
  obtain ⟨snapshot, parent, sequence, timestamp, manifest, schema, operation, properties⟩ := s
  have hsummary (ps : List (String × String)) :
      asDict asStr (.object (ps.map fun p => (p.1, .string p.2))) = some ps :=
    (asDict_map (g := id) asStr_string).trans (by simp)
  cases parent <;> cases schema <;>
    simp [SnapshotMetadata.ofJson, snapshotJson, SnapshotMetadata.ordered, field, orNull, hsummary]

theorem listedSnapshots_sorted (api : MetadataApi) (t : Table) :
    (listedSnapshots api t).Pairwise fun a b => a.sequenceNumber ≤ b.sequenceNumber := by
  rw [listedSnapshots_eq]
  have hsorted : ((api.snapshots t).mergeSort fun a b =>
      a.sequenceNumber.toInt ≤ b.sequenceNumber.toInt).Pairwise fun a b =>
        decide (a.sequenceNumber.toInt ≤ b.sequenceNumber.toInt) = true := by
    apply List.pairwise_mergeSort
    · intro a b c hab hbc
      exact decide_eq_true (le_trans (of_decide_eq_true hab) (of_decide_eq_true hbc))
    · intro a b
      simpa using le_total a.sequenceNumber.toInt b.sequenceNumber.toInt
  exact hsorted.imp fun h => Int64.le_iff_toInt_le.mpr (of_decide_eq_true h)

/-- A column of a batch as its schema is printed. -/
structure ColumnListing where
  name : String
  type : String
  nullable : Bool
  deriving DecidableEq, Repr

def ColumnListing.ofJson (v : Json) : Option ColumnListing := do
  let name ← (← v.field "name").asStr
  let type ← (← v.field "type").asStr
  let nullable ← (← v.field "nullable").asBool
  pure ⟨name, type, nullable⟩

/-- What `ib_batch_schema_json` writes of one column. -/
def columnJson (A : Arrow) (f : Field) : Json := .object [
  ("name", .string f.name),
  ("nullable", .bool f.nullable),
  ("type", .string (A.typeText f.dataType))]

def Field.listing (A : Arrow) (f : Field) : ColumnListing :=
  ⟨f.name, A.typeText f.dataType, f.nullable⟩

theorem column_ofJson (A : Arrow) (f : Field) :
    ColumnListing.ofJson (columnJson A f) = some (f.listing A) := by
  simp [ColumnListing.ofJson, columnJson, Field.listing, field, asBool]

theorem plain_columnJson (A : Arrow) (f : Field) : Plain (columnJson A f) := by
  simp [columnJson]

section
variable {fmt : Float → String}

theorem ibBatchSchemaJson_ret (A : Arrow) (b : RecordBatch) : (ibBatchSchemaJson A fmt b).ret =
    some (Json.text fmt (.array (b.schema.fields.map (columnJson A)))) := by
  have hplain : Plain (.array (b.schema.fields.map (columnJson A))) := by
    simpa using fun f _ => plain_columnJson A f
  refine Reply.pointer_ret.mpr (outString_eq_ok.mpr ⟨nulFree_text fmt _ hplain, rfl⟩)

/-- What a list was written from is read from its text. -/
theorem read_list {α β : Type} {f : Json → Option β} {write : α → Json} {g : α → β} {xs : List α}
    (hplain : ∀ x, Plain (write x)) (h : ∀ x, f (write x) = some (g x)) :
    (read (Json.text fmt (.array (xs.map write)))).bind (asList f) = some (xs.map g) := by
  have hxs : Plain (.array (xs.map write)) := by
    simpa using fun x _ => hplain x
  rw [read_text _ hxs, Option.bind_some, asList_map h]

theorem plain_deleteFileJson (d : FileScanTaskDeleteFile) : Plain (deleteFileJson d) := by
  cases hids : d.equalityIds <;> simp [deleteFileJson, hids]

theorem plain_fileScanTaskJson (t : FileScanTask) : Plain (fileScanTaskJson t) := by
  cases hcount : t.recordCount <;> simp [fileScanTaskJson, hcount, plain_deleteFileJson]

theorem plain_dict {ps : List (String × String)} :
    Plain (.object (ps.map fun p => (p.1, .string p.2))) := by
  rw [plain_object, List.forall_mem_map]
  exact fun p _ => plain_string p.2

theorem plain_snapshotJson (s : SnapshotMetadata) : Plain (snapshotJson s) := by
  rw [snapshotJson, plain_object]
  simp only [List.forall_mem_cons, plain_string, plain_ofInt64, plain_dict, true_and]
  refine ⟨?_, ?_, List.forall_mem_nil _⟩
  · cases s.parentSnapshotId with
    | none => exact plain_null
    | some id => exact plain_ofInt64 id
  · cases s.schemaId with
    | none => exact plain_null
    | some id => exact plain_ofInt64 id.toInt64

end

end IcebergRs
