import IcebergRs.Shim.Commit
import IcebergRs.Shim.Getters
import IcebergRs.Support.Json

/-! What the shim hands out about tables and batches: counts, ids and JSON texts. The strings
it returned are read through `ib_string_len` and `ib_string_copy` of `lib.rs`. -/
namespace IcebergRs

/-- `as i64` of a `usize`. -/
def asI64 (n : ℕ) : ℤ := Int.bmod n (2 ^ 64)

/-- `as i32` of a `usize`. -/
def asI32 (n : ℕ) : ℤ := Int.bmod n (2 ^ 32)

/-- A snapshot as the metadata describes it. -/
structure SnapshotMetadata where
  snapshotId : Int64
  parentSnapshotId : Option Int64
  sequenceNumber : Int64
  timestampMs : Int64
  manifestList : String
  schemaId : Option Int32
  operation : String
  additionalProperties : List (String × String)

/-- The metadata of a table as `serde_json` writes it, and what else is read out of it. -/
structure MetadataApi where
  metadataJson : Table → Except String String
  schemaJson : Table → Except String String
  partitionSpecJson : Table → Except String String
  location : Table → String
  snapshots : Table → List SnapshotMetadata

section
variable (api : MetadataApi) (fmt : Float → String) (h : TableHandle)

def ibTableMetadataJson : Reply TableHandle (Option String) :=
  .pointer h do
    let s ← mapErr "ib_table_metadata_json" (api.metadataJson h.table)
    outString s

def ibTableSchemaJson : Reply TableHandle (Option String) :=
  .pointer h do
    let s ← mapErr "ib_table_schema_json" (api.schemaJson h.table)
    outString s

def ibTablePartitionSpecJson : Reply TableHandle (Option String) :=
  .pointer h do
    let s ← mapErr "ib_table_partition_spec_json" (api.partitionSpecJson h.table)
    outString s

def ibTableLocation : Reply TableHandle (Option String) :=
  .pointer h (outString (api.location h.table))

def ibTableCurrentSnapshotId : Reply TableHandle ℤ := .done h (currentSnapshotIdOr0 h.table)

/-- The fields, and the properties of the summary, stand in the order of their names. -/
def snapshotJson (s : SnapshotMetadata) : Json := .object [
  ("manifest-list", .string s.manifestList),
  ("operation", .string s.operation),
  ("parent-snapshot-id", match s.parentSnapshotId with
    | some id => .number (.ofInt64 id)
    | none => .null),
  ("schema-id", match s.schemaId with
    | some id => .number (.ofInt64 id.toInt64)
    | none => .null),
  ("sequence-number", .number (.ofInt64 s.sequenceNumber)),
  ("snapshot-id", .number (.ofInt64 s.snapshotId)),
  ("summary", .object ((s.additionalProperties.mergeSort fun a b => a.1 ≤ b.1).map
    fun p => (p.1, .string p.2))),
  ("timestamp-ms", .number (.ofInt64 s.timestampMs))]

/-- Oldest snapshot first. -/
def ibTableSnapshotsJson : Reply TableHandle (Option String) :=
  let snaps := (api.snapshots h.table).mergeSort fun a b => a.sequenceNumber ≤ b.sequenceNumber
  .pointer h (outString (Json.text fmt (.array (snaps.map snapshotJson))))

def ibTablePendingFiles : Reply TableHandle ℤ := .done h h.pending.length

end

section
variable (A : Arrow) (fmt : Float → String) (batch : RecordBatch)

def ibBatchNumRows : Reply Unit ℤ := .done () (asI64 batch.numRows)

def ibBatchNumColumns : Reply Unit ℤ := .done () (asI32 batch.columns.length)

def ibBatchSchemaJson : Reply Unit (Option String) :=
  let cols := batch.schema.fields.map fun f => Json.object [
    ("name", .string f.name),
    ("nullable", .bool f.nullable),
    ("type", .string (A.typeText f.dataType))]
  .pointer () (outString (Json.text fmt (.array cols)))

end

/-- The length up to the terminating zero; a null pointer is no error that is reported. -/
def ibStringLen (s : CString) : Reply Unit ℤ :=
  match s with
  | none => ⟨-1, (), none⟩
  | some bytes => .done () (bytes.takeWhile (· ≠ 0)).length

/-- Null pointers are no error that is reported here either. -/
def ibStringCopy (s : CString) (out : Option (List UInt8)) (cap : ℕ) :
    Reply (Option (List UInt8)) ℤ :=
  match s with
  | none => ⟨-1, out, none⟩
  | some bytes =>
    if out.isNone ∧ 0 < cap then ⟨-1, out, none⟩
    else
      let copied := (bytes.takeWhile (· ≠ 0)).take cap
      .done (out.map (overwrite · copied)) copied.length

end IcebergRs
