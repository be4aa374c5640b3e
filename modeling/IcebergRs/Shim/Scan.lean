import IcebergRs.Iceberg.Scan
import IcebergRs.Shim.Filter
import IcebergRs.Shim.Table
import IcebergRs.Support.Text

/-! Scans of `scan.rs`: the scan of a table under a projection, a snapshot and a filter, the
files it plans to read, and the pulls of its record batches. -/
namespace IcebergRs

/-- `str::split` at one character. -/
def split (sep : Char) (s : String) : List String := (s.toList.splitOn sep).map String.ofList

/-- The columns a projection text selects; none selects all columns. -/
def projection (columnsCsv : Option String) : Option (List String) :=
  match (columnsCsv.map trim).filter (· ≠ "") with
  | some csv => some (((split ',' csv).map trim).filter (· ≠ ""))
  | none => none

section
variable (api : DatumApi) (ops : PredicateOps) (parseJson : String → Except String Json)

/-- What `ib_scan_new` tells the scan builder. The filter is read against the current
schema of the table, whichever snapshot is scanned. -/
def scanRequest (h : TableHandle) (columnsCsv : CString) (snapshotId : ℤ)
    (filterJson : CString) : Outcome ScanRequest := do
  let columnsCsv ← .ofExcept (cstrOpt columnsCsv "ib_scan_new: columns_csv") id
  let filterJson ← .ofExcept (cstrOpt filterJson "ib_scan_new: filter_json") id
  let columns := projection columnsCsv
  let snapshot := if snapshotId ≠ 0 then some snapshotId else none
  match (filterJson.map trim).filter (· ≠ "") with
  | some json =>
    let p ← (Filter.parseFilter api ops h.table.currentSchema parseJson json).mapErr
      fun e => s!"ib_scan_new: {e}"
    pure ⟨columns, snapshot, some p⟩
  | none => pure ⟨columns, snapshot, none⟩

end

/-- A scan, and its stream of record batches once a pull has started it. -/
structure ScanHandle (Scan : Type) where
  scan : Scan
  stream : Option ArrowRecordBatchStream

section
variable {Scan : Type}

/-- `build` answers for the scan builder of the table. -/
def ibScanNew (api : DatumApi) (ops : PredicateOps) (parseJson : String → Except String Json)
    (build : Table → ScanRequest → Except String Scan) (h : TableHandle) (columnsCsv : CString)
    (snapshotId : ℤ) (filterJson : CString) :
    Outcome (Reply TableHandle (Option (ScanHandle Scan))) :=
  match scanRequest api ops parseJson h columnsCsv snapshotId filterJson with
  | .panic w => .panic w
  | .err m => .ok (.fail h none m)
  | .ok request =>
    match mapErr "ib_scan_new" (build h.table request) with
    | .ok scan => .ok (.done h (some ⟨scan, none⟩))
    | .error m => .ok (.fail h none m)

/-- The fields stand in the order of their names, as `serde_json` keeps them. -/
def deleteFileJson (d : FileScanTaskDeleteFile) : Json := .object [
  ("equality-ids", match d.equalityIds with
    | some ids => .array (ids.map fun i => .number (.ofInt64 i.toInt64))
    | none => .null),
  ("file-path", .string d.filePath),
  ("file-size-in-bytes", .number (.posInt d.fileSizeInBytes)),
  ("file-type", .string d.fileType.debug),
  ("partition-spec-id", .number (.ofInt64 d.partitionSpecId.toInt64))]

def fileScanTaskJson (task : FileScanTask) : Json := .object [
  ("data-file-path", .string task.dataFilePath),
  ("deletes", .array (task.deletes.map deleteFileJson)),
  ("file-format", .string task.dataFileFormat),
  ("file-size-in-bytes", .number (.posInt task.fileSizeInBytes)),
  ("length", .number (.posInt task.length)),
  ("project-field-ids", .array (task.projectFieldIds.map fun i => .number (.ofInt64 i.toInt64))),
  ("record-count", match task.recordCount with
    | some n => .number (.posInt n)
    | none => .null),
  ("start", .number (.posInt task.start))]

/-- `planFiles` answers for `TableScan::plan_files`, with all tasks of its stream. -/
def ibScanPlanFilesJson (fmt : Float → String)
    (planFiles : Except String (List (Except String FileScanTask))) (h : ScanHandle Scan) :
    Reply (ScanHandle Scan) (Option String) :=
  match (do (← planFiles).mapM id : Except String (List FileScanTask)) with
  | .ok tasks =>
    match outString (Json.text fmt (.array (tasks.map fileScanTaskJson))) with
    | .ok text => .done h (some text)
    | .error m => .fail h none m
  | .error e => .fail h none s!"ib_scan_plan_files_json: {e}"

/-- `toArrow` answers for `TableScan::to_arrow`, with all answers of the new stream. -/
def ensureStream (toArrow : Except String (ℕ → Poll String RecordBatch)) (h : ScanHandle Scan) :
    Except String ArrowRecordBatchStream :=
  match h.stream with
  | some stream => .ok stream
  | none =>
    match mapErr "starting the scan" toArrow with
    | .ok polls => .ok ⟨polls, 0⟩
    | .error e => .error e

def nextBatch (toArrow : Except String (ℕ → Poll String RecordBatch)) (h : ScanHandle Scan) :
    Outcome (ScanHandle Scan × Except String (Option RecordBatch)) :=
  match ensureStream toArrow h with
  | .error e => .ok (h, .error e)
  | .ok stream =>
    let h := { h with stream := some stream.tail }
    match stream.head with
    | .finished => .ok (h, .ok none)
    | .item b => .ok (h, .ok (some b))
    | .fault e => .ok (h, .error s!"reading a batch: {e}")
    | .stuck => .panic "the poll panicked or did not return"

/-- The return code of a pull and the batch stored behind its out-pointers. -/
structure Pull where
  code : ℤ
  batch : Option RecordBatch

/-- `outBatch` tells whether the pointer is not null. -/
def ibScanNext (toArrow : Except String (ℕ → Poll String RecordBatch)) (h : ScanHandle Scan)
    (outBatch : Bool) : Outcome (Reply (ScanHandle Scan) Pull) :=
  if !outBatch then .ok (.fail h ⟨-1, none⟩ "ib_scan_next: null out_batch")
  else do
    match ← nextBatch toArrow h with
    | (h, .ok none) => pure (.done h ⟨0, none⟩)
    | (h, .ok (some b)) => pure (.done h ⟨1, some b⟩)
    | (h, .error e) => pure (.fail h ⟨-1, none⟩ s!"ib_scan_next: {e}")

/-- `export_batch` of `batch.rs`; `toFfi` answers for `to_ffi`. -/
def exportBatch (toFfi : RecordBatch → Except String Unit) (batch : RecordBatch) :
    Except String Unit := mapErr "arrow export" (toFfi batch)

def ibScanNextBatch (toArrow : Except String (ℕ → Poll String RecordBatch))
    (toFfi : RecordBatch → Except String Unit) (h : ScanHandle Scan) (outArray outSchema : Bool) :
    Outcome (Reply (ScanHandle Scan) Pull) :=
  if !outArray || !outSchema then
    .ok (.fail h ⟨-1, none⟩ "ib_scan_next_batch: null out pointer")
  else do
    match ← nextBatch toArrow h with
    | (h, .ok none) => pure (.done h ⟨0, none⟩)
    | (h, .ok (some b)) =>
      match exportBatch toFfi b with
      | .ok () => pure (.done h ⟨1, some b⟩)
      | .error m => pure (.fail h ⟨-1, none⟩ m)
    | (h, .error e) => pure (.fail h ⟨-1, none⟩ s!"ib_scan_next_batch: {e}")

/-- A pull that returns has a batch exactly with the code 1. -/
theorem ibScanNextBatch_ret {toArrow : Except String (ℕ → Poll String RecordBatch)}
    {toFfi : RecordBatch → Except String Unit} {h : ScanHandle Scan} {outArray outSchema : Bool}
    {r : Reply (ScanHandle Scan) Pull}
    (hr : ibScanNextBatch toArrow toFfi h outArray outSchema = .ok r) :
    r.ret = ⟨-1, none⟩ ∨ r.ret = ⟨0, none⟩ ∨ ∃ b, r.ret = ⟨1, some b⟩ := by
  unfold ibScanNextBatch at hr
  split at hr
  · cases hr
    exact .inl rfl
  · obtain ⟨next, -, hr⟩ := Outcome.bind_eq_ok.mp hr
    split at hr
    · cases hr
      exact .inr (.inl rfl)
    · split at hr <;> cases hr
      · exact .inr (.inr ⟨_, rfl⟩)
      · exact .inl rfl
    · cases hr
      exact .inl rfl

end
end IcebergRs
