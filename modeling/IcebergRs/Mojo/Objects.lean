import IcebergRs.Mojo.Catalog
import IcebergRs.Mojo.CData
import IcebergRs.Mojo.Dlopen
import IcebergRs.Mojo.Masks
import IcebergRs.Shim.ErrorChannel
import IcebergRs.Shim.Handles

/-! The objects of the Mojo binding on addresses. An object is the address that it owns; its
methods call the shim, and its destructor frees the address. -/
namespace IcebergRs.Mojo

section
variable {Scan Library α : Type}

/-- What `_open` finds. -/
def shim (env : Env Library) : Except String Library :=
  let file := if env.isMacos then "libicebergrsmojo.dylib" else "libicebergrsmojo.so"
  openLibrary env "iceberg-rs.mojo" file env.defaultRtld

/-- `_open`. -/
def openShim (env : Env Library) : Abi Scan PUnit :=
  match shim env with
  | .ok _ => pure ⟨⟩
  | .error m => .raise m

/-- `_last_error`. -/
def lastErrorText : Abi Scan String := do
  pure (readString (← Abi.ibLastError))

/-- `_fail`. -/
def raiseLast (what : String) : Abi Scan α := do
  .raise (what ++ ": " ++ (← lastErrorText))

/-- `_take_string`. -/
def takeText (p : ℕ) : Abi Scan String := do
  let s := readString (← Abi.cString p)
  Abi.ibStringFree p
  pure s

/-- A method that checks the code of one call. -/
def checked (what : String) (bad : ℤ → Bool) (call : Abi Scan ℤ) : Abi Scan ℤ := do
  let rc ← call
  if bad rc then raiseLast what else pure rc

/-- The same where the method returns nothing. -/
def status (what : String) (bad : ℤ → Bool) (call : Abi Scan ℤ) : Abi Scan PUnit := do
  let _ ← checked what bad call

/-- A method that checks the code, with the memory that the call fills. -/
def filled (what : String) (bad : ℤ → Bool) (call : Abi Scan (ℤ × α)) : Abi Scan (ℤ × α) := do
  let r ← call
  if bad r.1 then raiseLast what else pure r

/-- A method that takes over the text that a call hands out. -/
def text (what : String) (call : Abi Scan ℕ) : Abi Scan String := do
  let p ← call
  if p = 0 then raiseLast what else takeText p

/-- A method that makes a new object of what a call hands out. The library is opened for the
object afterwards, and nothing frees the address if that raises. -/
def wrapped (env : Env Library) (what : String) (call : Abi Scan ℕ) : Abi Scan ℕ := do
  let p ← call
  if p = 0 then raiseLast what
  else do
    openShim env
    pure p

end

section
variable {Scan Spec Library : Type} (crates : Crates Spec) (mem : Allocators Scan)
variable (env : Env Library)

namespace Batch
variable (b : ℕ) (name : String)

def deinit : Abi Scan PUnit := if b ≠ 0 then Abi.ibBatchFree b else pure ⟨⟩

def numRows : Abi Scan ℤ := checked "Batch.num_rows" (· < 0) (Abi.ibBatchNumRows b)

def numColumns : Abi Scan ℤ := checked "Batch.num_columns" (· < 0) (Abi.ibBatchNumColumns b)

def schemaJson : Abi Scan String :=
  text "Batch.schema_json" (Abi.ibBatchSchemaJson mem crates.arrow b crates.fmt)

/-- What `int_col` and `float_col` share, given the getter that they call. -/
def values {α : Type} (what : String) (zero : α)
    (get : CString → OutBuffers α → ℕ → Abi Scan (ℤ × OutBuffers α)) : Abi Scan (List α) := do
  let rows := (← numRows b).toNat
  let out := List.replicate rows zero
  let (got, bufs) ← filled what (· < 0) (get (arg name) ⟨unsafePtr out, none⟩ rows)
  pure (resize (owned bufs.out) got.toNat zero)

def intCol : Abi Scan (List Int64) :=
  values b name "Batch.int_col" 0 (Abi.ibBatchGetI64 crates.arrow b)

def floatCol : Abi Scan (List Float) :=
  values b name "Batch.float_col" 0.0 (Abi.ibBatchGetF64 crates.arrow b)

def boolCol : Abi Scan (List Bool) := do
  let rows := (← numRows b).toNat
  let raw := List.replicate rows (0 : UInt8)
  let (got, bufs) ← filled "Batch.bool_col" (· < 0)
    (Abi.ibBatchGetBool crates.arrow b (arg name) ⟨unsafePtr raw, none⟩ rows)
  pure (((owned bufs.out).take got.toNat).map (· != 0))

def validity : Abi Scan (List Bool) := do
  let rows := (← numRows b).toNat
  let vals := List.replicate rows (0 : Int64)
  let raw := List.replicate rows (0 : UInt8)
  let (got, bufs) ← filled "Batch.validity" (· < 0)
    (Abi.ibBatchGetI64 crates.arrow b (arg name) ⟨unsafePtr vals, unsafePtr raw⟩ rows)
  pure (((owned bufs.outValid).take got.toNat).map (· != 0))

def strCol : Abi Scan (List String) := do
  let rows := (← numRows b).toNat
  let total := (← checked "Batch.str_col" (· < 0)
    (Abi.ibBatchUtf8Size crates.arrow b (arg name))).toNat
  let offs := List.replicate (rows + 1) (0 : Int64)
  let blob := List.replicate (total + 1) (0 : UInt8)
  let (got, bufs) ← filled "Batch.str_col" (· < 0) (Abi.ibBatchGetStr crates.arrow b (arg name)
    ⟨unsafePtr offs, unsafePtr blob, none⟩ total rows)
  pure (cutStrings (owned bufs.outOffsets) (owned bufs.outBytes) got.toNat)

/-- `export_c_data`, which opens the library first. -/
def exportCData (toFfi : RecordBatch → Except String Unit) : Abi Scan ArrowCData := do
  openShim env
  let out := ArrowCData.new
  let (_, pair) ← filled "Batch.export_c_data" (· ≠ 0)
    (Abi.ibBatchExport b toFfi (some out.pair))
  pure ⟨pair.getD out.pair, true⟩

end Batch

namespace Scan
variable (s : ℕ)

def deinit : Abi Scan PUnit := if s ≠ 0 then Abi.ibScanFree s else pure ⟨⟩

def planFiles (answer : Except String (List (Except String FileScanTask))) : Abi Scan String :=
  text "Scan.plan_files" (Abi.ibScanPlanFilesJson mem s crates.fmt answer)

/-- `out` holds 0 until a batch is stored there. -/
def next (toArrow : Except String (ℕ → Poll String RecordBatch)) : Abi Scan (Option ℕ) := do
  let (rc, out) ← Abi.ibScanNext mem s toArrow true
  if rc < 0 then raiseLast "Scan.next"
  else if rc = 0 then pure none
  else do
    openShim env
    pure (some (out.getD 0))

def nextCData (toArrow : Except String (ℕ → Poll String RecordBatch))
    (toFfi : RecordBatch → Except String Unit) : Abi Scan (Option ArrowCData) := do
  openShim env
  let pull ← Abi.ibScanNextBatch s toArrow toFfi true true
  if pull.code < 0 then raiseLast "Scan.next_c_data"
  else if pull.code = 0 then pure none
  else pure (some ⟨if pull.batch.isSome then .exported else ArrowCData.new.pair, true⟩)

/-- The batches of a list that goes out of scope. -/
def dropAll : List ℕ → Abi Scan PUnit
  | [] => pure ⟨⟩
  | b :: bs => do
    Batch.deinit b
    dropAll bs

/-- The loop of `batches` with the batches so far, for a number of rounds. An error of `next`
drops the list. -/
def batchesLoop (answers : ℕ → Except String (ℕ → Poll String RecordBatch)) :
    ℕ → List ℕ → Abi Scan (List ℕ)
  | 0, _ => .lose "still draining the scan"
  | rounds + 1, out => do
    match ← (next mem env s (answers out.length)).cleanup (dropAll out) with
    | none => pure out
    | some b => batchesLoop answers rounds (out ++ [b])

def batches (answers : ℕ → Except String (ℕ → Poll String RecordBatch)) (rounds : ℕ) :
    Abi Scan (List ℕ) := batchesLoop mem env s answers rounds []

end Scan

namespace BatchBuilder
variable (b : ℕ)

def deinit : Abi Scan PUnit := if b ≠ 0 then Abi.ibBatchBuilderFree b else pure ⟨⟩

/-- The entry point for a column. -/
def supply : Supply → Abi Scan ℤ
  | .int name values valid => Abi.ibBatchBuilderInt crates.arrow b name valid values
  | .float name values valid => Abi.ibBatchBuilderFloat crates.arrow b name valid values
  | .bool name values valid => Abi.ibBatchBuilderBool crates.arrow b name valid values
  | .str name offsets bytes valid => Abi.ibBatchBuilderStr crates.arrow b name valid offsets bytes

/-- `int_col`, `float_col`, `bool_col` and `str_col`, without and with a mask. The shim reads as
many entries of a mask as there are values. -/
def col (name : String) (c : Values) (valid : Option (List Bool)) : Abi Scan PUnit :=
  match c.supply name (valid.getD []) with
  | .ok call => status c.what (· ≠ 0) (supply crates b call)
  | .err _ | .panic _ => .undefined

def build : Abi Scan ℕ :=
  wrapped env "BatchBuilder.build" (Abi.ibBatchBuilderBuild mem crates.arrow b)

end BatchBuilder

namespace Table
variable (t : ℕ)

def deinit : Abi Scan PUnit := if t ≠ 0 then Abi.ibTableFree t else pure ⟨⟩

def refresh (load : TableIdent → Except String Table) : Abi Scan PUnit :=
  status "Table.refresh" (· ≠ 0) (Abi.ibTableRefresh t load)

def metadataJson : Abi Scan String :=
  text "Table.metadata_json" (Abi.ibTableMetadataJson mem t crates.metadata)

def schemaJson : Abi Scan String :=
  text "Table.schema_json" (Abi.ibTableSchemaJson mem t crates.metadata)

def partitionSpecJson : Abi Scan String :=
  text "Table.partition_spec_json" (Abi.ibTablePartitionSpecJson mem t crates.metadata)

def snapshotsJson : Abi Scan String :=
  text "Table.snapshots_json" (Abi.ibTableSnapshotsJson mem t crates.metadata crates.fmt)

def location : Abi Scan String :=
  text "Table.location" (Abi.ibTableLocation mem t crates.metadata)

def currentSnapshotId : Abi Scan ℤ :=
  checked "Table.current_snapshot_id" (· < 0) (Abi.ibTableCurrentSnapshotId t)

def builder : Abi Scan ℕ :=
  wrapped env "Table.builder" (Abi.ibBatchBuilderNew mem crates.toArrow t)

def append (io : WriterApi) (batch : ℕ) : Abi Scan PUnit :=
  status "Table.append" (· ≠ 0) (Abi.ibTableAppend crates.arrow crates.toArrow io batch t)

/-- The pair is inert afterwards. -/
def appendCData (io : WriterApi) (answer : Except String FfiData) (data : ArrowCData) :
    Abi Scan ArrowCData := do
  let (_, pair) ← filled "Table.append_c_data" (· ≠ 0)
    (Abi.ibTableAppendBatch crates.arrow crates.toArrow io t answer (some data.pair))
  pure ⟨pair.getD data.pair, false⟩

def pendingFiles : Abi Scan ℤ :=
  checked "Table.pending_files" (· < 0) (Abi.ibTablePendingFiles t)

def commit (api : CommitApi) (catalog : Table) : Abi Scan ℤ :=
  checked "Table.commit" (· < 0) (Abi.ibTableCommit t api catalog)

def rollback : Abi Scan PUnit := status "Table.rollback" (· ≠ 0) (Abi.ibTableRollback t)

def scan (build : IcebergRs.Table → ScanRequest → Except String Scan) (columns : String)
    (snapshotId : Int64) (filter : String) : Abi Scan ℕ :=
  wrapped env "Table.scan" (Abi.ibScanNew mem crates.datum crates.ops crates.parseJson build t
    (optArg columns) snapshotId.toInt (optArg filter))

end Table

namespace Catalog
variable (load : Props → Except String (CatalogApi Spec)) (api : CatalogApi Spec) (c : ℕ)

def deinit : Abi Scan PUnit := if c ≠ 0 then Abi.ibCatalogFree c else pure ⟨⟩

/-- The constructors open the library before they call the shim. -/
def opened (what : String) (call : Abi Scan ℕ) : Abi Scan ℕ := do
  openShim env
  let p ← call
  if p = 0 then raiseLast what else pure p

def sql (uri warehouse : String) : Abi Scan ℕ :=
  opened env "Catalog.sql" (Abi.ibCatalogSqlNew mem load (arg uri) (arg warehouse))

def rest (uri warehouse propsJson : String) : Abi Scan ℕ :=
  opened env "Catalog.rest" (Abi.ibCatalogRestNew mem crates.json load (arg uri)
    (optArg warehouse) (optArg propsJson))

def listNamespaces (parent : String) : Abi Scan String :=
  text "ib_list_namespaces" (Abi.ibListNamespaces mem crates.fmt api c (optArg parent))

def createNamespace (ns propsJson : String) : Abi Scan PUnit :=
  status "Catalog.create_namespace" (· < 0)
    (Abi.ibCreateNamespace crates.json api c (arg ns) (optArg propsJson))

def namespaceExists (ns : String) : Abi Scan Bool := do
  pure ((← checked "Catalog.namespace_exists" (· < 0)
    (Abi.ibNamespaceExists api c (arg ns))) == 1)

def dropNamespace (ns : String) : Abi Scan PUnit :=
  status "Catalog.drop_namespace" (· < 0) (Abi.ibDropNamespace api c (arg ns))

def listTables (ns : String) : Abi Scan String :=
  text "ib_list_tables" (Abi.ibListTables mem crates.fmt api c (optArg ns))

def tableExists (ns name : String) : Abi Scan Bool := do
  pure ((← checked "Catalog.table_exists" (· < 0)
    (Abi.ibTableExists api c (arg ns) (arg name))) == 1)

def loadTable (ns name : String) : Abi Scan ℕ :=
  wrapped env "ib_table_load" (Abi.ibTableLoad mem api c (arg ns) (arg name))

def dropTable (ns name : String) : Abi Scan PUnit :=
  status "Catalog.drop_table" (· < 0) (Abi.ibTableDrop api c (arg ns) (arg name))

def createTable (ns name schemaJson specJson propsJson : String) : Abi Scan ℕ :=
  wrapped env "Catalog.create_table" (Abi.ibTableCreate mem crates.json api c (arg ns) (arg name)
    (arg schemaJson) (optArg specJson) (optArg propsJson))

end Catalog
end
end IcebergRs.Mojo
