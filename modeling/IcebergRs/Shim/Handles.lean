import IcebergRs.Shim.CData
import IcebergRs.Shim.Catalog
import IcebergRs.Shim.Metadata
import IcebergRs.Support.Heap
import IcebergRs.Support.Program

/-! The entry points of the C ABI on addresses. A handle is the address of a boxed object, and a
text that is handed out is the address of a C string. Reading an address that holds no object of
the kind that the call expects is undefined, and so is freeing it. -/
namespace IcebergRs

/-- What a handle or a `char*` that was handed out points to. A catalog is shared between its
handle and the tables that came from it, by the address of its reference count. -/
inductive Object (Scan : Type) where
  | catalog (inner : ℕ)
  | table (catalog : ℕ) (h : TableHandle)
  | scan (h : ScanHandle Scan)
  | batch (b : RecordBatch)
  | builder (b : BuilderHandle)
  | text (s : String)

/-- The boxed objects, the strong counts of the catalogs, and `LAST_ERR`. -/
structure Process (Scan : Type) where
  heap : Heap (Object Scan)
  catalogs : Heap ℕ
  lastError : String

abbrev Abi (Scan α : Type) := Program (Process Scan) α

/-- Where new boxes and new reference counts are put. -/
structure Allocators (Scan : Type) where
  object : Allocator (Object Scan)
  inner : Allocator ℕ

def Allocators.beyond {Scan : Type} : Allocators Scan := ⟨.beyond _, .beyond _⟩

/-- A kind of handle: the word for it in error messages, and the objects of the kind. -/
structure Kind (Scan σ : Type) where
  word : String
  make : σ → Object Scan
  view : Object Scan → Option σ
  view_eq_some : ∀ o x, view o = some x ↔ make x = o

namespace Kind
variable {Scan σ ρ : Type}

def catalog : Kind Scan ℕ where
  word := "catalog"
  make := .catalog
  view
    | .catalog inner => some inner
    | _ => none
  view_eq_some o _ := by cases o <;> simp [eq_comm]

def table : Kind Scan (ℕ × TableHandle) where
  word := "table"
  make x := .table x.1 x.2
  view
    | .table c h => some (c, h)
    | _ => none
  view_eq_some o x := by
    cases o with
    | table c h => simp [Prod.ext_iff, eq_comm]
    | _ => simp

def scan : Kind Scan (ScanHandle Scan) where
  word := "scan"
  make := .scan
  view
    | .scan h => some h
    | _ => none
  view_eq_some o _ := by cases o <;> simp [eq_comm]

def batch : Kind Scan RecordBatch where
  word := "batch"
  make := .batch
  view
    | .batch b => some b
    | _ => none
  view_eq_some o _ := by cases o <;> simp [eq_comm]

def builder : Kind Scan BuilderHandle where
  word := "batch builder"
  make := .builder
  view
    | .builder b => some b
    | _ => none
  view_eq_some o _ := by cases o <;> simp [eq_comm]

/-- C strings that were handed out. -/
def text : Kind Scan String where
  word := "string"
  make := .text
  view
    | .text s => some s
    | _ => none
  view_eq_some o _ := by cases o <;> simp [eq_comm]

/-- The object behind an address that is not null. -/
def read (k : Kind Scan σ) (p : ℕ) : Abi Scan σ := fun s =>
  match (s.heap.lookup p).bind k.view with
  | some x => .value x s
  | none => .undefined

def write (k : Kind Scan σ) (p : ℕ) (x : σ) : Abi Scan PUnit :=
  .modify fun s => { s with heap := s.heap.insert p (k.make x) }

end Kind

namespace Abi
variable {Scan σ τ ρ : Type}

/-- `set_err`, for a call that has recorded a message. -/
def record (message : Option String) : Abi Scan PUnit :=
  .modify fun s => { s with lastError := message.getD s.lastError }

/-- `as_table` and the like, and the rest of a call on the object that they give. -/
def onHandle (k : Kind Scan σ) (p : ℕ) (failure : ρ) (call : σ → Abi Scan ρ) : Abi Scan ρ :=
  if p = 0 then do
    record (some (setErr s!"{k.word} handle is null"))
    pure failure
  else do
    call (← k.read p)

/-- A call that reads and changes the object of one handle. One that panics does not return. -/
def update (k : Kind Scan σ) (p : ℕ) (failure : ρ) (call : σ → Outcome (Reply σ ρ)) :
    Abi Scan ρ :=
  onHandle k p failure fun x =>
    match call x with
    | .ok r => do
      k.write p r.state
      record r.lastError
      pure r.ret
    | .err w | .panic w => .lose w

/-- `Box::into_raw`. -/
def allocate (mem : Allocators Scan) (o : Object Scan) : Abi Scan ℕ := fun s =>
  let p := mem.object.place s.heap
  .value p { s with heap := s.heap.insert p o }

/-- `Box::from_raw`, which gives the object back to be dropped. -/
def takeBox (k : Kind Scan σ) (p : ℕ) : Abi Scan σ := do
  let x ← k.read p
  .modify fun s => { s with heap := s.heap.erase p }
  pure x

/-- `Arc::new`. -/
def newCatalog (mem : Allocators Scan) : Abi Scan ℕ := fun s =>
  let c := mem.inner.place s.catalogs
  .value c { s with catalogs := s.catalogs.insert c 1 }

/-- `Arc::clone`. -/
def cloneCatalog (c : ℕ) : Abi Scan PUnit := fun s =>
  match s.catalogs.retain c with
  | some counts => .value ⟨⟩ { s with catalogs := counts }
  | none => .undefined

/-- Dropping an `Arc`. -/
def dropCatalog (c : ℕ) : Abi Scan PUnit := fun s =>
  match s.catalogs.release c with
  | some counts => .value ⟨⟩ { s with catalogs := counts }
  | none => .undefined

/-- Work with a catalog through an `Arc`. -/
def useCatalog (c : ℕ) : Abi Scan PUnit := fun s =>
  if c ∈ s.catalogs then .value ⟨⟩ s else .undefined

/-- The pointer of a call that returns an object, null on failure. -/
def pointer {α : Type} (box : α → Abi Scan ℕ) (x : Option α) : Abi Scan ℕ :=
  match x with
  | some a => box a
  | none => pure 0

def text (mem : Allocators Scan) (x : Option String) : Abi Scan ℕ :=
  pointer (fun s => allocate mem (.text s)) x

/-- The rest of a call that leaves the object of its handle alone. -/
def answer (r : Reply τ ρ) : Abi Scan ρ := do
  record r.lastError
  pure r.ret

/-- The same for a call that fills memory of its caller. -/
def answerInto (r : Reply τ ρ) : Abi Scan (ρ × τ) := do
  record r.lastError
  pure (r.ret, r.state)

/-- `ib_last_error`; the message stays where it is. -/
def ibLastError : Abi Scan CString := .ask fun s => cName s.lastError

def ibStringFree (p : ℕ) : Abi Scan PUnit :=
  if p = 0 then pure ⟨⟩ else do
    let _ ← takeBox .text p

/-- The memory behind a `char*` that was handed out. -/
def cString (p : ℕ) : Abi Scan CString :=
  if p = 0 then pure none else do
    pure (cName (← Kind.text.read p))

/-! The catalog that a call works with answers for it. -/
section
variable (mem : Allocators Scan) {Spec : Type} (json : FromJson Spec) (fmt : Float → String)

/-- `boxed` of `catalog.rs`. -/
def boxedCatalog : Abi Scan ℕ := do
  let inner ← newCatalog mem
  allocate mem (.catalog inner)

def ibCatalogRestNew (load : Props → Except String (CatalogApi Spec))
    (uri warehouse propsJson : CString) : Abi Scan ℕ := do
  let c ← answer (IcebergRs.ibCatalogRestNew json load uri warehouse propsJson)
  pointer (fun _ => boxedCatalog mem) c

def ibCatalogSqlNew (load : Props → Except String (CatalogApi Spec)) (uri warehouse : CString) :
    Abi Scan ℕ := do
  let c ← answer (IcebergRs.ibCatalogSqlNew load uri warehouse)
  pointer (fun _ => boxedCatalog mem) c

def ibCatalogFree (cat : ℕ) : Abi Scan PUnit :=
  if cat = 0 then pure ⟨⟩ else do
    dropCatalog (← takeBox .catalog cat)

def onCatalog (cat : ℕ) (failure : ρ) (call : ℕ → Abi Scan ρ) : Abi Scan ρ :=
  onHandle .catalog cat failure fun inner => do
    useCatalog inner
    call inner

variable (api : CatalogApi Spec) (cat : ℕ)

def ibListNamespaces (parent : CString) : Abi Scan ℕ :=
  onCatalog cat 0 fun _ => do
    text mem (← answer (IcebergRs.ibListNamespaces fmt api parent))

def ibCreateNamespace (ns propsJson : CString) : Abi Scan ℤ :=
  onCatalog cat (-1) fun _ => answer (IcebergRs.ibCreateNamespace json api ns propsJson)

def ibNamespaceExists (ns : CString) : Abi Scan ℤ :=
  onCatalog cat (-1) fun _ => answer (IcebergRs.ibNamespaceExists api ns)

def ibDropNamespace (ns : CString) : Abi Scan ℤ :=
  onCatalog cat (-1) fun _ => answer (IcebergRs.ibDropNamespace api ns)

def ibListTables (ns : CString) : Abi Scan ℕ :=
  onCatalog cat 0 fun _ => do
    text mem (← answer (IcebergRs.ibListTables fmt api ns))

/-- `TableHandle::boxed`. -/
def boxedTable (inner : ℕ) (h : TableHandle) : Abi Scan ℕ := do
  cloneCatalog inner
  allocate mem (.table inner h)

def ibTableLoad (ns name : CString) : Abi Scan ℕ :=
  onCatalog cat 0 fun inner => do
    pointer (boxedTable mem inner) (← answer (IcebergRs.ibTableLoad api ns name))

def ibTableCreate (ns name schemaJson partitionSpecJson propsJson : CString) : Abi Scan ℕ :=
  onCatalog cat 0 fun inner => do
    pointer (boxedTable mem inner)
      (← answer (IcebergRs.ibTableCreate json api ns name schemaJson partitionSpecJson propsJson))

def ibTableExists (ns name : CString) : Abi Scan ℤ :=
  onCatalog cat (-1) fun _ => answer (IcebergRs.ibTableExists api ns name)

def ibTableDrop (ns name : CString) : Abi Scan ℤ :=
  onCatalog cat (-1) fun _ => answer (IcebergRs.ibTableDrop api ns name)

end

section
variable (mem : Allocators Scan) (t : ℕ)

def ibTableFree : Abi Scan PUnit :=
  if t = 0 then pure ⟨⟩ else do
    let x ← takeBox .table t
    dropCatalog x.1

/-- The rest of a call on a table handle, which keeps its catalog. -/
def putTable (inner : ℕ) (r : Reply TableHandle ρ) : Abi Scan ρ := do
  Kind.table.write t (inner, r.state)
  answer r

def onTable (failure : ρ) (call : TableHandle → Reply TableHandle ρ) : Abi Scan ρ :=
  onHandle .table t failure fun x => putTable t x.1 (call x.2)

def ibTableRefresh (load : TableIdent → Except String Table) : Abi Scan ℤ :=
  onHandle .table t (-1) fun x => do
    useCatalog x.1
    putTable t x.1 (IcebergRs.ibTableRefresh load x.2)

variable (api : MetadataApi) (fmt : Float → String)

def ibTableMetadataJson : Abi Scan ℕ := do
  text mem (← onTable t none (IcebergRs.ibTableMetadataJson api))

def ibTableSchemaJson : Abi Scan ℕ := do
  text mem (← onTable t none (IcebergRs.ibTableSchemaJson api))

def ibTablePartitionSpecJson : Abi Scan ℕ := do
  text mem (← onTable t none (IcebergRs.ibTablePartitionSpecJson api))

def ibTableLocation : Abi Scan ℕ := do
  text mem (← onTable t none (IcebergRs.ibTableLocation api))

def ibTableCurrentSnapshotId : Abi Scan ℤ := onTable t (-1) IcebergRs.ibTableCurrentSnapshotId

def ibTableSnapshotsJson : Abi Scan ℕ := do
  text mem (← onTable t none (IcebergRs.ibTableSnapshotsJson api fmt))

end

section
variable (mem : Allocators Scan) (s : ℕ)

def ibScanNew (datum : DatumApi) (ops : PredicateOps) (parseJson : String → Except String Json)
    (build : Table → ScanRequest → Except String Scan) (t : ℕ) (columnsCsv : CString)
    (snapshotId : ℤ) (filterJson : CString) : Abi Scan ℕ :=
  onHandle .table t 0 fun x =>
    match IcebergRs.ibScanNew datum ops parseJson build x.2 columnsCsv snapshotId filterJson with
    | .ok r => do
      pointer (fun h => allocate mem (.scan h)) (← answer r)
    | .err w | .panic w => .lose w

def ibScanFree : Abi Scan PUnit :=
  if s = 0 then pure ⟨⟩ else do
    let _ ← takeBox .scan s

def ibScanPlanFilesJson (fmt : Float → String)
    (planFiles : Except String (List (Except String FileScanTask))) : Abi Scan ℕ := do
  text mem (← update .scan s none fun h => .ok (IcebergRs.ibScanPlanFilesJson fmt planFiles h))

/-- What is stored behind `out_batch` comes with the code. -/
def ibScanNext (toArrow : Except String (ℕ → Poll String RecordBatch)) (outBatch : Bool) :
    Abi Scan (ℤ × Option ℕ) := do
  let p ← update .scan s ⟨-1, none⟩ fun h => IcebergRs.ibScanNext toArrow h outBatch
  match p.batch with
  | none => pure (p.code, none)
  | some b => do
    pure (p.code, some (← allocate mem (.batch b)))

/-- The batch that is exported comes with the code. -/
def ibScanNextBatch (toArrow : Except String (ℕ → Poll String RecordBatch))
    (toFfi : RecordBatch → Except String Unit) (outArray outSchema : Bool) : Abi Scan Pull :=
  update .scan s ⟨-1, none⟩ fun h =>
    IcebergRs.ibScanNextBatch toArrow toFfi h outArray outSchema

end

section
variable (mem : Allocators Scan) (A : Arrow) (b : ℕ)

def ibBatchFree : Abi Scan PUnit :=
  if b = 0 then pure ⟨⟩ else do
    let _ ← takeBox .batch b

def ibBatchNumRows : Abi Scan ℤ :=
  onHandle .batch b (-1) fun x => answer (IcebergRs.ibBatchNumRows x)

def ibBatchNumColumns : Abi Scan ℤ :=
  onHandle .batch b (-1) fun x => answer (IcebergRs.ibBatchNumColumns x)

def ibBatchSchemaJson (fmt : Float → String) : Abi Scan ℕ :=
  onHandle .batch b 0 fun x => do
    text mem (← answer (IcebergRs.ibBatchSchemaJson A fmt x))

def ibBatchGetI64 (name : CString) (bufs : OutBuffers Int64) (cap : ℕ) :
    Abi Scan (ℤ × OutBuffers Int64) :=
  onHandle .batch b (-1, bufs) fun x => answerInto (IcebergRs.ibBatchGetI64 A x name bufs cap)

def ibBatchGetF64 (name : CString) (bufs : OutBuffers Float) (cap : ℕ) :
    Abi Scan (ℤ × OutBuffers Float) :=
  onHandle .batch b (-1, bufs) fun x => answerInto (IcebergRs.ibBatchGetF64 A x name bufs cap)

def ibBatchGetBool (name : CString) (bufs : OutBuffers UInt8) (cap : ℕ) :
    Abi Scan (ℤ × OutBuffers UInt8) :=
  onHandle .batch b (-1, bufs) fun x => answerInto (IcebergRs.ibBatchGetBool A x name bufs cap)

def ibBatchUtf8Size (name : CString) : Abi Scan ℤ :=
  onHandle .batch b (-1) fun x => answer (IcebergRs.ibBatchUtf8Size A x name)

def ibBatchGetStr (name : CString) (bufs : StrBuffers) (bytesCap cap : ℕ) :
    Abi Scan (ℤ × StrBuffers) :=
  onHandle .batch b (-1, bufs) fun x =>
    answerInto (IcebergRs.ibBatchGetStr A x name bufs bytesCap cap)

def ibBatchExport (toFfi : RecordBatch → Except String Unit) (out : Option FfiPair) :
    Abi Scan (ℤ × Option FfiPair) :=
  onHandle .batch b (-1, out) fun x => answerInto (IcebergRs.ibBatchExport toFfi x out)

def ibBatchImport (answer : Except String FfiData) (pair : Option FfiPair) :
    Abi Scan (ℕ × Option FfiPair) := do
  let (batch, pair) ← answerInto (IcebergRs.ibBatchImport answer pair)
  pure (← pointer (fun b => allocate mem (.batch b)) batch, pair)

end

section
variable (mem : Allocators Scan) (A : Arrow) (toArrow : SchemaToArrow) (io : WriterApi)
variable (b t : ℕ) (name : CString)

def ibBatchBuilderNew : Abi Scan ℕ :=
  onHandle .table t 0 fun x => do
    pointer (fun h => allocate mem (.builder h))
      (← answer (IcebergRs.ibBatchBuilderNew toArrow x.2))

def ibBatchBuilderFree : Abi Scan PUnit :=
  if b = 0 then pure ⟨⟩ else do
    let _ ← takeBox .builder b

section
variable {n : ℕ} (valid : Option (Vector UInt8 n))

def ibBatchBuilderInt (values : Option (Vector Int64 n)) : Abi Scan ℤ :=
  update .builder b (-1) fun h => IcebergRs.ibBatchBuilderInt A h name values valid

def ibBatchBuilderFloat (values : Option (Vector Float n)) : Abi Scan ℤ :=
  update .builder b (-1) fun h => IcebergRs.ibBatchBuilderFloat A h name values valid

def ibBatchBuilderBool (values : Option (Vector UInt8 n)) : Abi Scan ℤ :=
  update .builder b (-1) fun h => IcebergRs.ibBatchBuilderBool A h name values valid

def ibBatchBuilderStr (offsets : Option (Vector Int64 (n + 1))) (bytes : Option (List UInt8)) :
    Abi Scan ℤ :=
  update .builder b (-1) fun h => IcebergRs.ibBatchBuilderStr A h name offsets bytes valid

end

def ibBatchBuilderBuild : Abi Scan ℕ :=
  onHandle .builder b 0 fun x => do
    pointer (fun h => allocate mem (.batch h)) (← answer (IcebergRs.ibBatchBuilderBuild A x))

def ibTableAppend : Abi Scan ℤ :=
  onHandle .table t (-1) fun x =>
    onHandle .batch b (-1) fun batch =>
      putTable t x.1 (IcebergRs.ibTableAppend A toArrow io x.2 batch)

/-- The pair is memory of the caller. -/
def ibTableAppendBatch (answer : Except String FfiData) (pair : Option FfiPair) :
    Abi Scan (ℤ × Option FfiPair) :=
  onHandle .table t (-1, pair) fun x => do
    let r := Memory.ibTableAppendBatch A toArrow io answer (some x.2) pair
    Kind.table.write t (x.1, r.state.1.getD x.2)
    record r.lastError
    pure (r.ret, r.state.2)

def ibTablePendingFiles : Abi Scan ℤ := onTable t (-1) IcebergRs.ibTablePendingFiles

/-- The commit goes through a clone of the `Arc` that it drops again. -/
def ibTableCommit (api : CommitApi) (catalog : Table) : Abi Scan ℤ :=
  onHandle .table t (-1) fun x => do
    if !x.2.pending.isEmpty then useCatalog x.1
    let r := IcebergRs.ibTableCommit api catalog x.2
    putTable t x.1 ⟨r.ret, r.state.1, r.lastError⟩

def ibTableRollback : Abi Scan ℤ := onTable t (-1) IcebergRs.ibTableRollback

end
end Abi
end IcebergRs
