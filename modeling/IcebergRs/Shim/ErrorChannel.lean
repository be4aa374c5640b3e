import IcebergRs.Shim.ErrorReplies

/-! The error channel of the C ABI: calls of all entry points that have a failure value, with
any arguments, null handles included, and any answers from outside. -/
namespace IcebergRs

/-- What the entry points take from other crates. -/
structure Crates (Spec : Type) where
  arrow : Arrow
  toArrow : SchemaToArrow
  datum : DatumApi
  ops : PredicateOps
  metadata : MetadataApi
  json : FromJson Spec
  parseJson : String → Except String Json
  fmt : Float → String

/-- A handle is `none` where it is null. The answers that a call gets from the catalog, the
scan and the writers are part of the call. -/
inductive Call (Spec Scan : Type) where
  | catalogRestNew (load : Props → Except String (CatalogApi Spec))
      (uri warehouse propsJson : CString)
  | catalogSqlNew (load : Props → Except String (CatalogApi Spec)) (uri warehouse : CString)
  | listNamespaces (cat : Option (CatalogApi Spec)) (parent : CString)
  | createNamespace (cat : Option (CatalogApi Spec)) (ns propsJson : CString)
  | namespaceExists (cat : Option (CatalogApi Spec)) (ns : CString)
  | dropNamespace (cat : Option (CatalogApi Spec)) (ns : CString)
  | listTables (cat : Option (CatalogApi Spec)) (ns : CString)
  | tableLoad (cat : Option (CatalogApi Spec)) (ns name : CString)
  | tableCreate (cat : Option (CatalogApi Spec))
      (ns name schemaJson partitionSpecJson propsJson : CString)
  | tableExists (cat : Option (CatalogApi Spec)) (ns name : CString)
  | tableDrop (cat : Option (CatalogApi Spec)) (ns name : CString)
  | tableRefresh (load : TableIdent → Except String Table) (t : Option TableHandle)
  | tableMetadataJson (t : Option TableHandle)
  | tableSchemaJson (t : Option TableHandle)
  | tablePartitionSpecJson (t : Option TableHandle)
  | tableLocation (t : Option TableHandle)
  | tableCurrentSnapshotId (t : Option TableHandle)
  | tableSnapshotsJson (t : Option TableHandle)
  | scanNew (build : Table → ScanRequest → Except String Scan) (t : Option TableHandle)
      (columnsCsv : CString) (snapshotId : ℤ) (filterJson : CString)
  | scanPlanFilesJson (planFiles : Except String (List (Except String FileScanTask)))
      (s : Option (ScanHandle Scan))
  | scanNext (start : Except String (ℕ → Poll String RecordBatch))
      (s : Option (ScanHandle Scan)) (outBatch : Bool)
  | scanNextBatch (start : Except String (ℕ → Poll String RecordBatch))
      (toFfi : RecordBatch → Except String Unit) (s : Option (ScanHandle Scan))
      (outArray outSchema : Bool)
  | batchNumRows (b : Option RecordBatch)
  | batchNumColumns (b : Option RecordBatch)
  | batchSchemaJson (b : Option RecordBatch)
  | batchGetI64 (b : Option RecordBatch) (name : CString) (bufs : OutBuffers Int64) (cap : ℕ)
  | batchGetF64 (b : Option RecordBatch) (name : CString) (bufs : OutBuffers Float) (cap : ℕ)
  | batchGetBool (b : Option RecordBatch) (name : CString) (bufs : OutBuffers UInt8) (cap : ℕ)
  | batchUtf8Size (b : Option RecordBatch) (name : CString)
  | batchGetStr (b : Option RecordBatch) (name : CString) (bufs : StrBuffers) (bytesCap cap : ℕ)
  | batchExport (toFfi : RecordBatch → Except String Unit) (b : Option RecordBatch)
      (out : Option FfiPair)
  | batchImport (answer : Except String FfiData) (pair : Option FfiPair)
  | batchBuilderNew (t : Option TableHandle)
  | batchBuilderInt {n : ℕ} (b : Option BuilderHandle) (name : CString)
      (values : Option (Vector Int64 n)) (valid : Option (Vector UInt8 n))
  | batchBuilderFloat {n : ℕ} (b : Option BuilderHandle) (name : CString)
      (values : Option (Vector Float n)) (valid : Option (Vector UInt8 n))
  | batchBuilderBool {n : ℕ} (b : Option BuilderHandle) (name : CString)
      (values valid : Option (Vector UInt8 n))
  | batchBuilderStr {n : ℕ} (b : Option BuilderHandle) (name : CString)
      (offsets : Option (Vector Int64 (n + 1))) (bytes : Option (List UInt8))
      (valid : Option (Vector UInt8 n))
  | batchBuilderBuild (b : Option BuilderHandle)
  | tableAppend (io : WriterApi) (t : Option TableHandle) (b : Option RecordBatch)
  | tableAppendBatch (io : WriterApi) (answer : Except String FfiData) (t : Option TableHandle)
      (pair : Option FfiPair)
  | tablePendingFiles (t : Option TableHandle)
  | tableCommit (api : CommitApi) (catalog : Table) (t : Option TableHandle)
  | tableRollback (t : Option TableHandle)
  | stringLen (s : CString)
  | stringCopy (s : CString) (out : Option (List UInt8)) (cap : ℕ)

/-- A number, or a pointer that may be null. -/
inductive Ret where
  | code (c : ℤ)
  | pointer (live : Bool)
  deriving DecidableEq

namespace Reply
variable {σ α : Type}

def code (r : Reply σ ℤ) : Reply Unit Ret := ⟨.code r.ret, (), r.lastError⟩

def address (r : Reply σ (Option α)) : Reply Unit Ret := ⟨.pointer r.ret.isSome, (), r.lastError⟩

def pulled (r : Reply σ Pull) : Reply Unit Ret := ⟨.code r.ret.code, (), r.lastError⟩

end Reply

/-- The check that every call on a handle starts with. -/
def onHandle {σ : Type} (kind : String) (failure : Ret) (h : Option σ)
    (call : σ → Outcome (Reply Unit Ret)) : Outcome (Reply Unit Ret) :=
  match h with
  | none => .ok (.fail () failure s!"{kind} handle is null")
  | some h => call h

namespace Call
variable {Spec Scan : Type} (crates : Crates Spec)

def onCatalog (failure : Ret) (cat : Option (CatalogApi Spec))
    (call : CatalogApi Spec → Reply Unit Ret) : Outcome (Reply Unit Ret) :=
  onHandle "catalog" failure cat fun cat => .ok (call cat)

def onTable (failure : Ret) (t : Option TableHandle) (call : TableHandle → Reply Unit Ret) :
    Outcome (Reply Unit Ret) :=
  onHandle "table" failure t fun t => .ok (call t)

def onBatch (failure : Ret) (b : Option RecordBatch) (call : RecordBatch → Reply Unit Ret) :
    Outcome (Reply Unit Ret) :=
  onHandle "batch" failure b fun b => .ok (call b)

def onBuilder (b : Option BuilderHandle)
    (call : BuilderHandle → Outcome (Reply BuilderHandle ℤ)) : Outcome (Reply Unit Ret) :=
  onHandle "batch builder" (.code (-1)) b fun b => do pure (← call b).code

/-- What the call returns, and the message it records. -/
def reply : Call Spec Scan → Outcome (Reply Unit Ret)
  | catalogRestNew load uri warehouse propsJson =>
    .ok (ibCatalogRestNew crates.json load uri warehouse propsJson).address
  | catalogSqlNew load uri warehouse => .ok (ibCatalogSqlNew load uri warehouse).address
  | listNamespaces cat parent =>
    onCatalog (.pointer false) cat fun c => (ibListNamespaces crates.fmt c parent).address
  | createNamespace cat ns propsJson =>
    onCatalog (.code (-1)) cat fun c => (ibCreateNamespace crates.json c ns propsJson).code
  | namespaceExists cat ns => onCatalog (.code (-1)) cat fun c => (ibNamespaceExists c ns).code
  | dropNamespace cat ns => onCatalog (.code (-1)) cat fun c => (ibDropNamespace c ns).code
  | listTables cat ns =>
    onCatalog (.pointer false) cat fun c => (ibListTables crates.fmt c ns).address
  | tableLoad cat ns name =>
    onCatalog (.pointer false) cat fun c => (ibTableLoad c ns name).address
  | tableCreate cat ns name schemaJson partitionSpecJson propsJson =>
    onCatalog (.pointer false) cat fun c =>
      (ibTableCreate crates.json c ns name schemaJson partitionSpecJson propsJson).address
  | tableExists cat ns name => onCatalog (.code (-1)) cat fun c => (ibTableExists c ns name).code
  | tableDrop cat ns name => onCatalog (.code (-1)) cat fun c => (ibTableDrop c ns name).code
  | tableRefresh load t => onTable (.code (-1)) t fun t => (ibTableRefresh load t).code
  | tableMetadataJson t =>
    onTable (.pointer false) t fun t => (ibTableMetadataJson crates.metadata t).address
  | tableSchemaJson t =>
    onTable (.pointer false) t fun t => (ibTableSchemaJson crates.metadata t).address
  | tablePartitionSpecJson t =>
    onTable (.pointer false) t fun t => (ibTablePartitionSpecJson crates.metadata t).address
  | tableLocation t =>
    onTable (.pointer false) t fun t => (ibTableLocation crates.metadata t).address
  | tableCurrentSnapshotId t => onTable (.code (-1)) t fun t => (ibTableCurrentSnapshotId t).code
  | tableSnapshotsJson t =>
    onTable (.pointer false) t fun t => (ibTableSnapshotsJson crates.metadata crates.fmt t).address
  | scanNew build t columnsCsv snapshotId filterJson =>
    onHandle "table" (.pointer false) t fun t => do
      pure (← ibScanNew crates.datum crates.ops crates.parseJson build t columnsCsv snapshotId
        filterJson).address
  | scanPlanFilesJson planFiles s =>
    onHandle "scan" (.pointer false) s fun s =>
      .ok (ibScanPlanFilesJson crates.fmt planFiles s).address
  | scanNext start s outBatch =>
    onHandle "scan" (.code (-1)) s fun s => do pure (← ibScanNext start s outBatch).pulled
  | scanNextBatch start toFfi s outArray outSchema =>
    onHandle "scan" (.code (-1)) s fun s => do
      pure (← ibScanNextBatch start toFfi s outArray outSchema).pulled
  | batchNumRows b => onBatch (.code (-1)) b fun b => (ibBatchNumRows b).code
  | batchNumColumns b => onBatch (.code (-1)) b fun b => (ibBatchNumColumns b).code
  | batchSchemaJson b =>
    onBatch (.pointer false) b fun b => (ibBatchSchemaJson crates.arrow crates.fmt b).address
  | batchGetI64 b name bufs cap =>
    onBatch (.code (-1)) b fun b => (ibBatchGetI64 crates.arrow b name bufs cap).code
  | batchGetF64 b name bufs cap =>
    onBatch (.code (-1)) b fun b => (ibBatchGetF64 crates.arrow b name bufs cap).code
  | batchGetBool b name bufs cap =>
    onBatch (.code (-1)) b fun b => (ibBatchGetBool crates.arrow b name bufs cap).code
  | batchUtf8Size b name =>
    onBatch (.code (-1)) b fun b => (ibBatchUtf8Size crates.arrow b name).code
  | batchGetStr b name bufs bytesCap cap =>
    onBatch (.code (-1)) b fun b => (ibBatchGetStr crates.arrow b name bufs bytesCap cap).code
  | batchExport toFfi b out => onBatch (.code (-1)) b fun b => (ibBatchExport toFfi b out).code
  | batchImport answer pair => .ok (ibBatchImport answer pair).address
  | batchBuilderNew t =>
    onTable (.pointer false) t fun t => (ibBatchBuilderNew crates.toArrow t).address
  | batchBuilderInt b name values valid =>
    onBuilder b fun b => ibBatchBuilderInt crates.arrow b name values valid
  | batchBuilderFloat b name values valid =>
    onBuilder b fun b => ibBatchBuilderFloat crates.arrow b name values valid
  | batchBuilderBool b name values valid =>
    onBuilder b fun b => ibBatchBuilderBool crates.arrow b name values valid
  | batchBuilderStr b name offsets bytes valid =>
    onBuilder b fun b => ibBatchBuilderStr crates.arrow b name offsets bytes valid
  | batchBuilderBuild b =>
    onHandle "batch builder" (.pointer false) b fun b =>
      .ok (ibBatchBuilderBuild crates.arrow b).address
  | tableAppend io t b =>
    onHandle "table" (.code (-1)) t fun t =>
      onBatch (.code (-1)) b fun b => (ibTableAppend crates.arrow crates.toArrow io t b).code
  | tableAppendBatch io answer t pair =>
    .ok (Memory.ibTableAppendBatch crates.arrow crates.toArrow io answer t pair).code
  | tablePendingFiles t => onTable (.code (-1)) t fun t => (ibTablePendingFiles t).code
  | tableCommit api catalog t => onTable (.code (-1)) t fun t => (ibTableCommit api catalog t).code
  | tableRollback t => onTable (.code (-1)) t fun t => (ibTableRollback t).code
  | stringLen s => .ok (ibStringLen s).code
  | stringCopy s out cap => .ok (ibStringCopy s out cap).code

/-- The failure values of the entry point: null or -1, and also -2 where it documents that. -/
def Failure : Call Spec Scan → Ret → Prop
  | batchGetStr .., ret => ret = .code (-1) ∨ ret = .code (-2)
  | _, ret => ret = .code (-1) ∨ ret = .pointer false

/-- Whatever the call returns is a failure value exactly when it recorded a message. -/
def Faithful (call : Call Spec Scan) : Prop :=
  ∀ r, call.reply crates = .ok r → r.Tells call.Failure

theorem onHandle_ne_err {σ : Type} {kind m : String} {failure : Ret} {h : Option σ}
    {call : σ → Outcome (Reply Unit Ret)} (hc : ∀ x, call x ≠ .err m) :
    onHandle kind failure h call ≠ .err m := by
  cases h with
  | none => simp [onHandle]
  | some x => exact hc x

theorem translated_ne_err {α : Type} {x : Outcome α} {g : α → Reply Unit Ret} {m : String}
    (hx : x ≠ .err m) : (do pure (g (← x)) : Outcome (Reply Unit Ret)) ≠ .err m :=
  Outcome.bind_ne_err hx fun _ => by simp

/-- A call returns unless it panics. -/
theorem reply_ne_err (call : Call Spec Scan) (m : String) : call.reply crates ≠ .err m := by
  cases call with
  | scanNew => exact onHandle_ne_err fun _ => translated_ne_err ibScanNew_ne_err
  | scanNext => exact onHandle_ne_err fun _ => translated_ne_err ibScanNext_ne_err
  | scanNextBatch => exact onHandle_ne_err fun _ => translated_ne_err ibScanNextBatch_ne_err
  | batchBuilderInt => exact onHandle_ne_err fun _ => translated_ne_err supplyColumn_ne_err
  | batchBuilderFloat => exact onHandle_ne_err fun _ => translated_ne_err supplyColumn_ne_err
  | batchBuilderBool => exact onHandle_ne_err fun _ => translated_ne_err supplyColumn_ne_err
  | batchBuilderStr => exact onHandle_ne_err fun _ => translated_ne_err supplyColumn_ne_err
  | tableAppend => exact onHandle_ne_err fun _ => onHandle_ne_err fun _ => by simp
  | catalogRestNew | catalogSqlNew | batchImport | tableAppendBatch | stringLen | stringCopy =>
    simp [reply]
  | _ => exact onHandle_ne_err fun _ => by simp

/-- After a failure the message is one of the failing call, whatever it was before. -/
theorem Faithful.message {crates : Crates Spec} {call : Call Spec Scan}
    (h : call.Faithful crates) {r : Reply Unit Ret} (hr : call.reply crates = .ok r)
    (failed : call.Failure r.ret) : ∃ m, ∀ before, r.ibLastError before = m := by
  obtain ⟨m, hm⟩ := Option.isSome_iff_exists.mp ((h r hr).mp failed)
  exact ⟨m, fun before => by rw [Reply.ibLastError, hm, Option.getD_some]⟩

/-- The string calls get no null pointers, no count that is returned wraps around to -1, and no
snapshot id that is returned is -1. -/
def Sound : Call Spec Scan → Prop
  | tableCurrentSnapshotId t => ∀ h ∈ t, h.table.currentSnapshotId ≠ some (-1)
  | batchNumRows b => ∀ batch ∈ b, batch.numRows % 2 ^ 64 ≠ 2 ^ 64 - 1
  | batchNumColumns b => ∀ batch ∈ b, batch.columns.length % 2 ^ 32 ≠ 2 ^ 32 - 1
  | tableCommit api catalog t => ∀ h ∈ t, CommitSound api catalog h
  | stringLen s => s.isSome
  | stringCopy s out cap => s.isSome ∧ (out.isSome ∨ cap = 0)
  | _ => True

/-- The failure values of every call but the one that also returns -2. -/
def Failed (ret : Ret) : Prop := ret = .code (-1) ∨ ret = .pointer false

section
variable {σ τ α : Type} {kind : String} {h : Option σ}

theorem code_tells {r : Reply τ ℤ} : r.code.Tells Failed ↔ r.Tells (· = -1) := by
  simp [Reply.Tells, Reply.code, Failed]

theorem address_tells {r : Reply τ (Option α)} : r.address.Tells Failed ↔ r.Tells (· = none) := by
  simp [Reply.Tells, Reply.address, Failed]

theorem pulled_tells {r : Reply τ Pull} :
    r.pulled.Tells Failed ↔ r.Tells (fun p => p.code = -1) := by
  simp [Reply.Tells, Reply.pulled, Failed]

theorem onHandle_tells {bad : Ret → Prop} {failure : Ret} (hf : bad failure)
    {call : σ → Outcome (Reply Unit Ret)} :
    (∀ r, onHandle kind failure h call = .ok r → r.Tells bad) ↔
      ∀ x ∈ h, ∀ r, call x = .ok r → r.Tells bad := by
  cases h with
  | none => simp [onHandle, hf]
  | some x => simp [onHandle]

theorem onHandle_code {f : σ → Reply τ ℤ} :
    (∀ r, onHandle kind (.code (-1)) h (fun x => .ok (f x).code) = .ok r → r.Tells Failed) ↔
      ∀ x ∈ h, (f x).Tells (· = -1) := by
  rw [onHandle_tells (.inl rfl)]
  simp [code_tells]

theorem onHandle_address {f : σ → Reply τ (Option α)} :
    (∀ r, onHandle kind (.pointer false) h (fun x => .ok (f x).address) = .ok r →
      r.Tells Failed) ↔ ∀ x ∈ h, (f x).Tells (· = none) := by
  rw [onHandle_tells (.inr rfl)]
  simp [address_tells]

/-- The same for a call whose outcome is translated afterwards. -/
theorem onHandle_bind {ρ : Type} {failure : Ret} (hf : Failed failure)
    {call : σ → Outcome (Reply τ ρ)} {g : Reply τ ρ → Reply Unit Ret}
    (hg : ∀ x ∈ h, ∀ r, call x = .ok r → (g r).Tells Failed) :
    ∀ r, onHandle kind failure h (fun x => do pure (g (← call x))) = .ok r → r.Tells Failed := by
  rw [onHandle_tells hf]
  intro x hx r hr
  obtain ⟨r', hr', ht⟩ := Outcome.bind_eq_ok.mp hr
  obtain rfl := Outcome.ok.inj ht
  exact hg x hx r' hr'

theorem ok_tells {bad : Ret → Prop} {r : Reply Unit Ret} :
    (∀ r', Outcome.ok r = .ok r' → r'.Tells bad) ↔ r.Tells bad := by
  simp

end

theorem onBuilder_tells {b : Option BuilderHandle}
    {call : BuilderHandle → Outcome (Reply BuilderHandle ℤ)}
    (h : ∀ b r, call b = .ok r → r.Tells (· = -1)) :
    ∀ r, onBuilder b call = .ok r → r.Tells Failed :=
  onHandle_bind (.inl rfl) fun b _ r hr => code_tells.mpr (h b r hr)

/-- The error channel is faithful exactly for the sound calls. -/
theorem faithful_iff_sound (call : Call Spec Scan) : call.Faithful crates ↔ call.Sound := by
  have plain (h : call.Faithful crates) (hs : call.Sound) : call.Faithful crates ↔ call.Sound :=
    iff_of_true h hs
  cases call with
  | catalogRestNew => exact plain (ok_tells.mpr (address_tells.mpr (Reply.pointer_tells _))) trivial
  | catalogSqlNew => exact plain (ok_tells.mpr (address_tells.mpr (Reply.pointer_tells _))) trivial
  | listNamespaces => exact plain (onHandle_address.mpr fun _ _ => Reply.pointer_tells _) trivial
  | createNamespace => exact plain (onHandle_code.mpr fun _ _ => Reply.status_tells _) trivial
  | namespaceExists => exact plain (onHandle_code.mpr fun _ _ => Reply.flag_tells _) trivial
  | dropNamespace => exact plain (onHandle_code.mpr fun _ _ => Reply.status_tells _) trivial
  | listTables => exact plain (onHandle_address.mpr fun _ _ => Reply.pointer_tells _) trivial
  | tableLoad => exact plain (onHandle_address.mpr fun _ _ => Reply.pointer_tells _) trivial
  | tableCreate => exact plain (onHandle_address.mpr fun _ _ => Reply.pointer_tells _) trivial
  | tableExists => exact plain (onHandle_code.mpr fun _ _ => Reply.flag_tells _) trivial
  | tableDrop => exact plain (onHandle_code.mpr fun _ _ => Reply.status_tells _) trivial
  | tableRefresh => exact plain (onHandle_code.mpr fun _ _ => ibTableRefresh_tells ..) trivial
  | tableMetadataJson => exact plain (onHandle_address.mpr fun _ _ => Reply.pointer_tells _) trivial
  | tableSchemaJson => exact plain (onHandle_address.mpr fun _ _ => Reply.pointer_tells _) trivial
  | tablePartitionSpecJson =>
    exact plain (onHandle_address.mpr fun _ _ => Reply.pointer_tells _) trivial
  | tableLocation => exact plain (onHandle_address.mpr fun _ _ => Reply.pointer_tells _) trivial
  | tableCurrentSnapshotId t =>
    refine onHandle_code.trans (forall₂_congr fun h _ => ?_)
    rw [ibTableCurrentSnapshotId, Reply.done_tells, currentSnapshotIdOr0_eq_neg_one]
  | tableSnapshotsJson =>
    exact plain (onHandle_address.mpr fun _ _ => Reply.pointer_tells _) trivial
  | scanNew =>
    refine plain (onHandle_bind (.inr rfl) fun _ _ _ hr => ?_) trivial
    exact address_tells.mpr (ibScanNew_tells hr)
  | scanPlanFilesJson =>
    exact plain (onHandle_address.mpr fun _ _ => ibScanPlanFilesJson_tells ..) trivial
  | scanNext =>
    refine plain (onHandle_bind (.inl rfl) fun _ _ _ hr => ?_) trivial
    exact pulled_tells.mpr (ibScanNext_tells hr)
  | scanNextBatch =>
    refine plain (onHandle_bind (.inl rfl) fun _ _ _ hr => ?_) trivial
    exact pulled_tells.mpr (ibScanNextBatch_tells hr)
  | batchNumRows b =>
    exact onHandle_code.trans (forall₂_congr fun batch _ => ibBatchNumRows_tells_iff batch)
  | batchNumColumns b =>
    exact onHandle_code.trans (forall₂_congr fun batch _ => ibBatchNumColumns_tells_iff batch)
  | batchSchemaJson => exact plain (onHandle_address.mpr fun _ _ => Reply.pointer_tells _) trivial
  | batchGetI64 => exact plain (onHandle_code.mpr fun _ _ => getColumn_tells ..) trivial
  | batchGetF64 => exact plain (onHandle_code.mpr fun _ _ => getColumn_tells ..) trivial
  | batchGetBool => exact plain (onHandle_code.mpr fun _ _ => getColumn_tells ..) trivial
  | batchUtf8Size => exact plain (onHandle_code.mpr fun _ _ => ibBatchUtf8Size_tells ..) trivial
  | batchGetStr b name bufs bytesCap cap =>
    refine plain ((onHandle_tells (.inl rfl)).mpr fun batch _ => ok_tells.mpr ?_) trivial
    simpa [Reply.Tells, Reply.code, Failure] using
      ibBatchGetStr_tells (A := crates.arrow) batch name bufs bytesCap cap
  | batchExport => exact plain (onHandle_code.mpr fun _ _ => ibBatchExport_tells ..) trivial
  | batchImport => exact plain (ok_tells.mpr (address_tells.mpr (ibBatchImport_tells ..))) trivial
  | batchBuilderNew =>
    exact plain (onHandle_address.mpr fun _ _ => ibBatchBuilderNew_tells _) trivial
  | batchBuilderInt => exact plain (onBuilder_tells fun _ _ hr => supplyColumn_tells hr) trivial
  | batchBuilderFloat => exact plain (onBuilder_tells fun _ _ hr => supplyColumn_tells hr) trivial
  | batchBuilderBool => exact plain (onBuilder_tells fun _ _ hr => supplyColumn_tells hr) trivial
  | batchBuilderStr => exact plain (onBuilder_tells fun _ _ hr => supplyColumn_tells hr) trivial
  | batchBuilderBuild =>
    exact plain (onHandle_address.mpr fun _ _ => ibBatchBuilderBuild_tells _) trivial
  | tableAppend =>
    refine plain ((onHandle_tells (.inl rfl)).mpr fun t _ => ?_) trivial
    exact onHandle_code.mpr fun b _ => stage_tells ..
  | tableAppendBatch =>
    exact plain (ok_tells.mpr (code_tells.mpr (memory_ibTableAppendBatch_tells ..))) trivial
  | tablePendingFiles t =>
    refine plain (onHandle_code.mpr fun h _ => ?_) trivial
    rw [ibTablePendingFiles, Reply.done_tells]
    omega
  | tableCommit api catalog t =>
    exact onHandle_code.trans (forall₂_congr fun h _ => ibTableCommit_tells_iff api catalog h)
  | tableRollback =>
    exact plain (onHandle_code.mpr fun h _ => Reply.done_tells.mpr (by decide)) trivial
  | stringLen s => exact ok_tells.trans (code_tells.trans (ibStringLen_tells_iff s))
  | stringCopy s out cap =>
    exact ok_tells.trans (code_tells.trans (ibStringCopy_tells_iff s out cap))

end Call

/-- Crates that read every JSON text as the same value. -/
def Crates.sample : Crates Unit where
  arrow := .basic
  toArrow := .direct
  datum := .basic
  ops := .simplifying
  metadata :=
    { metadataJson := fun _ => .ok "null"
      schemaJson := fun _ => .ok "null"
      partitionSpecJson := fun _ => .ok "null"
      location := fun _ => "file:///tmp/orders"
      snapshots := fun _ => [] }
  json := ⟨fun _ => .ok ∅, fun _ => .ok .orders, fun _ => .ok ()⟩
  parseJson _ := .ok .null
  fmt _ := "0"

/-- The length of a null string is -1, without a message. -/
theorem failure_without_message :
    let len : Call Unit Unit := .stringLen none
    len.reply .sample = .ok ⟨.code (-1), (), none⟩ ∧ ¬ len.Faithful .sample := by
  refine ⟨rfl, fun h => ?_⟩
  have told := (h _ rfl).mp (.inl rfl)
  cases told

end IcebergRs
