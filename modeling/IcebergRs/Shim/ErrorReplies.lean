import IcebergRs.Shim.Catalog
import IcebergRs.Shim.CData
import IcebergRs.Shim.Metadata

/-! Failures of the entry points one by one: each returns its failure value exactly when it has
recorded a message, except where a snapshot id or a count is taken for one. -/
namespace IcebergRs

section
variable {σ ρ α : Type}

/-- The value returned is a failure exactly when a message was recorded. -/
def Reply.Tells (bad : ρ → Prop) (r : Reply σ ρ) : Prop := bad r.ret ↔ r.lastError.isSome

namespace Reply
variable {bad : ρ → Prop} {s : σ} {ret : ρ} {m : String}

@[simp] theorem done_tells : (done s ret).Tells bad ↔ ¬ bad ret := by
  simp [Tells, done]

@[simp] theorem fail_tells : (fail s ret m).Tells bad ↔ bad ret := by
  simp [Tells, fail]

@[simp] theorem pointer_tells (x : Except String α) : (pointer s x).Tells (· = none) := by
  cases x <;> simp [pointer]

@[simp] theorem status_tells (x : Except String Unit) : (status s x).Tells (· = -1) := by
  cases x <;> simp [status]

@[simp] theorem flag_tells (x : Except String Bool) : (flag s x).Tells (· = -1) := by
  rcases x with m | b
  · simp [flag]
  · cases b <;> simp [flag]

end Reply
end

section
variable {A : Arrow} {toArrow : SchemaToArrow} {Scan : Type}

theorem ibTableRefresh_tells (load : TableIdent → Except String Table) (h : TableHandle) :
    (ibTableRefresh load h).Tells (· = -1) := by
  unfold ibTableRefresh
  split <;> simp

theorem ibScanNew_tells {api : DatumApi} {ops : PredicateOps}
    {parseJson : String → Except String Json} {build : Table → ScanRequest → Except String Scan}
    {h : TableHandle} {columnsCsv filterJson : CString} {snapshotId : ℤ}
    {r : Reply TableHandle (Option (ScanHandle Scan))}
    (hr : ibScanNew api ops parseJson build h columnsCsv snapshotId filterJson = .ok r) :
    r.Tells (· = none) := by
  unfold ibScanNew at hr
  split at hr
  · cases hr
  · cases hr
    simp
  · split at hr <;> cases hr <;> simp

theorem ibScanNew_ne_err {api : DatumApi} {ops : PredicateOps}
    {parseJson : String → Except String Json} {build : Table → ScanRequest → Except String Scan}
    {h : TableHandle} {columnsCsv filterJson : CString} {snapshotId : ℤ} {m : String} :
    ibScanNew api ops parseJson build h columnsCsv snapshotId filterJson ≠ .err m := by
  unfold ibScanNew
  split
  · simp
  · simp
  · split <;> simp

theorem nextBatch_ne_err {start : Except String (ℕ → Poll String RecordBatch)}
    {h : ScanHandle Scan} {m : String} : nextBatch start h ≠ .err m := by
  unfold nextBatch
  split
  · simp
  · dsimp only
    split <;> simp

theorem ibScanPlanFilesJson_tells (fmt : Float → String)
    (planFiles : Except String (List (Except String FileScanTask))) (h : ScanHandle Scan) :
    (ibScanPlanFilesJson fmt planFiles h).Tells (· = none) := by
  unfold ibScanPlanFilesJson
  split
  · split <;> simp
  · simp

theorem ibScanNext_tells {start : Except String (ℕ → Poll String RecordBatch)}
    {h : ScanHandle Scan} {outBatch : Bool} {r : Reply (ScanHandle Scan) Pull}
    (hr : ibScanNext start h outBatch = .ok r) : r.Tells (fun p => p.code = -1) := by
  unfold ibScanNext at hr
  split at hr
  · cases hr
    simp
  · obtain ⟨next, -, hr⟩ := Outcome.bind_eq_ok.mp hr
    split at hr <;> cases hr <;> simp

theorem ibScanNext_ne_err {start : Except String (ℕ → Poll String RecordBatch)}
    {h : ScanHandle Scan} {outBatch : Bool} {m : String} :
    ibScanNext start h outBatch ≠ .err m := by
  unfold ibScanNext
  split
  · simp
  · refine Outcome.bind_ne_err nextBatch_ne_err fun next => ?_
    split <;> simp

theorem ibScanNextBatch_tells {start : Except String (ℕ → Poll String RecordBatch)}
    {toFfi : RecordBatch → Except String Unit} {h : ScanHandle Scan} {outArray outSchema : Bool}
    {r : Reply (ScanHandle Scan) Pull}
    (hr : ibScanNextBatch start toFfi h outArray outSchema = .ok r) :
    r.Tells (fun p => p.code = -1) := by
  unfold ibScanNextBatch at hr
  split at hr
  · cases hr
    simp
  · obtain ⟨next, -, hr⟩ := Outcome.bind_eq_ok.mp hr
    split at hr
    · cases hr
      simp
    · split at hr <;> cases hr <;> simp
    · cases hr
      simp

theorem ibScanNextBatch_ne_err {start : Except String (ℕ → Poll String RecordBatch)}
    {toFfi : RecordBatch → Except String Unit} {h : ScanHandle Scan} {outArray outSchema : Bool}
    {m : String} : ibScanNextBatch start toFfi h outArray outSchema ≠ .err m := by
  unfold ibScanNextBatch
  split
  · simp
  · refine Outcome.bind_ne_err nextBatch_ne_err fun next => ?_
    split
    · simp
    · split <;> simp
    · simp

theorem getColumn_tells {α : Type} (what : String) (t : DataType) (slot : Option t.Val → α)
    (batch : RecordBatch) (name : CString) (bufs : OutBuffers α) (cap : ℕ) :
    (getColumn what t slot A batch name bufs cap).Tells (· = -1) := by
  unfold getColumn
  split
  · simp
  · split
    · simp
    · split
      · simp
      · split
        · simp
        · rw [Reply.done_tells]
          omega

theorem ibBatchUtf8Size_tells (batch : RecordBatch) (name : CString) :
    (ibBatchUtf8Size A batch name).Tells (· = -1) := by
  unfold ibBatchUtf8Size
  dsimp only
  split
  · simp
  · split
    · simp
    · rw [Reply.done_tells]
      omega

theorem ibBatchGetStr_tells (batch : RecordBatch) (name : CString) (bufs : StrBuffers)
    (bytesCap cap : ℕ) :
    (ibBatchGetStr A batch name bufs bytesCap cap).Tells (fun c => c = -1 ∨ c = -2) := by
  unfold ibBatchGetStr
  dsimp only
  split
  · simp
  · split
    · split
      · simp
      · split
        · simp
        · rw [Reply.done_tells]
          omega
    · simp

theorem ibBatchExport_tells (toFfi : RecordBatch → Except String Unit) (batch : RecordBatch)
    (out : Option FfiPair) : (ibBatchExport toFfi batch out).Tells (· = -1) := by
  unfold ibBatchExport
  split
  · simp
  · split <;> simp

theorem ibBatchImport_tells (answer : Except String FfiData) (pair : Option FfiPair) :
    (ibBatchImport answer pair).Tells (· = none) := by
  unfold ibBatchImport
  split
  · simp
  · split <;> simp

theorem ibBatchBuilderNew_tells (h : TableHandle) :
    (ibBatchBuilderNew toArrow h).Tells (· = none) := by
  unfold ibBatchBuilderNew
  split <;> simp

theorem addColumn_tells (b : BuilderHandle) (name : String) (array : ArrayRef) (what : String) :
    (addColumn A b name array what).Tells (· = -1) := by
  unfold addColumn
  split
  · simp
  · dsimp only
    split
    · simp
    · split <;> simp

theorem supplyColumn_tells {what : String} {b : BuilderHandle} {name : CString}
    {array : Outcome ArrayRef} {r : Reply BuilderHandle ℤ}
    (hr : supplyColumn A what b name array = .ok r) : r.Tells (· = -1) := by
  unfold supplyColumn at hr
  split at hr
  · cases hr
    simp
  · split at hr
    · cases hr
      simp
    · cases hr
    · cases hr
      exact addColumn_tells ..

theorem supplyColumn_ne_err {what : String} {b : BuilderHandle} {name : CString}
    {array : Outcome ArrayRef} {m : String} : supplyColumn A what b name array ≠ .err m := by
  unfold supplyColumn
  split
  · simp
  · split <;> simp

theorem ibBatchBuilderBuild_tells (b : BuilderHandle) :
    (ibBatchBuilderBuild A b).Tells (· = none) := by
  unfold ibBatchBuilderBuild
  dsimp only
  split
  · simp
  · split
    · simp
    · split <;> simp

theorem stage_tells (io : WriterApi) (h : TableHandle) (batch : RecordBatch) (what : String) :
    (stage A toArrow io h batch what).Tells (· = -1) := by
  rcases stage_cases what with ⟨b, files, -, he⟩ | ⟨m, hm⟩
  · rw [he]
    simp
  · rw [hm]
    simp

theorem memory_ibTableAppendBatch_tells (io : WriterApi) (answer : Except String FfiData)
    (h : Option TableHandle) (pair : Option FfiPair) :
    (Memory.ibTableAppendBatch A toArrow io answer h pair).Tells (· = -1) := by
  unfold Memory.ibTableAppendBatch
  split
  · simp
  · simp
  · split
    · simp
    · exact stage_tells ..

theorem currentSnapshotIdOr0_eq_neg_one {t : Table} :
    currentSnapshotIdOr0 t = -1 ↔ t.currentSnapshotId = some (-1) := by
  cases h : t.currentSnapshotId <;> simp [currentSnapshotIdOr0, h]

/-- No snapshot id that a commit returns is -1: the current one if nothing is staged, and the
one of the table that the catalog answers with otherwise. -/
def CommitSound (api : CommitApi) (catalog : Table) (h : TableHandle) : Prop :=
  (h.pending = [] → h.table.currentSnapshotId ≠ some (-1)) ∧
  ∀ tx t c, h.pending ≠ [] → api.apply (.new h.table) h.pending = .ok tx →
    api.commit tx catalog = (.ok t, c) → t.currentSnapshotId ≠ some (-1)

theorem ibTableCommit_tells_iff (api : CommitApi) (catalog : Table) (h : TableHandle) :
    (ibTableCommit api catalog h).Tells (· = -1) ↔ CommitSound api catalog h := by
  by_cases hp : h.pending = []
  · simp [ibTableCommit, CommitSound, hp, currentSnapshotIdOr0_eq_neg_one]
  cases happly : api.apply (.new h.table) h.pending with
  | error e => simp [ibTableCommit, CommitSound, hp, happly]
  | ok tx =>
    rcases hcommit : api.commit tx catalog with ⟨e | t, c⟩
    · have he : (ibTableCommit api catalog h).Tells (· = -1) := by
        simp [ibTableCommit, hp, happly, hcommit]
      refine iff_of_true he ⟨fun h => absurd h hp, ?_⟩
      intro tx' t' c' _ htx ht
      obtain rfl := Except.ok.inj (happly.symm.trans htx)
      simp [hcommit] at ht
    · have he : ibTableCommit api catalog h = .done (⟨t, []⟩, c) (currentSnapshotIdOr0 t) := by
        simp [ibTableCommit, hp, happly, hcommit]
      rw [he, Reply.done_tells, currentSnapshotIdOr0_eq_neg_one]
      constructor
      · intro hid
        refine ⟨fun h => absurd h hp, ?_⟩
        intro tx' t' c' _ htx ht
        obtain rfl := Except.ok.inj (happly.symm.trans htx)
        obtain ⟨ht, -⟩ := Prod.mk.inj (hcommit.symm.trans ht)
        rwa [← Except.ok.inj ht]
      · intro hs
        exact hs.2 tx t c hp happly hcommit

theorem bmod_eq_neg_one {n m : ℕ} (hm : 2 < m) : Int.bmod n m = -1 ↔ n % m = m - 1 := by
  have hr : n % m < m := Nat.mod_lt n (by omega)
  rw [Int.bmod, ← Int.natCast_mod]
  generalize n % m = r at *
  split <;> omega

theorem ibBatchNumRows_tells_iff (batch : RecordBatch) :
    (ibBatchNumRows batch).Tells (· = -1) ↔ batch.numRows % 2 ^ 64 ≠ 2 ^ 64 - 1 := by
  exact Reply.done_tells.trans (not_congr (bmod_eq_neg_one (by simp)))

theorem ibBatchNumColumns_tells_iff (batch : RecordBatch) :
    (ibBatchNumColumns batch).Tells (· = -1) ↔ batch.columns.length % 2 ^ 32 ≠ 2 ^ 32 - 1 := by
  exact Reply.done_tells.trans (not_congr (bmod_eq_neg_one (by simp)))

theorem ibStringLen_tells_iff (s : CString) : (ibStringLen s).Tells (· = -1) ↔ s.isSome := by
  cases s with
  | none => simp [ibStringLen, Reply.Tells]
  | some bytes =>
    rw [ibStringLen, Reply.done_tells]
    exact iff_of_true (by omega) rfl

theorem ibStringCopy_tells_iff (s : CString) (out : Option (List UInt8)) (cap : ℕ) :
    (ibStringCopy s out cap).Tells (· = -1) ↔ s.isSome ∧ (out.isSome ∨ cap = 0) := by
  cases s with
  | none => simp [ibStringCopy, Reply.Tells]
  | some bytes =>
    by_cases h : out.isNone ∧ 0 < cap
    · obtain ⟨rfl, hcap⟩ : out = none ∧ 0 < cap := by simpa using h
      simp [ibStringCopy, hcap, Reply.Tells]
      omega
    · have hout : out.isSome ∨ cap = 0 := by
        cases out with
        | none => exact .inr (by simpa using h)
        | some mem => exact .inl rfl
      simp only [ibStringCopy, if_neg h, Reply.done_tells]
      exact iff_of_true (by omega) ⟨rfl, hout⟩

end
end IcebergRs
