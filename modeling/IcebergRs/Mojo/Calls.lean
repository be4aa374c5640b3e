import IcebergRs.Mojo.ObjectRules

/-! All calls that a program can make on the objects of the binding. What a catalog, a reader or a
writer answers comes with the call. -/
namespace IcebergRs.Mojo

inductive BatchMethod where
  | numRows
  | numColumns
  | schemaJson
  | intCol (name : String)
  | floatCol (name : String)
  | boolCol (name : String)
  | strCol (name : String)
  | validity (name : String)
  | exportCData (toFfi : RecordBatch → Except String Unit)

inductive ScanMethod where
  | planFiles (answer : Except String (List (Except String FileScanTask)))
  | next (toArrow : Except String (ℕ → Poll String RecordBatch))
  | nextCData (toArrow : Except String (ℕ → Poll String RecordBatch))
      (toFfi : RecordBatch → Except String Unit)
  | batches (answers : ℕ → Except String (ℕ → Poll String RecordBatch)) (rounds : ℕ)

/-- A mask that is not empty covers the values; the binding does not check that. -/
inductive BuilderMethod where
  | col (name : String) (c : Values) (valid : Option (List Bool))
      (covers : valid.getD [] = [] ∨ c.length ≤ (valid.getD []).length)
  | build

inductive TableMethod (Scan : Type) where
  | refresh (load : TableIdent → Except String IcebergRs.Table)
  | metadataJson
  | schemaJson
  | partitionSpecJson
  | snapshotsJson
  | location
  | currentSnapshotId
  | builder
  | append (io : WriterApi) (batch : ℕ)
  | appendCData (io : WriterApi) (answer : Except String FfiData) (data : ArrowCData)
  | pendingFiles
  | commit (api : CommitApi) (catalog : IcebergRs.Table)
  | rollback
  | scan (build : IcebergRs.Table → ScanRequest → Except String Scan) (columns : String)
      (snapshotId : Int64) (filter : String)

inductive CatalogMethod where
  | listNamespaces (parent : String)
  | createNamespace (ns propsJson : String)
  | namespaceExists (ns : String)
  | dropNamespace (ns : String)
  | listTables (ns : String)
  | tableExists (ns name : String)
  | loadTable (ns name : String)
  | dropTable (ns name : String)
  | createTable (ns name schemaJson specJson propsJson : String)

inductive MethodCall (Scan Spec : Type) where
  | sql (load : Props → Except String (CatalogApi Spec)) (uri warehouse : String)
  | rest (load : Props → Except String (CatalogApi Spec)) (uri warehouse propsJson : String)
  | catalog (c : ℕ) (api : CatalogApi Spec) (m : CatalogMethod)
  | table (t : ℕ) (m : TableMethod Scan)
  | scan (s : ℕ) (m : ScanMethod)
  | batch (b : ℕ) (m : BatchMethod)
  | builder (b : ℕ) (m : BuilderMethod)

section
variable {Scan Spec Library α : Type}

/-- A call that returns no object. -/
def quiet (x : Abi Scan α) : Abi Scan (List Owned) := do
  pure ((fun _ => []) (← x))

/-- A call that returns an object. -/
def making (cls : BoxClass) (x : Abi Scan ℕ) : Abi Scan (List Owned) := do
  pure ((fun p => [⟨cls, p⟩]) (← x))

variable (crates : Crates Spec) (mem : Allocators Scan) (env : Env Library)

def BatchMethod.run (b : ℕ) : BatchMethod → Abi Scan (List Owned)
  | numRows => quiet (Batch.numRows b)
  | numColumns => quiet (Batch.numColumns b)
  | schemaJson => quiet (Batch.schemaJson crates mem b)
  | intCol name => quiet (Batch.intCol crates b name)
  | floatCol name => quiet (Batch.floatCol crates b name)
  | boolCol name => quiet (Batch.boolCol crates b name)
  | strCol name => quiet (Batch.strCol crates b name)
  | validity name => quiet (Batch.validity crates b name)
  | exportCData toFfi => quiet (Batch.exportCData env b toFfi)

def ScanMethod.run (s : ℕ) : ScanMethod → Abi Scan (List Owned)
  | planFiles answer => quiet (Mojo.Scan.planFiles crates mem s answer)
  | next toArrow => do pure (batchObjects (← Mojo.Scan.next mem env s toArrow).toList)
  | nextCData toArrow toFfi => quiet (Mojo.Scan.nextCData env s toArrow toFfi)
  | batches answers rounds => do
    pure (batchObjects (← Mojo.Scan.batches mem env s answers rounds))

def BuilderMethod.run (b : ℕ) : BuilderMethod → Abi Scan (List Owned)
  | col name c valid _ => quiet (BatchBuilder.col crates b name c valid)
  | build => making .batch (BatchBuilder.build crates mem env b)

def TableMethod.run (t : ℕ) : TableMethod Scan → Abi Scan (List Owned)
  | refresh load => quiet (Table.refresh t load)
  | metadataJson => quiet (Table.metadataJson crates mem t)
  | schemaJson => quiet (Table.schemaJson crates mem t)
  | partitionSpecJson => quiet (Table.partitionSpecJson crates mem t)
  | snapshotsJson => quiet (Table.snapshotsJson crates mem t)
  | location => quiet (Table.location crates mem t)
  | currentSnapshotId => quiet (Table.currentSnapshotId t)
  | builder => making .builder (Table.builder crates mem env t)
  | append io batch => quiet (Table.append crates t io batch)
  | appendCData io answer data => quiet (Table.appendCData crates t io answer data)
  | pendingFiles => quiet (Table.pendingFiles t)
  | commit api catalog => quiet (Table.commit t api catalog)
  | rollback => quiet (Table.rollback t)
  | scan build columns snapshotId filter =>
    making .scan (Table.scan crates mem env t build columns snapshotId filter)

def CatalogMethod.run (api : CatalogApi Spec) (c : ℕ) : CatalogMethod → Abi Scan (List Owned)
  | listNamespaces parent => quiet (Catalog.listNamespaces crates mem api c parent)
  | createNamespace ns propsJson => quiet (Catalog.createNamespace crates api c ns propsJson)
  | namespaceExists ns => quiet (Catalog.namespaceExists api c ns)
  | dropNamespace ns => quiet (Catalog.dropNamespace api c ns)
  | listTables ns => quiet (Catalog.listTables crates mem api c ns)
  | tableExists ns name => quiet (Catalog.tableExists api c ns name)
  | loadTable ns name => making .table (Catalog.loadTable mem env api c ns name)
  | dropTable ns name => quiet (Catalog.dropTable api c ns name)
  | createTable ns name schemaJson specJson propsJson => making .table
      (Catalog.createTable crates mem env api c ns name schemaJson specJson propsJson)

/-- The call with the new objects that it returns. -/
def MethodCall.run : MethodCall Scan Spec → Abi Scan (List Owned)
  | sql load uri warehouse => making .catalog (Catalog.sql mem env load uri warehouse)
  | rest load uri warehouse propsJson =>
    making .catalog (Catalog.rest crates mem env load uri warehouse propsJson)
  | catalog c api m => m.run crates mem env api c
  | table t m => m.run crates mem env t
  | scan s m => m.run crates mem env s
  | batch b m => m.run crates mem env b
  | builder b m => m.run crates mem env b

/-- The objects that a call is made with. -/
def MethodCall.uses : MethodCall Scan Spec → List Owned
  | sql .. | rest .. => []
  | catalog c _ _ => [⟨.catalog, c⟩]
  | table t (.append _ b) => [⟨.table, t⟩, ⟨.batch, b⟩]
  | table t _ => [⟨.table, t⟩]
  | scan s _ => [⟨.scan, s⟩]
  | batch b _ => [⟨.batch, b⟩]
  | builder b _ => [⟨.builder, b⟩]

/-- The objects that a call may change. -/
def MethodCall.changes : MethodCall Scan Spec → List Owned
  | table t _ => [⟨.table, t⟩]
  | scan s _ => [⟨.scan, s⟩]
  | builder b _ => [⟨.builder, b⟩]
  | _ => []

/-- `__deinit__`. -/
def deinit (o : Owned) : Abi Scan PUnit :=
  match o.cls with
  | .catalog => Catalog.deinit o.ptr
  | .table => Table.deinit o.ptr
  | .scan => Mojo.Scan.deinit o.ptr
  | .batch => Batch.deinit o.ptr
  | .builder => BatchBuilder.deinit o.ptr
  | .text => Abi.ibStringFree o.ptr

end

variable {Scan Spec Library α : Type} {crates : Crates Spec} {mem : Allocators Scan}
variable {env : Env Library} {C : Boxes} {U : List ℕ} {k p : ℕ} {cls : BoxClass}

theorem Acts.quiet {x : Abi Scan α} (h : Acts U C x (fun _ => []) k) :
    Acts U C (quiet x) id k := h.map fun _ => rfl

theorem Acts.making {x : Abi Scan ℕ} (h : Acts U C x (fun p => [⟨cls, p⟩]) k) :
    Acts U C (making cls x) id k := h.map fun _ => rfl

theorem acts_values {zero : α} {name what : String} (hp : ⟨.batch, p⟩ ∈ C.owned)
    {get : CString → OutBuffers α → ℕ → Abi Scan (ℤ × OutBuffers α)}
    (h : ∀ bufs rows, Runs U C (get (arg name) bufs rows) fun _ => []) :
    Acts U C (Batch.values p name what zero get) (fun _ => []) k :=
  (acts_checked (Abi.runs_onBatch hp)).seq fun _ => (acts_filled (h _ _)).seq fun _ => acts_pure

theorem BatchMethod.acts (hp : ⟨.batch, p⟩ ∈ C.owned) (m : BatchMethod) :
    Acts U C (m.run crates mem env p) id (spill env) := by
  cases m with
  | numRows => exact (acts_checked (Abi.runs_onBatch hp)).quiet
  | numColumns => exact (acts_checked (Abi.runs_onBatch hp)).quiet
  | schemaJson =>
    exact (acts_text (Abi.runs_ibBatchSchemaJson mem crates.arrow crates.fmt hp)).quiet
  | intCol name => exact (acts_values hp fun _ _ => Abi.runs_onBatchInto hp).quiet
  | floatCol name => exact (acts_values hp fun _ _ => Abi.runs_onBatchInto hp).quiet
  | boolCol name =>
    refine Acts.quiet ((acts_checked (Abi.runs_onBatch hp)).seq fun rows => ?_)
    exact (acts_filled (Abi.runs_onBatchInto hp)).seq fun _ => acts_pure
  | strCol name =>
    refine Acts.quiet ((acts_checked (Abi.runs_onBatch hp)).seq fun rows => ?_)
    refine (acts_checked (Abi.runs_onBatch hp)).seq fun total => ?_
    exact (acts_filled (Abi.runs_onBatchInto hp)).seq fun _ => acts_pure
  | validity name =>
    refine Acts.quiet ((acts_checked (Abi.runs_onBatch hp)).seq fun rows => ?_)
    exact (acts_filled (Abi.runs_onBatchInto hp)).seq fun _ => acts_pure
  | exportCData toFfi =>
    refine Acts.quiet (acts_openShim.seq fun _ => ?_)
    exact (acts_filled (Abi.runs_onBatchInto hp)).seq fun _ => acts_pure

theorem ScanMethod.acts (hp : ⟨.scan, p⟩ ∈ C.owned) (hU : p ∈ U) (m : ScanMethod) :
    Acts U C (m.run crates mem env p) id (spill env) := by
  cases m with
  | planFiles answer =>
    exact (acts_text ((Abi.runs_update Abi.scan_make (fun _ _ => rfl) hp hU).seq fun r =>
      Abi.runs_text mem r)).quiet
  | next toArrow => exact (acts_next hp hU toArrow).map fun _ => rfl
  | nextCData toArrow toFfi =>
    refine Acts.quiet (acts_openShim.seq fun _ => ?_)
    refine Runs.check (fun r : Pull => r.code < 0)
      (Abi.runs_update Abi.scan_make (fun _ _ => rfl) hp hU) fun r => ?_
    split <;> exact acts_pure
  | batches answers rounds => exact (acts_batches hp hU answers rounds).map fun _ => rfl

theorem BuilderMethod.acts (hp : ⟨.builder, p⟩ ∈ C.owned) (hU : p ∈ U) (m : BuilderMethod) :
    Acts U C (m.run crates mem env p) id (spill env) := by
  cases m with
  | col name c valid covers =>
    refine Acts.quiet ?_
    unfold BatchBuilder.col
    rcases supply_cases c name (valid.getD []) with ⟨hne, hlt, -⟩ | ⟨-, call, hcall, -⟩
    · rcases covers with h | h
      · exact absurd h hne
      · omega
    · rw [hcall]
      refine acts_status ?_
      cases call <;> exact Abi.runs_update Abi.builder_make (fun _ _ => rfl) hp hU
  | build => exact (acts_wrapped (Abi.runs_ibBatchBuilderBuild mem crates.arrow hp)).making

theorem TableMethod.acts (hp : ⟨.table, p⟩ ∈ C.owned) (hU : p ∈ U) (m : TableMethod Scan)
    (hm : ∀ io b, m = .append io b → ⟨.batch, b⟩ ∈ C.owned) :
    Acts U C (m.run crates mem env p) id (spill env) := by
  cases m with
  | refresh load => exact (acts_status (Abi.runs_ibTableRefresh hp hU load)).quiet
  | metadataJson => exact (acts_text (Abi.runs_tableText mem hp hU)).quiet
  | schemaJson => exact (acts_text (Abi.runs_tableText mem hp hU)).quiet
  | partitionSpecJson => exact (acts_text (Abi.runs_tableText mem hp hU)).quiet
  | snapshotsJson => exact (acts_text (Abi.runs_tableText mem hp hU)).quiet
  | location => exact (acts_text (Abi.runs_tableText mem hp hU)).quiet
  | currentSnapshotId => exact (acts_checked (Abi.runs_onTable hp hU)).quiet
  | builder => exact (acts_wrapped (Abi.runs_ibBatchBuilderNew mem crates.toArrow hp)).making
  | append io batch =>
    exact (acts_status (Abi.runs_ibTableAppend crates.arrow crates.toArrow io hp hU
      (hm io batch rfl))).quiet
  | appendCData io answer data =>
    refine Acts.quiet ?_
    exact (acts_filled (Abi.runs_ibTableAppendBatch crates.arrow crates.toArrow io answer
      (some data.pair) hp hU)).seq fun _ => acts_pure
  | pendingFiles => exact (acts_checked (Abi.runs_onTable hp hU)).quiet
  | commit api catalog => exact (acts_checked (Abi.runs_ibTableCommit hp hU api catalog)).quiet
  | rollback => exact (acts_status (Abi.runs_onTable hp hU)).quiet
  | scan build columns snapshotId filter =>
    exact (acts_wrapped (Abi.runs_ibScanNew mem crates.datum crates.ops crates.parseJson build hp
      (optArg columns) snapshotId.toInt (optArg filter))).making

theorem CatalogMethod.acts (hp : ⟨.catalog, p⟩ ∈ C.owned) (api : CatalogApi Spec)
    (m : CatalogMethod) : Acts U C (m.run crates mem env api p) id (spill env) := by
  cases m with
  | listNamespaces parent => exact (acts_text (Abi.runs_catalogText mem hp _)).quiet
  | createNamespace ns propsJson => exact (acts_status (Abi.runs_catalogCode hp _)).quiet
  | namespaceExists ns =>
    exact Acts.quiet ((acts_checked (Abi.runs_catalogCode hp _)).map fun _ => rfl)
  | dropNamespace ns => exact (acts_status (Abi.runs_catalogCode hp _)).quiet
  | listTables ns => exact (acts_text (Abi.runs_catalogText mem hp _)).quiet
  | tableExists ns name =>
    exact Acts.quiet ((acts_checked (Abi.runs_catalogCode hp _)).map fun _ => rfl)
  | loadTable ns name => exact (acts_wrapped (Abi.runs_catalogTable mem hp _)).making
  | dropTable ns name => exact (acts_status (Abi.runs_catalogCode hp _)).quiet
  | createTable ns name schemaJson specJson propsJson =>
    exact (acts_wrapped (Abi.runs_catalogTable mem hp _)).making

/-- Where the objects of a call are there it is defined, and it changes no others. -/
theorem MethodCall.acts (c : MethodCall Scan Spec) (huses : ∀ o ∈ c.uses, o ∈ C.owned) :
    Acts (c.changes.map Owned.ptr) C (c.run crates mem env) id (spill env) := by
  cases c with
  | sql load uri warehouse => exact (acts_opened (Abi.runs_newCatalog mem _)).making
  | rest load uri warehouse propsJson => exact (acts_opened (Abi.runs_newCatalog mem _)).making
  | catalog c api m => exact m.acts (huses _ List.mem_cons_self) api
  | table t m =>
    have ht : ⟨.table, t⟩ ∈ C.owned := huses _ (by cases m <;> exact List.mem_cons_self)
    refine m.acts ht List.mem_cons_self ?_
    rintro io b rfl
    exact huses _ (List.mem_cons_of_mem _ List.mem_cons_self)
  | scan s m => exact m.acts (huses _ List.mem_cons_self) List.mem_cons_self
  | batch b m => exact m.acts (huses _ List.mem_cons_self)
  | builder b m => exact m.acts (huses _ List.mem_cons_self) List.mem_cons_self

theorem deinit_frees (o : Owned) : Frees (deinit o : Abi Scan PUnit) o.cls o.ptr := by
  obtain ⟨cls, p⟩ := o
  cases cls with
  | catalog => exact frees_of_nonnull Abi.ibCatalogFree_frees
  | table => exact frees_of_nonnull Abi.ibTableFree_frees
  | scan => exact frees_of_nonnull Abi.ibScanFree_frees
  | batch => exact frees_of_nonnull Abi.ibBatchFree_frees
  | builder => exact frees_of_nonnull Abi.ibBatchBuilderFree_frees
  | text => exact Abi.ibStringFree_frees

end IcebergRs.Mojo
