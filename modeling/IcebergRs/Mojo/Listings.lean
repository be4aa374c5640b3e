import IcebergRs.Mojo.Batches
import IcebergRs.Mojo.StringCalls
import IcebergRs.Shim.Listings

/-! The listings that the binding returns: namespaces and tables, the columns of a batch, the files
that a scan plans to read and the snapshots of a table. A reader of JSON gets back what is listed,
whatever characters the names have. -/
namespace IcebergRs.Mojo
open Json JsonRead

section
variable {Scan τ : Type} {s t : Process Scan} {mem : Allocators Scan} {fmt : Float → String}
variable {r : Reply τ (Option String)} {call : Abi Scan ℕ} {v : Json}

/-- A JSON text arrives whole. -/
theorem answers_json (what : String) (hv : Plain v) (hret : r.ret = some (Json.text fmt v))
    (hcall : call s = Abi.text mem r.ret t) (ht : Still s t)
    (hlast : t.lastError = r.lastError.getD s.lastError) :
    Answers s (text what call) (.ok (Json.text fmt v)) := by
  have hspeaks : r.Speaks (· = none) := fun h => by simp [hret] at h
  have h : Answers s (text what call) _ := answers_text_at hcall ht hlast hspeaks
  have htake : takeString (cName (Json.text fmt v)) = Json.text fmt v := by
    rw [takeString, readString_cName, uptoNul_eq_self_iff.mpr (nulFree_text fmt v hv)]
  rw [hret] at h
  rwa [← htake]

theorem outString_namesJson (fmt : Float → String) (names : List String) :
    outString (namesJson fmt names) = .ok (namesJson fmt names) := by
  have hplain : Plain (.array (names.map .string)) := by simp
  exact outString_eq_ok.mpr ⟨nulFree_text fmt _ hplain, rfl⟩

theorem read_names (fmt : Float → String) (names : List String) :
    (read (namesJson fmt names)).bind (asList asStr) = some names :=
  (read_list plain_string asStr_string).trans (by rw [List.map_id'])

theorem ibScanPlanFilesJson_state {Scan : Type} (fmt : Float → String)
    (answer : Except String (List (Except String FileScanTask))) (h : ScanHandle Scan) :
    (ibScanPlanFilesJson fmt answer h).state = h := by
  unfold ibScanPlanFilesJson
  split
  · split <;> rfl
  · rfl

theorem ibScanPlanFilesJson_speaks {Scan : Type} (fmt : Float → String)
    (answer : Except String (List (Except String FileScanTask))) (h : ScanHandle Scan) :
    (ibScanPlanFilesJson fmt answer h).Speaks (· = none) := by
  unfold ibScanPlanFilesJson
  split
  · split <;> simp
  · simp

theorem ibScanPlanFilesJson_eq {Scan : Type} (fmt : Float → String) (tasks : List FileScanTask)
    (h : ScanHandle Scan) : ibScanPlanFilesJson fmt (.ok (tasks.map .ok)) h =
      .done h (some (Json.text fmt (.array (tasks.map fileScanTaskJson)))) := by
  have hplan : (do (← Except.ok (tasks.map .ok)).mapM id : Except String (List FileScanTask)) =
      .ok tasks := by
    refine except_mapM_eq_ok.mpr ?_
    rw [List.forall₂_map_left_iff, List.forall₂_same]
    exact fun _ _ => rfl
  have hplain : Plain (.array (tasks.map fileScanTaskJson)) := by
    simpa using fun t _ => plain_fileScanTaskJson t
  have hout := outString_eq_ok.mpr ⟨nulFree_text fmt _ hplain, rfl⟩
  rw [ibScanPlanFilesJson, hplan]
  simp only [hout]

end

section
variable {Scan Spec Library : Type} {crates : Crates Spec} {lastError : String}
variable {S : Session Scan} {events : List (Event Scan Spec Library)} {p inner : ℕ}

section
variable {s : Process Scan} {h : ScanHandle Scan}

/-- A plan leaves the scan as it is. -/
theorem planFiles_call (mem : Allocators Scan) (hp0 : p ≠ 0)
    (hp : s.heap.lookup p = some (.scan h))
    (answer : Except String (List (Except String FileScanTask))) :
    Abi.ibScanPlanFilesJson mem p crates.fmt answer s =
      Abi.text mem (ibScanPlanFilesJson crates.fmt answer h).ret
        { recorded s (ibScanPlanFilesJson crates.fmt answer h) with
          heap := s.heap.insert p (.scan h) } := by
  have hupdate : Abi.update .scan p none
      (fun h => .ok (ibScanPlanFilesJson crates.fmt answer h)) s = _ :=
    update_eq (k := .scan) hp0 hp rfl
  simp only [Abi.ibScanPlanFilesJson, bind, Program.bind, hupdate, ibScanPlanFilesJson_state]
  rfl

theorem answers_planFiles (mem : Allocators Scan) (hp0 : p ≠ 0)
    (hp : s.heap.lookup p = some (.scan h))
    (answer : Except String (List (Except String FileScanTask))) :
    Answers s (Mojo.Scan.planFiles crates mem p answer)
      (match (ibScanPlanFilesJson crates.fmt answer h).ret with
        | some text => .ok (takeString (cName text))
        | none => fail "Scan.plan_files" (ibScanPlanFilesJson crates.fmt answer h)) :=
  answers_text_at (planFiles_call mem hp0 hp answer) (still_put hp _) rfl
    (ibScanPlanFilesJson_speaks crates.fmt answer h)

end

/-- In any session a listing of namespaces or tables is read as the names that the catalog lists, in
their order and whatever characters they have. -/
theorem session_names_listed
    (hS : (Session.start lastError).run crates events = some S) (mem : Allocators Scan)
    (hp : S.process.heap.lookup p = some (.catalog inner)) (api : CatalogApi Spec) :
    (∀ parent ident ns, ((StringCall.given uptoNul parent).filter (· ≠ "")).mapM
        (fun n => nsIdent n "ib_list_namespaces") = .ok ident →
      api.listNamespaces ident = .ok ns →
      ∃ listing, Answers S.process (Catalog.listNamespaces crates mem api p parent) (.ok listing) ∧
        (read listing).bind (asList asStr) = some (ns.map NamespaceIdent.listed)) ∧
    ∀ ns ident ts, ns ≠ "" → nsIdent (uptoNul ns) "ib_list_tables" = .ok ident →
      api.listTables ident = .ok ts →
      ∃ listing, Answers S.process (Catalog.listTables crates mem api p ns) (.ok listing) ∧
        (read listing).bind (asList asStr) = some (ts.map TableIdent.name) := by
  obtain ⟨C, -, hC⟩ := (Session.holds_run hS).boxes
  have hcatalog := holdsCatalog_of_owns hC hp
  constructor
  · intro parent ident ns hident hns
    have hanswers : Answers S.process (Catalog.listNamespaces crates mem api p parent)
        (listNamespaces crates.fmt api parent) :=
      answers_catalogText hcatalog _ _ (Reply.speaks_pointer _)
    have htext : OnTexts.listNamespaces crates.fmt api (StringCall.given uptoNul parent) =
        .ok (namesJson crates.fmt (ns.map NamespaceIdent.listed)) := by
      rw [OnTexts.listNamespaces, hident, except_ok_bind, hns]
      exact outString_namesJson _ _
    rw [listNamespaces_eq, htext] at hanswers
    exact ⟨_, hanswers, read_names _ _⟩
  · intro ns ident ts hne hident hts
    have hanswers : Answers S.process (Catalog.listTables crates mem api p ns)
        (listTables crates.fmt api ns) :=
      answers_catalogText hcatalog _ _ (Reply.speaks_pointer _)
    have htext : OnTexts.listTables crates.fmt api (uptoNul ns) =
        .ok (namesJson crates.fmt (ts.map TableIdent.name)) := by
      rw [OnTexts.listTables, hident, except_ok_bind, hts]
      exact outString_namesJson _ _
    rw [listTables_eq _ _ hne, htext] at hanswers
    exact ⟨_, hanswers, read_names _ _⟩

/-- A catalog alone. -/
def catalogSession : Session Unit := ((Session.start "").run .sample [
  (.call .beyond .open (.sql (fun _ => .ok everyOrders) "sqlite:c" "file:w") :
    Event Unit Unit Unit)]).get rfl

theorem catalogSession_run : (Session.start "").run .sample [
    (.call .beyond .open (.sql (fun _ => .ok everyOrders) "sqlite:c" "file:w") :
      Event Unit Unit Unit)] = some catalogSession := rfl

/-- One of the namespaces has a quotation mark in its name. -/
def quoted : CatalogApi Unit :=
  { everyOrders with
    listNamespaces := fun _ => .ok [⟨["db", "raw"], by decide⟩, ⟨["a\"b"], by decide⟩] }

theorem session_names_listed_quoted : ∃ listing,
    Answers catalogSession.process (Catalog.listNamespaces .sample .beyond quoted 1 "")
      (.ok listing) ∧
    (read listing).bind (asList asStr) = some ["db.raw", "a\"b"] := by
  have hp : catalogSession.process.heap.lookup 1 = some (.catalog 1) := rfl
  exact (session_names_listed catalogSession_run .beyond hp quoted).1 "" none _ rfl rfl

/-- In any session the plan of a scan is read as its tasks, with every field of them and of their
delete files, unless planning fails; then its error is raised and nothing is changed. -/
theorem session_plan_listed {h : ScanHandle Scan}
    (hS : (Session.start lastError).run crates events = some S) (mem : Allocators Scan)
    (hp : S.process.heap.lookup p = some (.scan h)) :
    (∀ tasks : List FileScanTask, ∃ listing,
      Answers S.process (Mojo.Scan.planFiles crates mem p (.ok (tasks.map .ok))) (.ok listing) ∧
      (read listing).bind (asList FileScanTask.ofJson) = some tasks) ∧
    ∀ answer e, (do (← answer).mapM id : Except String (List FileScanTask)) = .error e →
      Answers S.process (Mojo.Scan.planFiles crates mem p answer)
        (.err (raised "Scan.plan_files" s!"ib_scan_plan_files_json: {e}")) := by
  obtain ⟨C, -, hC⟩ := (Session.holds_run hS).boxes
  have hp0 : p ≠ 0 := hC.nonnull _ (hC.mem hp)
  constructor
  · intro tasks
    have hplain : Plain (.array (tasks.map fileScanTaskJson)) := by
      simpa using fun t _ => plain_fileScanTaskJson t
    have hret : (ibScanPlanFilesJson crates.fmt (.ok (tasks.map .ok)) h).ret = _ :=
      congrArg Reply.ret (ibScanPlanFilesJson_eq crates.fmt tasks h)
    refine ⟨_, answers_json _ hplain hret (planFiles_call mem hp0 hp _) (still_put hp _) rfl, ?_⟩
    exact (read_list plain_fileScanTaskJson fileScanTask_ofJson).trans (by rw [List.map_id'])
  · intro answer e he
    have hreply : ibScanPlanFilesJson crates.fmt answer h =
        .fail h none s!"ib_scan_plan_files_json: {e}" := by
      rw [ibScanPlanFilesJson, he]
    have h : Answers S.process (Mojo.Scan.planFiles crates mem p answer) _ :=
      answers_planFiles mem hp0 hp answer
    rwa [hreply] at h

/-- A part of a file without a record count, with two delete files. -/
def ordersTask : FileScanTask where
  dataFilePath := "f\n.parquet"
  dataFileFormat := "parquet"
  recordCount := none
  fileSizeInBytes := 4096
  start := 4
  length := 1024
  projectFieldIds := [1, -1]
  deletes := [⟨"d1", 10, .positionDeletes, 0, none⟩, ⟨"d2", 20, .equalityDeletes, 0, some [1]⟩]

theorem session_plan_listed_orders : ∃ listing,
    Answers readingSession.process
      (Mojo.Scan.planFiles .sample .beyond 5 (.ok ([ordersTask].map .ok))) (.ok listing) ∧
    (read listing).bind (asList FileScanTask.ofJson) = some [ordersTask] :=
  (session_plan_listed readingSession_run .beyond rfl).1 [ordersTask]

/-- In any session the snapshots of a table are read as those of its metadata, every one once and in
the order of their sequence numbers, with the properties of each summary by name. -/
theorem session_snapshots_listed {h : TableHandle}
    (hS : (Session.start lastError).run crates events = some S) (mem : Allocators Scan)
    (hp : S.process.heap.lookup p = some (.table inner h)) :
    ∃ (listing : String) (snapshots : List SnapshotMetadata),
      Answers S.process (Table.snapshotsJson crates mem p) (.ok listing) ∧
      (read listing).bind (asList SnapshotMetadata.ofJson) =
        some (snapshots.map SnapshotMetadata.ordered) ∧
      snapshots.Perm (crates.metadata.snapshots h.table) ∧
      snapshots.Pairwise fun a b => a.sequenceNumber ≤ b.sequenceNumber := by
  obtain ⟨C, -, hC⟩ := (Session.holds_run hS).boxes
  let snapshots := listedSnapshots crates.metadata h.table
  have hplain : Plain (.array (snapshots.map snapshotJson)) := by
    rw [plain_array, List.forall_mem_map]
    exact fun s _ => plain_snapshotJson s
  have hhandle : Abi.ibTableSnapshotsJson mem p crates.metadata crates.fmt S.process =
      Abi.text mem (ibTableSnapshotsJson crates.metadata crates.fmt h).ret
        { recorded S.process (ibTableSnapshotsJson crates.metadata crates.fmt h) with
          heap := S.process.heap.insert p (.table inner h) } := by
    have htable : Abi.onTable p none (ibTableSnapshotsJson crates.metadata crates.fmt) S.process =
        Abi.putTable p inner (ibTableSnapshotsJson crates.metadata crates.fmt h) S.process :=
      onHandle_eq (k := .table) (y := (inner, h)) (hC.nonnull _ (hC.mem hp)) hp
    have hstate : (ibTableSnapshotsJson crates.metadata crates.fmt h).state = h :=
      Reply.pointer_state _
    simp only [Abi.ibTableSnapshotsJson, bind, Program.bind, htable, Abi.putTable, hstate]
    rfl
  refine ⟨_, snapshots, answers_json _ hplain (ibTableSnapshotsJson_ret _ _ h) hhandle
    (still_put hp _) rfl, ?_, listedSnapshots_perm _ _, ?_⟩
  · exact read_list plain_snapshotJson snapshot_ofJson
  · exact listedSnapshots_sorted _ _

/-- Crates for a table with two snapshots. -/
def appendedCrates : Crates Unit :=
  { Crates.sample with
    metadata := { Crates.sample.metadata with snapshots := fun _ => [secondAppend, firstAppend] } }

def appendedSession : Session Unit := ((Session.start "").run appendedCrates ordersEvents).get rfl

theorem appendedSession_run :
    (Session.start "").run appendedCrates ordersEvents = some appendedSession := rfl

theorem session_snapshots_listed_appended :
    ∃ (listing : String) (snapshots : List SnapshotMetadata),
      Answers appendedSession.process (Table.snapshotsJson appendedCrates .beyond 2) (.ok listing) ∧
      (read listing).bind (asList SnapshotMetadata.ofJson) =
        some (snapshots.map SnapshotMetadata.ordered) ∧
      snapshots.Perm [secondAppend, firstAppend] := by
  have hp : appendedSession.process.heap.lookup 2 = some (.table 1 ⟨.orders, []⟩) := rfl
  obtain ⟨listing, snapshots, hlisting, hread, hperm, -⟩ :=
    session_snapshots_listed appendedSession_run .beyond hp
  exact ⟨listing, snapshots, hlisting, hread, hperm⟩

/-- In any session the schema of a batch is read as its columns, in their order. -/
theorem session_columns_listed {b : RecordBatch}
    (hS : (Session.start lastError).run crates events = some S) (mem : Allocators Scan)
    (hp : S.process.heap.lookup p = some (.batch b)) : ∃ listing,
      Answers S.process (Batch.schemaJson crates mem p) (.ok listing) ∧
      (read listing).bind (asList ColumnListing.ofJson) =
        some (b.schema.fields.map (Field.listing crates.arrow)) := by
  obtain ⟨C, -, hC⟩ := (Session.holds_run hS).boxes
  have hplain : Plain (.array (b.schema.fields.map (columnJson crates.arrow))) := by
    simpa using fun f _ => plain_columnJson crates.arrow f
  have hcall : Abi.ibBatchSchemaJson mem crates.arrow p crates.fmt S.process =
      Abi.text mem (ibBatchSchemaJson crates.arrow crates.fmt b).ret
        (recorded S.process (ibBatchSchemaJson crates.arrow crates.fmt b)) :=
    onHandle_eq (k := .batch) (hC.nonnull _ (hC.mem hp)) hp
  refine ⟨_, answers_json _ hplain (ibBatchSchemaJson_ret _ b) hcall (still_recorded _ _) rfl, ?_⟩
  exact read_list (plain_columnJson _) (column_ofJson _)

/-- The sample column `id` with one row. -/
def idRow : RecordBatch where
  schema := ⟨[⟨"id", .int64, false, some 1⟩]⟩
  columns := [⟨.int64, [some (7 : Int64)]⟩]
  numRows := 1
  typed := rfl
  rows := by simp [ArrayRef.len]

/-- A session with a batch that was pulled from a scan. -/
def pulledEvents : List (Event Unit Unit Unit) := readingEvents ++ [
  .call .beyond .open (.scan 5 (.next (.ok fun _ => .item idRow)))]

def pulledSession : Session Unit := ((Session.start "").run .sample pulledEvents).get rfl

theorem pulledSession_run : (Session.start "").run .sample pulledEvents = some pulledSession := rfl

theorem session_columns_listed_pulled : ∃ listing,
    Answers pulledSession.process (Batch.schemaJson .sample .beyond 7) (.ok listing) ∧
    (read listing).bind (asList ColumnListing.ofJson) =
      some [⟨"id", Arrow.basic.typeText .int64, false⟩] := by
  have hp : pulledSession.process.heap.lookup 7 = some (.batch idRow) := rfl
  exact session_columns_listed pulledSession_run .beyond hp

end

end IcebergRs.Mojo
