import IcebergRs.Mojo.Answers
import IcebergRs.Shim.PendingFiles

/-! What the methods of the binding do to the data files that are staged. A method of a table does
what a client of the table does with the action of the method, the destructor of a table drops what
it has staged, and nothing else changes what is staged anywhere. -/
namespace IcebergRs.Mojo
open Function Program

section
variable {Scan Spec Library α : Type} {s : Process Scan} {crates : Crates Spec}
variable {mem : Allocators Scan} {env : Env Library} {what : String} {d : ℕ → List DataFile}
variable {p : ℕ}

theorem unstaging_raiseLast : Unstaging (raiseLast what : Abi Scan α) := by
  rintro s _ ⟨⟩
  rfl

theorem unstaging_openShim : Unstaging (openShim env : Abi Scan PUnit) := by
  rcases openShim_cases Scan env with ⟨h, -⟩ | ⟨m, h, -⟩ <;> rw [h]
  · exact fun s => preserves_pure
  · exact fun s => preserves_raise

/-- A method that checks what it got from a call has the call's effect. -/
theorem sets_check {β : Type} {x : Abi Scan α} {f : α → Abi Scan β} (bad : α → Prop)
    [DecidablePred bad] (hx : x.Sets Process.pending s d) (hf : ∀ a, Unstaging (f a)) :
    (do let a ← x; if bad a then raiseLast what else f a).Sets Process.pending s d := by
  refine hx.bind fun a t _ => ?_
  split
  · exact unstaging_raiseLast t
  · exact hf a t

theorem sets_checked {bad : ℤ → Bool} {call : Abi Scan ℤ} (h : call.Sets Process.pending s d) :
    (checked what bad call).Sets Process.pending s d :=
  sets_check (fun rc => bad rc = true) h fun _ _ => preserves_pure

theorem sets_status {bad : ℤ → Bool} {call : Abi Scan ℤ} (h : call.Sets Process.pending s d) :
    (status what bad call).Sets Process.pending s d :=
  (sets_checked h).bind fun _ _ _ => preserves_pure

theorem sets_filled {bad : ℤ → Bool} {call : Abi Scan (ℤ × α)}
    (h : call.Sets Process.pending s d) : (filled what bad call).Sets Process.pending s d :=
  sets_check (fun r : ℤ × α => bad r.1 = true) h fun _ _ => preserves_pure

theorem unstaging_takeText : Unstaging (takeText p : Abi Scan String) :=
  fun s => (Abi.unstaging_cString s).bind fun _ t _ =>
    (Abi.unstaging_ibStringFree t).bind fun _ _ _ => preserves_pure

theorem unstaging_text {call : Abi Scan ℕ} (h : Unstaging call) : Unstaging (text what call) :=
  fun s => sets_check (fun p => p = 0) (h s) fun _ => unstaging_takeText

theorem unstaging_wrapped {call : Abi Scan ℕ} (h : Unstaging call) :
    Unstaging (wrapped env what call) :=
  fun s => sets_check (fun p => p = 0) (h s) fun _ t =>
    (unstaging_openShim t).bind fun _ _ _ => preserves_pure

theorem unstaging_opened {call : Abi Scan ℕ} (h : Unstaging call) :
    Unstaging (Catalog.opened env what call) :=
  fun s => (unstaging_openShim s).bind fun _ t _ =>
    sets_check (fun p => p = 0) (h t) fun _ _ => preserves_pure

theorem unstaging_numRows : Unstaging (Batch.numRows p : Abi Scan ℤ) :=
  fun s => sets_checked (Abi.unstaging_reads s)

theorem unstaging_values {zero : α} {name : String}
    {get : CString → OutBuffers α → ℕ → Abi Scan (ℤ × OutBuffers α)}
    (h : ∀ bufs rows, Unstaging (get (arg name) bufs rows)) :
    Unstaging (Batch.values p name what zero get) :=
  fun s => (unstaging_numRows s).bind fun _ t _ =>
    (sets_filled (h _ _ t)).bind fun _ _ _ => preserves_pure

theorem unstaging_next (toArrow : Except String (ℕ → Poll String RecordBatch)) :
    Unstaging (Mojo.Scan.next mem env p toArrow) := by
  refine fun s => (Abi.unstaging_ibScanNext toArrow true s).bind fun ⟨rc, out⟩ t _ => ?_
  dsimp only
  split
  · exact unstaging_raiseLast t
  · split
    · exact preserves_pure
    · exact (unstaging_openShim t).bind fun _ _ _ => preserves_pure

theorem unstaging_deinitBatch : Unstaging (Batch.deinit p : Abi Scan PUnit) := by
  intro s
  unfold Batch.deinit
  split
  · exact Abi.unstaging_ibBatchFree s
  · exact preserves_pure

theorem unstaging_dropAll (out : List ℕ) :
    Unstaging (Mojo.Scan.dropAll out : Abi Scan PUnit) := by
  induction out with
  | nil => exact fun s => preserves_pure
  | cons b out ih => exact fun s => (unstaging_deinitBatch s).bind fun _ t _ => ih t

theorem unstaging_batchesLoop (answers : ℕ → Except String (ℕ → Poll String RecordBatch))
    (rounds : ℕ) (out : List ℕ) :
    Unstaging (Mojo.Scan.batchesLoop mem env p answers rounds out) := by
  induction rounds generalizing out with
  | zero => exact fun s => preserves_lose
  | succ rounds ih =>
    intro s
    refine ((unstaging_next _ s).cleanup (unstaging_dropAll out)).bind fun b t _ => ?_
    split
    · exact preserves_pure
    · exact ih _ t

theorem quiet_sets {x : Abi Scan α} (h : x.Sets Process.pending s d) :
    (quiet x).Sets Process.pending s d := h.bind fun _ _ _ => preserves_pure

theorem making_sets {cls : BoxClass} {x : Abi Scan ℕ} (h : x.Sets Process.pending s d) :
    (making cls x).Sets Process.pending s d := h.bind fun _ _ _ => preserves_pure

theorem BatchMethod.unstaging (m : BatchMethod) : Unstaging (m.run crates mem env p) := by
  intro s
  cases m with
  | numRows => exact quiet_sets (unstaging_numRows s)
  | numColumns => exact quiet_sets (sets_checked (Abi.unstaging_reads s))
  | schemaJson => exact quiet_sets (unstaging_text (Abi.unstaging_handed fun _ => rfl) s)
  | intCol name => exact quiet_sets (unstaging_values (fun _ _ => Abi.unstaging_readsInto) s)
  | floatCol name => exact quiet_sets (unstaging_values (fun _ _ => Abi.unstaging_readsInto) s)
  | boolCol name =>
    exact quiet_sets ((unstaging_numRows s).bind fun _ t _ =>
      (sets_filled (Abi.unstaging_readsInto t)).bind fun _ _ _ => preserves_pure)
  | strCol name =>
    refine quiet_sets ((unstaging_numRows s).bind fun _ t _ => ?_)
    exact (sets_checked (Abi.unstaging_reads t)).bind fun _ u _ =>
      (sets_filled (Abi.unstaging_readsInto u)).bind fun _ _ _ => preserves_pure
  | validity name =>
    exact quiet_sets ((unstaging_numRows s).bind fun _ t _ =>
      (sets_filled (Abi.unstaging_readsInto t)).bind fun _ _ _ => preserves_pure)
  | exportCData toFfi =>
    exact quiet_sets ((unstaging_openShim s).bind fun _ t _ =>
      (sets_filled (Abi.unstaging_readsInto t)).bind fun _ _ _ => preserves_pure)

theorem ScanMethod.unstaging (m : ScanMethod) : Unstaging (m.run crates mem env p) := by
  intro s
  cases m with
  | planFiles answer =>
    exact quiet_sets (unstaging_text (fun s => (Abi.unstaging_update (fun _ => rfl) s).bind
      fun _ t _ => Abi.unstaging_text _ t) s)
  | next toArrow => exact (unstaging_next toArrow s).bind fun _ _ _ => preserves_pure
  | nextCData toArrow toFfi =>
    refine quiet_sets ((unstaging_openShim s).bind fun _ t _ => ?_)
    refine (Abi.unstaging_update (fun _ => rfl) t).bind fun pull u _ => ?_
    split
    · exact unstaging_raiseLast u
    · split <;> exact preserves_pure
  | batches answers rounds =>
    exact (unstaging_batchesLoop answers rounds [] s).bind fun _ _ _ => preserves_pure

theorem BuilderMethod.unstaging (m : BuilderMethod) : Unstaging (m.run crates mem env p) := by
  intro s
  cases m with
  | col name c valid covers =>
    refine quiet_sets ?_
    unfold BatchBuilder.col
    split
    next call _ => cases call <;> exact sets_status (Abi.unstaging_update (fun _ => rfl) s)
    all_goals exact fun t ht => by cases ht
  | build => exact making_sets (unstaging_wrapped (Abi.unstaging_handed fun _ => rfl) s)

theorem CatalogMethod.unstaging (api : CatalogApi Spec) (m : CatalogMethod) :
    Unstaging (m.run crates mem env api p) := by
  intro s
  cases m with
  | listNamespaces parent =>
    exact quiet_sets (unstaging_text (Abi.unstaging_catalogText _) s)
  | createNamespace ns propsJson =>
    exact quiet_sets (sets_status (Abi.unstaging_catalogCode _ s))
  | namespaceExists ns =>
    exact quiet_sets ((sets_checked (Abi.unstaging_catalogCode _ s)).bind fun _ _ _ =>
      preserves_pure)
  | dropNamespace ns => exact quiet_sets (sets_status (Abi.unstaging_catalogCode _ s))
  | listTables ns => exact quiet_sets (unstaging_text (Abi.unstaging_catalogText _) s)
  | tableExists ns name =>
    exact quiet_sets ((sets_checked (Abi.unstaging_catalogCode _ s)).bind fun _ _ _ =>
      preserves_pure)
  | loadTable ns name =>
    exact making_sets
      (unstaging_wrapped (Abi.unstaging_catalogTable fun _ => ibTableLoad_pending) s)
  | dropTable ns name => exact quiet_sets (sets_status (Abi.unstaging_catalogCode _ s))
  | createTable ns name schemaJson specJson propsJson =>
    exact making_sets
      (unstaging_wrapped (Abi.unstaging_catalogTable fun _ => ibTableCreate_pending) s)

/-- What a method does with the files of its table, as a client of the table does it. -/
def TableMethod.action (s : Process Scan) : TableMethod Scan → Option (Action Unit)
  | append io b =>
    match s.heap.lookup b with
    | some (.batch batch) => some (.append () (.batch batch) io)
    | _ => none
  | appendCData io answer _ => some (.append () (.pair (some answer)) io)
  | commit api _ => some (.commit () api)
  | rollback => some (.rollback ())
  | refresh load => some (.refresh () load)
  | metadataJson | schemaJson | partitionSpecJson | snapshotsJson | location | currentSnapshotId
  | builder | pendingFiles | scan .. => none

/-- The client of a table, and the table as its catalog has it where the method needs to know. -/
def TableMethod.client (h : TableHandle) : TableMethod Scan → Clients Unit
  | commit _ catalog => ⟨catalog, fun _ => h⟩
  | _ => ⟨h.table, fun _ => h⟩

variable (crates) in
/-- What the handle has staged after the method. -/
def TableMethod.staged (s : Process Scan) (h : TableHandle) (m : TableMethod Scan) :
    List DataFile :=
  match m.action s with
  | some a => (((m.client h).act crates.arrow crates.toArrow a).handles ()).pending
  | none => h.pending

/-- A method of a table stages for its handle what its action does, and nothing for others. -/
theorem TableMethod.sets {c : ℕ} {h : TableHandle} (m : TableMethod Scan) (hp : p ≠ 0)
    (hh : s.heap.lookup p = some (.table c h))
    (hm : ∀ io b, m = .append io b → b ≠ 0 ∧ ∃ batch, s.heap.lookup b = some (.batch batch)) :
    (m.run crates mem env p).Sets Process.pending s
      (update s.pending p (m.staged crates s h)) := by
  have hsame {x : Abi Scan (List Owned)} (hx : x.Preserves Process.pending s)
      (hm : m.staged crates s h = h.pending) :
      x.Sets Process.pending s (update s.pending p (m.staged crates s h)) := by
    rw [hm, show h.pending = s.pending p from (pending_of_lookup hh).symm, update_eq_self]
    exact hx
  have htext (what : String) {call : TableHandle → Reply TableHandle (Option String)}
      (hcall : ∀ h, (call h).state = h) :
      (quiet (text what (do Abi.text mem (← Abi.onTable p none call)))).Preserves
        Process.pending s :=
    quiet_sets (unstaging_text (Abi.unstaging_tableText fun h => congrArg _ (hcall h)) s)
  cases m with
  | refresh load =>
    exact hsame (quiet_sets (sets_status (Abi.unstaging_ibTableRefresh load s)))
      (ibTableRefresh_pending load h)
  | metadataJson => exact hsame (htext _ fun _ => Reply.pointer_state _) rfl
  | schemaJson => exact hsame (htext _ fun _ => Reply.pointer_state _) rfl
  | partitionSpecJson => exact hsame (htext _ fun _ => Reply.pointer_state _) rfl
  | snapshotsJson => exact hsame (htext _ fun _ => Reply.pointer_state _) rfl
  | location => exact hsame (htext _ fun _ => Reply.pointer_state _) rfl
  | currentSnapshotId =>
    exact hsame (quiet_sets (sets_checked (Abi.unstaging_onTable (fun _ => rfl) s))) rfl
  | builder =>
    exact hsame (making_sets (unstaging_wrapped (Abi.unstaging_handed fun _ => rfl) s)) rfl
  | append io b =>
    obtain ⟨hb, batch, hbatch⟩ := hm io b rfl
    simp only [TableMethod.staged, TableMethod.action, hbatch]
    exact quiet_sets (sets_status (Abi.sets_ibTableAppend hp hh hb hbatch))
  | appendCData io answer data =>
    exact quiet_sets ((sets_filled (Abi.sets_ibTableAppendBatch hp hh answer data.pair)).bind
      fun _ _ _ => preserves_pure)
  | pendingFiles =>
    exact hsame (quiet_sets (sets_checked (Abi.unstaging_onTable (fun _ => rfl) s))) rfl
  | commit api catalog =>
    exact quiet_sets (sets_checked (Abi.sets_ibTableCommit hp hh api catalog))
  | rollback => exact quiet_sets (sets_status (Abi.sets_ibTableRollback hp hh))
  | scan build columns snapshotId filter =>
    exact hsame (making_sets (unstaging_wrapped
      (fun s => Abi.unstaging_ibScanNew _ _ _ _ _ _ _ s) s)) rfl

/-- The destructor of a table drops what it has staged; the others drop nothing. -/
theorem deinit_sets (o : Owned) (ho : o.ptr ≠ 0) : (deinit o : Abi Scan PUnit).Sets
    Process.pending s (if o.cls = .table then update s.pending o.ptr [] else s.pending) := by
  obtain ⟨cls, q⟩ := o
  have hfree {free : Abi Scan PUnit} (h : Unstaging free) :
      (if q ≠ 0 then free else pure ⟨⟩).Preserves Process.pending s := by
    rw [if_pos ho]
    exact h s
  cases cls with
  | catalog => exact hfree Abi.unstaging_ibCatalogFree
  | table =>
    have htable : (Table.deinit q : Abi Scan PUnit) = Abi.ibTableFree q := if_pos ho
    rw [deinit, htable]
    exact Abi.sets_ibTableFree ho
  | scan => exact hfree Abi.unstaging_ibScanFree
  | batch => exact hfree Abi.unstaging_ibBatchFree
  | builder => exact hfree Abi.unstaging_ibBatchBuilderFree
  | text => exact Abi.unstaging_ibStringFree s

end
end IcebergRs.Mojo
