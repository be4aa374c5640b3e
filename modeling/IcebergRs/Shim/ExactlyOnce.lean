import IcebergRs.Shim.Commit
import IcebergRs.Support.Ledger
import IcebergRs.Support.Trace

/-! Any number of handles on one table, with appends, commits, rollbacks and refreshes in
any order and with any answers from outside: a data file that was written is pending, or
in one snapshot, or discarded, and only one of these. -/
namespace IcebergRs
open Function

/-- What a caller submits for append: a batch handle or a C Data Interface pair. -/
inductive Submission where
  | batch (b : RecordBatch)
  | pair (p : Option (Except String FfiData))

namespace Submission

def append (A : Arrow) (toArrow : SchemaToArrow) (io : WriterApi) (h : TableHandle) :
    Submission → Reply TableHandle ℤ
  | batch b => ibTableAppend A toArrow io h b
  | pair p => ibTableAppendBatch A toArrow io h p

def recordBatch : Submission → Except String RecordBatch
  | batch b => .ok b
  | pair p => importBatch p

/-- The files the writer returned for the submission. -/
def Writes (A : Arrow) (toArrow : SchemaToArrow) (io : WriterApi) (h : TableHandle)
    (s : Submission) (files : List DataFile) : Prop :=
  ∃ batch b, s.recordBatch = .ok batch ∧ Stages A toArrow io h batch b files

variable {A : Arrow} {toArrow : SchemaToArrow} {io : WriterApi} {h : TableHandle}

theorem Writes.append_eq {s : Submission} {files : List DataFile}
    (hw : s.Writes A toArrow io h files) :
    s.append A toArrow io h = .done { h with pending := h.pending ++ files } 0 := by
  obtain ⟨batch, b, hb, hst⟩ := hw
  cases s with
  | batch b' =>
    obtain rfl := Except.ok.inj hb
    exact hst.stage_eq _
  | pair p =>
    simp only [recordBatch] at hb
    simp only [append, ibTableAppendBatch, hb, hst.stage_eq]

variable (A toArrow io h) in
theorem append_cases (s : Submission) :
    (∃ files, s.Writes A toArrow io h files ∧
      s.append A toArrow io h = .done { h with pending := h.pending ++ files } 0) ∨
    ∃ m, s.append A toArrow io h = .fail h (-1) m := by
  cases s with
  | batch b =>
    rcases stage_cases "ib_table_append" with ⟨b', files, hst, he⟩ | ⟨m, hm⟩
    · exact .inl ⟨files, ⟨b, b', rfl, hst⟩, he⟩
    · exact .inr ⟨m, hm⟩
  | pair p =>
    rcases ibTableAppendBatch_cases p with ⟨batch, hb, he⟩ | ⟨m, hm⟩
    · rcases stage_cases "ib_table_append_batch" with ⟨b', files, hst, hs⟩ | ⟨m, hm⟩
      · exact .inl ⟨files, ⟨batch, b', hb, hst⟩, he.trans hs⟩
      · exact .inr ⟨m, he.trans hm⟩
    · exact .inr ⟨m, hm⟩

end Submission

/-- The catalog's table and the handles on it, with the files each handle's successful
appends have written so far and those its rollbacks have discarded. -/
structure World (ι : Type) where
  table : Table
  handles : ι → TableHandle
  written : ι → List DataFile
  discarded : ι → List DataFile

/-- A call on one handle with what it returned. -/
inductive Event (ι : Type) where
  | append (i : ι) (ret : ℤ)
  | commit (i : ι) (ret : ℤ)
  | rollback (i : ι) (ret : ℤ)
  | refresh (i : ι) (ret : ℤ)

def Event.ret {ι : Type} : Event ι → ℤ
  | append _ r | commit _ r | rollback _ r | refresh _ r => r

def Event.handle {ι : Type} : Event ι → ι
  | append i _ | commit i _ | rollback i _ | refresh i _ => i

section
variable {ι : Type} [DecidableEq ι] (A : Arrow) (toArrow : SchemaToArrow)

/-- One call, with any answer of the writers, the catalog and the transaction. The names
of data files are unique: a writer returns files that no one has written before. -/
inductive WorldStep : World ι → Event ι → World ι → Prop
  | appended {w : World ι} (i : ι) (s : Submission) (io : WriterApi) (files : List DataFile)
      (hw : s.Writes A toArrow io (w.handles i) files) (nodup : files.Nodup)
      (new : ∀ f ∈ files, f ∉ w.table.added ∧ ∀ j, f ∉ w.written j) :
      WorldStep w (.append i (s.append A toArrow io (w.handles i)).ret)
        { w with
          handles := update w.handles i (s.append A toArrow io (w.handles i)).state
          written := update w.written i (w.written i ++ files) }
  | appendFailed {w : World ι} (i : ι) (s : Submission) (io : WriterApi)
      (hret : (s.append A toArrow io (w.handles i)).ret ≠ 0) :
      WorldStep w (.append i (s.append A toArrow io (w.handles i)).ret)
        { w with handles := update w.handles i (s.append A toArrow io (w.handles i)).state }
  | commit {w : World ι} (i : ι) (api : CommitApi) (hapi : api.Lawful) :
      WorldStep w (.commit i (ibTableCommit api w.table (w.handles i)).ret)
        { w with
          handles := update w.handles i (ibTableCommit api w.table (w.handles i)).state.1
          table := (ibTableCommit api w.table (w.handles i)).state.2 }
  | rollback {w : World ι} (i : ι) :
      WorldStep w (.rollback i (ibTableRollback (w.handles i)).ret)
        { w with
          handles := update w.handles i (ibTableRollback (w.handles i)).state
          discarded := update w.discarded i (w.discarded i ++ (w.handles i).pending) }
  | refresh {w : World ι} (i : ι) (load : TableIdent → Except String Table) :
      WorldStep w (.refresh i (ibTableRefresh load (w.handles i)).ret)
        { w with handles := update w.handles i (ibTableRefresh load (w.handles i)).state }

end

/-- The files of the world as items of a ledger. -/
def World.ledger {ι : Type} (w : World ι) : Ledger ι DataFile where
  issued := w.written
  pending i := (w.handles i).pending
  dropped := w.discarded
  settled := w.table.snapshots.map Snapshot.added

/-- Before the first call nothing is staged. -/
structure World.Initial {ι : Type} (w : World ι) : Prop where
  pending : ∀ i, (w.handles i).pending = []
  written : ∀ i, w.written i = []
  discarded : ∀ i, w.discarded i = []

variable {ι : Type} [DecidableEq ι] {A : Arrow} {toArrow : SchemaToArrow}
variable {w w' : World ι} {e : Event ι}

theorem pending_update (i : ι) (h : TableHandle) :
    (fun j => (update w.handles i h j).pending) = update w.ledger.pending i h.pending := by
  funext j
  by_cases hj : j = i
  · subst hj
    simp
  · simp [update_of_ne hj, World.ledger]

/-- Every call moves files as one step of the ledger does. -/
theorem WorldStep.ledger (h : WorldStep A toArrow w e w') : Ledger.Step w.ledger w'.ledger := by
  cases h with
  | appended i s io files hw nodup new =>
    simpa only [World.ledger, pending_update, hw.append_eq, Reply.done_state] using
      Ledger.Step.issue (L := w.ledger) i files nodup new
  | appendFailed i s io hret =>
    rcases s.append_cases A toArrow io (w.handles i) with ⟨files, -, he⟩ | ⟨m, hm⟩
    · simp [he] at hret
    · simpa only [World.ledger, hm, Reply.fail_state, update_eq_self] using Ledger.Step.idle
  | commit i api hapi =>
    rcases ibTableCommit_cases hapi w.table (w.handles i) with
      ⟨-, he⟩ | ⟨-, id, hid, he⟩ | ⟨-, m, he⟩
    · simpa only [World.ledger, he, Reply.done_state, update_eq_self] using Ledger.Step.idle
    · simpa only [World.ledger, pending_update, he, Reply.done_state, Table.addSnapshot_snapshots,
        List.map_append, List.map_cons, List.map_nil] using Ledger.Step.settle (L := w.ledger) i
    · simpa only [World.ledger, he, Reply.fail_state, update_eq_self] using Ledger.Step.idle
  | rollback i =>
    simpa only [World.ledger, pending_update, ibTableRollback, Reply.done_state] using
      Ledger.Step.drop (L := w.ledger) i
  | refresh i load =>
    simpa only [World.ledger, pending_update, ibTableRefresh_pending, update_eq_self] using
      Ledger.Step.idle

theorem ledger_inv {w₀ : World ι} {es : List (Event ι)} (h₀ : w₀.Initial)
    (run : Trace (WorldStep A toArrow) w₀ es w) : w.ledger.Inv := by
  refine run.invariant (I := fun _ w => w.ledger.Inv) ⟨?_, ?_, ?_, ?_⟩
    fun _ _ _ _ _ h hs => h.step hs.ledger
  · simp [World.ledger, h₀.written]
  · simp [World.ledger, h₀.pending]
  · simp [World.ledger, h₀.discarded]
  · simp [World.ledger, h₀.written]

/-- A call that returns -1 leaves every handle and the table as they were. -/
theorem WorldStep.failed (h : WorldStep A toArrow w e w') (hret : e.ret = -1) :
    w'.handles = w.handles ∧ w'.table = w.table := by
  cases h with
  | appended i s io files hw nodup new => simp [Event.ret, hw.append_eq] at hret
  | appendFailed i s io =>
    rcases s.append_cases A toArrow io (w.handles i) with ⟨files, -, he⟩ | ⟨m, hm⟩
    · simp [Event.ret, he] at hret
    · simp [hm]
  | commit i api hapi =>
    rcases ibTableCommit_cases hapi w.table (w.handles i) with
      ⟨-, he⟩ | ⟨-, id, hid, he⟩ | ⟨-, m, he⟩
    · simp [he]
    · simp only [Event.ret, he, Reply.done_ret] at hret
      omega
    · simp [he]
  | rollback i => simp [Event.ret, ibTableRollback] at hret
  | refresh i load =>
    unfold ibTableRefresh at hret ⊢
    split at hret
    · simp [Event.ret] at hret
    · simp

/-- A commit with nothing pending changes nothing. Any other that succeeds adds one
snapshot with the pending files in their order and leaves none pending. -/
theorem WorldStep.committed {i : ι} {ret : ℤ} (h : WorldStep A toArrow w (.commit i ret) w')
    (hret : ret ≠ -1) :
    ((w.handles i).pending = [] ∧ w'.handles = w.handles ∧ w'.table = w.table) ∨
    ((w.handles i).pending ≠ [] ∧ (w'.handles i).pending = [] ∧
      ∃ id, w'.table = w.table.addSnapshot ⟨id, (w.handles i).pending⟩) := by
  cases h with
  | commit _ api hapi =>
    rcases ibTableCommit_cases hapi w.table (w.handles i) with
      ⟨hp, he⟩ | ⟨hp, id, -, he⟩ | ⟨-, m, he⟩
    · exact .inl ⟨hp, by simp [he], by simp [he]⟩
    · exact .inr ⟨hp, by simp [he], id, by simp [he]⟩
    · simp [he] at hret

theorem WorldStep.refreshed {i j : ι} {ret : ℤ}
    (h : WorldStep A toArrow w (.refresh i ret) w') :
    (w'.handles j).pending = (w.handles j).pending := by
  cases h with
  | refresh _ load =>
    by_cases hj : j = i
    · subst hj
      simp
    · simp [update_of_ne hj]

/-- In every world that calls lead to, each file a successful append of a handle wrote is
in exactly one place, what the handle has pending is the end of what it wrote, and the
next call on any handle does what its contract says. -/
theorem exactly_once_staging {w₀ : World ι} {es : List (Event ι)} (h₀ : w₀.Initial)
    (run : Trace (WorldStep A toArrow) w₀ es w) :
    (∀ i, ∀ f ∈ w.written i, w.ledger.AtOnePlace i f) ∧
    (∀ i, (w.handles i).pending <:+ w.written i) ∧
    (∀ i ret w', WorldStep A toArrow w (.commit i ret) w' → ret ≠ -1 →
      ((w.handles i).pending = [] ∧ w'.handles = w.handles ∧ w'.table = w.table) ∨
      ((w.handles i).pending ≠ [] ∧ (w'.handles i).pending = [] ∧
        ∃ id, w'.table = w.table.addSnapshot ⟨id, (w.handles i).pending⟩)) ∧
    (∀ i ret w', WorldStep A toArrow w (.refresh i ret) w' →
      ∀ j, (w'.handles j).pending = (w.handles j).pending) ∧
    ∀ e w', WorldStep A toArrow w e w' → e.ret = -1 →
      w'.handles = w.handles ∧ w'.table = w.table :=
  ⟨fun _ _ hf => (ledger_inv h₀ run).atOnePlace hf, (ledger_inv h₀ run).waits,
    fun _ _ _ hs hret => hs.committed hret, fun _ _ _ hs _ => hs.refreshed,
    fun _ _ hs hret => hs.failed hret⟩

/-- One row of the sample table. -/
def ordersRow : RecordBatch :=
  .ofFits (SchemaToArrow.fieldwise .orders) [⟨.int64, [some (7 : Int64)]⟩, .newNullArray .utf8 1,
    .newNullArray .int32 1, .newNullArray (.decimal128 10 2) 1,
    .newNullArray (.timestamp .microsecond none) 1] (by decide)

theorem ordersRow_writes (path : String) (h : TableHandle) (ht : h.table = .orders) :
    (Submission.batch ordersRow).Writes .basic .direct (.single path) h [⟨path⟩] := by
  refine ⟨ordersRow, _, rfl, ⟨⟨SchemaToArrow.fieldwise .orders, ?_, rfl⟩, ?_⟩⟩
  · rw [ht]; rfl
  · rw [ht]; rfl

theorem exactly_once_staging_orders : ∃ w₀ w : World Bool, w₀.Initial ∧
    Trace (WorldStep .basic .direct) w₀
      [.append true 0, .append false 0, .commit true 9, .rollback false 0] w ∧
    w.ledger.AtOnePlace true ⟨"f"⟩ ∧ w.ledger.AtOnePlace false ⟨"g"⟩ := by
  let w₀ : World Bool := ⟨.orders, fun _ => ⟨.orders, []⟩, fun _ => [], fun _ => []⟩
  have h₀ : w₀.Initial := ⟨fun _ => rfl, fun _ => rfl, fun _ => rfl⟩
  have run1 := Trace.snoc (Trace.nil (R := WorldStep .basic .direct) (s := w₀))
    (.appended true _ _ _ (ordersRow_writes "f" _ rfl) (by decide)
      (by simp [w₀, Table.added, Table.orders]))
  have run2 := run1.snoc (.appended false _ _ _ (ordersRow_writes "g" _ rfl)
    (by decide) (by simp [w₀, Table.added, Table.orders]))
  have run3 := run2.snoc (.commit true (.succeeding 9) (CommitApi.succeeding_lawful (by decide)))
  have run4 := run3.snoc (.rollback false)
  have h := exactly_once_staging h₀ run4
  exact ⟨w₀, _, h₀, run4, h.1 true _ (by decide), h.1 false _ (by decide)⟩

end IcebergRs
