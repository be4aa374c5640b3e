import IcebergRs.Shim.ExactlyOnce
import IcebergRs.Support.Staging

/-! What appends, commits and rollbacks of any number of handles do to the contents of a table: to
the number of its rows, or to the rows themselves. The contents of a batch and of a data file are
given, and so is that the writers put into files what they are handed. -/
namespace IcebergRs
open Function

section
variable {M : Type} [AddCommMonoid M] (size : RecordBatch → M) (held : DataFile → M)

/-- The writers keep what is written, and the splitter takes batches apart without loss. -/
structure WriterApi.Keeps (io : WriterApi) (content : io.Writer → M) : Prop where
  build : ∀ w, io.build = .ok w → content w = 0
  write : ∀ w b w', io.write w b = .ok w' → content w' = content w + size b
  close : ∀ w files, io.close w = .ok files → (files.map held).sum = content w
  split : ∀ b parts, io.split b = .ok parts → (parts.map fun p => size p.2).sum = size b
  fanout : content io.fanout = 0
  writePartition : ∀ w k b w', io.writePartition w k b = .ok w' → content w' = content w + size b
  closeFanout : ∀ w files, io.closeFanout w = .ok files → (files.map held).sum = content w

variable {size held} {io : WriterApi} {content : io.Writer → M}

/-- The data files have together what the batches have, with or without partitions. -/
theorem writeDataFiles_held (hio : io.Keeps size held content) {t : Table}
    {batches : List RecordBatch} {files : List DataFile}
    (h : writeDataFiles io t batches = .ok files) :
    (files.map held).sum = (batches.map size).sum := by
  unfold writeDataFiles at h
  obtain ⟨_, -, h⟩ := except_bind_eq_ok.mp h
  obtain ⟨_, -, h⟩ := except_bind_eq_ok.mp h
  split at h
  · obtain ⟨w, hw, h⟩ := except_bind_eq_ok.mp h
    obtain ⟨w', hw', h⟩ := except_bind_eq_ok.mp h
    have hadds : content w' = content w + (batches.map size).sum := foldlM_adds
      (fun w b w' hb => hio.write w b w' (mapErr_eq_ok.mp hb)) hw'
    rw [hio.close _ _ (mapErr_eq_ok.mp h), hadds, hio.build _ (mapErr_eq_ok.mp hw), zero_add]
  · obtain ⟨_, -, h⟩ := except_bind_eq_ok.mp h
    obtain ⟨w', hw', h⟩ := except_bind_eq_ok.mp h
    have hpart : ∀ (w : io.Writer) (b : RecordBatch) (w' : io.Writer), (do
        let parts ← mapErr "splitting a batch by partition" (io.split b)
        parts.foldlM (fun w p => mapErr "writing a partition" (io.writePartition w p.1 p.2)) w)
          = Except.ok w' → content w' = content w + size b := by
      intro w b w' hb
      obtain ⟨parts, hparts, hb⟩ := except_bind_eq_ok.mp hb
      rw [← hio.split b parts (mapErr_eq_ok.mp hparts)]
      exact foldlM_adds (fun w p w' hp => hio.writePartition w p.1 p.2 w' (mapErr_eq_ok.mp hp)) hb
    rw [hio.closeFanout _ _ (mapErr_eq_ok.mp h), foldlM_adds hpart hw', hio.fanout, zero_add]

end

/-- Writers that count rows, and name a file by as many letters. -/
def WriterApi.counting : WriterApi where
  Writer := ℕ
  Key := Unit
  tableProperties := .ok ()
  location := .ok ()
  build := .ok 0
  write w b := .ok (w + b.numRows)
  close w := .ok [⟨String.ofList (List.replicate w 'r')⟩]
  splitter := .ok ()
  split b := .ok [((), b)]
  fanout := 0
  writePartition w _ b := .ok (w + b.numRows)
  closeFanout w := .ok [⟨String.ofList (List.replicate w 'r')⟩]

def DataFile.letters (f : DataFile) : ℕ := f.path.toList.length

theorem WriterApi.counting_keeps :
    WriterApi.counting.Keeps RecordBatch.numRows DataFile.letters id where
  build _ h := (Except.ok.inj h).symm
  write _ _ _ h := (Except.ok.inj h).symm
  close w files h := by
    obtain rfl := Except.ok.inj h
    exact (congrArg List.length String.toList_ofList).trans List.length_replicate
  split b parts h := by
    obtain rfl := Except.ok.inj h
    exact Nat.add_zero b.numRows
  fanout := rfl
  writePartition _ _ _ _ h := (Except.ok.inj h).symm
  closeFanout w files h := by
    obtain rfl := Except.ok.inj h
    exact (congrArg List.length String.toList_ofList).trans List.length_replicate

theorem writeDataFiles_held_orders :
    (writeDataFiles .counting { Table.orders with unpartitioned := false }
      [ordersRow, ordersRow]).map (fun files => (files.map DataFile.letters).sum) = .ok 2 := by
  have h : writeDataFiles .counting { Table.orders with unpartitioned := false }
      [ordersRow, ordersRow] = .ok [⟨"rr"⟩] := rfl
  have hheld := writeDataFiles_held WriterApi.counting_keeps h
  rw [h]
  exact congrArg Except.ok hheld

/-- The batch that an append hands to the writers, if it gets there. -/
def Submission.conformed (A : Arrow) (toArrow : SchemaToArrow) (h : TableHandle) (s : Submission) :
    Except String RecordBatch := do
  let batch ← s.recordBatch
  let schema ← tableArrowSchema toArrow h.table
  conform A batch schema

/-- A table as its catalog has it, and the handles on it. -/
structure Clients (ι : Type) where
  table : Table
  handles : ι → TableHandle

/-- A call on one handle, with what the writers, the transaction and the catalog answer. -/
inductive Action (ι : Type) where
  | append (i : ι) (s : Submission) (io : WriterApi)
  | commit (i : ι) (api : CommitApi)
  | rollback (i : ι)
  | refresh (i : ι) (load : TableIdent → Except String Table)

def Action.handle {ι : Type} : Action ι → ι
  | append i .. | commit i _ | rollback i | refresh i _ => i

namespace Clients

section
variable {ι : Type} [DecidableEq ι] (A : Arrow) (toArrow : SchemaToArrow) (w : Clients ι)

/-- The code that the call returns. -/
def ret : Action ι → ℤ
  | .append i s io => (s.append A toArrow io (w.handles i)).ret
  | .commit i api => (ibTableCommit api w.table (w.handles i)).ret
  | .rollback i => (ibTableRollback (w.handles i)).ret
  | .refresh i load => (ibTableRefresh load (w.handles i)).ret

def act : Action ι → Clients ι
  | .append i s io =>
    { w with handles := update w.handles i (s.append A toArrow io (w.handles i)).state }
  | .commit i api =>
    let r := ibTableCommit api w.table (w.handles i)
    ⟨r.state.2, update w.handles i r.state.1⟩
  | .rollback i => { w with handles := update w.handles i (ibTableRollback (w.handles i)).state }
  | .refresh i load =>
    { w with handles := update w.handles i (ibTableRefresh load (w.handles i)).state }

def run (actions : List (Action ι)) : Clients ι := actions.foldl (act A toArrow) w

end

section
variable {ι M : Type} [DecidableEq ι] [AddCommMonoid M] (size : RecordBatch → M)
variable (held : DataFile → M) (A : Arrow) (toArrow : SchemaToArrow)

/-- The contents of the table, and those that every handle has staged. -/
def store (w : Clients ι) : Store ι M :=
  ⟨(w.table.added.map held).sum, fun i => ((w.handles i).pending.map held).sum⟩

/-- What a call means for the contents: an append that returns 0 stages the batch that it was
given, brought to the schema of the table; a commit that does not return -1 settles. -/
def effect (w : Clients ι) (a : Action ι) : Store.Op ι M :=
  match a with
  | .append i s _ =>
    if w.ret A toArrow a = 0 then
      match s.conformed A toArrow (w.handles i) with
      | .ok b => .stage i (size b)
      | .error _ => .idle
    else .idle
  | .commit i _ => if w.ret A toArrow a = -1 then .idle else .settle i
  | .rollback i => .drop i
  | .refresh .. => .idle

/-- The effects of calls that are made one after the other. -/
def effects : Clients ι → List (Action ι) → List (Store.Op ι M)
  | _, [] => []
  | w, a :: actions => w.effect size A toArrow a :: effects (w.act A toArrow a) actions

/-- The writers of an append keep contents, and a commit is atomic. -/
def Sound : Action ι → Prop
  | .append _ _ io => ∃ content, io.Keeps size held content
  | .commit _ api => api.Lawful
  | .rollback _ | .refresh .. => True

end

variable {ι M : Type} [DecidableEq ι] [AddCommMonoid M] {size : RecordBatch → M}
variable {held : DataFile → M} {A : Arrow} {toArrow : SchemaToArrow} {w : Clients ι}

theorem staged_update (t : Table) (i : ι) (h : TableHandle) :
    (store held ⟨t, update w.handles i h⟩ : Store ι M) =
      ⟨(t.added.map held).sum, update (w.store held).staged i (h.pending.map held).sum⟩ := by
  rw [store, Store.mk.injEq]
  refine ⟨rfl, funext fun j => ?_⟩
  by_cases hj : j = i
  · subst hj
    simp
  · simp [update_of_ne hj, store]

theorem store_act {a : Action ι} (ha : Sound size held a) :
    (w.act A toArrow a).store held = (w.store held).apply (w.effect size A toArrow a) := by
  cases a with
  | append i s io =>
    obtain ⟨content, hio⟩ := ha
    rcases s.append_cases A toArrow io (w.handles i) with ⟨files, hw, he⟩ | ⟨m, he⟩
    · obtain ⟨batch, b, hb, ⟨schema, hschema, hconform⟩, hfiles⟩ := hw
      have hconformed : s.conformed A toArrow (w.handles i) = .ok b := by
        rw [Submission.conformed, hb, except_ok_bind, tableArrowSchema_eq_ok.mpr hschema,
          except_ok_bind, hconform]
      have hsum := writeDataFiles_held hio hfiles
      simp only [act, effect, ret, he, Reply.done_ret, Reply.done_state, if_pos, hconformed,
        Store.apply]
      rw [staged_update, List.map_append, List.sum_append, hsum, List.map_singleton,
        List.sum_singleton]
      rfl
    · simp only [act, effect, ret, he, Reply.fail_ret, Reply.fail_state, update_eq_self,
        show (-1 : ℤ) ≠ 0 by decide, if_false, Store.apply]
  | commit i api =>
    rcases ibTableCommit_cases ha w.table (w.handles i) with
      ⟨hp, he⟩ | ⟨hp, id, hid, he⟩ | ⟨hp, m, he⟩
    · have hzero : (w.store held).staged i = (0 : M) := by simp [store, hp]
      have hsettle : (w.store held).apply (.settle i) = w.store held := by
        simp only [Store.apply, hzero, add_zero]
        rw [← hzero, update_eq_self]
      simp only [act, effect, ret, he, Reply.done_ret, Reply.done_state, update_eq_self]
      split
      · rfl
      · exact hsettle.symm
    · have hret : id ≠ -1 := by omega
      simp only [act, effect, ret, he, Reply.done_ret, Reply.done_state, if_neg hret, Store.apply]
      rw [staged_update, Table.addSnapshot_added, List.map_append, List.sum_append]
      rfl
    · simp only [act, effect, ret, he, Reply.fail_ret, Reply.fail_state, update_eq_self, if_pos,
        Store.apply]
  | rollback i =>
    simp only [act, effect, Store.apply, ibTableRollback, Reply.done_state]
    rw [staged_update]
    rfl
  | refresh i load =>
    simp only [act, effect, Store.apply]
    rw [staged_update, ibTableRefresh_pending]
    exact congrArg (Store.mk _) (update_eq_self i _)

/-- The handles and the table work like a store with two stages: over any run of calls, the
contents are those that the effects of the calls leave. -/
theorem contents_refine_store {actions : List (Action ι)} (h : ∀ a ∈ actions, Sound size held a) :
    (w.run A toArrow actions).store held =
      (w.store held).run (w.effects size A toArrow actions) := by
  induction actions generalizing w with
  | nil => rfl
  | cons a actions ih =>
    have hrest := ih (w := w.act A toArrow a) fun b hb => h b (List.mem_cons_of_mem _ hb)
    rw [store_act (h a List.mem_cons_self)] at hrest
    exact hrest

/-- Two handles append a row each; one commits and the other rolls back. -/
def ordersActions : List (Action Bool) := [.append true (.batch ordersRow) .counting,
  .append false (.batch ordersRow) .counting, .commit true (.succeeding 9), .rollback false]

def ordersClients : Clients Bool := ⟨.orders, fun _ => ⟨.orders, []⟩⟩

theorem ordersActions_sound :
    ∀ a ∈ ordersActions, Sound RecordBatch.numRows DataFile.letters a := by
  simp only [ordersActions, List.mem_cons, List.not_mem_nil, or_false]
  rintro a (rfl | rfl | rfl | rfl)
  · exact ⟨_, WriterApi.counting_keeps⟩
  · exact ⟨_, WriterApi.counting_keeps⟩
  · exact CommitApi.succeeding_lawful (by decide)
  · trivial

theorem contents_refine_store_orders :
    ((ordersClients.run .basic .direct ordersActions).store DataFile.letters).settled = 1 := by
  rw [contents_refine_store ordersActions_sound]
  rfl

end Clients
end IcebergRs
