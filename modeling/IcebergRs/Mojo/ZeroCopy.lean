import IcebergRs.Mojo.Batches
import IcebergRs.Mojo.StringCalls
import IcebergRs.Shim.Contents

/-! The two ways through the binding: batches as objects, and batches as pairs of the C Data
Interface, which are not copied. Both read the same from a scan and write the same to a table, up to
the names in their errors. -/
namespace IcebergRs

section
variable {A : Arrow} {toArrow : SchemaToArrow} {io : WriterApi} {h : TableHandle} {x : RecordBatch}

/-- The files that an append writes. -/
def stagedFiles (A : Arrow) (toArrow : SchemaToArrow) (io : WriterApi) (h : TableHandle)
    (batch : RecordBatch) : Except String (List DataFile) := do
  let schema ← tableArrowSchema toArrow h.table
  let conformed ← conform A batch schema
  writeDataFiles io h.table [conformed]

/-- An append by the files that it writes; only the text of its error knows what it is called. -/
theorem stage_of_files (what : String) : stage A toArrow io h x what =
    match stagedFiles A toArrow io h x with
    | .ok files => .done { h with pending := h.pending ++ files } 0
    | .error e => .fail h (-1) s!"{what}: {e}" := by
  unfold stage stagedFiles
  cases tableArrowSchema toArrow h.table with
  | error e => rfl
  | ok schema =>
    simp only [except_ok_bind]
    cases conform A x schema with
    | error e => rfl
    | ok conformed => rfl

end

namespace Mojo

/-- An outcome as a method tells it that goes through an entry point. -/
def told {α : Type} (what entry : String) (o : Except String α) : Outcome α :=
  .ofExcept o fun e => raised what s!"{entry}: {e}"

/-- The object at the address is the new one, and all others are as they were. -/
structure Stores {Scan : Type} (s : Process Scan) (p : ℕ) (o : Object Scan) (t : Process Scan) :
    Prop where
  lookup : t.heap.lookup p = some o
  others : Spares s p t
  catalogs : t.catalogs = s.catalogs

variable {Scan Spec Library α β : Type} {s t : Process Scan} {p b inner : ℕ}
variable {what entry : String} {h : TableHandle} {x : RecordBatch}

theorem Stores.of_still {o : Object Scan} {u : Process Scan} (hs : Still s t)
    (h : Stores t p o u) : Stores s p o u :=
  ⟨h.lookup, fun q hq => (h.others q hq).trans (hs.heap q), h.catalogs.trans hs.catalogs⟩

/-- A call that appends, and the method that checks its code. -/
theorem follows_append (test : α → Bool) {call : Abi Scan α} {a : α} {r : Reply TableHandle ℤ}
    {o : Except String (List DataFile)} (hp : s.heap.lookup p = some (.table inner h))
    (hr : r = match o with
      | .ok files => .done { h with pending := h.pending ++ files } 0
      | .error e => .fail h (-1) s!"{entry}: {e}")
    (hcall : call s =
      .value a { recorded s r with heap := s.heap.insert p (.table inner r.state) })
    (htest : test a = decide (r.ret ≠ 0)) :
    (do let a ← call; if test a then raiseLast what else pure a).Follows s (told what entry o)
      (fun a' files t => a' = a ∧
        Stores s p (.table inner { h with pending := h.pending ++ files }) t) (Still s) := by
  let t : Process Scan := { recorded s r with heap := s.heap.insert p (.table inner r.state) }
  have hrun : (do let a ← call; if test a then raiseLast what else pure a) s =
      (if r.ret ≠ 0 then raiseLast what else pure a : Abi Scan α) t := by
    rw [Program.bind_of_value hcall, htest]
    simp only [decide_eq_true_eq]
    rfl
  cases o with
  | ok files =>
    subst hr
    refine ⟨a, t, hrun.trans ?_, rfl, AList.lookup_insert _, fun q hq => ?_, rfl⟩
    · rfl
    · exact AList.lookup_insert_ne hq
  | error e =>
    subst hr
    have hspeaks : (Reply.fail h (-1 : ℤ) s!"{entry}: {e}").Speaks (· ≠ 0) := Reply.speaks_fail
    have hbad : (-1 : ℤ) ≠ 0 := by decide
    have ht : t.lastError =
        (Reply.fail h (-1 : ℤ) s!"{entry}: {e}").lastError.getD s.lastError := rfl
    exact ⟨t, hrun.trans (raiseLast_eq hspeaks hbad ht), still_put hp _⟩

/-- A pair after an append that has imported it. -/
def importedPair : FfiPair := ⟨⟨true, 0, 1⟩, ⟨false, 0, 1⟩⟩

section
variable {crates : Crates Spec} {lastError : String} {S : Session Scan} {env : Env Library}
variable {events : List (Event Scan Spec Library)} {toFfi : RecordBatch → Except String Unit}

theorem answers_export (hb : b ≠ 0) (hx : s.heap.lookup b = some (.batch x))
    (henv : spill env = 0) (hffi : toFfi x = .ok ()) :
    Answers s (Batch.exportCData env b toFfi) (.ok ⟨.exported, true⟩) := by
  have hreply : ibBatchExport toFfi x (some ArrowCData.new.pair) = .done (some .exported) 0 := by
    rw [ibBatchExport, exportBatch, hffi]
    rfl
  have hcall : Abi.ibBatchExport b toFfi (some ArrowCData.new.pair) s =
      .value (0, some .exported) s := by
    rw [Abi.ibBatchExport, onHandle_eq (k := .batch) hb hx, hreply]
    rfl
  refine ⟨_, s, ?_, rfl, .refl s⟩
  rw [Batch.exportCData, openShim_eq Scan henv]
  simp only [filled, bind, Program.bind, pure, hcall]
  rfl

theorem append_follows (hp0 : p ≠ 0) (hp : s.heap.lookup p = some (.table inner h)) (hb0 : b ≠ 0)
    (hb : s.heap.lookup b = some (.batch x)) (io : WriterApi) :
    (Table.append crates p io b).Follows s
      (told "Table.append" "ib_table_append" (stagedFiles crates.arrow crates.toArrow io h x))
      (fun _ files t => Stores s p (.table inner { h with pending := h.pending ++ files }) t)
      (Still s) := by
  let r := ibTableAppend crates.arrow crates.toArrow io h x
  have hcall : Abi.ibTableAppend crates.arrow crates.toArrow io b p s =
      .value r.ret { recorded s r with heap := s.heap.insert p (.table inner r.state) } := by
    rw [Abi.ibTableAppend, onHandle_eq (k := .table) (y := (inner, h)) hp0 hp,
      onHandle_eq (k := .batch) hb0 hb]
    rfl
  refine (follows_append (· ≠ 0) hp (stage_of_files _) hcall rfl).map_left ?_
  rintro _ files t ⟨-, ht⟩
  exact ht

/-- `from_ffi` reads the exported pair as the batch. -/
theorem appendCData_follows (hp0 : p ≠ 0) (hp : s.heap.lookup p = some (.table inner h))
    (io : WriterApi) :
    (Table.appendCData crates p io (.ok (.struct 0 x)) ⟨.exported, true⟩ :
      Abi Scan ArrowCData).Follows s
      (told "Table.append_c_data" "ib_table_append_batch"
        (stagedFiles crates.arrow crates.toArrow io h x))
      (fun data files t => data = ⟨importedPair, false⟩ ∧
        Stores s p (.table inner { h with pending := h.pending ++ files }) t)
      (Still s) := by
  let r := stage crates.arrow crates.toArrow io h x "ib_table_append_batch"
  have hcall : Abi.ibTableAppendBatch crates.arrow crates.toArrow io p (.ok (.struct 0 x))
      (some .exported) s = .value (r.ret, some importedPair)
        { recorded s r with heap := s.heap.insert p (.table inner r.state) } := by
    rw [Abi.ibTableAppendBatch, onHandle_eq (k := .table) (y := (inner, h)) hp0 hp]
    rfl
  refine (follows_append (fun a => a.1 ≠ 0) hp (stage_of_files _) hcall rfl).map_left
    (g := fun a => (⟨a.2.getD FfiPair.exported, false⟩ : ArrowCData)) ?_
  rintro _ files t ⟨rfl, ht⟩
  exact ⟨rfl, ht⟩

/-- Appending a batch and appending it through a pair end alike: they write the same files and
stage them for the same table, or raise the same error, up to the names in it. A pair that is staged
has been consumed. -/
theorem session_appends_agree (hS : (Session.start lastError).run crates events = some S)
    (hp : S.process.heap.lookup p = some (.table inner h))
    (hb : S.process.heap.lookup b = some (.batch x)) (env : Env Library) (henv : spill env = 0)
    (toFfi : RecordBatch → Except String Unit) (hffi : toFfi x = .ok ()) (io : WriterApi) :
    let o := stagedFiles crates.arrow crates.toArrow io h x
    let after (files : List DataFile) : Object Scan :=
      .table inner { h with pending := h.pending ++ files }
    (Table.append crates p io b).Follows S.process (told "Table.append" "ib_table_append" o)
      (fun _ files t => Stores S.process p (after files) t) (Still S.process) ∧
    (do
      Table.appendCData crates p io (.ok (.struct 0 x)) (← Batch.exportCData env b toFfi) :
      Abi Scan ArrowCData).Follows S.process
        (told "Table.append_c_data" "ib_table_append_batch" o)
        (fun data files t => Stores S.process p (after files) t ∧
          data.live = false ∧ Consumed data.pair none) (Still S.process) := by
  intro o after
  obtain ⟨C, -, hC⟩ := (Session.holds_run hS).boxes
  have hp0 : p ≠ 0 := hC.nonnull _ (hC.mem hp)
  have hb0 : b ≠ 0 := hC.nonnull _ (hC.mem hb)
  refine ⟨append_follows hp0 hp hb0 hb io, ?_⟩
  refine Program.Follows.bind (g := fun _ => told "Table.append_c_data" _ o)
    (answers_export hb0 hb henv hffi) ?_
  rintro _ _ t ⟨⟩ ⟨rfl, ht⟩
  have hpt : t.heap.lookup p = some (.table inner h) := (ht.heap p).trans hp
  refine (appendCData_follows hp0 hpt io).mono ?_ fun u hu => ht.trans hu
  rintro _ files u ⟨rfl, hu⟩
  exact ⟨hu.of_still ht, rfl, ⟨rfl, rfl⟩, rfl, rfl⟩

/-- A scan of the first table has given a row of it. -/
def rowEvents : List (Event Unit Unit Unit) := readingEvents ++ [
  .call .beyond .open (.scan 5 (.next (.ok fun _ => .item ordersRow)))]

def rowSession : Session Unit := ((Session.start "").run .sample rowEvents).get rfl

theorem rowSession_run : (Session.start "").run .sample rowEvents = some rowSession := rfl

theorem session_appends_agree_row : ∃ data t,
    (do
      Table.appendCData .sample 2 .counting (.ok (.struct 0 ordersRow))
        (← Batch.exportCData Env.open 7 fun _ => .ok ()) : Abi Unit ArrowCData)
      rowSession.process = .value data t ∧
    t.heap.lookup 2 = some (.table 1 ⟨.orders, [⟨"r"⟩]⟩) := by
  have hp : rowSession.process.heap.lookup 2 = some (.table 1 ⟨.orders, []⟩) := rfl
  have hfiles : stagedFiles Crates.sample.arrow Crates.sample.toArrow .counting ⟨.orders, []⟩
      ordersRow = .ok [⟨"r"⟩] := rfl
  have hb : rowSession.process.heap.lookup 7 = some (.batch ordersRow) := rfl
  have hagree := (session_appends_agree rowSession_run hp hb .open rfl (fun _ => .ok ()) rfl
    .counting).2
  rw [hfiles] at hagree
  obtain ⟨data, t, ht, hstored, -⟩ := hagree
  exact ⟨data, t, ht, hstored.lookup⟩

end
end Mojo
end IcebergRs
