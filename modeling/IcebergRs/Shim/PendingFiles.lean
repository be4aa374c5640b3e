import IcebergRs.Shim.Contents
import IcebergRs.Shim.Ownership

/-! The data files that the table handles of the process have staged. Only appends, commits,
rollbacks and the end of a handle change them: every other entry point preserves them all. -/
namespace IcebergRs
open Function Program

section
variable {Scan : Type}

def Object.pending : Object Scan → List DataFile
  | .table _ h => h.pending
  | .catalog _ | .scan _ | .batch _ | .builder _ | .text _ => []

/-- What is staged at each address, where an address without a table has nothing. -/
def Process.pending (s : Process Scan) (p : ℕ) : List DataFile :=
  ((s.heap.lookup p).map Object.pending).getD []

end

variable {Scan α β γ σ ρ τ Spec : Type} {s t : Process Scan} {p q c : ℕ} {o : Object Scan}
variable {k : Kind Scan σ} {mem : Allocators Scan}

theorem pending_of_lookup (ho : s.heap.lookup p = some o) : s.pending p = o.pending := by
  rw [Process.pending, ho, Option.map_some, Option.getD_some]

theorem pending_of_fresh (hp : p ∉ s.heap) : s.pending p = [] := by
  rw [Process.pending, AList.lookup_eq_none.mpr hp, Option.map_none, Option.getD_none]

theorem pending_insert (counts : Heap ℕ) (m : String) :
    Process.pending ⟨s.heap.insert p o, counts, m⟩ = Function.update s.pending p o.pending := by
  funext q
  by_cases hq : q = p
  · subst hq
    rw [update_self]
    exact pending_of_lookup (AList.lookup_insert _)
  · rw [update_of_ne hq, Process.pending, AList.lookup_insert_ne hq]
    rfl

theorem pending_erase (counts : Heap ℕ) (m : String) :
    Process.pending ⟨s.heap.erase p, counts, m⟩ = Function.update s.pending p [] := by
  funext q
  by_cases hq : q = p
  · subst hq
    rw [update_self, Process.pending, AList.lookup_erase]
    rfl
  · rw [update_of_ne hq, Process.pending, AList.lookup_erase_ne hq]
    rfl

/-- The program stages nothing, commits nothing and drops nothing. -/
abbrev Unstaging (x : Abi Scan α) : Prop := ∀ s, x.Preserves Process.pending s

namespace Abi

theorem unstaging_record (m : Option String) : Unstaging (record m : Abi Scan _) :=
  fun _ => sets_modify rfl

theorem unstaging_answer (r : Reply τ ρ) : Unstaging (answer r : Abi Scan _) :=
  fun s => (unstaging_record _ s).bind fun _ _ _ => preserves_pure

theorem unstaging_answerInto (r : Reply τ ρ) : Unstaging (answerInto r : Abi Scan _) :=
  fun s => (unstaging_record _ s).bind fun _ _ _ => preserves_pure

/-- A new box holds nothing that is staged, and its address had nothing. -/
theorem unstaging_allocate (mem : Allocators Scan) (ho : o.pending = []) :
    Unstaging (allocate mem o) := by
  rintro s _ ⟨⟩
  have hfresh := pending_of_fresh (mem.object.unused s.heap)
  rw [pending_insert, ho, ← hfresh, update_eq_self]

theorem unstaging_pointer {box : γ → Abi Scan ℕ} {x : Option γ}
    (h : ∀ g ∈ x, Unstaging (box g)) : Unstaging (pointer box x) := by
  cases x with
  | none => exact fun s => preserves_pure
  | some g => exact h g rfl

theorem unstaging_text (r : Option String) : Unstaging (text mem r) :=
  unstaging_pointer fun _ _ => unstaging_allocate mem rfl

/-- A catalog that is not there ends the program. -/
theorem sets_useCatalog {f : PUnit → Abi Scan α} {g : Process Scan → γ} {d : γ}
    (h : (f ⟨⟩).Sets g s d) : (useCatalog c >>= f).Sets g s d := by
  intro t ht
  simp only [useCatalog, bind, Program.bind] at ht
  split at ht
  next hvalue =>
    split at hvalue <;> cases hvalue
    exact h t ht
  next hvalue => split at hvalue <;> cases hvalue
  all_goals cases ht

theorem unstaging_cloneCatalog (c : ℕ) : Unstaging (cloneCatalog c : Abi Scan _) := by
  intro s t ht
  unfold cloneCatalog at ht
  split at ht <;> cases ht
  rfl

theorem unstaging_dropCatalog (c : ℕ) : Unstaging (dropCatalog c : Abi Scan _) := by
  intro s t ht
  unfold dropCatalog at ht
  split at ht <;> cases ht
  rfl

theorem unstaging_newCatalog (mem : Allocators Scan) : Unstaging (newCatalog mem) := by
  rintro s _ ⟨⟩
  rfl

/-- What is read is the object that is there. -/
theorem sets_read {f : σ → Abi Scan α} {g : Process Scan → γ} {d : γ}
    (h : ∀ x, s.heap.lookup p = some (k.make x) → (f x).Sets g s d) :
    (k.read p >>= f).Sets g s d := by
  intro t ht
  cases hview : (s.heap.lookup p).bind k.view with
  | none =>
    simp only [bind, Program.bind, Kind.read, hview] at ht
    cases ht
  | some x =>
    simp only [bind, Program.bind, Kind.read, hview] at ht
    obtain ⟨o, ho, hx⟩ := Option.bind_eq_some_iff.mp hview
    exact h x (ho.trans (congrArg some ((k.view_eq_some o x).mp hx).symm)) t ht

theorem sets_takeBox : (takeBox k p).Sets Process.pending s (Function.update s.pending p []) :=
  sets_read fun _ _ => (sets_modify (pending_erase _ _)).bind fun _ _ _ => preserves_pure

/-- A box that is freed has no staged files, unless it is a table. -/
theorem unstaging_takeBox (hk : ∀ x, (k.make x).pending = []) : Unstaging (takeBox k p) := by
  refine fun s => sets_read fun x hx => ?_
  refine (sets_modify ?_).bind fun _ _ _ => preserves_pure
  have hnone : s.pending p = [] := (pending_of_lookup hx).trans (hk x)
  rw [pending_erase, ← hnone, update_eq_self]

/-- A call on a handle goes on with the object that is there. -/
theorem preserves_onHandle {failure : ρ} {call : σ → Abi Scan ρ}
    (h : ∀ x, s.heap.lookup p = some (k.make x) → (call x).Preserves Process.pending s) :
    (onHandle k p failure call).Preserves Process.pending s := by
  unfold onHandle
  split
  · exact (unstaging_record _ s).bind fun _ _ _ => preserves_pure
  · exact sets_read h

theorem unstaging_onHandle {failure : ρ} {call : σ → Abi Scan ρ} (h : ∀ x, Unstaging (call x)) :
    Unstaging (onHandle k p failure call) := fun s => preserves_onHandle fun x _ => h x s

/-- The object of a handle may change where it has no staged files. -/
theorem unstaging_update (hk : ∀ x, (k.make x).pending = []) {failure : ρ}
    {call : σ → Outcome (Reply σ ρ)} : Unstaging (update k p failure call) := by
  refine fun s => preserves_onHandle fun x hx => ?_
  split
  next r _ =>
    refine (sets_modify ?_).bind fun _ t _ =>
      (unstaging_record _ t).bind fun _ _ _ => preserves_pure
    have hnone : s.pending p = [] := (pending_of_lookup hx).trans (hk x)
    rw [pending_insert, hk, ← hnone, update_eq_self]
  all_goals exact preserves_lose

theorem unstaging_onCatalog {failure : ρ} {call : ℕ → Abi Scan ρ} (h : ∀ c, Unstaging (call c)) :
    Unstaging (onCatalog p failure call) :=
  unstaging_onHandle fun c s => sets_useCatalog (h c s)

/-- A table that has just been loaded or created has nothing staged. -/
theorem unstaging_boxedTable {h : TableHandle} (hh : h.pending = []) :
    Unstaging (boxedTable mem c h) :=
  fun s => (unstaging_cloneCatalog c s).bind fun _ t _ =>
    unstaging_allocate (o := .table c h) mem hh t

theorem unstaging_boxedCatalog : Unstaging (boxedCatalog mem) :=
  fun s => (unstaging_newCatalog mem s).bind fun _ t _ => unstaging_allocate mem rfl t

theorem unstaging_newHandle (r : Reply τ (Option γ)) :
    Unstaging (do pointer (fun _ => boxedCatalog mem) (← answer r)) :=
  fun s => (unstaging_answer r s).bind fun _ t _ =>
    unstaging_pointer (fun _ _ => unstaging_boxedCatalog) t

theorem unstaging_catalogText (r : Reply τ (Option String)) :
    Unstaging (onCatalog p 0 fun _ => do text mem (← answer r)) :=
  unstaging_onCatalog fun _ s => (unstaging_answer r s).bind fun a t _ => unstaging_text a t

theorem unstaging_catalogCode {failure : ℤ} (r : Reply τ ℤ) :
    Unstaging (onCatalog p failure fun _ => answer r : Abi Scan _) :=
  unstaging_onCatalog fun _ => unstaging_answer r

/-- The calls that hand out an object that was made of the one of their handle. -/
theorem unstaging_handed {call : σ → Reply τ (Option γ)} {make : γ → Object Scan}
    (hmake : ∀ g, (make g).pending = []) :
    Unstaging (onHandle k p 0 fun x => do
      pointer (fun g => allocate mem (make g)) (← answer (call x))) :=
  unstaging_onHandle fun _ s => (unstaging_answer _ s).bind fun _ t _ =>
    unstaging_pointer (fun g _ => unstaging_allocate mem (hmake g)) t

theorem unstaging_reads {failure : ρ} {call : σ → Reply τ ρ} :
    Unstaging (onHandle k p failure fun x => answer (call x) : Abi Scan _) :=
  unstaging_onHandle fun _ => unstaging_answer _

theorem unstaging_readsInto {failure : ρ × τ} {call : σ → Reply τ ρ} :
    Unstaging (onHandle k p failure fun x => answerInto (call x) : Abi Scan _) :=
  unstaging_onHandle fun _ => unstaging_answerInto _

theorem unstaging_ibScanNew (datum : DatumApi) (ops : PredicateOps)
    (parseJson : String → Except String Json) (build : Table → ScanRequest → Except String Scan)
    (columnsCsv : CString) (snapshotId : ℤ) (filterJson : CString) :
    Unstaging (ibScanNew mem datum ops parseJson build p columnsCsv snapshotId filterJson) := by
  refine unstaging_onHandle fun x s => ?_
  split
  next r _ =>
    exact (unstaging_answer r s).bind fun _ t _ =>
      unstaging_pointer (fun h _ => unstaging_allocate (o := .scan h) mem rfl) t
  all_goals exact preserves_lose

theorem unstaging_ibScanNext (toArrow : Except String (ℕ → Poll String RecordBatch))
    (outBatch : Bool) : Unstaging (ibScanNext mem p toArrow outBatch) := by
  refine fun s => (unstaging_update (fun _ => rfl) s).bind fun r t _ => ?_
  split
  · exact preserves_pure
  next b _ =>
    exact (unstaging_allocate (o := .batch b) mem rfl t).bind fun _ _ _ => preserves_pure

/-- The calls that free a box other than that of a table. -/
theorem unstaging_free (hk : ∀ x, (k.make x).pending = []) {drop : σ → Abi Scan PUnit}
    (hdrop : ∀ x, Unstaging (drop x)) :
    Unstaging (if p = 0 then pure ⟨⟩ else takeBox k p >>= drop) := by
  intro s
  split
  · exact preserves_pure
  · exact (unstaging_takeBox hk s).bind fun x t _ => hdrop x t

theorem unstaging_ibCatalogFree : Unstaging (ibCatalogFree p : Abi Scan _) :=
  unstaging_free (k := .catalog) (fun _ => rfl) unstaging_dropCatalog

theorem unstaging_ibScanFree : Unstaging (ibScanFree p : Abi Scan _) :=
  unstaging_free (k := .scan) (fun _ => rfl) fun _ _ => preserves_pure

theorem unstaging_ibBatchFree : Unstaging (ibBatchFree p : Abi Scan _) :=
  unstaging_free (k := .batch) (fun _ => rfl) fun _ _ => preserves_pure

theorem unstaging_ibBatchBuilderFree : Unstaging (ibBatchBuilderFree p : Abi Scan _) :=
  unstaging_free (k := .builder) (fun _ => rfl) fun _ _ => preserves_pure

theorem unstaging_ibStringFree : Unstaging (ibStringFree p : Abi Scan _) :=
  unstaging_free (k := .text) (fun _ => rfl) fun _ _ => preserves_pure

theorem unstaging_cString : Unstaging (cString p : Abi Scan _) := by
  intro s
  unfold cString
  split
  · exact preserves_pure
  · exact sets_read fun _ _ => preserves_pure

theorem answer_value {r : Reply τ ρ} {a : ρ} (h : answer r s = .value a t) : a = r.ret := by
  cases h
  rfl

theorem unstaging_catalogTable {r : Reply τ (Option TableHandle)}
    (hr : ∀ h ∈ r.ret, h.pending = []) :
    Unstaging (onCatalog p 0 fun inner => do pointer (boxedTable mem inner) (← answer r)) := by
  refine unstaging_onCatalog fun _ s => (unstaging_answer r s).bind fun a t ha => ?_
  obtain rfl := answer_value ha
  exact unstaging_pointer (fun h hh => unstaging_boxedTable (hr h hh)) t

section
variable {h : TableHandle} {failure : ρ} {A : Arrow} {toArrow : SchemaToArrow} {io : WriterApi}

/-- What a call on a table stages is what it leaves in the handle. -/
theorem sets_putTable (r : Reply TableHandle ρ) :
    (putTable p c r).Sets Process.pending s (Function.update s.pending p r.state.pending) :=
  (sets_modify (pending_insert _ _)).bind fun _ t _ => unstaging_answer r t

theorem preserves_putTable (hp : s.heap.lookup p = some (.table c h)) {r : Reply TableHandle ρ}
    (hr : r.state.pending = h.pending) : (putTable p c r).Preserves Process.pending s := by
  have hput := sets_putTable (s := s) (p := p) (c := c) r
  have hp' : s.pending p = h.pending := pending_of_lookup hp
  rwa [hr, ← hp', update_eq_self] at hput

theorem unstaging_onTable {call : TableHandle → Reply TableHandle ρ}
    (h : ∀ h, (call h).state.pending = h.pending) :
    Unstaging (onTable p failure call : Abi Scan _) :=
  fun _ => preserves_onHandle fun x hx => preserves_putTable hx (h x.2)

theorem unstaging_tableText {call : TableHandle → Reply TableHandle (Option String)}
    (h : ∀ h, (call h).state.pending = h.pending) :
    Unstaging (do text mem (← onTable p none call)) :=
  fun s => (unstaging_onTable h s).bind fun r t _ => unstaging_text r t

theorem unstaging_ibTableRefresh (load : TableIdent → Except String Table) :
    Unstaging (ibTableRefresh p load : Abi Scan _) :=
  fun _ => preserves_onHandle fun x hx =>
    sets_useCatalog (preserves_putTable hx (ibTableRefresh_pending load x.2))

theorem sets_onHandle {x : σ} (hp : p ≠ 0) (hx : s.heap.lookup p = some (k.make x))
    {call : σ → Abi Scan ρ} {g : Process Scan → γ} {d : γ} (h : (call x).Sets g s d) :
    (onHandle k p failure call).Sets g s d := by
  unfold onHandle
  rw [if_neg hp]
  unfold Sets
  rwa [bind_of_value (read_eq hx)]

variable (hp : p ≠ 0) (hh : s.heap.lookup p = some (.table c h))
include hp hh

theorem sets_ibTableAppend {b : RecordBatch} (hq : q ≠ 0)
    (hb : s.heap.lookup q = some (.batch b)) :
    (ibTableAppend A toArrow io q p : Abi Scan _).Sets Process.pending s
      (Function.update s.pending p ((Submission.batch b).append A toArrow io h).state.pending) :=
  sets_onHandle (k := .table) (x := (c, h)) hp hh
    (sets_onHandle (k := .batch) hq hb (sets_putTable _))

theorem sets_ibTableAppendBatch (answer : Except String FfiData) (pair : FfiPair) :
    (ibTableAppendBatch A toArrow io p answer (some pair) : Abi Scan _).Sets Process.pending s
      (Function.update s.pending p
        ((Submission.pair (some answer)).append A toArrow io h).state.pending) := by
  refine sets_onHandle (k := .table) (x := (c, h)) hp hh ?_
  have hstate : (Memory.ibTableAppendBatch A toArrow io answer (some h) (some pair)).state.1 =
      some ((Submission.pair (some answer)).append A toArrow io h).state :=
    (memory_ibTableAppendBatch_reply h).2.1
  refine (sets_modify ((pending_insert _ _).trans ?_)).bind fun _ t _ =>
    (unstaging_record _ t).bind fun _ _ _ => preserves_pure
  simp only [hstate, Option.getD_some]
  rfl

theorem sets_ibTableCommit (api : CommitApi) (catalog : Table) :
    (ibTableCommit p api catalog : Abi Scan _).Sets Process.pending s
      (Function.update s.pending p (IcebergRs.ibTableCommit api catalog h).state.1.pending) := by
  refine sets_onHandle (k := .table) (x := (c, h)) hp hh ?_
  split
  · exact sets_useCatalog (sets_putTable _)
  · exact sets_putTable _

theorem sets_ibTableRollback : (ibTableRollback p : Abi Scan _).Sets Process.pending s
    (Function.update s.pending p []) :=
  sets_onHandle (k := .table) (x := (c, h)) hp hh (sets_putTable _)

omit hh in
/-- With the handle goes what it has staged. -/
theorem sets_ibTableFree : (ibTableFree p : Abi Scan _).Sets Process.pending s
    (Function.update s.pending p []) := by
  unfold ibTableFree
  rw [if_neg hp]
  exact sets_takeBox.bind fun x t _ => unstaging_dropCatalog x.1 t

end
end Abi

section
variable {api : CatalogApi Spec} {json : FromJson Spec} {h : TableHandle}

theorem ibTableLoad_pending {ns name : CString} (hh : h ∈ (ibTableLoad api ns name).ret) :
    h.pending = [] := by
  obtain ⟨_, -, hh⟩ := except_bind_eq_ok.mp (Reply.pointer_ret.mp hh)
  obtain ⟨_, -, hh⟩ := except_bind_eq_ok.mp hh
  obtain rfl := Except.ok.inj hh
  rfl

theorem ibTableCreate_pending {ns name schemaJson specJson propsJson : CString}
    (hh : h ∈ (ibTableCreate json api ns name schemaJson specJson propsJson).ret) :
    h.pending = [] := by
  have hok := Reply.pointer_ret.mp hh
  iterate 10 obtain ⟨_, -, hok⟩ := except_bind_eq_ok.mp hok
  obtain rfl := Except.ok.inj hok
  rfl

end
end IcebergRs
