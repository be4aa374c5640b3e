import IcebergRs.Mojo.Answers
import IcebergRs.Mojo.Sessions

/-! New batches on addresses. A scan is drained into objects that hold the batches of the stream, in
their order, and when a read fails none of them is left. A builder takes columns one after the other
and makes a batch of them. -/
namespace IcebergRs.Mojo

/-- What `next` makes of an answer of the stream. -/
def pull : Poll String RecordBatch → Outcome (Option RecordBatch)
  | .finished => .ok none
  | .item b => .ok (some b)
  | .fault e => .err ("Scan.next: " ++ setErr s!"ib_scan_next: reading a batch: {e}")
  | .stuck => .panic "the poll panicked or did not return"

/-- What the loop makes of the answers of the stream from number `k` on. -/
def drain (polls : ℕ → Poll String RecordBatch) : ℕ → ℕ → Outcome (List RecordBatch)
  | 0, _ => .panic "still draining the scan"
  | rounds + 1, k => do
    match ← pull (polls k) with
    | none => pure []
    | some b => pure (b :: (← drain polls rounds (k + 1)))

/-- From number `k` on the stream gives exactly these batches and then ends. -/
def Yields (polls : ℕ → Poll String RecordBatch) (k : ℕ) : List RecordBatch → Prop
  | [] => polls k = .finished
  | x :: xs => polls k = .item x ∧ Yields polls (k + 1) xs

/-- The objects at the new addresses hold the batches, and but for them and for the object at `p`
everything is as it was. -/
structure NewBatches {Scan : Type} (s : Process Scan) (p : ℕ) (out : List ℕ) (xs : List RecordBatch)
    (t : Process Scan) : Prop where
  held : out.map (fun q => t.heap.lookup q) = xs.map fun x => some (.batch x)
  fresh : ∀ q ∈ out, q ≠ 0 ∧ s.heap.lookup q = none
  nodup : out.Nodup
  others : ∀ q, q ≠ p → q ∉ out → t.heap.lookup q = s.heap.lookup q

variable {Scan Library : Type} {s t u : Process Scan} {p q k : ℕ} {h : ScanHandle Scan}
variable {mem : Allocators Scan} {env : Env Library} {polls : ℕ → Poll String RecordBatch}
variable {toArrow : Except String (ℕ → Poll String RecordBatch)}

/-- The handle reads on at number `k` of the stream, once it is started. -/
structure Ready {Scan : Type} (toArrow : Except String (ℕ → Poll String RecordBatch))
    (polls : ℕ → Poll String RecordBatch) (s : Process Scan) (p k : ℕ) : Prop where
  nonnull : p ≠ 0
  scan : ∃ h : ScanHandle Scan, s.heap.lookup p = some (.scan h) ∧
    ensureStream toArrow h = .ok ⟨polls, k⟩

/-- The reply to a pull by the answer of the stream. -/
def pullReply (h : ScanHandle Scan) :
    Poll String RecordBatch → Outcome (Reply (ScanHandle Scan) Pull)
  | .finished => .ok (.done h ⟨0, none⟩)
  | .item b => .ok (.done h ⟨1, some b⟩)
  | .fault e => .ok (.fail h ⟨-1, none⟩ s!"ib_scan_next: reading a batch: {e}")
  | .stuck => .panic "the poll panicked or did not return"

theorem ibScanNext_eq (hstream : ensureStream toArrow h = .ok ⟨polls, k⟩) :
    ibScanNext toArrow h true = pullReply { h with stream := some ⟨polls, k + 1⟩ } (polls k) := by
  simp only [ibScanNext, nextBatch, hstream, Polled.head, Polled.tail]
  cases polls k <;> rfl

/-- A batch in a new box. -/
theorem Boxed.newBatches {x : RecordBatch} (hb : Boxed t q (.batch x) u) (hspares : Spares s p t)
    (hp : (t.heap.lookup p).isSome) :
    NewBatches s p [q] [x] u ∧ u.heap.lookup p = t.heap.lookup p := by
  have hqp : q ≠ p := by
    rintro rfl
    rw [hb.fresh] at hp
    cases hp
  refine ⟨⟨congrArg (fun o => [o]) ((hb.heap q).trans (AList.lookup_insert _)), ?_,
    List.nodup_singleton q, fun q' hp' hq' => ?_⟩, ?_⟩
  · rintro q' hq'
    obtain rfl := List.mem_singleton.mp hq'
    exact ⟨hb.nonnull, (hspares q' hqp).symm.trans hb.fresh⟩
  · rw [hb.heap, AList.lookup_insert_ne (List.ne_of_not_mem_cons hq'), hspares q' hp']
  · rw [hb.heap, AList.lookup_insert_ne hqp.symm]

theorem next_follows (hready : Ready toArrow polls s p k) (henv : spill env = 0) :
    (Mojo.Scan.next mem env p toArrow).Follows s (pull (polls k))
      (fun q x t => NewBatches s p q.toList x.toList t ∧ ∀ toArrow, Ready toArrow polls t p (k + 1))
      (Spares s p) := by
  obtain ⟨h, hh, hstream⟩ := hready.scan
  let h' : ScanHandle Scan := { h with stream := some ⟨polls, k + 1⟩ }
  have hpull : ibScanNext toArrow h true = pullReply h' (polls k) := ibScanNext_eq hstream
  have hreply {r : Reply (ScanHandle Scan) Pull} (hr : pullReply h' (polls k) = .ok r) :
      Abi.update .scan p ⟨-1, none⟩ (fun h => ibScanNext toArrow h true) s =
        .value r.ret { recorded s r with heap := s.heap.insert p (.scan r.state) } :=
    update_eq hready.nonnull hh (hpull.trans hr)
  have hscan (t : Process Scan) (ht : t.heap.lookup p = some (.scan h'))
      (toArrow : Except String (ℕ → Poll String RecordBatch)) : Ready toArrow polls t p (k + 1) :=
    ⟨hready.nonnull, h', ht, rfl⟩
  have hspares (t : Process Scan) (ht : t.heap = s.heap.insert p (.scan h')) : Spares s p t := by
    intro q hq
    rw [ht, AList.lookup_insert_ne hq]
  cases hpoll : polls k with
  | stuck =>
    rw [hpoll] at hpull
    have hlost : Abi.update .scan p ⟨-1, none⟩ (fun h => ibScanNext toArrow h true) s = _ :=
      update_lost hready.nonnull hh hpull
    refine ⟨"the poll panicked or did not return", ?_⟩
    simp only [Mojo.Scan.next, Abi.ibScanNext, bind, Program.bind, hlost]
  | fault e =>
    rw [hpoll] at hreply
    let r : Reply (ScanHandle Scan) Pull :=
      .fail h' ⟨-1, none⟩ s!"ib_scan_next: reading a batch: {e}"
    let t : Process Scan := { recorded s r with heap := s.heap.insert p (.scan h') }
    have hspeaks : r.Speaks (fun p => p.code < 0) := Reply.speaks_fail
    have ht : t.lastError = r.lastError.getD s.lastError := rfl
    have hraise : (raiseLast "Scan.next" : Abi Scan (Option ℕ)) t = _ :=
      raiseLast_eq hspeaks (show (-1 : ℤ) < 0 by decide) ht
    refine ⟨t, ?_, hspares t rfl⟩
    simp only [Mojo.Scan.next, Abi.ibScanNext, bind, Program.bind, hreply (r := r) rfl]
    exact hraise
  | finished =>
    rw [hpoll] at hreply
    let t : Process Scan := { s with heap := s.heap.insert p (.scan h') }
    have ht := hspares t rfl
    refine ⟨none, t, ?_, ⟨rfl, by simp, .nil, fun q hq _ => ht q hq⟩,
      hscan t (AList.lookup_insert _)⟩
    simp only [Mojo.Scan.next, Abi.ibScanNext, bind, Program.bind, hreply rfl]
    rfl
  | item b =>
    rw [hpoll] at hreply
    let t : Process Scan := { s with heap := s.heap.insert p (.scan h') }
    have ht : t.heap.lookup p = some (.scan h') := AList.lookup_insert _
    obtain ⟨q, u, hq, hb⟩ := boxed_allocate mem t (.batch b)
    obtain ⟨hnew, hp⟩ := hb.newBatches (hspares t rfl) (by rw [ht]; rfl)
    refine ⟨some q, u, ?_, hnew, hscan u (hp.trans ht)⟩
    have hreply : Abi.update .scan p ⟨-1, none⟩ (fun h => ibScanNext toArrow h true) s =
      .value ⟨1, some b⟩ t := hreply rfl
    simp only [Mojo.Scan.next, Abi.ibScanNext, openShim_eq Scan henv, bind, Program.bind, hreply,
      hq]
    rfl

section
variable {out out' : List ℕ} {xs ys : List RecordBatch}

/-- What is not there at first is not the scan. -/
theorem NewBatches.notMem (hd : NewBatches s p out xs t) (hp : (s.heap.lookup p).isSome) :
    p ∉ out := by
  intro hmem
  rw [(hd.fresh p hmem).2] at hp
  cases hp

theorem NewBatches.exists_batch (hd : NewBatches s p out xs t) (hq : q ∈ out) :
    ∃ x, t.heap.lookup q = some (.batch x) := by
  have hmem : t.heap.lookup q ∈ xs.map fun x => some (Object.batch x) := by
    rw [← hd.held]
    exact List.mem_map_of_mem hq
  obtain ⟨x, -, hx⟩ := List.mem_map.mp hmem
  exact ⟨x, hx.symm⟩

theorem NewBatches.append (hd : NewBatches s p out xs t) (hd' : NewBatches t p out' ys u)
    (hs : (s.heap.lookup p).isSome) (ht : (t.heap.lookup p).isSome) :
    NewBatches s p (out ++ out') (xs ++ ys) u := by
  have hnot : ∀ q ∈ out, q ∉ out' := by
    intro q hq hq'
    obtain ⟨x, hx⟩ := hd.exists_batch hq
    rw [(hd'.fresh q hq').2] at hx
    cases hx
  have hne : ∀ q ∈ out, q ≠ p := fun q hq he => hd.notMem hs (he ▸ hq)
  refine ⟨?_, ?_, ?_, ?_⟩
  · rw [List.map_append, List.map_append, hd'.held, ← hd.held]
    congr 1
    exact List.map_congr_left fun q hq => hd'.others q (hne q hq) (hnot q hq)
  · intro q hq
    rcases List.mem_append.mp hq with hq | hq
    · exact hd.fresh q hq
    · obtain ⟨h0, hfree⟩ := hd'.fresh q hq
      refine ⟨h0, ?_⟩
      rw [← hd.others q ?_ fun hq' => hnot q hq' hq]
      · exact hfree
      · rintro rfl
        exact hd'.notMem ht hq
  · exact List.nodup_append.mpr ⟨hd.nodup, hd'.nodup, fun q hq q' hq' he => hnot q hq (he ▸ hq')⟩
  · intro q hqp hq
    rw [List.mem_append, not_or] at hq
    rw [hd'.others q hqp hq.2, hd.others q hqp hq.1]

theorem deinit_eq {b : RecordBatch} (hq : q ≠ 0) (hb : t.heap.lookup q = some (.batch b)) :
    Batch.deinit q t = .value ⟨⟩ { t with heap := t.heap.erase q } := by
  rw [Batch.deinit, if_pos hq, Abi.ibBatchFree, if_neg hq]
  simp only [Abi.takeBox, bind, Program.bind, Abi.read_eq (k := .batch) hb, Program.modify, pure]

/-- Dropping the list takes its objects away again. -/
theorem dropAll_eq (hd : NewBatches s p out xs t) :
    ∃ u, Mojo.Scan.dropAll out t = .value ⟨⟩ u ∧ Spares s p u := by
  induction out generalizing xs t with
  | nil => exact ⟨t, rfl, fun q hq => hd.others q hq List.not_mem_nil⟩
  | cons b out ih =>
    obtain ⟨x, hx⟩ := hd.exists_batch List.mem_cons_self
    obtain ⟨hb0, hfree⟩ := hd.fresh b List.mem_cons_self
    obtain ⟨hnot, hnodup⟩ := List.nodup_cons.mp hd.nodup
    obtain ⟨y, ys, rfl⟩ : ∃ y ys, xs = y :: ys := by
      cases xs with
      | nil => exact absurd hd.held (by simp)
      | cons y ys => exact ⟨y, ys, rfl⟩
    have hrest : NewBatches s p out ys { t with heap := t.heap.erase b } := by
      refine ⟨?_, fun q hq => hd.fresh q (List.mem_cons_of_mem _ hq), hnodup, fun q hqp hq => ?_⟩
      · refine (List.map_congr_left fun q hq => ?_).trans (List.cons.inj hd.held).2
        exact AList.lookup_erase_ne fun he => hnot (he ▸ hq)
      · by_cases hqb : q = b
        · rw [hqb, AList.lookup_erase, hfree]
        · rw [AList.lookup_erase_ne hqb]
          exact hd.others q hqp (by simp [hqb, hq])
    obtain ⟨u, hu, hspares⟩ := ih hrest
    refine ⟨u, ?_, hspares⟩
    simp only [Mojo.Scan.dropAll, bind, Program.bind, deinit_eq hb0 hx, hu]

theorem batchesLoop_follows {answers : ℕ → Except String (ℕ → Poll String RecordBatch)}
    (henv : spill env = 0) (hs : (s.heap.lookup p).isSome) (rounds : ℕ)
    (hd : NewBatches s p out xs t) (hready : Ready (answers out.length) polls t p k) :
    (Mojo.Scan.batchesLoop mem env p answers rounds out).Follows t (drain polls rounds k)
      (fun bs ys u => NewBatches s p bs (xs ++ ys) u) (Spares s p) := by
  induction rounds generalizing out xs t k with
  | zero => exact ⟨_, rfl⟩
  | succ rounds ih =>
    obtain ⟨h, hh, -⟩ := hready.scan
    have ht : (t.heap.lookup p).isSome := by rw [hh]; rfl
    have hnext : (Mojo.Scan.next mem env p (answers out.length)).Follows t (pull (polls k)) _ _ :=
      next_follows hready henv
    have hdrop (u : Process Scan) (hu : Spares t p u) :
        ∃ v, Mojo.Scan.dropAll out u = .value ⟨⟩ v ∧ Spares s p v := by
      have hu : NewBatches t p [] [] u := ⟨rfl, by simp, .nil, fun q hq _ => hu q hq⟩
      have hall := hd.append hu hs ht
      rw [List.append_nil] at hall
      exact dropAll_eq hall
    refine (hnext.cleanup hdrop).bind ?_
    rintro q x u - ⟨hd', hready'⟩
    have hall := hd.append hd' hs ht
    have hlen := congrArg List.length hd'.held
    rw [List.length_map, List.length_map] at hlen
    match q, x, hlen with
    | none, none, _ =>
      simp only [Option.toList_none, List.append_nil] at hall
      exact Program.follows_pure (by rwa [List.append_nil])
    | some b, some x, _ =>
      refine (ih hall (hready' _)).map_right fun bs ys u hu => ?_
      rwa [List.append_assoc] at hu

end

theorem drain_eq_ok {rounds : ℕ} {xs : List RecordBatch} :
    drain polls rounds k = .ok xs ↔ xs.length < rounds ∧ Yields polls k xs := by
  induction rounds generalizing k xs with
  | zero => simp [drain]
  | succ rounds ih =>
    rw [drain]
    cases hpoll : polls k with
    | finished => cases xs <;> simp [pull, Yields, hpoll]
    | item b =>
      cases xs with
      | nil => simp [pull, Yields, hpoll, Outcome.bind_eq_ok]
      | cons x xs =>
        simp only [pull, Yields, hpoll, Outcome.ok_bind, Outcome.bind_eq_ok, ih, Outcome.pure_eq,
          Outcome.ok.injEq, List.cons.injEq, Poll.item.injEq, List.length_cons]
        constructor
        · rintro ⟨ys, ⟨hlen, hys⟩, rfl, rfl⟩
          exact ⟨by omega, rfl, hys⟩
        · rintro ⟨hlen, rfl, hys⟩
          exact ⟨xs, ⟨by omega, hys⟩, rfl, rfl⟩
    | fault e => cases xs <;> simp [pull, Yields, hpoll]
    | stuck => cases xs <;> simp [pull, Yields, hpoll]

/-- A column call with its arguments. -/
structure ColumnCall where
  name : String
  values : Values
  valid : List Bool

/-- The shim does not read past the end of the mask. -/
def ColumnCall.Covered (c : ColumnCall) : Prop :=
  c.valid = [] ∨ c.values.length ≤ c.valid.length

def ColumnCall.on (A : Arrow) (b : BuilderHandle) (c : ColumnCall) : Outcome BuilderHandle :=
  c.values.call A b c.name c.valid

/-- Column calls on one builder, as long as none of them raises. -/
def BatchBuilder.cols {Spec : Type} (crates : Crates Spec) (b : ℕ) :
    List ColumnCall → Abi Scan PUnit
  | [] => pure ⟨⟩
  | c :: calls => do
    BatchBuilder.col crates b c.name c.values (some c.valid)
    cols crates b calls

def BatchBuilder.colsBuild {Spec : Type} (crates : Crates Spec) (mem : Allocators Scan)
    (env : Env Library) (b : ℕ) (calls : List ColumnCall) : Abi Scan ℕ := do
  BatchBuilder.cols crates b calls
  BatchBuilder.build crates mem env b

/-- The columns and the batch on the contents of a builder. -/
def colsBuild (A : Arrow) (b : BuilderHandle) (calls : List ColumnCall) : Outcome RecordBatch := do
  build A (← calls.foldlM (ColumnCall.on A) b)

section
variable {Spec : Type} {crates : Crates Spec} {b : BuilderHandle} {calls : List ColumnCall}

theorem cols_follows (hp : p ≠ 0) (hspares : Spares s p t)
    (hb : t.heap.lookup p = some (.builder b)) (hcalls : ∀ c ∈ calls, c.Covered) :
    (BatchBuilder.cols crates p calls).Follows t (calls.foldlM (ColumnCall.on crates.arrow) b)
      (fun _ b' u => Spares s p u ∧ u.heap.lookup p = some (.builder b')) (Spares s p) := by
  induction calls generalizing t b with
  | nil => exact Program.follows_pure ⟨hspares, hb⟩
  | cons c calls ih =>
    rw [List.foldlM_cons]
    have hcol : (BatchBuilder.col crates p c.name c.values (some c.valid)).Follows t
        (c.on crates.arrow b) _ _ := follows_col hp hb (hcalls c List.mem_cons_self) c.name
    refine Program.Follows.bind (hcol.mono (fun _ _ _ h => h) fun u hu q hq => ?_) ?_
    · exact (hu.heap q).trans (hspares q hq)
    · rintro ⟨⟩ b' u - hu
      refine ih (fun q hq => ?_) ?_ fun c' hc' => hcalls c' (List.mem_cons_of_mem _ hc')
      · rw [hu, AList.lookup_insert_ne hq, hspares q hq]
      · rw [hu, AList.lookup_insert]

/-- Columns that are supplied make the batch that they make of the contents of the builder. -/
theorem builds_follows (crates : Crates Spec) (hp : p ≠ 0)
    (hb : s.heap.lookup p = some (.builder b)) (hcalls : ∀ c ∈ calls, c.Covered)
    (henv : spill env = 0) (mem : Allocators Scan) :
    (BatchBuilder.colsBuild crates mem env p calls).Follows s (colsBuild crates.arrow b calls)
      (fun q x t => NewBatches s p [q] [x] t) (Spares s p) := by
  refine (cols_follows hp (fun _ _ => rfl) hb hcalls).bind ?_
  rintro ⟨⟩ b' t - ⟨hspares, hb'⟩
  refine (makes_batch hp hb' henv).mono ?_ fun u hu q hq => (hu.heap q).trans (hspares q hq)
  rintro q x u ⟨_, rfl, hu⟩
  exact (hu.newBatches hspares (by rw [hb']; rfl)).1

end

/-- A scan that is drained in any session gives new objects with exactly the batches that the
stream still has, once it ends. An error leaves no object behind. -/
theorem session_drains {Spec : Type} {crates : Crates Spec} {lastError : String}
    {S : Session Scan} {events : List (Event Scan Spec Library)}
    (hS : (Session.start lastError).run crates events = some S)
    (hh : S.process.heap.lookup p = some (.scan h))
    {answers : ℕ → Except String (ℕ → Poll String RecordBatch)}
    (hstream : ensureStream (answers 0) h = .ok ⟨polls, k⟩) (henv : spill env = 0)
    (mem : Allocators Scan) (rounds : ℕ) :
    (Mojo.Scan.batches mem env p answers rounds).Follows S.process (drain polls rounds k)
      (NewBatches S.process p) (Spares S.process p) ∧
    ∀ xs, drain polls rounds k = .ok xs ↔ xs.length < rounds ∧ Yields polls k xs := by
  obtain ⟨C, -, hC⟩ := (Session.holds_run hS).boxes
  have hsome : (S.process.heap.lookup p).isSome := by rw [hh]; rfl
  have hstart : NewBatches S.process p [] [] S.process := ⟨rfl, by simp, .nil, fun _ _ _ => rfl⟩
  have hready : Ready (answers 0) polls S.process p k :=
    ⟨hC.nonnull _ (hC.mem hh), h, hh, hstream⟩
  exact ⟨batchesLoop_follows henv hsome rounds hstart hready, fun xs => drain_eq_ok⟩

/-- A scan and a builder of the first table. -/
def readingEvents : List (Event Unit Unit Unit) := ordersEvents ++ [
  .call .beyond .open (.table 2 (.scan (fun _ _ => .ok ()) "" 0 "")),
  .call .beyond .open (.table 2 .builder)]

def readingSession : Session Unit := ((Session.start "").run .sample readingEvents).get rfl

theorem readingSession_run :
    (Session.start "").run .sample readingEvents = some readingSession := rfl

theorem session_drains_orders : ∃ q t, Mojo.Scan.batches .beyond .open 5
      (fun _ => .ok fun i => if i = 0 then .item (.ofRows 2) else .finished) 2
      readingSession.process = .value [q] t ∧
    t.heap.lookup q = some (.batch (.ofRows 2)) := by
  let polls (i : ℕ) : Poll String RecordBatch := if i = 0 then .item (.ofRows 2) else .finished
  let answers (_ : ℕ) : Except String (ℕ → Poll String RecordBatch) := .ok polls
  have hstream : ensureStream (answers 0) (⟨(), none⟩ : ScanHandle Unit) = .ok ⟨polls, 0⟩ := rfl
  have henv : spill Env.open = 0 := rfl
  obtain ⟨hfollows, hdrain⟩ :=
    session_drains readingSession_run (p := 5) rfl hstream henv .beyond 2
  rw [(hdrain [.ofRows 2]).mpr ⟨by decide, rfl, rfl⟩] at hfollows
  obtain ⟨out, t, ht, hbatches⟩ := hfollows
  obtain ⟨q, rfl⟩ : ∃ q, out = [q] := by
    have hlen := congrArg List.length hbatches.held
    rw [List.length_map, List.length_map] at hlen
    exact List.length_eq_one_iff.mp hlen
  exact ⟨q, t, ht, List.singleton_inj.mp hbatches.held⟩

end IcebergRs.Mojo
