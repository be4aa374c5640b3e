import IcebergRs.Mojo.Batches
import IcebergRs.Mojo.Listings
import IcebergRs.Shim.ScanStream

/-! The stream of a scan over a whole session. Whatever is done with other objects in between, the
batches that come out of a scan, as objects or as pairs, are those of its stream, once and in their
order, and none is missing unless a call on the scan has raised. -/
namespace IcebergRs

section
variable {Scan : Type} {polls : ℕ → Poll String RecordBatch} {h : ScanHandle Scan} {k : ℕ}

/-- The code says whether there is a batch, and an error has none. -/
inductive Pull.Plain : Pull → Prop
  | failed : Plain ⟨-1, none⟩
  | ended : Plain ⟨0, none⟩
  | got (b : RecordBatch) : Plain ⟨1, some b⟩

variable (polls k) in
/-- A pull hands over the next batch. It loses one only when it fails. -/
def PullHands (answer : Outcome (Reply (ScanHandle Scan) Pull)) : Prop :=
  ∀ r, answer = .ok r → r.ret.Plain ∧ ∃ k', r.state.At polls k' ∧
    Polled.Hands ⟨polls, 0⟩ k r.ret.batch.toList (0 ≤ r.ret.code) k'

theorem hands_item {b : RecordBatch} {whole : Prop} (hp : polls k = .item b) :
    Polled.Hands ⟨polls, 0⟩ k [b] whole (k + 1) := by
  have hpoll : Polled.Hands ⟨polls, 0⟩ k (polls k).item?.toList whole (k + 1) := Polled.hands_poll
  rwa [hp] at hpoll

theorem ibScanNext_hands (hk : h.At polls k) (start : Except String Unit) :
    PullHands polls k (ibScanNext (start.map fun _ => polls) h true) := by
  rintro r hr
  simp only [ibScanNext, Bool.not_true, Bool.false_eq_true, ↓reduceIte] at hr
  generalize hnext : nextBatch (start.map fun _ => polls) h = next at hr
  cases hnext ▸ nextBatch_spec hk start with
  | unstarted hs =>
    obtain rfl := Outcome.ok.inj hr
    exact ⟨.failed, k, hk, .refl⟩
  | finished hk' hp =>
    obtain rfl := Outcome.ok.inj hr
    exact ⟨.ended, k + 1, hk', Polled.hands_empty (by simp only [hp, Poll.item?])⟩
  | item hk' hp hs =>
    obtain rfl := Outcome.ok.inj hr
    exact ⟨.got _, k + 1, hk', hands_item hp⟩
  | fault hk' hp =>
    obtain rfl := Outcome.ok.inj hr
    exact ⟨.failed, k + 1, hk', Polled.hands_empty (by simp only [hp, Poll.item?])⟩
  | stuck hp => cases hr

/-- A batch that cannot be exported is lost. -/
theorem ibScanNextBatch_hands (hk : h.At polls k) (start : Except String Unit)
    (toFfi : RecordBatch → Except String Unit) :
    PullHands polls k (ibScanNextBatch (start.map fun _ => polls) toFfi h true true) := by
  rintro r hr
  simp only [ibScanNextBatch, Bool.not_true, Bool.or_false, Bool.false_eq_true, ↓reduceIte] at hr
  generalize hnext : nextBatch (start.map fun _ => polls) h = next at hr
  cases hnext ▸ nextBatch_spec hk start with
  | unstarted hs =>
    obtain rfl := Outcome.ok.inj hr
    exact ⟨.failed, k, hk, .refl⟩
  | finished hk' hp =>
    obtain rfl := Outcome.ok.inj hr
    exact ⟨.ended, k + 1, hk', Polled.hands_empty (by simp only [hp, Poll.item?])⟩
  | @item _ b hk' hp hs =>
    cases hffi : exportBatch toFfi b with
    | ok _ =>
      simp only [Outcome.ok_bind, hffi] at hr
      obtain rfl := Outcome.ok.inj hr
      exact ⟨.got _, k + 1, hk', hands_item hp⟩
    | error m =>
      simp only [Outcome.ok_bind, hffi] at hr
      obtain rfl := Outcome.ok.inj hr
      exact ⟨.failed, k + 1, hk', Polled.hands_lost (by simp [Reply.fail])⟩
  | fault hk' hp =>
    obtain rfl := Outcome.ok.inj hr
    exact ⟨.failed, k + 1, hk', Polled.hands_empty (by simp only [hp, Poll.item?])⟩
  | stuck hp => cases hr

end

/-- The batch in an object. -/
def Process.batch? {Scan : Type} (s : Process Scan) (p : ℕ) : Option RecordBatch :=
  match s.heap.lookup p with
  | some (.batch x) => some x
  | _ => none

namespace Mojo

/-- The scan at the address has not started its stream, or has asked for the first `k` answers. -/
def ScanAt {Scan : Type} (polls : ℕ → Poll String RecordBatch) (s : Process Scan) (p k : ℕ) :
    Prop :=
  ∃ h : ScanHandle Scan, s.heap.lookup p = some (.scan h) ∧ h.At polls k

variable {Scan Spec Library : Type} {polls : ℕ → Poll String RecordBatch} {s t u : Process Scan}
variable {crates : Crates Spec} {mem : Allocators Scan} {env : Env Library} {p k : ℕ}

theorem ScanAt.of_lookup (hk : ScanAt polls s p k) (h : t.heap.lookup p = s.heap.lookup p) :
    ScanAt polls t p k := by
  obtain ⟨h', hh, hat⟩ := hk
  exact ⟨h', h.trans hh, hat⟩

theorem ScanAt.isSome (hk : ScanAt polls s p k) : (s.heap.lookup p).isSome := by
  obtain ⟨h, hh, -⟩ := hk
  rw [hh]
  rfl

/-- The scan has read on from number `k` of its stream, and handed over these batches. -/
def ReadOn (polls : ℕ → Poll String RecordBatch) (p k : ℕ) (xs : List RecordBatch) (whole : Prop)
    (t : Process Scan) : Prop :=
  ∃ k', ScanAt polls t p k' ∧ Polled.Hands ⟨polls, 0⟩ k xs whole k'

/-- What a call leaves that raises: the scan has read on, other objects are as they were, and
batches may be lost. -/
def Failed (polls : ℕ → Poll String RecordBatch) (s : Process Scan) (p k : ℕ) (t : Process Scan) :
    Prop :=
  s.heap.Keeps [p] t.heap ∧ ReadOn polls p k [] False t

/-- The call returns with new objects for all that it has read. -/
def Handed (polls : ℕ → Poll String RecordBatch) (s : Process Scan) (p k : ℕ) (out : List ℕ)
    (t : Process Scan) : Prop :=
  ∃ xs, NewBatches s p out xs t ∧ ReadOn polls p k xs True t

/-- A pull from the shim. -/
theorem pull_hands {call : ScanHandle Scan → Outcome (Reply (ScanHandle Scan) Pull)} (hp : p ≠ 0)
    (hk : ScanAt polls s p k) (hcall : ∀ h : ScanHandle Scan, h.At polls k →
      PullHands polls k (call h)) :
    (Abi.update .scan p ⟨-1, none⟩ call).Ends s (fun pull t => pull.Plain ∧ Spares s p t ∧
      ReadOn polls p k pull.batch.toList (0 ≤ pull.code) t) (fun _ _ => False) := by
  obtain ⟨h, hh, hat⟩ := hk
  cases hr : call h with
  | ok r =>
    obtain ⟨hplain, k', hat', hhands⟩ := hcall h hat r hr
    rw [Program.Ends, update_eq (k := .scan) hp hh hr]
    exact ⟨hplain, fun q hq => AList.lookup_insert_ne hq, k', ⟨_, AList.lookup_insert _, hat'⟩,
      hhands⟩
  | err m =>
    rw [Program.Ends, Abi.update, onHandle_eq (k := .scan) hp hh, hr]
    trivial
  | panic w =>
    rw [Program.Ends, update_lost (k := .scan) hp hh hr]
    trivial

theorem Spares.keeps (h : Spares s p t) : s.heap.Keeps [p] t.heap := by
  intro q v hq hv
  rw [h q (by simpa using hq), hv]

theorem NewBatches.keeps {out : List ℕ} {xs : List RecordBatch} (h : NewBatches s p out xs t) :
    s.heap.Keeps [p] t.heap := by
  intro q v hq hv
  rw [h.others q (by simpa using hq) fun hout => ?_, hv]
  rw [(h.fresh q hout).2] at hv
  cases hv

/-- Nothing is handed over when the call raises after all. -/
theorem Handed.failed {out : List ℕ} (h : Handed polls s p k out t) : Failed polls s p k t := by
  obtain ⟨xs, hnew, k', hat, hhands⟩ := h
  exact ⟨hnew.keeps, k', hat, hhands.lost not_false⟩

theorem next_hands (hp : p ≠ 0) (hk : ScanAt polls s p k) (start : Except String Unit) :
    (Mojo.Scan.next mem env p (start.map fun _ => polls)).Ends s
      (fun q t => Handed polls s p k q.toList t) (fun _ t => Failed polls s p k t) := by
  have hpull := pull_hands hp hk fun h hat => ibScanNext_hands hat start
  unfold Mojo.Scan.next Abi.ibScanNext
  refine Program.Ends.bind (R := fun r t => (r.1 = -1 ∧ Failed polls s p k t) ∨
    (r = (0, none) ∧ Handed polls s p k [] t) ∨
    ∃ q, r = (1, some q) ∧ Handed polls s p k [q] t) ?_ ?_
  · refine (hpull.mono (fun _ _ h => h) fun _ _ h => h.elim).bind ?_
    rintro pull t ⟨hplain, hspares, k', hat, hhands⟩
    cases hplain with
    | failed => exact .inl ⟨rfl, hspares.keeps, k', hat, hhands.mono False.elim⟩
    | ended =>
      have hnew : NewBatches s p [] [] t := ⟨rfl, by simp, .nil, fun q hq _ => hspares q hq⟩
      exact .inr (.inl ⟨rfl, [], hnew, k', hat, hhands.mono fun _ => le_rfl⟩)
    | got b =>
      obtain ⟨q, u, hq, hb⟩ := boxed_allocate mem t (.batch b)
      refine Program.Ends.bind (R := fun q' u' => q' = q ∧ u' = u) ?_ ?_
      · rw [Program.Ends, hq]
        exact ⟨rfl, rfl⟩
      · rintro _ _ ⟨rfl, rfl⟩
        obtain ⟨hnew, hscan⟩ := hb.newBatches hspares hat.isSome
        exact .inr (.inr ⟨_, rfl, [b], hnew, k', hat.of_lookup hscan,
          hhands.mono fun _ => Int.one_nonneg⟩)
  · rintro ⟨rc, out⟩ t h
    rcases h with ⟨hrc, hfailed⟩ | ⟨hr, hhanded⟩ | ⟨q, hr, hhanded⟩
    · obtain rfl : rc = -1 := hrc
      exact raiseLast_ends fun _ => hfailed
    · obtain ⟨rfl, rfl⟩ := Prod.mk.inj hr
      exact hhanded
    · obtain ⟨rfl, rfl⟩ := Prod.mk.inj hr
      -- the pull comes before the library is opened for the object, so the batch may be lost
      rcases openShim_cases Scan env with ⟨hopen, -⟩ | ⟨m, hopen, -⟩
      · simp only [hopen]
        exact hhanded
      · simp only [hopen]
        exact hhanded.failed

/-- Dropping batches leaves the scan alone. -/
theorem dropAll_spares {out : List ℕ} {E : String → Process Scan → Prop} (hp : p ∉ out)
    (hnodup : out.Nodup) (hout : ∀ q ∈ out, q ≠ 0 ∧ ∃ x, t.heap.lookup q = some (.batch x)) :
    (Mojo.Scan.dropAll out).Ends t (fun _ u => u.heap.lookup p = t.heap.lookup p) E := by
  induction out generalizing t with
  | nil => exact rfl
  | cons b out ih =>
    obtain ⟨hb0, x, hx⟩ := hout b List.mem_cons_self
    obtain ⟨hnot, hnodup⟩ := List.nodup_cons.mp hnodup
    have hrest : ∀ q ∈ out, q ≠ 0 ∧ ∃ x, (t.heap.erase b).lookup q = some (.batch x) := by
      intro q hq
      have hne : q ≠ b := fun he => hnot (he ▸ hq)
      rw [AList.lookup_erase_ne hne]
      exact hout q (List.mem_cons_of_mem _ hq)
    rw [Mojo.Scan.dropAll, Program.Ends, Program.bind_of_value (deinit_eq hb0 hx)]
    let u : Process Scan := { t with heap := t.heap.erase b }
    have hend : (Mojo.Scan.dropAll out).Ends u (fun _ v => v.heap.lookup p = u.heap.lookup p) E :=
      ih (fun h => hp (List.mem_cons_of_mem _ h)) hnodup hrest
    refine hend.mono (fun _ u hu => hu.trans ?_) fun _ _ h => h
    exact AList.lookup_erase_ne fun he => hp (he ▸ List.mem_cons_self)

theorem batchesLoop_hands {answers : ℕ → Except String (ℕ → Poll String RecordBatch)} {out : List ℕ}
    {xs : List RecordBatch} (hp : p ≠ 0)
    (hanswers : ∀ i, ∃ start : Except String Unit, answers i = start.map fun _ => polls)
    (hs : (s.heap.lookup p).isSome) (rounds : ℕ) (hd : NewBatches s p out xs t)
    (hk : ScanAt polls t p k) :
    (Mojo.Scan.batchesLoop mem env p answers rounds out).Ends t
      (fun bs u => ∃ ys, NewBatches s p bs (xs ++ ys) u ∧ ReadOn polls p k ys True u)
      fun _ u => ReadOn polls p k [] False u := by
  induction rounds generalizing out xs t k with
  | zero => trivial
  | succ rounds ih =>
    obtain ⟨start, hstart⟩ := hanswers out.length
    rw [Mojo.Scan.batchesLoop, hstart]
    refine ((next_hands hp hk start).cleanup ?_).bind ?_
    -- an error drops the batches so far, which are still where they were
    · rintro m u ⟨hkeeps, k', hat, hhands⟩
      have hpout : p ∉ out := hd.notMem hs
      refine (dropAll_spares hpout hd.nodup fun q hq => ?_).mono
        (fun _ v hv => ⟨k', hat.of_lookup hv, hhands⟩) fun _ _ h => h
      obtain ⟨x, hx⟩ := hd.exists_batch hq
      have hqp : q ∉ [p] := by
        rw [List.mem_singleton]
        rintro rfl
        exact hpout hq
      exact ⟨(hd.fresh q hq).1, x, hkeeps q _ hqp hx⟩
    · rintro q u ⟨ys, hd', k', hat, hhands⟩
      have hall := hd.append hd' hs hk.isSome
      cases q with
      | none =>
        rw [Option.toList_none, List.append_nil] at hall
        exact ⟨ys, hall, k', hat, hhands⟩
      | some b =>
        refine (ih hall hat).mono ?_ ?_
        · rintro bs v ⟨zs, hnew, k'', hat', hhands'⟩
          rw [List.append_assoc] at hnew
          have hboth := (hhands.append hhands').mono fun _ : True => ⟨trivial, trivial⟩
          exact ⟨ys ++ zs, hnew, k'', hat', hboth⟩
        · rintro m v ⟨k'', hat', hhands'⟩
          exact ⟨k'', hat', (hhands.append hhands').lost not_false⟩

/-- What a call hands over, and whether it returns. -/
structure Delivery where
  batches : List RecordBatch
  returned : Bool

variable (polls) in
/-- The library starts this stream for the scan, or fails to start it. -/
def ScanMethod.Starts : ScanMethod → Prop
  | planFiles _ => True
  | next toArrow | nextCData toArrow _ =>
    ∃ start : Except String Unit, toArrow = start.map fun _ => polls
  | batches answers _ => ∀ i, ∃ start : Except String Unit, answers i = start.map fun _ => polls

variable (env p) in
/-- The batch that the shim exports into the pair of a call. -/
def ScanMethod.exported (m : ScanMethod) (s : Process Scan) : List RecordBatch :=
  match m with
  | nextCData toArrow toFfi =>
    match (do openShim env; Abi.ibScanNextBatch p toArrow toFfi true true : Abi Scan Pull) s with
    | .value pull _ => pull.batch.toList
    | _ => []
  | _ => []

variable (crates mem env p) in
/-- The batches in the objects that a call returns, and the one in its pair. -/
def ScanMethod.delivery (m : ScanMethod) (s : Process Scan) : Delivery :=
  match m.run crates mem env p s with
  | .value objects t => ⟨objects.filterMap (fun o => t.batch? o.ptr) ++ m.exported env p s, true⟩
  | _ => ⟨[], false⟩

theorem NewBatches.batches {out : List ℕ} {xs : List RecordBatch} (h : NewBatches s p out xs t) :
    (batchObjects out).filterMap (fun o => t.batch? o.ptr) = xs := by
  have hheld := congrArg (List.filterMap fun o : Option (Object Scan) =>
    match o with | some (.batch x) => some x | _ => none) h.held
  rw [List.filterMap_map, List.filterMap_map] at hheld
  rw [batchObjects, List.filterMap_map]
  exact hheld.trans (List.filterMap_some)

/-- New objects are all that a call hands over that returns them. -/
theorem NewBatches.delivered {out : List ℕ} {xs : List RecordBatch} (h : NewBatches s p out xs t)
    (hread : ReadOn polls p k xs True t) : ReadOn polls p k
      ((batchObjects out).filterMap (fun o => t.batch? o.ptr) ++ []) True t := by
  rwa [h.batches, List.append_nil]

theorem ScanMethod.exported_of_open {toArrow : Except String (ℕ → Poll String RecordBatch)}
    {toFfi : RecordBatch → Except String Unit}
    (hopen : (openShim env : Abi Scan PUnit) = pure ⟨⟩) :
    ScanMethod.exported env p (.nextCData toArrow toFfi) s =
      match Abi.ibScanNextBatch p toArrow toFfi true true s with
      | .value pull _ => pull.batch.toList
      | _ => [] := by
  rw [exported, hopen]
  rfl

theorem ScanMethod.ends (hp : p ≠ 0) (hk : ScanAt polls s p k) {m : ScanMethod}
    (hm : m.Starts polls) :
    (m.run crates mem env p).Ends s
      (fun objects t => ReadOn polls p k
        (objects.filterMap (fun o => t.batch? o.ptr) ++ m.exported env p s) True t)
      fun _ t => ReadOn polls p k [] False t := by
  cases m with
  | planFiles answer =>
    obtain ⟨h, hh, hat⟩ := hk
    have hstill (t : Process Scan) (ht : Still s t) : ScanAt polls t p k :=
      ⟨h, (ht.heap p).trans hh, hat⟩
    refine ((answers_planFiles mem hp hh answer).ends.mono (fun _ _ h => h) ?_).bind ?_
    · exact fun _ t ht => ⟨k, hstill t ht, .refl⟩
    · rintro _ t ⟨_, -, ht⟩
      exact ⟨k, hstill t ht, .refl⟩
  | next toArrow =>
    obtain ⟨start, rfl⟩ := hm
    refine ((next_hands hp hk start).mono (fun _ _ h => h) fun _ _ h => h.2).bind ?_
    rintro q t ⟨xs, hnew, hread⟩
    exact hnew.delivered hread
  | nextCData toArrow toFfi =>
    obtain ⟨start, rfl⟩ := hm
    let pairs := ScanMethod.exported env p (.nextCData (start.map fun _ => polls) toFfi) s
    have hpull := pull_hands hp hk fun h hat => ibScanNextBatch_hands hat start toFfi
    refine Program.Ends.bind (R := fun _ t => ReadOn polls p k pairs True t) ?_ fun _ _ h => h
    unfold Mojo.Scan.nextCData
    -- here the library is opened first, and nothing has been pulled if that fails
    rcases openShim_cases Scan env with ⟨hopen, -⟩ | ⟨m, hopen, -⟩ <;> rw [hopen]
    · refine Program.Ends.bind (R := fun _ t => t = s) rfl ?_
      rintro ⟨⟩ _ rfl
      refine (hpull.traced.mono (fun _ _ h => h) fun _ _ h => h.elim).bind ?_
      rintro pull t ⟨hrun, hplain, -, k', hat, hhands⟩
      have hpairs : pairs = pull.batch.toList := by
        refine (ScanMethod.exported_of_open hopen).trans ?_
        rw [Abi.ibScanNextBatch, hrun]
      rw [hpairs]
      cases hplain with
      | failed => exact raiseLast_ends fun _ => ⟨k', hat, hhands.mono False.elim⟩
      | ended => exact ⟨k', hat, hhands.mono fun _ => le_rfl⟩
      | got b => exact ⟨k', hat, hhands.mono fun _ => Int.one_nonneg⟩
    · exact ⟨k, hk, .refl⟩
  | batches answers rounds =>
    have hstart : NewBatches s p [] [] s := ⟨rfl, by simp, .nil, fun _ _ _ => rfl⟩
    refine (batchesLoop_hands hp hm hk.isSome rounds hstart hk).bind ?_
    rintro out t ⟨xs, hnew, hread⟩
    exact hnew.delivered hread

/-- A call on the scan reads on in the stream. -/
theorem ScanMethod.hands (hp : p ≠ 0) (hk : ScanAt polls s p k) {m : ScanMethod}
    (hm : m.Starts polls) (ht : t ∈ (m.run crates mem env p s).state) :
    ReadOn polls p k (m.delivery crates mem env p s).batches
      ((m.delivery crates mem env p s).returned = true) t := by
  have hends : (m.run crates mem env p).Ends s _ _ := ScanMethod.ends hp hk hm
  unfold ScanMethod.delivery
  cases hrun : m.run crates mem env p s with
  | value objects u =>
    obtain ⟨k', hat, hhands⟩ := hends.value hrun
    rw [hrun] at ht
    cases ht
    exact ⟨k', hat, hhands.mono fun _ => trivial⟩
  | raised msg u =>
    obtain ⟨k', hat, hhands⟩ := hends.raised hrun
    rw [hrun] at ht
    cases ht
    exact ⟨k', hat, hhands.mono Bool.false_ne_true⟩
  | lost w =>
    rw [hrun] at ht
    cases ht
  | undefined =>
    rw [hrun] at ht
    cases ht

variable {e : Event Scan Spec Library} {S T : Session Scan} {n : ℕ}

variable (crates p) in
/-- What an event gives of the scan at `p`. -/
def Event.delivery (s : Process Scan) : Event Scan Spec Library → Delivery
  | .call mem env (.scan q m) => if q = p then m.delivery crates mem env p s else ⟨[], true⟩
  | _ => ⟨[], true⟩

variable (polls p) in
/-- The library starts this stream for the scan at `p`, whenever it starts one. -/
def Event.Starts : Event Scan Spec Library → Prop
  | .call _ _ (.scan q m) => q = p → m.Starts polls
  | _ => True

variable (crates p) in
/-- A step of a session, with what it gives of the scan at `p`. -/
def Session.Delivers (S : Session Scan) (l : Event Scan Spec Library × Delivery)
    (T : Session Scan) : Prop :=
  S.step crates l.1 = some T ∧ l.1.delivery crates p S.process = l.2

theorem Session.Holds.hands (hS : S.Holds n) (hp : ⟨.scan, p⟩ ∈ S.objects)
    (hk : ScanAt polls S.process p k) (he : e ≠ .drop ⟨.scan, p⟩) (hstart : e.Starts polls p)
    (hT : S.step crates e = some T) :
    ⟨.scan, p⟩ ∈ T.objects ∧ ReadOn polls p k (e.delivery crates p S.process).batches
      ((e.delivery crates p S.process).returned = true) T.process := by
  by_cases hscan : ∃ mem env m, e = .call mem env (.scan p m)
  · obtain ⟨mem, env, m, rfl⟩ := hscan
    obtain ⟨-, hobjects, hrun⟩ := Session.step_call hT
    obtain ⟨C, hC, hO⟩ := hS.boxes
    simp only [Event.delivery, if_pos]
    exact ⟨hobjects hp, ScanMethod.hands (hO.lookup (hC _ hp)).1 hk (hstart rfl) hrun⟩
  · have hother : (⟨.scan, p⟩ : Owned) ∉ e.changes := by
      cases e with
      | call mem env c =>
        cases c with
        | scan q m =>
          rw [Event.changes, MethodCall.changes, List.mem_singleton, Owned.mk.injEq]
          rintro ⟨-, rfl⟩
          exact hscan ⟨mem, env, m, rfl⟩
        | _ => simp [Event.changes, MethodCall.changes]
      | drop o =>
        rw [Event.changes, List.mem_singleton]
        exact fun h => he (h ▸ rfl)
    have hdelivery : e.delivery crates p S.process = ⟨[], true⟩ := by
      unfold Event.delivery
      split
      next mem env q m =>
        rw [if_neg]
        rintro rfl
        exact hscan ⟨mem, env, m, rfl⟩
      · rfl
    have hrun : S.run crates [e] = some T := Option.bind_eq_some_iff.mpr ⟨T, hT, rfl⟩
    obtain ⟨hmem, hlookup⟩ := hS.unchanged hrun hp fun e' he' => List.mem_singleton.mp he' ▸ hother
    rw [hdelivery]
    exact ⟨hmem, k, hk.of_lookup hlookup, .refl⟩

section
variable {lastError : String} {events : List (Event Scan Spec Library)} {scan : Scan}
variable {labels : List (Event Scan Spec Library × Delivery)}

/-- From a new scan on, whatever else a program does and in whichever way it reads, it gets the
batches of one stream, each at most once and in their order. If no call on the scan raises, it gets
all up to where the scan has read. -/
theorem session_stream (hS : (Session.start lastError).run crates events = some S)
    (hp : ⟨.scan, p⟩ ∈ S.objects) (hnew : S.process.heap.lookup p = some (.scan ⟨scan, none⟩))
    (hrun : Trace (Session.Delivers crates p) S labels T)
    (hlabels : ∀ l ∈ labels, l.1 ≠ .drop ⟨.scan, p⟩ ∧ l.1.Starts polls p) :
    ∃ k, ScanAt polls T.process p k ∧
      (labels.flatMap fun l => l.2.batches).Sublist (Polled.items ⟨polls, 0⟩ k) ∧
      ((∀ l ∈ labels, l.2.returned = true) →
        labels.flatMap (fun l => l.2.batches) = Polled.items ⟨polls, 0⟩ k) := by
  have hreads : (∃ n, T.Holds n) ∧ ⟨.scan, p⟩ ∈ T.objects ∧
      ReadOn polls p 0 (labels.flatMap fun l => l.2.batches)
        (∀ l ∈ labels, l.2.returned = true) T.process := by
    induction hrun with
    | nil => exact ⟨⟨_, Session.holds_run hS⟩, hp, 0, ⟨_, hnew, .inl ⟨rfl, rfl⟩⟩, .refl⟩
    | @snoc labels U V l hrun hstep ih =>
      obtain ⟨⟨n, hU⟩, hmem, k, hat, hhands⟩ := ih fun l' hl' => hlabels l' (by simp [hl'])
      obtain ⟨hstep, hl⟩ := hstep
      obtain ⟨hdrop, hstart⟩ := hlabels l (by simp)
      obtain ⟨hmem', k', hat', hhands'⟩ := hU.hands hmem hat hdrop hstart hstep
      rw [hl] at hhands'
      refine ⟨⟨_, (hU.step hstep).1⟩, hmem', k', hat', ?_⟩
      rw [List.flatMap_append, List.flatMap_singleton]
      refine (hhands.append hhands').mono fun hall => ⟨fun l' hl' => hall l' (by simp [hl']), ?_⟩
      exact hall l (by simp)
  obtain ⟨-, -, k, hat, hhands⟩ := hreads
  exact ⟨k, hat, hhands.of_start⟩

/-- One batch as an object and the next one as a pair, with a call on a table in between. -/
def ordersPulls : List (Event Unit Unit Unit × Delivery) := [
  (.call .beyond .open (.scan 5 (.next (.ok (fused [.ofRows 2, .ofRows 3])))), ⟨[.ofRows 2], true⟩),
  (.call .beyond .open (.table 2 .rollback), ⟨[], true⟩),
  (.call .beyond .open (.scan 5 (.nextCData (.ok (fused [.ofRows 2, .ofRows 3])) fun _ => .ok ())),
    ⟨[.ofRows 3], true⟩)]

theorem ordersPulls_run : ∃ T, Trace (Session.Delivers .sample 5) readingSession ordersPulls T := by
  let S (n : ℕ) (h : (readingSession.run .sample ((ordersPulls.take n).map Prod.fst)).isSome) :
      Session Unit := (readingSession.run .sample ((ordersPulls.take n).map Prod.fst)).get h
  have hnext : Session.Delivers .sample 5 readingSession ordersPulls[0] (S 1 rfl) := ⟨rfl, rfl⟩
  have hrollback : Session.Delivers .sample 5 (S 1 rfl) ordersPulls[1] (S 2 rfl) := ⟨rfl, rfl⟩
  have hpair : Session.Delivers .sample 5 (S 2 rfl) ordersPulls[2] (S 3 rfl) := ⟨rfl, rfl⟩
  exact ⟨_, ((Trace.nil.snoc hnext).snoc hrollback).snoc hpair⟩

theorem session_stream_orders : ∃ T k,
    Trace (Session.Delivers .sample 5) readingSession ordersPulls T ∧
    ScanAt (fused [.ofRows 2, .ofRows 3]) T.process 5 k ∧
    ordersPulls.flatMap (fun l => l.2.batches) =
      Polled.items ⟨fused [.ofRows 2, .ofRows 3], 0⟩ k := by
  obtain ⟨T, hrun⟩ := ordersPulls_run
  have hmem : ⟨.scan, 5⟩ ∈ readingSession.objects := by decide
  obtain ⟨k, hat, -, hall⟩ := session_stream readingSession_run hmem rfl hrun (by
    intro l hl
    simp only [ordersPulls, List.mem_cons, List.not_mem_nil, or_false] at hl
    rcases hl with rfl | rfl | rfl
    · exact ⟨nofun, fun _ => ⟨.ok (), rfl⟩⟩
    · exact ⟨nofun, trivial⟩
    · exact ⟨nofun, fun _ => ⟨.ok (), rfl⟩⟩)
  exact ⟨T, k, hrun, hat, hall (by simp [ordersPulls])⟩

end
end Mojo
end IcebergRs
