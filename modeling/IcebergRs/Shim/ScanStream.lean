import IcebergRs.Shim.Scan

/-! One scan handle over whole runs: pulls of both kinds and plans in any order, with any
answers from outside, and the stream of record batches they read between them. -/
namespace IcebergRs

/-- A call on a scan handle. A pull says whether the stream can be started, should it have
to be, and which of its out-pointers are not null. -/
inductive ScanCall where
  | next (start : Except String Unit) (outBatch : Bool)
  | nextBatch (start : Except String Unit) (toFfi : RecordBatch → Except String Unit)
      (outArray outSchema : Bool)
  | planFiles (fmt : Float → String) (tasks : Except String (List (Except String FileScanTask)))

inductive ScanRet where
  | pull (p : Pull)
  | plan (text : Option String)

/-- A call with what it returned; none if it did not return. -/
structure ScanEvent where
  call : ScanCall
  ret : Option ScanRet

def Pull.report : Pull → Report RecordBatch
  | ⟨1, some b⟩ => .got b
  | ⟨0, _⟩ => .ended
  | _ => .failed

/-- What the event says about the stream. -/
def ScanEvent.report? (e : ScanEvent) : Option (Report RecordBatch) :=
  match e.ret with
  | some (.pull p) => some p.report
  | some (.plan _) => none
  | none => some .crashed

def reports (es : List ScanEvent) : List (Report RecordBatch) := es.filterMap ScanEvent.report?

theorem reports_snoc (es : List ScanEvent) (e : ScanEvent) :
    reports (es ++ [e]) = reports es ++ e.report?.toList := by
  rw [reports, List.filterMap_append]
  cases h : e.report? <;> simp [reports, h]

section
variable {Scan : Type} (polls : ℕ → Poll String RecordBatch)

def ScanCall.answer (h : ScanHandle Scan) : ScanCall → Outcome (ScanRet × ScanHandle Scan)
  | next start outBatch => do
    let r ← ibScanNext (start.map fun _ => polls) h outBatch
    pure (.pull r.ret, r.state)
  | nextBatch start toFfi outArray outSchema => do
    let r ← ibScanNextBatch (start.map fun _ => polls) toFfi h outArray outSchema
    pure (.pull r.ret, r.state)
  | planFiles fmt tasks =>
    let r := ibScanPlanFilesJson fmt tasks h
    pure (.plan r.ret, r.state)

/-- A call on the handle. After one that does not return there is no further call. -/
inductive ScanStep : Option (ScanHandle Scan) → ScanEvent → Option (ScanHandle Scan) → Prop
  | returned {h h' : ScanHandle Scan} {ret : ScanRet} (call : ScanCall)
      (answer : call.answer polls h = .ok (ret, h')) : ScanStep (some h) ⟨call, some ret⟩ (some h')
  | crashed {h : ScanHandle Scan} {w : String} (call : ScanCall)
      (answer : call.answer polls h = .panic w) : ScanStep (some h) ⟨call, none⟩ none

/-- The stream has ended among the answers the handle has asked for. -/
def ScanHandle.Ended (h : ScanHandle Scan) : Prop := ∃ s, h.stream = some s ∧ ¬ s.OpenAt s.taken

/-- What the stream answers to the next poll of the handle. -/
def ScanHandle.upcoming (h : ScanHandle Scan) : Poll String RecordBatch :=
  (h.stream.getD ⟨polls, 0⟩).head

/-- A batch that is taken for the C Data Interface can be exported. Once the stream has
ended, a pull passes its out-pointers and the stream answers again that it is finished. -/
def Careful (h : ScanHandle Scan) : ScanCall → Prop
  | .next _ outBatch => h.Ended → outBatch ∧ h.upcoming polls = .finished
  | .nextBatch start toFfi outArray outSchema =>
    (outArray → outSchema → (h.stream = none → start = .ok ()) →
      ∀ b, h.upcoming polls = .item b → toFfi b = .ok ()) ∧
    (h.Ended → outArray ∧ outSchema ∧ h.upcoming polls = .finished)
  | .planFiles _ _ => True

def CarefulStep (s : Option (ScanHandle Scan)) (e : ScanEvent) (t : Option (ScanHandle Scan)) :
    Prop :=
  ScanStep polls s e t ∧ ∀ h ∈ s, Careful polls h e.call

/-- The handle has not started the stream, or it has asked for the first `k` answers. -/
def ScanHandle.At (h : ScanHandle Scan) (k : ℕ) : Prop :=
  (h.stream = none ∧ k = 0) ∨ h.stream = some ⟨polls, k⟩

variable {polls} {h h' : ScanHandle Scan} {k : ℕ} {start : Except String Unit}

theorem ScanHandle.At.upcoming (hk : h.At polls k) : h.upcoming polls = polls k := by
  rcases hk with ⟨hs, rfl⟩ | hs
  · rw [ScanHandle.upcoming, hs]
    rfl
  · rw [ScanHandle.upcoming, hs]
    rfl

theorem ScanHandle.At.ended (hk : h.At polls k) (hn : ¬ Polled.OpenAt ⟨polls, 0⟩ k) :
    h.Ended := by
  rcases hk with ⟨-, rfl⟩ | hs
  · exact absurd (fun i hi => by omega) hn
  · exact ⟨_, hs, hn⟩

theorem ScanHandle.At.started (hk : h.At polls k) (hn : ¬ Polled.OpenAt ⟨polls, 0⟩ k) :
    h.stream ≠ none := by
  obtain ⟨s, hs, -⟩ := hk.ended hn
  simp [hs]

variable (polls) in
/-- What `next_batch` does at position `k`, by the answer of the stream. A stream that cannot
be started leaves the handle alone. -/
inductive NextBatch (h : ScanHandle Scan) (start : Except String Unit) (k : ℕ) :
    Outcome (ScanHandle Scan × Except String (Option RecordBatch)) → Prop
  | unstarted {e : String} (hs : h.stream = none) : NextBatch h start k (.ok (h, .error e))
  | finished {h' : ScanHandle Scan} (hk : h'.At polls (k + 1)) (hp : polls k = .finished) :
      NextBatch h start k (.ok (h', .ok none))
  | item {h' : ScanHandle Scan} {b : RecordBatch} (hk : h'.At polls (k + 1))
      (hp : polls k = .item b) (hs : h.stream = none → start = .ok ()) :
      NextBatch h start k (.ok (h', .ok (some b)))
  | fault {h' : ScanHandle Scan} {e m : String} (hk : h'.At polls (k + 1))
      (hp : polls k = .fault e) : NextBatch h start k (.ok (h', .error m))
  | stuck {w : String} (hp : polls k = .stuck) : NextBatch h start k (.panic w)

theorem nextBatch_spec (hk : h.At polls k) (start : Except String Unit) :
    NextBatch polls h start k (nextBatch (start.map fun _ => polls) h) := by
  have poll {h' : ScanHandle Scan} (hk' : h'.At polls (k + 1))
      (hs : h.stream = none → start = .ok ())
      (he : ensureStream (start.map fun _ => polls) h = .ok ⟨polls, k⟩)
      (hh : { h with stream := some ⟨polls, k + 1⟩ } = h') :
      NextBatch polls h start k (nextBatch (start.map fun _ => polls) h) := by
    simp only [nextBatch, he, Polled.head, Polled.tail, hh]
    cases hp : polls k with
    | finished => exact .finished hk' hp
    | item b => exact .item hk' hp hs
    | fault e => exact .fault hk' hp
    | stuck => exact .stuck hp
  rcases hk with ⟨hs, rfl⟩ | hs
  · cases start with
    | error e =>
      simp only [nextBatch, ensureStream, hs]
      exact .unstarted hs
    | ok _ => exact poll (.inr rfl) (fun _ => rfl) (by simp only [ensureStream, hs]; rfl) rfl
  · exact poll (.inr rfl) (by simp [hs]) (by simp only [ensureStream, hs]) rfl

/-- Beyond the end a handle gets there without another attempt to start. -/
theorem nextBatch_over (hk : h.At polls k) (hn : ¬ Polled.OpenAt ⟨polls, 0⟩ k)
    (hp : polls k = .finished) (start : Except String Unit) :
    ∃ h', h'.At polls (k + 1) ∧
      nextBatch (start.map fun _ => polls) h = .ok (h', .ok none) := by
  generalize hnext : nextBatch (start.map fun _ => polls) h = next
  cases hnext ▸ nextBatch_spec hk start with
  | unstarted hs => exact absurd hs (hk.started hn)
  | finished hk' hp' => exact ⟨_, hk', rfl⟩
  | item hk' hp' hs => simp [hp] at hp'
  | fault hk' hp' => simp [hp] at hp'
  | stuck hp' => simp [hp] at hp'

/-- A pull that reads on from position `k` as a reader that loses no item does. -/
def PullReads (polls : ℕ → Poll String RecordBatch) (k : ℕ)
    (answer : Outcome (Reply (ScanHandle Scan) Pull)) : Prop :=
  (∃ r k', answer = .ok r ∧ r.state.At polls k' ∧ Polled.Read ⟨polls, 0⟩ k r.ret.report k') ∨
  ∃ w, answer = .panic w ∧ Polled.Read ⟨polls, 0⟩ k .crashed k

theorem ibScanNext_reads (start : Except String Unit) {outBatch : Bool} (hk : h.At polls k)
    (past : ¬ Polled.OpenAt ⟨polls, 0⟩ k → outBatch ∧ polls k = .finished) :
    PullReads polls k (ibScanNext (start.map fun _ => polls) h outBatch) := by
  by_cases hopen : Polled.OpenAt ⟨polls, 0⟩ k
  · unfold ibScanNext
    split
    · exact .inl ⟨_, k, rfl, hk, .refused hopen⟩
    · generalize hnext : nextBatch (start.map fun _ => polls) h = next
      cases hnext ▸ nextBatch_spec hk start with
      | unstarted hs => exact .inl ⟨_, k, rfl, hk, .refused hopen⟩
      | finished hk' hp => exact .inl ⟨_, k + 1, rfl, hk', .finished hp⟩
      | item hk' hp hs => exact .inl ⟨_, k + 1, rfl, hk', .item hopen hp⟩
      | fault hk' hp => exact .inl ⟨_, k + 1, rfl, hk', .fault hopen hp⟩
      | stuck hp => exact .inr ⟨_, rfl, .stuck hopen hp⟩
  · obtain ⟨rfl, hp⟩ := past hopen
    obtain ⟨h', hk', he⟩ := nextBatch_over hk hopen hp start
    rw [ibScanNext, he]
    exact .inl ⟨_, k + 1, rfl, hk', .finished hp⟩

theorem ibScanNextBatch_reads {toFfi : RecordBatch → Except String Unit}
    {outArray outSchema : Bool} (hk : h.At polls k)
    (exports : outArray → outSchema → (h.stream = none → start = .ok ()) →
      ∀ b, polls k = .item b → toFfi b = .ok ())
    (past : ¬ Polled.OpenAt ⟨polls, 0⟩ k → outArray ∧ outSchema ∧ polls k = .finished) :
    PullReads polls k
      (ibScanNextBatch (start.map fun _ => polls) toFfi h outArray outSchema) := by
  by_cases hopen : Polled.OpenAt ⟨polls, 0⟩ k
  · unfold ibScanNextBatch
    split
    · exact .inl ⟨_, k, rfl, hk, .refused hopen⟩
    next hout =>
      generalize hnext : nextBatch (start.map fun _ => polls) h = next
      cases hnext ▸ nextBatch_spec hk start with
      | unstarted hs => exact .inl ⟨_, k, rfl, hk, .refused hopen⟩
      | finished hk' hp => exact .inl ⟨_, k + 1, rfl, hk', .finished hp⟩
      | item hk' hp hs =>
        have hffi := exports (by grind) (by grind) hs _ hp
        simp only [Outcome.ok_bind, exportBatch, hffi]
        exact .inl ⟨_, k + 1, rfl, hk', .item hopen hp⟩
      | fault hk' hp => exact .inl ⟨_, k + 1, rfl, hk', .fault hopen hp⟩
      | stuck hp => exact .inr ⟨_, rfl, .stuck hopen hp⟩
  · obtain ⟨rfl, rfl, hp⟩ := past hopen
    obtain ⟨h', hk', he⟩ := nextBatch_over hk hopen hp start
    rw [ibScanNextBatch, he]
    exact .inl ⟨_, k + 1, rfl, hk', .finished hp⟩

/-- A careful call is a read of the stream, or it leaves the handle and the stream alone. -/
theorem Careful.answer {call : ScanCall} (hc : Careful polls h call) (hk : h.At polls k) :
    (∃ text, call.answer polls h = .ok (.plan text, h)) ∨
    (∃ p h' k', call.answer polls h = .ok (.pull p, h') ∧ h'.At polls k' ∧
      Polled.Read ⟨polls, 0⟩ k p.report k') ∨
    ∃ w, call.answer polls h = .panic w ∧ Polled.Read ⟨polls, 0⟩ k .crashed k := by
  cases call with
  | next start outBatch =>
    have past (hn : ¬ Polled.OpenAt ⟨polls, 0⟩ k) : outBatch ∧ polls k = .finished := by
      rw [← hk.upcoming]
      exact hc (hk.ended hn)
    rcases ibScanNext_reads start hk past with ⟨r, k', hr, hk', read⟩ | ⟨w, hw, read⟩
    · exact .inr (.inl ⟨r.ret, r.state, k', by simp [ScanCall.answer, hr], hk', read⟩)
    · exact .inr (.inr ⟨w, by simp [ScanCall.answer, hw], read⟩)
  | nextBatch start toFfi outArray outSchema =>
    have past (hn : ¬ Polled.OpenAt ⟨polls, 0⟩ k) :
        outArray ∧ outSchema ∧ polls k = .finished := by
      rw [← hk.upcoming]
      exact hc.2 (hk.ended hn)
    have exports := hc.1
    rw [hk.upcoming] at exports
    rcases ibScanNextBatch_reads hk exports past with ⟨r, k', hr, hk', read⟩ | ⟨w, hw, read⟩
    · exact .inr (.inl ⟨r.ret, r.state, k', by simp [ScanCall.answer, hr], hk', read⟩)
    · exact .inr (.inr ⟨w, by simp [ScanCall.answer, hw], read⟩)
  | planFiles fmt tasks =>
    refine .inl ⟨(ibScanPlanFilesJson fmt tasks h).ret, ?_⟩
    have keeps : (ibScanPlanFilesJson fmt tasks h).state = h := by
      unfold ibScanPlanFilesJson
      split
      · split <;> rfl
      · rfl
    simp [ScanCall.answer, keeps]

/-- A run of careful calls is a run of a reader of the stream. -/
theorem reads_of_careful {scan : Scan} {es : List ScanEvent} {t : Option (ScanHandle Scan)}
    (run : Trace (CarefulStep polls) (some ⟨scan, none⟩) es t) :
    ∃ k, (∀ h ∈ t, h.At polls k) ∧
      Trace (Polled.Read ⟨polls, 0⟩) 0 (reports es) k := by
  refine run.invariant (I := fun es t => ∃ k, (∀ h ∈ t, h.At polls k) ∧
    Trace (Polled.Read ⟨polls, 0⟩) 0 (reports es) k) ⟨0, by simp [ScanHandle.At], .nil⟩ ?_
  rintro es _ e _ - ⟨k, hk, reads⟩ ⟨step, careful⟩
  cases step with
  | returned call answer =>
    rcases (careful _ rfl).answer (hk _ rfl) with
      ⟨text, he⟩ | ⟨p, h', k', he, hk', read⟩ | ⟨w, hw, -⟩
    · obtain ⟨rfl, rfl⟩ := Prod.mk.inj (Outcome.ok.inj (he.symm.trans answer))
      exact ⟨k, hk, by simpa [reports_snoc, ScanEvent.report?] using reads⟩
    · obtain ⟨rfl, rfl⟩ := Prod.mk.inj (Outcome.ok.inj (he.symm.trans answer))
      refine ⟨k', by simpa using hk', ?_⟩
      rw [reports_snoc]
      exact reads.snoc read
    · exact absurd (hw.symm.trans answer) (by simp)
  | crashed call answer =>
    rcases (careful _ rfl).answer (hk _ rfl) with ⟨text, he⟩ | ⟨p, h', k', he, -⟩ | ⟨w, -, read⟩
    · exact absurd (he.symm.trans answer) (by simp)
    · exact absurd (he.symm.trans answer) (by simp)
    · refine ⟨k, by simp, ?_⟩
      rw [reports_snoc]
      exact reads.snoc read

/-- Careful calls deliver the stream of a scan once and then stay at its end. -/
theorem scan_delivers {scan : Scan} {es : List ScanEvent} {t : Option (ScanHandle Scan)}
    (run : Trace (CarefulStep polls) (some ⟨scan, none⟩) es t) :
    Polled.Delivers ⟨polls, 0⟩ (reports es) := by
  obtain ⟨k, -, reads⟩ := reads_of_careful run
  exact Polled.delivers_of_reads reads

end

/-- The stream of some batches, which answers that it is finished ever after. -/
def fused (bs : List RecordBatch) (i : ℕ) : Poll String RecordBatch :=
  match bs[i]? with
  | some b => .item b
  | none => .finished

theorem scan_delivers_one : ∃ (es : List ScanEvent) (t : Option (ScanHandle Unit)),
    Trace (CarefulStep (fused [.ofRows 2])) (some ⟨(), none⟩) es t ∧
    reports es = [.failed, .got (.ofRows 2), .ended, .ended] ∧
    Polled.Delivers ⟨fused [.ofRows 2], 0⟩ (reports es) := by
  have fresh : ¬ (⟨(), none⟩ : ScanHandle Unit).Ended := by
    rintro ⟨s, hs, -⟩
    cases hs
  have run1 := Trace.snoc (Trace.nil (R := CarefulStep (fused [.ofRows 2]))
    (s := some (⟨(), none⟩ : ScanHandle Unit)))
    ⟨.returned (.next (.ok ()) false) rfl, by
      rintro h hh
      obtain rfl := Option.some.inj hh
      exact fun h => absurd h fresh⟩
  have run2 := run1.snoc ⟨.returned (.nextBatch (.ok ()) (fun _ => .ok ()) true true) rfl, by
      rintro h hh
      obtain rfl := Option.some.inj hh
      exact ⟨fun _ _ _ _ _ => rfl, fun h => absurd h fresh⟩⟩
  have run3 := run2.snoc ⟨.returned (.next (.ok ()) true) rfl, by
      rintro h hh
      obtain rfl := Option.some.inj hh
      exact fun _ => ⟨rfl, rfl⟩⟩
  have run4 := run3.snoc
    ⟨.returned (.nextBatch (.ok ()) (fun _ => .ok ()) true true) rfl, by
      rintro h hh
      obtain rfl := Option.some.inj hh
      exact ⟨fun _ _ _ _ _ => rfl, fun _ => ⟨rfl, rfl, rfl⟩⟩⟩
  exact ⟨_, _, run4, rfl, scan_delivers run4⟩

/-- Past the end a null pointer fails, and a stream that is not fused yields on. A batch whose
export fails is skipped. -/
theorem scan_not_delivered :
    (∃ (es : List ScanEvent) (t : Option (ScanHandle Unit)),
      Trace (ScanStep (fused [])) (some ⟨(), none⟩) es t ∧ reports es = [.ended, .failed]) ∧
    ¬ Polled.Delivers ⟨fused [], 0⟩ [.ended, .failed] ∧
    (∃ polls : ℕ → Poll String RecordBatch,
      (∃ (es : List ScanEvent) (t : Option (ScanHandle Unit)),
        Trace (ScanStep polls) (some ⟨(), none⟩) es t ∧
        reports es = [.ended, .got (.ofRows 2)]) ∧
      ¬ Polled.Delivers ⟨polls, 0⟩ [.ended, .got (.ofRows 2)]) ∧
    (∃ (es : List ScanEvent) (t : Option (ScanHandle Unit)),
      Trace (ScanStep (fused [.ofRows 2, .ofRows 3])) (some ⟨(), none⟩) es t ∧
      reports es = [.failed, .got (.ofRows 3)]) ∧
    ¬ Polled.Delivers ⟨fused [.ofRows 2, .ofRows 3], 0⟩ [.failed, .got (.ofRows 3)] := by
  refine ⟨⟨_, _, (Trace.nil.snoc (.returned (.next (.ok ()) true) rfl)).snoc
      (.returned (.next (.ok ()) false) rfl), rfl⟩, fun h => ?_,
    ⟨fun i => if i = 0 then .finished else .item (.ofRows 2),
      ⟨_, _, (Trace.nil.snoc (.returned (.next (.ok ()) true) rfl)).snoc
        (.returned (.next (.ok ()) true) rfl), rfl⟩, fun h => ?_⟩,
    ⟨_, _, (Trace.nil.snoc (.returned
      (.nextBatch (.ok ()) (fun _ => .error "unsupported") true true) rfl)).snoc
      (.returned (.next (.ok ()) true) rfl), rfl⟩, fun h => ?_⟩
  · have last := (h.ended [] [.failed] rfl).2 _ (List.mem_singleton_self _)
    cases last
  · have last := (h.ended [] [.got (.ofRows 2)] rfl).2 _ (List.mem_singleton_self _)
    cases last
  · obtain ⟨k, hk, hr⟩ := h.items
    have short : k = 0 ∨ k = 1 ∨ k = 2 := by
      by_contra hc
      exact hk 2 (by omega) rfl
    have rows := congrArg (List.map RecordBatch.numRows) hr
    rcases short with rfl | rfl | rfl <;> cases rows

end IcebergRs
