import IcebergRs.Shim.ExactlyOnce

/-! One handle on a table whose identifier other clients may bind to another table, with
another uuid, at any time: under which uuid a file was staged, and to which table it is added. -/
namespace IcebergRs
open Function

/-- The tables of a catalog, by identifier. -/
abbrev Bindings := TableIdent → Option Table

structure SharedWorld where
  bound : Bindings
  handle : TableHandle

inductive SharedEvent where
  /-- The files an append staged, and the uuid of the table the handle referred to. -/
  | append (files : List DataFile) (uuid : String)
  /-- The uuids of the tables the handle referred to before and after. -/
  | refresh (before after : String)
  /-- The uuid of the table the handle referred to, the uuid of the table under its
  identifier, and the files the commit added to that table. -/
  | commit (uuid target : String) (files : List DataFile)
  | refused
  | rollback
  | others

/-- A call on the handle, or anything other clients do to the catalog. A commit goes to the
table that is bound to the identifier, if there is one, and a refresh loads that table. -/
inductive SharedStep (A : Arrow) (toArrow : SchemaToArrow) :
    SharedWorld → SharedEvent → SharedWorld → Prop
  | append {w : SharedWorld} (s : Submission) (io : WriterApi) (files : List DataFile)
      (stages : (s.append A toArrow io w.handle).state.pending = w.handle.pending ++ files) :
      SharedStep A toArrow w (.append files w.handle.table.uuid)
        { w with handle := (s.append A toArrow io w.handle).state }
  | refresh {w : SharedWorld} (load : TableIdent → Except String Table)
      (hload : ∀ id t, load id = .ok t → w.bound id = some t) :
      SharedStep A toArrow w
        (.refresh w.handle.table.uuid (ibTableRefresh load w.handle).state.table.uuid)
        { w with handle := (ibTableRefresh load w.handle).state }
  | commit {w : SharedWorld} (c : Table) (hc : w.bound w.handle.table.identifier = some c)
      (api : CommitApi) (hapi : api.Lawful) (files : List DataFile)
      (adds : (ibTableCommit api c w.handle).state.2.added = c.added ++ files) :
      SharedStep A toArrow w (.commit w.handle.table.uuid c.uuid files)
        { bound := update w.bound w.handle.table.identifier
            (some (ibTableCommit api c w.handle).state.2)
          handle := (ibTableCommit api c w.handle).state.1 }
  | refused {w : SharedWorld} (hc : w.bound w.handle.table.identifier = none) (c : Table)
      (api : CommitApi) (hapi : api.Lawful)
      (fails : ∀ tx c, ∃ e, (api.commit tx c).1 = .error e) :
      SharedStep A toArrow w .refused
        { w with handle := (ibTableCommit api c w.handle).state.1 }
  | rollback {w : SharedWorld} :
      SharedStep A toArrow w .rollback { w with handle := (ibTableRollback w.handle).state }
  | others {w : SharedWorld} (bound : Bindings) :
      SharedStep A toArrow w .others { w with bound := bound }

/-- No refresh brought a table with another uuid. -/
def Settled (es : List SharedEvent) : Prop :=
  ∀ before after, .refresh before after ∈ es → before = after

/-- An append staged the file, and under the uuid unless a refresh since then brought a table
with another one. -/
def StagedUnder (es : List SharedEvent) (f : DataFile) (uuid : String) : Prop :=
  ∃ pre staged origin mid, es = pre ++ .append staged origin :: mid ∧ f ∈ staged ∧
    (Settled mid → origin = uuid)

variable {A : Arrow} {toArrow : SchemaToArrow} {io : WriterApi}
variable {es : List SharedEvent} {e : SharedEvent} {w w' : SharedWorld} {f : DataFile}

theorem settled_snoc : Settled (es ++ [e]) ↔ Settled es ∧ Settled [e] := by
  simp only [Settled, List.mem_append]
  constructor
  · intro h
    exact ⟨fun a b hm => h a b (.inl hm), fun a b hm => h a b (.inr hm)⟩
  · rintro ⟨h, he⟩ a b (hm | hm)
    · exact h a b hm
    · exact he a b hm

theorem StagedUnder.snoc {u v : String} (h : StagedUnder es f u) (same : Settled [e] → u = v) :
    StagedUnder (es ++ [e]) f v := by
  obtain ⟨pre, staged, origin, mid, rfl, hf, ho⟩ := h
  refine ⟨pre, staged, origin, mid ++ [e], by simp, hf, fun hs => ?_⟩
  obtain ⟨hmid, he⟩ := settled_snoc.mp hs
  exact (ho hmid).trans (same he)

theorem submission_append_table (s : Submission) (h : TableHandle) :
    (s.append A toArrow io h).state.table = h.table := by
  rcases s.append_cases A toArrow io h with ⟨files, -, he⟩ | ⟨m, hm⟩
  · rw [he]
    rfl
  · rw [hm]
    rfl

/-- A commit that leaves a file pending has left the handle as it was. -/
theorem ibTableCommit_handle {api : CommitApi} (hapi : api.Lawful) {c : Table} {h : TableHandle}
    {f : DataFile} (hf : f ∈ (ibTableCommit api c h).state.1.pending) :
    (ibTableCommit api c h).state.1 = h := by
  rcases ibTableCommit_cases hapi c h with ⟨-, he⟩ | ⟨-, id, -, he⟩ | ⟨-, m, he⟩
  · rw [he]
    rfl
  · rw [he] at hf
    cases hf
  · rw [he]
    rfl

/-- All pending files of the handle were staged in the history. -/
def PendingStaged (es : List SharedEvent) (w : SharedWorld) : Prop :=
  ∀ f ∈ w.handle.pending, StagedUnder es f w.handle.table.uuid

theorem PendingStaged.step (h : PendingStaged es w) (hs : SharedStep A toArrow w e w') :
    PendingStaged (es ++ [e]) w' := by
  intro f hf
  cases hs with
  | append s io files stages =>
    rw [submission_append_table]
    rw [stages] at hf
    rcases List.mem_append.mp hf with hf | hf
    · exact (h f hf).snoc fun _ => rfl
    · exact ⟨es, files, _, [], rfl, hf, fun _ => rfl⟩
  | refresh load hload =>
    rw [ibTableRefresh_pending] at hf
    exact (h f hf).snoc fun he => he _ _ (List.mem_singleton_self _)
  | commit c hc api hapi files adds =>
    have hsame := ibTableCommit_handle hapi hf
    rw [hsame] at hf ⊢
    exact (h f hf).snoc fun _ => rfl
  | refused hc c api hapi fails =>
    have hsame := ibTableCommit_handle hapi hf
    rw [hsame] at hf ⊢
    exact (h f hf).snoc fun _ => rfl
  | rollback => cases hf
  | others bound => exact (h f hf).snoc fun _ => rfl

/-- What a commit adds was pending. -/
theorem SharedStep.committed {uuid target : String} {files : List DataFile}
    (hs : SharedStep A toArrow w (.commit uuid target files) w') :
    uuid = w.handle.table.uuid ∧ ∀ f ∈ files, f ∈ w.handle.pending := by
  cases hs with
  | commit c hc api hapi _ adds =>
    refine ⟨rfl, fun f hf => ?_⟩
    rcases ibTableCommit_cases hapi c w.handle with ⟨-, he⟩ | ⟨-, id, -, he⟩ | ⟨-, m, he⟩
    · simp only [he, Reply.done_state, List.self_eq_append_right] at adds
      simp [adds] at hf
    · simp only [he, Reply.done_state, Table.addSnapshot_added, List.append_cancel_left_eq] at adds
      rwa [adds]
    · simp only [he, Reply.fail_state, List.self_eq_append_right] at adds
      simp [adds] at hf

/-- Every file a commit adds was staged by an earlier append of the handle. It was staged under
the uuid of the table it is added to if no refresh in between brought a table with another
uuid and the commit finds the table the handle refers to under the identifier. -/
theorem committed_where_staged {w₀ : SharedWorld} (h₀ : w₀.handle.pending = [])
    (run : Trace (SharedStep A toArrow) w₀ es w) :
    ∀ pre uuid target files post, es = pre ++ .commit uuid target files :: post → ∀ f ∈ files,
      ∃ pre₁ staged origin mid, pre = pre₁ ++ .append staged origin :: mid ∧ f ∈ staged ∧
        (Settled mid → uuid = target → origin = target) := by
  suffices h : PendingStaged es w ∧ ∀ pre uuid target files post,
      es = pre ++ .commit uuid target files :: post → ∀ f ∈ files, StagedUnder pre f uuid by
    intro pre uuid target files post hes f hf
    obtain ⟨pre₁, staged, origin, mid, hpre, hmem, ho⟩ := h.2 pre uuid target files post hes f hf
    exact ⟨pre₁, staged, origin, mid, hpre, hmem, fun hs ht => (ho hs).trans ht⟩
  refine run.invariant (I := fun es w => PendingStaged es w ∧ ∀ pre uuid target files post,
    es = pre ++ .commit uuid target files :: post → ∀ f ∈ files, StagedUnder pre f uuid) ?_ ?_
  · exact ⟨by simp [PendingStaged, h₀], by simp⟩
  · rintro es w e w' - ⟨hp, hc⟩ hs
    refine ⟨hp.step hs, fun pre uuid target files post heq f hf => ?_⟩
    rcases snoc_eq_append_cons heq with ⟨rfl, rfl, -⟩ | ⟨post, -, rfl⟩
    · obtain ⟨rfl, hfiles⟩ := hs.committed
      exact hp f (hfiles f hf)
    · exact hc pre uuid target files post rfl f hf

/-- A world in which the identifier is bound to the sample table, which the handle has loaded. -/
def sharedOrders : SharedWorld := ⟨fun _ => some .orders, ⟨.orders, []⟩⟩

/-- The sample table after it was dropped and created again. -/
def Table.recreated : Table := { Table.orders with uuid := "0a55d2be" }

/-- An append of one row to the sample table. -/
theorem sharedOrders_append : SharedStep .basic .direct sharedOrders
    (.append [⟨"f"⟩] Table.orders.uuid)
    ⟨sharedOrders.bound, ⟨.orders, [⟨"f"⟩]⟩⟩ := by
  have stages := (ordersRow_writes "f" sharedOrders.handle rfl).append_eq
  have step := SharedStep.append (w := sharedOrders) (.batch ordersRow) (.single "f") [⟨"f"⟩]
    (by rw [stages]; rfl)
  rw [stages] at step
  exact step

theorem committed_where_staged_orders : ∃ w, Trace (SharedStep .basic .direct) sharedOrders
      [.append [⟨"f"⟩] "f79c3e09", .refresh "f79c3e09" "f79c3e09",
        .commit "f79c3e09" "f79c3e09" [⟨"f"⟩]] w ∧
    ∃ pre staged origin mid,
      [.append [⟨"f"⟩] "f79c3e09", .refresh "f79c3e09" "f79c3e09"] =
        pre ++ .append staged origin :: mid ∧ (⟨"f"⟩ : DataFile) ∈ staged ∧
      (Settled mid → "f79c3e09" = "f79c3e09" → origin = "f79c3e09") := by
  have run := ((Trace.nil.snoc sharedOrders_append).snoc
    (.refresh (fun _ => .ok .orders) (by simp [sharedOrders]))).snoc
    (.commit .orders rfl (.succeeding 9) (CommitApi.succeeding_lawful (by decide)) [⟨"f"⟩] rfl)
  exact ⟨_, run, committed_where_staged rfl run _ _ _ _ [] rfl _ (by simp)⟩

/-- The file a commit adds was staged under the uuid of the table it is added to. -/
def StagedWhereAdded (es : List SharedEvent) : Prop :=
  ∀ pre uuid target files post, es = pre ++ .commit uuid target files :: post → ∀ f ∈ files,
    ∃ staged, .append staged target ∈ pre ∧ f ∈ staged

/-- A file staged before the table was dropped and created again goes into the new table. -/
theorem staged_not_where_added : ∃ es w,
    Trace (SharedStep .basic .direct) sharedOrders es w ∧ ¬ StagedWhereAdded es := by
  have run := (((Trace.nil.snoc sharedOrders_append).snoc
    (.others fun _ => some .recreated)).snoc
    (.refresh (fun _ => .ok .recreated) (by simp))).snoc
    (.commit .recreated rfl (.succeeding 9) (CommitApi.succeeding_lawful (by decide)) [⟨"f"⟩] rfl)
  refine ⟨_, _, run, fun h => ?_⟩
  obtain ⟨staged, happend, -⟩ := h _ _ _ _ [] rfl ⟨"f"⟩ (by simp)
  simp [Table.orders, Table.recreated, ibTableRefresh] at happend

end IcebergRs
