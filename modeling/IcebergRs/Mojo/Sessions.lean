import IcebergRs.Mojo.Calls
import Mathlib.Algebra.GroupWithZero.Nat
import Mathlib.Algebra.Order.BigOperators.Group.List
import Mathlib.Algebra.Order.Group.Nat

/-! Sessions with the binding. A program holds objects, makes calls on them in any order and lets
them go in any order, while allocators may hand out again what was freed. -/
namespace IcebergRs.Mojo

structure Session (Scan : Type) where
  process : Process Scan
  objects : List Owned

/-- A call with the allocators and the environment that it meets, or the end of an object. -/
inductive Event (Scan Spec Library : Type) where
  | call (mem : Allocators Scan) (env : Env Library) (c : MethodCall Scan Spec)
  | drop (o : Owned)

section
variable {Scan Spec Library : Type}

def Event.changes : Event Scan Spec Library → List Owned
  | call _ _ c => c.changes
  | drop o => [o]

/-- The number of boxes that may be left behind. -/
def Event.spilled : Event Scan Spec Library → ℕ
  | call _ env _ => spill env
  | drop _ => 0

namespace Session

def start (lastError : String) : Session Scan := ⟨⟨∅, ∅, lastError⟩, []⟩

/-- The session goes on where the objects of the event are there and the call comes back. -/
def step (crates : Crates Spec) (S : Session Scan) :
    Event Scan Spec Library → Option (Session Scan)
  | .call mem env c =>
    if c.uses ⊆ S.objects then
      match c.run crates mem env S.process with
      | .value new t => some ⟨t, new ++ S.objects⟩
      | .raised _ t => some ⟨t, S.objects⟩
      | .lost _ | .undefined => none
    else none
  | .drop o =>
    if o ∈ S.objects then
      match deinit o S.process with
      | .value _ t => some ⟨t, S.objects.erase o⟩
      | .raised .. | .lost _ | .undefined => none
    else none

def run (crates : Crates Spec) (S : Session Scan) (events : List (Event Scan Spec Library)) :
    Option (Session Scan) := events.foldlM (step crates) S

/-- The boxes of the process are those of the objects and at most `n` others. -/
def Holds (S : Session Scan) (n : ℕ) : Prop :=
  ∃ O B : Boxes, O.length ≤ n ∧ B.owned.Perm S.objects ∧ Owns S.process (O ++ B)

end Session
end

variable {Scan Spec Library : Type} {crates : Crates Spec} {S T : Session Scan}
variable {event : Event Scan Spec Library} {events : List (Event Scan Spec Library)} {n : ℕ}
variable {mem : Allocators Scan} {env : Env Library} {c : MethodCall Scan Spec} {o : Owned}

namespace Session

theorem holds_start (lastError : String) : (start lastError : Session Scan).Holds 0 :=
  ⟨[], [], Nat.le_refl _, .refl _, ⟨.refl _, by simp, fun c => rfl⟩⟩

/-- The objects are among the boxes. -/
theorem Holds.boxes (h : S.Holds n) :
    ∃ C : Boxes, (∀ o ∈ S.objects, o ∈ C.owned) ∧ Owns S.process C := by
  obtain ⟨O, B, -, hB, hS⟩ := h
  refine ⟨O ++ B, fun o ho => ?_, hS⟩
  rw [Boxes.owned_append]
  exact List.mem_append_right _ (hB.mem_iff.mpr ho)

/-- One step keeps the boxes of the objects, and changes only what the event changes. -/
theorem Holds.step (h : S.Holds n) (hT : S.step crates event = some T) :
    T.Holds (n + event.spilled) ∧
      S.process.heap.Keeps (event.changes.map Owned.ptr) T.process.heap := by
  obtain ⟨O, B, hO, hB, hS⟩ := h
  cases event with
  | call mem env c =>
    simp only [Session.step] at hT
    split at hT
    next huses =>
      have hacts : Acts (c.changes.map Owned.ptr) (O ++ B) (c.run crates mem env) id (spill env) :=
        c.acts fun o ho => by
          rw [Boxes.owned_append]
          exact List.mem_append_right _ (hB.mem_iff.mpr (huses ho))
      have hends := hacts S.process hS
      split at hT
      next new t hrun =>
        obtain rfl := Option.some.inj hT
        obtain ⟨N, hN, hl⟩ := hends.value hrun
        have howns := hl.owns.perm (List.perm_append_comm_assoc N O B)
        refine ⟨⟨O, N ++ B, by omega, ?_, howns⟩, hl.keeps⟩
        rw [Boxes.owned_append, hN]
        exact hB.append_left _
      next m t hrun =>
        obtain rfl := Option.some.inj hT
        obtain ⟨N, hN, hl⟩ := hends.raised hrun
        have hlen : (N ++ O).length ≤ n + spill env := by
          rw [List.length_append]
          omega
        exact ⟨⟨N ++ O, B, hlen, hB, List.append_assoc N O B ▸ hl.owns⟩, hl.keeps⟩
      · cases hT
      · cases hT
    · cases hT
  | drop o =>
    simp only [Session.step] at hT
    split at hT
    next ho =>
      obtain ⟨e, he, rfl⟩ := List.mem_map.mp (hB.mem_iff.mpr ho)
      obtain ⟨before, after, rfl⟩ := List.append_of_mem he
      have hbox : (O ++ (before ++ e :: after)).Perm (e :: (O ++ (before ++ after))) := by
        rw [← List.append_assoc, ← List.append_assoc]
        exact List.perm_middle
      obtain ⟨t, ht, hl⟩ := (deinit_frees ⟨e.2.1, e.1⟩).box (hS.perm hbox)
      rw [ht] at hT
      obtain rfl := Option.some.inj hT
      have hcons : (⟨e.2.1, e.1⟩ :: Boxes.owned (before ++ after)).Perm S.objects :=
        (List.perm_middle.map _).symm.trans hB
      have hobjects := hcons.erase ⟨e.2.1, e.1⟩
      rw [List.erase_cons_head] at hobjects
      exact ⟨⟨O, before ++ after, hO, hobjects, hl.owns⟩, hl.keeps⟩
    · cases hT

/-- What holds for a step holds for a run. -/
theorem Holds.run (h : S.Holds n) (hT : S.run crates events = some T) :
    T.Holds (n + (events.map Event.spilled).sum) ∧ S.process.heap.Keeps
      ((events.flatMap Event.changes).map Owned.ptr) T.process.heap := by
  induction events generalizing S n with
  | nil =>
    obtain rfl := Option.some.inj hT
    exact ⟨h, .refl _ _⟩
  | cons event events ih =>
    obtain ⟨M, hM, hT⟩ := Option.bind_eq_some_iff.mp hT
    obtain ⟨hstep, hkeeps⟩ := h.step hM
    obtain ⟨hrun, hkeeps'⟩ := ih hstep hT
    rw [List.map_cons, List.sum_cons, ← Nat.add_assoc]
    refine ⟨hrun, ?_⟩
    rw [List.flatMap_cons, List.map_append]
    exact (hkeeps.mono (List.subset_append_left _ _)).trans
      (hkeeps'.mono (List.subset_append_right _ _))

theorem holds_run {lastError : String} (h : (start lastError).run crates events = some S) :
    S.Holds (events.map Event.spilled).sum := by
  have hrun := ((holds_start lastError).run h).1
  rwa [Nat.zero_add] at hrun

theorem Holds.drop (h : S.Holds n) {o : Owned} (ho : o ∈ S.objects) :
    ∃ t, deinit o S.process = .value ⟨⟩ t ∧ t.heap.lookup o.ptr = none := by
  obtain ⟨C, hC, hS⟩ := h.boxes
  exact (deinit_frees o).gone hS (hC o ho)

theorem step_call
    (hT : S.step crates (.call mem env c : Event Scan Spec Library) = some T) :
    c.uses ⊆ S.objects ∧ S.objects ⊆ T.objects ∧
      T.process ∈ (c.run crates mem env S.process).state := by
  simp only [step] at hT
  split at hT
  next huses =>
    refine ⟨huses, ?_⟩
    split at hT <;> cases hT
    next hrun => exact ⟨List.subset_append_right _ _, by rw [hrun]; rfl⟩
    next hrun => exact ⟨List.Subset.refl _, by rw [hrun]; rfl⟩
  · cases hT

theorem step_drop (hT : S.step crates (.drop o : Event Scan Spec Library) = some T) :
    o ∈ S.objects ∧ T.objects = S.objects.erase o ∧ T.process ∈ (deinit o S.process).state := by
  simp only [step] at hT
  split at hT
  next ho =>
    refine ⟨ho, ?_⟩
    split at hT <;> cases hT
    next hrun => exact ⟨rfl, by rw [hrun]; rfl⟩
  · cases hT

/-- Different objects have different addresses. -/
theorem Holds.nodup (hS : S.Holds n) : (S.objects.map Owned.ptr).Nodup := by
  obtain ⟨O, B, -, hB, hO⟩ := hS
  have hnodup := hO.nodup
  rw [List.map_append] at hnodup
  refine (hB.map Owned.ptr).nodup_iff.mp ?_
  rw [Boxes.owned, List.map_map]
  exact hnodup.of_append_right

theorem Holds.ptr_inj (h : S.Holds n) {o o' : Owned} (ho : o ∈ S.objects) (ho' : o' ∈ S.objects)
    (hptr : o.ptr = o'.ptr) : o = o' := List.inj_on_of_nodup_map h.nodup ho ho' hptr

/-- All objects can go in any order. -/
theorem Holds.drop_all (crates : Crates Spec) (Library : Type) (h : S.Holds n)
    {drops : List Owned} (hdrops : drops.Perm S.objects) :
    ∃ T, S.run crates (drops.map fun o => (.drop o : Event Scan Spec Library)) = some T ∧
      T.objects = [] := by
  induction drops generalizing S with
  | nil => exact ⟨S, rfl, hdrops.nil_eq.symm⟩
  | cons o drops ih =>
    have ho : o ∈ S.objects := hdrops.mem_iff.mp List.mem_cons_self
    obtain ⟨t, ht, -⟩ := h.drop ho
    have hstep : S.step crates (.drop o : Event Scan Spec Library) =
        some ⟨t, S.objects.erase o⟩ := by
      simp only [Session.step, if_pos ho, ht]
    have hrest := hdrops.erase o
    rw [List.erase_cons_head] at hrest
    obtain ⟨T, hT, hnil⟩ := ih (h.step hstep).1 hrest
    exact ⟨T, Option.bind_eq_some_iff.mpr ⟨_, hstep, hT⟩, hnil⟩

theorem changes_subset (hT : S.step crates event = some T) : event.changes ⊆ S.objects := by
  cases event with
  | call mem env c =>
    simp only [Session.step] at hT
    split at hT
    next huses =>
      refine List.Subset.trans ?_ huses
      cases c with
      | table t m => cases m <;> simp [Event.changes, MethodCall.changes, MethodCall.uses]
      | _ => simp [Event.changes, MethodCall.changes, MethodCall.uses]
    · cases hT
  | drop o =>
    simp only [Session.step] at hT
    split at hT
    next ho => simpa [Event.changes] using ho
    · cases hT

/-- An object that the event does not change is there after it. -/
theorem mem_step {o : Owned} (ho : o ∈ S.objects) (hT : S.step crates event = some T)
    (hchanges : o ∉ event.changes) : o ∈ T.objects := by
  cases event with
  | call mem env c =>
    simp only [Session.step] at hT
    split at hT
    · split at hT <;> cases hT
      · exact List.mem_append_right _ ho
      · exact ho
    · cases hT
  | drop o' =>
    simp only [Session.step] at hT
    split at hT
    · split at hT <;> cases hT
      exact (List.mem_erase_of_ne (by simpa [Event.changes] using hchanges)).mpr ho
    · cases hT

theorem Holds.unchanged (h : S.Holds n) (hT : S.run crates events = some T) {o : Owned}
    (ho : o ∈ S.objects) (hchanges : ∀ e ∈ events, o ∉ e.changes) :
    o ∈ T.objects ∧ T.process.heap.lookup o.ptr = S.process.heap.lookup o.ptr := by
  induction events generalizing S n with
  | nil =>
    obtain rfl := Option.some.inj hT
    exact ⟨ho, rfl⟩
  | cons event events ih =>
    obtain ⟨M, hM, hT⟩ := Option.bind_eq_some_iff.mp hT
    obtain ⟨hstep, hkeeps⟩ := h.step hM
    have hnot := hchanges event List.mem_cons_self
    obtain ⟨hmem, hlookup⟩ := ih hstep hT (mem_step ho hM hnot) fun e he =>
      hchanges e (List.mem_cons_of_mem _ he)
    refine ⟨hmem, hlookup.trans ?_⟩
    obtain ⟨C, hC, hS⟩ := h.boxes
    obtain ⟨-, v, hv, -⟩ := hS.lookup (hC o ho)
    refine (hkeeps o.ptr v ?_ hv).trans hv.symm
    intro hptr
    obtain ⟨o', ho', hptr⟩ := List.mem_map.mp hptr
    exact hnot (h.ptr_inj (changes_subset hM ho') ho hptr ▸ ho')

end Session

/-- A machine where every library opens. -/
def Env.open : Env Unit where
  condaPrefix := ""
  isMacos := false
  nsGetExecutablePath := none
  realpath _ := .error "no such file"
  pathExists _ := false
  defaultRtld := 2
  dlopen _ _ := .ok ()

/-- A machine from which the library has gone. -/
def Env.bare : Env Unit := { Env.open with dlopen := fun _ _ => .error "not found" }

/-- A catalog that has one table under every name. -/
def everyOrders : CatalogApi Unit where
  listNamespaces _ := .ok []
  createNamespace _ _ := .ok ()
  namespaceExists _ := .ok true
  dropNamespace _ := .ok ()
  listTables _ := .ok []
  loadTable _ := .ok .orders
  createTable _ _ := .ok .orders
  tableExists _ := .ok true
  dropTable _ := .ok ()

/-- Two tables of a catalog that goes before them, and a third one that is lost. -/
def ordersEvents : List (Event Unit Unit Unit) := [
  .call .beyond .open (.sql (fun _ => .ok everyOrders) "sqlite:c" "file:w"),
  .call .beyond .open (.catalog 1 everyOrders (.loadTable "db" "orders")),
  .call .beyond .bare (.catalog 1 everyOrders (.loadTable "db" "lost")),
  .call .beyond .open (.catalog 1 everyOrders (.loadTable "db" "orders")),
  .drop ⟨.catalog, 1⟩]

def ordersSession : Session Unit := ((Session.start "").run .sample ordersEvents).get rfl

theorem ordersSession_run : (Session.start "").run .sample ordersEvents = some ordersSession := rfl

/-! What a program can rely on, whatever it has done so far. -/
section
variable {lastError : String}

/-- No call on objects that the program holds misuses memory, and every object can go, after which
there is nothing at its address. -/
theorem session_defined (h : (Session.start lastError).run crates events = some S) :
    (∀ (mem : Allocators Scan) (env : Env Library) (c : MethodCall Scan Spec),
      c.uses ⊆ S.objects → c.run crates mem env S.process ≠ .undefined) ∧
    ∀ o ∈ S.objects, ∃ t, deinit o S.process = .value ⟨⟩ t ∧ t.heap.lookup o.ptr = none := by
  have hS := Session.holds_run h
  refine ⟨fun mem env c huses => ?_, fun o ho => hS.drop ho⟩
  obtain ⟨C, hC, hS⟩ := hS.boxes
  exact (c.acts (fun o ho => hC o (huses ho)) S.process hS).defined

theorem session_defined_orders : (∀ c : MethodCall Unit Unit, c.uses = [⟨.table, 4⟩] →
    c.run .sample .beyond .open ordersSession.process ≠ .undefined) ∧
    ∃ t, deinit ⟨.table, 2⟩ ordersSession.process = .value ⟨⟩ t ∧ t.heap.lookup 2 = none := by
  obtain ⟨hcall, hdrop⟩ := session_defined ordersSession_run
  refine ⟨fun c hc => hcall .beyond .open c ?_, hdrop _ (by decide)⟩
  rw [hc]
  decide

/-- The boxes of the process are those that the objects own, and not more others than there were
calls for which the library did not open. -/
theorem session_boxes (h : (Session.start lastError).run crates events = some S) :
    ∃ left : List (ℕ × BoxClass), left.length ≤ (events.map Event.spilled).sum ∧
      (S.process.heap.census Object.cls).Perm
        (left ++ S.objects.map fun o => (o.ptr, o.cls)) := by
  obtain ⟨O, B, hO, hB, hS⟩ := Session.holds_run h
  let forget (e : ℕ × BoxClass × Option ℕ) : ℕ × BoxClass := (e.1, e.2.1)
  refine ⟨O.map forget, by rwa [List.length_map], ?_⟩
  have hcensus := hS.census.map forget
  rw [Heap.census, List.map_map, List.map_append] at hcensus
  refine hcensus.trans (List.Perm.append_left _ ?_)
  have hobjects := hB.map fun o => (o.ptr, o.cls)
  rwa [Boxes.owned, List.map_map] at hobjects

theorem session_boxes_orders : ∃ left : List (ℕ × BoxClass), left.length ≤ 1 ∧
    (ordersSession.process.heap.census Object.cls).Perm (left ++ [(4, .table), (2, .table)]) :=
  session_boxes ordersSession_run

/-- The strong count of a catalog is the number of handles and tables that share it, and it goes
with the last one. -/
theorem session_catalogs (h : (Session.start lastError).run crates events = some S) :
    S.process.catalogs.Counts fun c =>
      S.process.heap.entries.countP fun e => e.2.inner = some c := by
  obtain ⟨C, -, hS⟩ := (Session.holds_run h).boxes
  refine hS.counts.congr fun c => ?_
  rw [Boxes.refs, ← hS.census.countP_eq, Heap.census, List.countP_map]
  rfl

theorem session_catalogs_orders : ordersSession.process.catalogs.lookup 1 = some 3 :=
  session_catalogs ordersSession_run 1

/-- When all objects are gone, in whichever order, nothing is left where the library opened. -/
theorem session_released (h : (Session.start lastError).run crates events = some S)
    {drops : List Owned} (hdrops : drops.Perm S.objects) :
    ∃ T, S.run crates (drops.map fun o => (.drop o : Event Scan Spec Library)) = some T ∧
      T.objects = [] ∧ T.process.heap.keys.length ≤ (events.map Event.spilled).sum ∧
      ((events.map Event.spilled).sum = 0 → T.process.heap = ∅ ∧ T.process.catalogs = ∅) := by
  have hS := Session.holds_run h
  obtain ⟨T, hT, hnil⟩ := hS.drop_all crates Library hdrops
  obtain ⟨O, B, hO, hB, hO'⟩ := (hS.run hT).1
  have hspilled : ((drops.map fun o => (.drop o : Event Scan Spec Library)).map
      Event.spilled).sum = 0 := by simp [Function.comp_def, Event.spilled]
  rw [hspilled, Nat.add_zero] at hO
  rw [hnil] at hB
  obtain rfl := List.map_eq_nil_iff.mp hB.eq_nil
  rw [List.append_nil] at hO'
  refine ⟨T, hT, hnil, ?_, fun h0 => ?_⟩
  · have hlen := hO'.census.length_eq
    rw [Heap.census, List.length_map] at hlen
    rw [AList.keys, List.keys, List.length_map, hlen]
    exact hO
  · obtain rfl := List.length_eq_zero_iff.mp (Nat.le_zero.mp (h0 ▸ hO))
    refine ⟨AList.ext (List.map_eq_nil_iff.mp hO'.census.eq_nil), Heap.eq_empty fun c => ?_⟩
    exact hO'.counts c

theorem session_released_orders : ∃ T, ordersSession.run .sample
    ([⟨.table, 2⟩, ⟨.table, 4⟩].map fun o => (.drop o : Event Unit Unit Unit)) = some T ∧
    T.objects = [] ∧ T.process.heap.keys.length ≤ 1 := by
  have hdrops : [⟨.table, 2⟩, ⟨.table, 4⟩].Perm ordersSession.objects := by decide
  obtain ⟨T, hT, hnil, hleft, -⟩ := session_released ordersSession_run hdrops
  exact ⟨T, hT, hnil, hleft⟩

/-- An object that is not changed holds what it held, whatever is done with the others. -/
theorem session_unchanged (h : (Session.start lastError).run crates events = some S)
    {events' : List (Event Scan Spec Library)} (hT : S.run crates events' = some T) {o : Owned}
    (ho : o ∈ S.objects) (hchanges : ∀ e ∈ events', o ∉ e.changes) :
    o ∈ T.objects ∧ T.process.heap.lookup o.ptr = S.process.heap.lookup o.ptr :=
  (Session.holds_run h).unchanged hT ho hchanges

theorem session_unchanged_orders : ∃ T, ordersSession.run .sample
    [.call .beyond .open (.table 2 .rollback), (.drop ⟨.table, 2⟩ : Event Unit Unit Unit)] =
      some T ∧ ⟨.table, 4⟩ ∈ T.objects ∧
      T.process.heap.lookup 4 = ordersSession.process.heap.lookup 4 := by
  have hmem : ⟨.table, 4⟩ ∈ ordersSession.objects := by decide
  have hrun : (ordersSession.run .sample [.call .beyond .open (.table 2 .rollback),
    (.drop ⟨.table, 2⟩ : Event Unit Unit Unit)]).isSome := rfl
  obtain ⟨T, hT⟩ := Option.isSome_iff_exists.mp hrun
  refine ⟨T, hT, session_unchanged ordersSession_run hT hmem ?_⟩
  simp [Event.changes, MethodCall.changes]

end
end IcebergRs.Mojo
