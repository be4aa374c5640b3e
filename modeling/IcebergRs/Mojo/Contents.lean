import IcebergRs.Mojo.PendingFiles
import IcebergRs.Mojo.Sessions

/-! What a program does to the contents of tables: what its appends are given is in some table, or
staged by an object that is still there, or was dropped by a rollback, with its object, or with its
table. -/
namespace IcebergRs.Mojo
open Function

/-- Tables of several catalogs. -/
abbrev Tables (ι : Type) := AList fun _ : ι × TableIdent => Table

/-- A program, and the tables of the catalogs that it works with. `home` tells which of these
catalogs the one at an address stands for. -/
structure Deployment (ι Scan : Type) where
  tables : Tables ι
  home : ℕ → ι
  session : Session Scan

/-- Where contents are: in a table, or staged by the object at an address. -/
inductive Place (ι : Type) where
  | table (k : ι × TableIdent)
  | object (p : ℕ)
  deriving DecidableEq

/-- What a call does to the tables of its catalog. -/
inductive Rebinding where
  | create (t : Table)
  | drop (id : TableIdent)

section
variable {ι Scan Spec Library : Type} [DecidableEq ι] (crates : Crates Spec)

def CatalogMethod.rebinding (api : CatalogApi Spec) : CatalogMethod → Option Rebinding
  | createTable ns name schemaJson specJson propsJson =>
    (ibTableCreate crates.json api (arg ns) (arg name) (arg schemaJson) (optArg specJson)
      (optArg propsJson)).ret.map fun h => .create h.table
  | dropTable ns name =>
    match tableIdent (arg ns) (arg name) "ib_table_drop" with
    | .ok id => if (ibTableDrop api (arg ns) (arg name)).ret = 0 then some (.drop id) else none
    | .error _ => none
  | _ => none

/-- Whether an event may change the tables of a catalog. -/
def Event.rebinds : Event Scan Spec Library → Bool
  | .call _ _ (.table _ (.commit ..)) => true
  | .call _ _ (.catalog _ api m) => (m.rebinding crates api).isSome
  | _ => false

/-- What an event does to the tables where no other program changes them. A commit goes to the
table that its catalog has under the identifier of the handle's table, and fails without one; a
table is created empty, under a name that is free; a namespace that has tables is not dropped. -/
inductive Deployment.Binds (w : Deployment ι Scan) : Event Scan Spec Library → Tables ι → Prop
  | commit {mem : Allocators Scan} {env : Env Library} {api : CommitApi} {t c : ℕ}
      {h : TableHandle} {T : Table} (hh : w.session.process.heap.lookup t = some (.table c h))
      (hT : w.tables.lookup (w.home c, h.table.identifier) = some T) :
      Binds w (.call mem env (.table t (.commit api T)))
        (w.tables.insert (w.home c, h.table.identifier) (ibTableCommit api T h).state.2)
  | refused {mem : Allocators Scan} {env : Env Library} {api : CommitApi} {t c : ℕ}
      {h : TableHandle} {T : Table} (hh : w.session.process.heap.lookup t = some (.table c h))
      (hT : (w.home c, h.table.identifier) ∉ w.tables)
      (hapi : ∀ tx, ∃ e, (api.commit tx T).1 = .error e) :
      Binds w (.call mem env (.table t (.commit api T))) w.tables
  | create {mem : Allocators Scan} {env : Env Library} {api : CatalogApi Spec} {p c : ℕ}
      {m : CatalogMethod} {t : Table} (hp : w.session.process.heap.lookup p = some (.catalog c))
      (hm : m.rebinding crates api = some (.create t))
      (hfree : (w.home c, t.identifier) ∉ w.tables) (hempty : t.added = []) :
      Binds w (.call mem env (.catalog p api m)) (w.tables.insert (w.home c, t.identifier) t)
  | drop {mem : Allocators Scan} {env : Env Library} {api : CatalogApi Spec} {p c : ℕ}
      {m : CatalogMethod} {id : TableIdent}
      (hp : w.session.process.heap.lookup p = some (.catalog c))
      (hm : m.rebinding crates api = some (.drop id)) :
      Binds w (.call mem env (.catalog p api m)) (w.tables.erase (w.home c, id))
  | other {e : Event Scan Spec Library} (he : e.rebinds crates = false) : Binds w e w.tables

/-- The catalogs of the process stand for what they stood for. -/
structure Deployment.Step (w : Deployment ι Scan) (e : Event Scan Spec Library)
    (w' : Deployment ι Scan) : Prop where
  session : w.session.step crates e = some w'.session
  home : ∀ c ∈ w.session.process.catalogs, w'.home c = w.home c
  tables : w.Binds crates e w'.tables

variable {M : Type} [AddCommMonoid M] (size : RecordBatch → M) (held : DataFile → M)

def contents (lookup : ι × TableIdent → Option Table) (pending : ℕ → List DataFile) :
    Accounts (Place ι) M
  | .table k => (lookup k).elim 0 fun t => (t.added.map held).sum
  | .object p => ((pending p).map held).sum

/-- The contents of every table, and what is staged at every address. -/
def Deployment.accounts (w : Deployment ι Scan) : Accounts (Place ι) M :=
  contents held w.tables.lookup w.session.process.pending

/-- The contents of all tables. -/
def Deployment.stored (w : Deployment ι Scan) : M :=
  (w.tables.entries.map fun e => (e.2.added.map held).sum).sum

/-- What the objects have staged. -/
def Deployment.staged (w : Deployment ι Scan) : M :=
  (w.session.objects.map fun o => ((w.session.process.pending o.ptr).map held).sum).sum

/-- What an event means for the contents: what a method of a table means for its client, and the
end of a table that is dropped. -/
def Event.effect (w : Deployment ι Scan) : Event Scan Spec Library → Accounts.Op (Place ι) M
  | .call _ _ (.table t m) =>
    match w.session.process.heap.lookup t, m.action w.session.process with
    | some (.table c h), some a =>
      ((m.client h).effect size crates.arrow crates.toArrow a).among (fun _ => .object t)
        (.table (w.home c, h.table.identifier))
    | _, _ => .idle
  | .call _ _ (.catalog p api m) =>
    match w.session.process.heap.lookup p, m.rebinding crates api with
    | some (.catalog c), some (.drop id) => .clear (.table (w.home c, id))
    | _, _ => .idle
  | .call .. => .idle
  | .drop o => if o.cls = .table then .clear (.object o.ptr) else .idle

/-- The writers of an append keep contents, and a commit is atomic. -/
def Event.Sound : Event Scan Spec Library → Prop
  | .call _ _ (.table _ m) => ∀ s, ∀ a ∈ m.action s, Clients.Sound size held a
  | _ => True

end

section
variable {Scan Spec Library : Type} {crates : Crates Spec} {S T : Session Scan}
variable {mem : Allocators Scan} {env : Env Library} {c : MethodCall Scan Spec} {o : Owned} {n : ℕ}

namespace Session

/-- Calls on other objects than tables stage nothing. -/
theorem pending_call (hT : S.step crates (.call mem env c : Event Scan Spec Library) = some T)
    (hc : ∀ t m, c ≠ .table t m) : T.process.pending = S.process.pending := by
  obtain ⟨-, -, hrun⟩ := step_call hT
  refine (?_ : Unstaging (c.run crates mem env)) S.process _ hrun
  intro s
  cases c with
  | sql load uri warehouse =>
    exact making_sets (unstaging_opened (Abi.unstaging_newHandle _) s)
  | rest load uri warehouse propsJson =>
    exact making_sets (unstaging_opened (Abi.unstaging_newHandle _) s)
  | catalog c api m => exact m.unstaging api s
  | table t m => exact absurd rfl (hc t m)
  | scan p m => exact m.unstaging s
  | batch b m => exact m.unstaging s
  | builder b m => exact m.unstaging s

/-- A method of a table is called on a handle, and stages there what it does. -/
theorem Holds.pending_table (hS : S.Holds n) {t : ℕ} {m : TableMethod Scan}
    (hT : S.step crates (.call mem env (.table t m) : Event Scan Spec Library) = some T) :
    ∃ c h, S.process.heap.lookup t = some (.table c h) ∧
      T.process.pending = update S.process.pending t (m.staged crates S.process h) := by
  obtain ⟨huses, -, hrun⟩ := step_call hT
  obtain ⟨C, hC, hO⟩ := hS.boxes
  have ht : ⟨.table, t⟩ ∈ S.objects := huses (by cases m <;> exact List.mem_cons_self)
  obtain ⟨ht0, o, ho, hcls⟩ := hO.lookup (hC _ ht)
  obtain ⟨⟨c, h⟩, rfl⟩ := Abi.table_make o hcls
  refine ⟨c, h, ho, m.sets ht0 ho ?_ _ hrun⟩
  rintro io b rfl
  have hb : ⟨.batch, b⟩ ∈ S.objects := huses (List.mem_cons_of_mem _ List.mem_cons_self)
  obtain ⟨hb0, o', ho', hcls'⟩ := hO.lookup (hC _ hb)
  obtain ⟨batch, rfl⟩ := Abi.batch_make o' hcls'
  exact ⟨hb0, batch, ho'⟩

theorem Holds.pending_drop (hS : S.Holds n)
    (hT : S.step crates (.drop o : Event Scan Spec Library) = some T) : T.process.pending =
      if o.cls = .table then update S.process.pending o.ptr [] else S.process.pending := by
  obtain ⟨ho, -, hrun⟩ := step_drop hT
  obtain ⟨C, hC, hO⟩ := hS.boxes
  exact deinit_sets o (hO.lookup (hC o ho)).1 _ hrun

/-- What is staged is staged by an object of the session. -/
def Listed (S : Session Scan) : Prop :=
  ∀ p, S.process.pending p ≠ [] → ⟨.table, p⟩ ∈ S.objects

theorem Listed.step {e : Event Scan Spec Library} (h : S.Listed) (hS : S.Holds n)
    (hT : S.step crates e = some T) : T.Listed := by
  intro p hp
  cases e with
  | call mem env c =>
    obtain ⟨huses, hobjects, -⟩ := step_call hT
    by_cases hc : ∃ t m, c = .table t m
    · obtain ⟨t, m, rfl⟩ := hc
      obtain ⟨c, h', -, hpending⟩ := hS.pending_table hT
      by_cases hpt : p = t
      · subst hpt
        exact hobjects (huses (by cases m <;> exact List.mem_cons_self))
      · rw [hpending, update_of_ne hpt] at hp
        exact hobjects (h p hp)
    · rw [pending_call hT fun t m h => hc ⟨t, m, h⟩] at hp
      exact hobjects (h p hp)
  | drop o =>
    obtain ⟨-, hobjects, -⟩ := step_drop hT
    rw [hS.pending_drop hT] at hp
    rw [hobjects]
    split at hp
    next htable =>
      have hpo : p ≠ o.ptr := by
        rintro rfl
        rw [update_self] at hp
        exact hp rfl
      rw [update_of_ne hpo] at hp
      exact (List.mem_erase_of_ne fun he => hpo (congrArg Owned.ptr he)).mpr (h p hp)
    next htable =>
      exact (List.mem_erase_of_ne fun he => htable (congrArg Owned.cls he).symm).mpr (h p hp)

end Session
end

section
variable {ι Scan Spec Library M : Type} [DecidableEq ι] {crates : Crates Spec}
variable {size : RecordBatch → M} {w w' : Deployment ι Scan} {e : Event Scan Spec Library} {n : ℕ}

/-- One event, with what it means for the contents. -/
def Deployment.Moves (size : RecordBatch → M) [AddCommMonoid M] (crates : Crates Spec)
    (w : Deployment ι Scan) (l : Event Scan Spec Library × Accounts.Op (Place ι) M)
    (w' : Deployment ι Scan) : Prop :=
  w.Step crates l.1 w' ∧ l.2 = l.1.effect crates size w

variable [AddCommMonoid M] {labels : List (Event Scan Spec Library × Accounts.Op (Place ι) M)}

theorem Deployment.holds_run (hw : w.session.Holds n)
    (hrun : Trace (Deployment.Moves size crates) w labels w') : ∃ n', w'.session.Holds n' := by
  refine hrun.invariant (I := fun _ v => ∃ n, v.session.Holds n) ⟨n, hw⟩ ?_
  rintro _ v l v' - ⟨n, hv⟩ ⟨hstep, -⟩
  exact ⟨_, (hv.step hstep.session).1⟩

end

section
variable {ι Scan Spec Library M : Type} [DecidableEq ι] [AddCommMonoid M]
variable {size : RecordBatch → M} {held : DataFile → M} {crates : Crates Spec}
variable {w w' : Deployment ι Scan} {e : Event Scan Spec Library} {n : ℕ}
variable {lookup : ι × TableIdent → Option Table} {pending : ℕ → List DataFile}

theorem contents_bind {k : ι × TableIdent} {bound : Option Table} :
    (contents held (update lookup k bound) pending : Accounts (Place ι) M) =
      update (contents held lookup pending) (.table k)
        (bound.elim 0 fun t => (t.added.map held).sum) := by
  funext a
  cases a with
  | table j => by_cases h : j = k <;> simp [contents, h]
  | object p => simp [contents]

theorem contents_stage {p : ℕ} {files : List DataFile} :
    (contents held lookup (update pending p files) : Accounts (Place ι) M) =
      update (contents held lookup pending) (.object p) (files.map held).sum := by
  funext a
  cases a with
  | table k => simp [contents]
  | object q => by_cases h : q = p <;> simp [contents, h]

theorem lookup_insert {tables : Tables ι} {k : ι × TableIdent} {t : Table} :
    (tables.insert k t).lookup = update tables.lookup k (some t) := by
  funext j
  by_cases h : j = k
  · subst h
    simp
  · simp [h]

theorem lookup_erase {tables : Tables ι} {k : ι × TableIdent} :
    (tables.erase k).lookup = update tables.lookup k none := by
  funext j
  by_cases h : j = k
  · subst h
    simp
  · simp [h]

theorem TableMethod.commit_of_action {s : Process Scan} {m : TableMethod Scan} {api : CommitApi}
    (h : m.action s = some (.commit () api)) : ∃ catalog, m = .commit api catalog := by
  cases m with
  | commit api' catalog =>
    obtain rfl : api' = api := by simpa [action] using h
    exact ⟨catalog, rfl⟩
  | append io b =>
    simp only [action] at h
    split at h <;> cases h
  | _ => cases h

section
variable {A : Arrow} {toArrow : SchemaToArrow} {v : Clients Unit}

/-- Only a commit settles anything. -/
theorem settles_effect {a : Action Unit} (ha : ∀ api, a ≠ .commit () api) :
    (v.store held).settles (v.effect size A toArrow a) = 0 := by
  cases a with
  | append i s io =>
    simp only [Clients.effect]
    split
    · split <;> rfl
    · rfl
  | commit i api => exact absurd rfl (ha api)
  | rollback i => rfl
  | refresh i load => rfl

/-- A commit that the catalog refuses settles nothing. -/
theorem settles_refused {api : CommitApi} (hapi : ∀ tx, ∃ e, (api.commit tx v.table).1 = .error e) :
    (v.store held).settles (v.effect size A toArrow (.commit () api)) = 0 := by
  simp only [Clients.effect]
  split
  next hret => rfl
  next hret =>
    suffices hp : (v.handles ()).pending = [] by simp [Store.settles, Clients.store, hp]
    by_contra hp
    refine hret ?_
    simp only [Clients.ret, ibTableCommit]
    rw [if_neg (by simpa using hp)]
    split
    · rfl
    next tx htx =>
      obtain ⟨e, he⟩ := hapi tx
      split
      next t c hc =>
        rw [hc] at he
        cases he
      next => rfl

/-- What a commit settles comes to the table of the catalog. -/
theorem settles_commit {api : CommitApi} (hapi : api.Lawful) (t : Table) (h : TableHandle) :
    let v : Clients Unit := ⟨t, fun _ => h⟩
    ((ibTableCommit api t h).state.2.added.map held).sum = (t.added.map held).sum +
      (v.store held).settles (v.effect size A toArrow (.commit () api)) := by
  intro v
  have hact : (v.act A toArrow (.commit () api)).store held =
      (v.store held).apply (v.effect size A toArrow (.commit () api)) := Clients.store_act hapi
  exact (congrArg Store.settled hact).trans Store.apply_settled

end

/-- A method of a table moves contents as its action does. -/
theorem accounts_table {mem : Allocators Scan} {env : Env Library} {t c : ℕ} {h : TableHandle}
    {m : TableMethod Scan} (hh : w.session.process.heap.lookup t = some (.table c h))
    (he : (.call mem env (.table t m) : Event Scan Spec Library).Sound size held)
    (hpending : w'.session.process.pending =
      update w.session.process.pending t (m.staged crates w.session.process h))
    (htables : (contents held w'.tables.lookup w.session.process.pending : Accounts (Place ι) M) =
      let top := Place.table (w.home c, h.table.identifier)
      update (w.accounts held) top (w.accounts held top +
        match m.action w.session.process with
        | some a => ((m.client h).store held).settles
          ((m.client h).effect size crates.arrow crates.toArrow a)
        | none => 0)) :
    w'.accounts held = (w.accounts held).apply
      ((.call mem env (.table t m) : Event Scan Spec Library).effect crates size w) := by
  have hstaged : w.accounts held (.object t) = (h.pending.map held).sum := by
    simp only [Deployment.accounts, contents, pending_of_lookup hh]
    rfl
  have hclient : w.accounts held (.object t) = ((m.client h).store held).staged () := by
    rw [hstaged]
    cases m <;> rfl
  simp only [Event.effect, hh]
  rw [Deployment.accounts, hpending, contents_stage, htables]
  simp only [TableMethod.staged]
  cases ha : m.action w.session.process with
  | none =>
    simp only [add_zero, update_eq_self, ← hstaged]
    rfl
  | some a =>
    have hact : ((m.client h).act crates.arrow crates.toArrow a).store held =
        ((m.client h).store held).apply
          ((m.client h).effect size crates.arrow crates.toArrow a) :=
      Clients.store_act (he _ _ ha)
    rw [Store.apply_among (by simp) hclient, ← hact]
    rfl

/-- A call on a catalog moves nothing but what a table that it drops held. -/
theorem accounts_catalog {mem : Allocators Scan} {env : Env Library} {p : ℕ}
    {api : CatalogApi Spec} {m : CatalogMethod}
    (hpending : w'.session.process.pending = w.session.process.pending)
    (htables : w.Binds crates (.call mem env (.catalog p api m) : Event Scan Spec Library)
      w'.tables) :
    w'.accounts held = (w.accounts held).apply
      ((.call mem env (.catalog p api m) : Event Scan Spec Library).effect crates size w) := by
  rw [Deployment.accounts, hpending]
  generalize w'.tables = tables at htables
  cases htables with
  | @create _ _ _ _ c _ t hp hm hfree hempty =>
    have hnothing : w.accounts held (.table (w.home c, t.identifier)) = 0 := by
      simp only [Deployment.accounts, contents, AList.lookup_eq_none.mpr hfree, Option.elim_none]
    simp only [Event.effect, hp, hm, lookup_insert, contents_bind, Option.elim_some, hempty,
      List.map_nil, List.sum_nil, ← hnothing]
    exact update_eq_self _ _
  | drop hp hm =>
    simp only [Event.effect, hp, hm, lookup_erase, contents_bind]
    rfl
  | other he =>
    have hnone : m.rebinding crates api = none := by simpa [Event.rebinds] using he
    simp only [Event.effect, hnone]
    split
    next hdrop => cases hdrop
    next => rfl

/-- An event moves contents as its effect says. -/
theorem Deployment.Step.accounts (h : w.Step crates e w') (hw : w.session.Holds n)
    (he : e.Sound size held) :
    w'.accounts held = (w.accounts held).apply (e.effect crates size w) := by
  obtain ⟨hsession, -, htables⟩ := h
  cases e with
  | call mem env c =>
    by_cases hc : ∃ t m, c = .table t m
    · obtain ⟨t, m, rfl⟩ := hc
      obtain ⟨c, h', hh, hpending⟩ := hw.pending_table hsession
      refine accounts_table hh he hpending ?_
      generalize w'.tables = tables at htables
      cases htables with
      | @commit _ _ api _ _ _ T hh' hT =>
        obtain ⟨rfl, rfl⟩ : c = _ ∧ h' = _ := by simpa using hh.symm.trans hh'
        have hbound : w.accounts held (.table (w.home c, h'.table.identifier)) =
            (T.added.map held).sum := by
          simp only [Deployment.accounts, contents, hT, Option.elim_some]
        rw [lookup_insert, contents_bind, Option.elim_some,
          settles_commit (he w.session.process _ rfl), ← hbound]
        rfl
      | @refused _ _ api _ _ _ T hh' hT hapi =>
        simp only [TableMethod.action]
        rw [settles_refused hapi, add_zero, update_eq_self]
        rfl
      | other hother =>
        cases ha : m.action w.session.process with
        | none =>
          simp only [add_zero, update_eq_self]
          rfl
        | some a =>
          have hcommit : ∀ api, a ≠ .commit () api := by
            rintro api rfl
            obtain ⟨catalog, rfl⟩ := TableMethod.commit_of_action ha
            cases hother
          simp only [settles_effect hcommit, add_zero, update_eq_self]
          rfl
    · have hpending := Session.pending_call hsession fun t m h => hc ⟨t, m, h⟩
      by_cases hp : ∃ p api m, c = .catalog p api m
      · obtain ⟨p, api, m, rfl⟩ := hp
        exact accounts_catalog hpending htables
      · have hsame : w'.tables = w.tables := by
          generalize w'.tables = tables at htables
          cases htables with
          | commit | refused => exact absurd ⟨_, _, rfl⟩ hc
          | create | drop => exact absurd ⟨_, _, _, rfl⟩ hp
          | other => rfl
        have hidle : (.call mem env c : Event Scan Spec Library).effect crates size w =
            (.idle : Accounts.Op (Place ι) M) := by
          cases c with
          | table t m => exact absurd ⟨t, m, rfl⟩ hc
          | catalog p api m => exact absurd ⟨p, api, m, rfl⟩ hp
          | _ => rfl
        rw [Deployment.accounts, hpending, hsame, hidle]
        rfl
  | drop o =>
    have hpending := hw.pending_drop hsession
    have hsame : w'.tables = w.tables := by
      generalize w'.tables = tables at htables
      cases htables
      rfl
    rw [Deployment.accounts, hpending, hsame]
    simp only [Event.effect]
    split
    · rw [contents_stage]
      rfl
    · rfl


variable {labels : List (Event Scan Spec Library × Accounts.Op (Place ι) M)} {lastError : String}
variable {events : List (Event Scan Spec Library)}

/-- A program and the tables that it works with are accounts of contents, whatever it has done
before and whatever else it does. -/
theorem session_contents (hw : (Session.start lastError).run crates events = some w.session)
    (hrun : Trace (Deployment.Moves size crates) w labels w')
    (hsound : ∀ l ∈ labels, l.1.Sound size held) :
    w'.accounts held = (w.accounts held).run (labels.map Prod.snd) := by
  have hholds := Session.holds_run hw
  induction hrun with
  | nil => rfl
  | @snoc labels v v' l hrun hstep ih =>
    obtain ⟨n, hv⟩ := Deployment.holds_run hholds hrun
    obtain ⟨hstep, hl⟩ := hstep
    have hstart := ih fun l' hl' => hsound l' (List.mem_append_left _ hl')
    rw [hstep.accounts hv (hsound l (List.mem_append_right _ List.mem_cons_self)), hstart, ← hl,
      List.map_append, Accounts.run, Accounts.run, List.foldl_append]
    rfl

/-- One row of another library is appended through a table. -/
def rowAppended (t : ℕ) : Event Unit Unit Unit := .call .beyond .open
  (.table t (.appendCData .counting (.ok (.struct 0 ordersRow)) ⟨.exported, true⟩))

def rowsCommitted (t : ℕ) : Event Unit Unit Unit := .call .beyond .open
  (.table t (.commit (.succeeding 9) .orders))

theorem rowAppended_sound (t : ℕ) :
    (rowAppended t).Sound RecordBatch.numRows DataFile.letters := by
  rintro s a ⟨⟩
  exact ⟨_, WriterApi.counting_keeps⟩

theorem rowsCommitted_sound (t : ℕ) :
    (rowsCommitted t).Sound RecordBatch.numRows DataFile.letters := by
  rintro s a ⟨⟩
  exact CommitApi.succeeding_lawful (by decide)

/-- One catalog, that has one table. -/
def oneTable (S : Session Unit) : Deployment Unit Unit :=
  ⟨(∅ : Tables Unit).insert ((), .within "db" "orders") .orders, fun _ => (), S⟩

theorem session_contents_orders : ∃ w', Trace (Deployment.Moves RecordBatch.numRows .sample)
    (oneTable ordersSession)
    [(rowAppended 4, .deposit (.object 4) 1),
      (rowsCommitted 4, .transfer (.object 4) (.table ((), .within "db" "orders")))] w' ∧
    w'.accounts DataFile.letters (.table ((), .within "db" "orders")) = 1 := by
  let w : Deployment Unit Unit := oneTable ordersSession
  let S : Session Unit := (ordersSession.step .sample (rowAppended 4)).get rfl
  let T : Session Unit := (S.step .sample (rowsCommitted 4)).get rfl
  have happend : Deployment.Moves RecordBatch.numRows .sample w
      (rowAppended 4, .deposit (.object 4) 1) ⟨w.tables, w.home, S⟩ :=
    ⟨⟨rfl, fun _ _ => rfl, .other rfl⟩, rfl⟩
  have hcommit : Deployment.Moves RecordBatch.numRows .sample ⟨w.tables, w.home, S⟩
      (rowsCommitted 4, .transfer (.object 4) (.table ((), .within "db" "orders")))
      ⟨_, w.home, T⟩ := ⟨⟨rfl, fun _ _ => rfl, .commit rfl rfl⟩, rfl⟩
  refine ⟨_, (Trace.nil.snoc happend).snoc hcommit, ?_⟩
  rw [session_contents ordersSession_run ((Trace.nil.snoc happend).snoc hcommit)]
  · rfl
  · rintro l hl
    simp only [List.nil_append, List.cons_append, List.mem_cons, List.not_mem_nil, or_false] at hl
    rcases hl with rfl | rfl
    · exact rowAppended_sound 4
    · exact rowsCommitted_sound 4

end
end IcebergRs.Mojo
