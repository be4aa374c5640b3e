import IcebergRs.Mojo.Answers
import IcebergRs.Mojo.Sessions
import IcebergRs.Mojo.StringArguments

/-! The objects of the binding as values. A method on an address ends as the call of the binding
ends on the contents of the object, wherever the boxes are and whatever else is there. -/
namespace IcebergRs.Mojo

variable {Scan Spec : Type}

section
variable {Library : Type} (crates : Crates Spec) (mem : Allocators Scan) (env : Env Library)

/-- A world where these crates are at work. -/
def World.under (w : World Spec Scan) : World Spec Scan :=
  { w with
    arrow := crates.arrow
    datum := crates.datum
    ops := crates.ops
    json := crates.json
    parseJson := crates.parseJson
    fmt := crates.fmt }

/-- The object of the world that the call is made on is the one at the address. -/
def StringCall.At (w : World Spec Scan) (s : Process Scan) (p : ℕ) : StringCall → Prop
  | catalogSql .. | catalogRest .. => True
  | scan .. => ∃ inner, s.heap.lookup p = some (.table inner w.table)
  | intCol _ | floatCol _ | boolCol _ | strCol _ | validity _ =>
    s.heap.lookup p = some (.batch w.batch) ∧ w.batch.numRows < 2 ^ 63
  | builderCol _ => s.heap.lookup p = some (.builder w.builder) ∧
    (w.valid = [] ∨ w.values.length ≤ w.valid.length)
  | _ => ∃ inner, s.heap.lookup p = some (.catalog inner)

/-- The method on the address ends as the method ends in the world. -/
def StringCall.Agrees (w : World Spec Scan) (s : Process Scan) (p : ℕ) : StringCall → Prop
  | catalogSql uri warehouse =>
    Makes s (Catalog.sql mem env w.load uri warehouse) ((catalogSql uri warehouse).run w)
      fun _ b => ∃ inner, inner ∉ s.catalogs ∧ b = .catalog inner
  | catalogRest uri warehouse propsJson =>
    Makes s (Catalog.rest crates mem env w.load uri warehouse propsJson)
      ((catalogRest uri warehouse propsJson).run w)
      fun _ b => ∃ inner, inner ∉ s.catalogs ∧ b = .catalog inner
  | listNamespaces parent =>
    Answers s (Catalog.listNamespaces crates mem w.catalog p parent) ((listNamespaces parent).run w)
  | createNamespace ns propsJson =>
    Answers s (Catalog.createNamespace crates w.catalog p ns propsJson)
      ((createNamespace ns propsJson).run w)
  | namespaceExists ns =>
    Answers s (Catalog.namespaceExists w.catalog p ns) ((namespaceExists ns).run w)
  | dropNamespace ns => Answers s (Catalog.dropNamespace w.catalog p ns) ((dropNamespace ns).run w)
  | listTables ns =>
    Answers s (Catalog.listTables crates mem w.catalog p ns) ((listTables ns).run w)
  | tableExists ns name =>
    Answers s (Catalog.tableExists w.catalog p ns name) ((tableExists ns name).run w)
  | loadTable ns name =>
    Makes s (Catalog.loadTable mem env w.catalog p ns name) ((loadTable ns name).run w)
      fun h b => ∃ inner, s.heap.lookup p = some (.catalog inner) ∧ b = .table inner h
  | dropTable ns name =>
    Answers s (Catalog.dropTable w.catalog p ns name) ((dropTable ns name).run w)
  | createTable ns name schemaJson specJson propsJson =>
    Makes s (Catalog.createTable crates mem env w.catalog p ns name schemaJson specJson propsJson)
      ((createTable ns name schemaJson specJson propsJson).run w)
      fun h b => ∃ inner, s.heap.lookup p = some (.catalog inner) ∧ b = .table inner h
  | scan columns snapshotId filter =>
    Makes s (Table.scan crates mem env p w.build columns snapshotId filter)
      ((scan columns snapshotId filter).run w) fun h b => b = .scan h
  | intCol name => Answers s (Batch.intCol crates p name) ((intCol name).run w)
  | floatCol name => Answers s (Batch.floatCol crates p name) ((floatCol name).run w)
  | boolCol name => Answers s (Batch.boolCol crates p name) ((boolCol name).run w)
  | strCol name => Answers s (Batch.strCol crates p name) ((strCol name).run w)
  | validity name => Answers s (Batch.validity crates p name) ((validity name).run w)
  | builderCol name =>
    (BatchBuilder.col crates p name w.values (some w.valid)).Follows s ((builderCol name).run w)
      (fun _ b t => ∀ q, t.heap.lookup q = (s.heap.insert p (.builder b)).lookup q) (Still s)

end

section
variable {crates : Crates Spec} {mem : Allocators Scan} {Library : Type} {env : Env Library}
variable {w : World Spec Scan} {C : Boxes} {inner : ℕ}

/-- One case for each method. -/
theorem StringCall.agrees (hs : Owns s C) (henv : spill env = 0) (c : StringCall)
    (hc : c.At w s p) : c.Agrees crates mem env (w.under crates) s p := by
  cases c with
  | catalogSql uri warehouse =>
    exact makes_opened henv (handle_eq ..) rfl (Reply.speaks_pointer _)
  | catalogRest uri warehouse propsJson =>
    exact makes_opened henv (handle_eq ..) rfl (Reply.speaks_pointer _)
  | listNamespaces parent =>
    obtain ⟨inner, hp⟩ := hc
    exact answers_catalogText (holdsCatalog_of_owns hs hp) _ _ (Reply.speaks_pointer _)
  | createNamespace ns propsJson =>
    obtain ⟨inner, hp⟩ := hc
    exact answers_catalogStatus (holdsCatalog_of_owns hs hp) _ (Reply.speaks_status _)
  | namespaceExists ns =>
    obtain ⟨inner, hp⟩ := hc
    exact (answers_catalogCode (holdsCatalog_of_owns hs hp) _ (Reply.speaks_flag _)).map
  | dropNamespace ns =>
    obtain ⟨inner, hp⟩ := hc
    exact (answers_catalogCode (holdsCatalog_of_owns hs hp) _ (Reply.speaks_status _)).map
  | listTables ns =>
    obtain ⟨inner, hp⟩ := hc
    exact answers_catalogText (holdsCatalog_of_owns hs hp) _ _ (Reply.speaks_pointer _)
  | tableExists ns name =>
    obtain ⟨inner, hp⟩ := hc
    exact (answers_catalogCode (holdsCatalog_of_owns hs hp) _ (Reply.speaks_flag _)).map
  | loadTable ns name =>
    obtain ⟨inner, hp⟩ := hc
    exact makes_table (holdsCatalog_of_owns hs hp) henv (handle_eq ..) (Reply.speaks_pointer _)
  | dropTable ns name =>
    obtain ⟨inner, hp⟩ := hc
    exact (answers_catalogCode (holdsCatalog_of_owns hs hp) _ (Reply.speaks_status _)).map
  | createTable ns name schemaJson specJson propsJson =>
    obtain ⟨inner, hp⟩ := hc
    exact makes_table (holdsCatalog_of_owns hs hp) henv (handle_eq ..) (Reply.speaks_pointer _)
  | scan columns snapshotId filter =>
    obtain ⟨inner, hp⟩ := hc
    exact makes_scan (hs.nonnull _ (hs.mem hp)) hp henv _ _ _ _
  | intCol name => exact answers_intCol ⟨hs.nonnull _ (hs.mem hc.1), hc.1, hc.2⟩ name
  | floatCol name => exact answers_floatCol ⟨hs.nonnull _ (hs.mem hc.1), hc.1, hc.2⟩ name
  | boolCol name => exact answers_boolCol ⟨hs.nonnull _ (hs.mem hc.1), hc.1, hc.2⟩ name
  | strCol name => exact answers_strCol ⟨hs.nonnull _ (hs.mem hc.1), hc.1, hc.2⟩ name
  | validity name => exact answers_validity ⟨hs.nonnull _ (hs.mem hc.1), hc.1, hc.2⟩ name
  | builderCol name => exact follows_col (hs.nonnull _ (hs.mem hc.1)) hc.1 hc.2 name

/-- In any session a method on an object ends as the method ends in the world of that object, and
an error leaves everything as it was. -/
theorem session_refines {lastError : String} {S : Session Scan}
    {events : List (Event Scan Spec Library)} {p : ℕ}
    (h : (Session.start lastError).run crates events = some S) (henv : spill env = 0)
    (mem : Allocators Scan) (w : World Spec Scan) (c : StringCall) (hc : c.At w S.process p) :
    c.Agrees crates mem env (w.under crates) S.process p := by
  obtain ⟨C, -, hC⟩ := (Session.holds_run h).boxes
  exact c.agrees hC henv hc

theorem session_refines_orders : ∃ inner t, Makes ordersSession.process
    (Table.scan .sample .beyond .open 2 strictBuild "id" 0 "")
    (scanNew .basic .simplifying (fun _ => .ok .null) strictBuild ⟨.orders, []⟩ "id" 0 "")
    (fun h b => b = .scan h) ∧
    ordersSession.process.heap.lookup 2 = some (.table inner t) := by
  let c : StringCall := .scan "id" 0 ""
  have hc : c.At (strict c) ordersSession.process 2 := ⟨1, rfl⟩
  exact ⟨1, ⟨.orders, []⟩, session_refines ordersSession_run rfl .beyond (strict c) c hc, rfl⟩

end

end IcebergRs.Mojo
