import IcebergRs.Mojo.StringCalls
import IcebergRs.Shim.Namespaces
import IcebergRs.Shim.Projection

/-! Which string arguments arrive whole. A catalog that knows no names with a zero character
tells a call that was cut at one from what the call means. -/
namespace IcebergRs.Mojo

section
variable {s : String}

theorem nulFree_iff : NulFree s ↔ ∀ c ∈ s.toList, c ≠ Char.ofNat 0 :=
  ⟨fun h _ hc => ne_of_mem_of_not_mem hc h, fun h hz => h _ hz rfl⟩

theorem nul_not_whitespace (c : Char) (h : isWhitespace c) : c ≠ Char.ofNat 0 := by
  rintro rfl
  exact absurd h (by decide)

theorem nulFree_trim : NulFree (trim s) ↔ NulFree s := by
  rw [nulFree_iff, nulFree_iff, trim_toList]
  exact Separated.forall_mem_strip nul_not_whitespace

theorem nulFree_of_trim_empty (h : trim s = "") : NulFree s :=
  nulFree_trim.mp (h ▸ by decide)

/-- A column of the projection has a zero character wherever the text has one. -/
theorem nulFree_projection :
    (∀ columns ∈ projection (some s), ∀ n ∈ columns, NulFree n) ↔ NulFree s := by
  rw [projection_some]
  by_cases h : trim s = ""
  · simpa [h] using nulFree_of_trim_empty h
  · have hsegs := Separated.forall_mem_segments (l := s.toList) nul_not_whitespace
      (show ',' ≠ Char.ofNat 0 by decide)
    rw [nulFree_iff, ← hsegs, if_neg h]
    simp [nulFree_iff]

/-- No level has a zero character. -/
def LevelsFree (n : NamespaceIdent) : Prop := ∀ level ∈ n.parts, NulFree level

instance (n : NamespaceIdent) : Decidable (LevelsFree n) := List.decidableBAll _ n.parts

theorem nsIdent_levelsFree (s what : String) :
    ∃ n, nsIdent s what = .ok n ∧ (LevelsFree n ↔ NulFree s) := by
  obtain ⟨n, hn⟩ := nsIdent_ok s what
  refine ⟨n, hn, ?_⟩
  have hlevels : LevelsFree n ↔ ∀ cs ∈ s.toList.splitOn '.', ∀ c ∈ cs, c ≠ Char.ofNat 0 := by
    rw [LevelsFree, ← nsIdent_eq_ok.mp hn, split]
    simp [nulFree_iff]
  have hdot : ∀ c, (c ≠ Char.ofNat 0 ∨ c = '.') ↔ c ≠ Char.ofNat 0 := fun c =>
    or_iff_left_of_imp fun hc => hc ▸ by decide
  rw [hlevels, Separated.forall_mem_splitOn, nulFree_iff]
  simp only [hdot]

end

/-- The answer, where the condition holds. -/
def provided {α : Type} (P : Prop) [Decidable P] (a : α) : Except String α :=
  if P then .ok a else .error "refused"

@[simp] theorem provided_eq_ok {α : Type} {P : Prop} [Decidable P] {a b : α} :
    provided P a = .ok b ↔ P ∧ a = b := by
  unfold provided
  split <;> simp_all

/-- A catalog that accepts everything without zero characters and nothing else. -/
def strictCatalog : CatalogApi Unit where
  listNamespaces parent := provided (∀ n ∈ parent, LevelsFree n) []
  createNamespace n _ := provided (LevelsFree n) ()
  namespaceExists n := provided (LevelsFree n) true
  dropNamespace n := provided (LevelsFree n) ()
  listTables n := provided (LevelsFree n) []
  loadTable t := provided (LevelsFree t.namespaceIdent ∧ NulFree t.name) .orders
  createTable n c := provided (LevelsFree n ∧ NulFree c.name) .orders
  tableExists t := provided (LevelsFree t.namespaceIdent ∧ NulFree t.name) true
  dropTable t := provided (LevelsFree t.namespaceIdent ∧ NulFree t.name) ()

def strictJson : FromJson Unit where
  props text := provided (NulFree text) ∅
  schema text := provided (NulFree text) .orders
  partitionSpec text := provided (NulFree text) ()

/-- The builder of catalogs reads the address and the warehouse. -/
def strictLoad (props : Props) : Except String (CatalogApi Unit) :=
  provided (NulFree ((props.lookup "uri").getD "") ∧ NulFree ((props.lookup "warehouse").getD ""))
    strictCatalog

def strictParse (text : String) : Except String Json :=
  provided (NulFree text) (.array [.string "true"])

/-- The builder of scans reads the columns. -/
def strictBuild (_ : Table) (r : ScanRequest) : Except String Unit :=
  provided (∀ columns ∈ r.columns, ∀ n ∈ columns, NulFree n) ()

/-- A column under the name as it arrives. -/
def strictBatch : StringCall → RecordBatch
  | .floatCol name => .single ⟨uptoNul name, .float64, true, none⟩ [some (0 : Float)]
  | .boolCol name => .single ⟨uptoNul name, .boolean, true, none⟩ [some true]
  | .strCol name => .single ⟨uptoNul name, .utf8, true, none⟩ [some ""]
  | c => .single ⟨uptoNul (c.strings.headD ""), .int64, true, none⟩ [some (0 : Int64)]

/-- Everything around a call that has to do with names accepts the strings as they arrive, and
no string with a zero character. -/
def strict (c : StringCall) : World Unit Unit where
  arrow := .basic
  datum := .basic
  ops := .simplifying
  json := strictJson
  parseJson := strictParse
  fmt _ := "0"
  load := strictLoad
  build := strictBuild
  catalog := strictCatalog
  table := ⟨.orders, []⟩
  batch := strictBatch c
  builder := ⟨⟨[⟨uptoNul (c.strings.headD ""), .int64, true, none⟩]⟩, ∅, none⟩
  values := .ints []
  valid := []

/-- The two ways to read a string: whole, and as it arrives. -/
structure Reading (read : String → String) : Prop where
  empty : read "" = ""
  free : ∀ s, NulFree (read s) ↔ read s = uptoNul s

theorem reading_id : Reading id := ⟨rfl, fun _ => uptoNul_eq_self_iff.symm.trans eq_comm⟩

theorem reading_uptoNul : Reading uptoNul := ⟨rfl, fun s => by simp [nulFree_uptoNul]⟩

section
variable {ns name what : String} {text : Option String} {read : String → String}

theorem given_free (h : Reading read) (s : String) :
    (∀ t ∈ StringCall.given read s, NulFree t) ↔ NulFree (read s) := by
  unfold StringCall.given
  by_cases hs : s = ""
  · simp [hs, h.empty]
  · simp [hs]

theorem strict_props {props : Props} : propsFromJson strictJson text what = .ok props ↔
    (∀ t ∈ text, NulFree t) ∧ ∅ = props := by
  cases text with
  | none => simp [propsFromJson]
  | some t =>
    by_cases ht : trim t = ""
    · simpa [propsFromJson, ht, Option.filter] using fun _ => nulFree_of_trim_empty ht
    · simp [propsFromJson, ht, Option.filter, mapErr_eq_ok, strictJson, nulFree_trim]

theorem exists_ofExcept {α : Type} {x : Except String α} :
    (∃ r, Outcome.ofExcept x id = .ok r) ↔ ∃ r, x = .ok r := by
  simp only [Outcome.ofExcept_eq_ok]

theorem strict_sql {uri warehouse : String} :
    (∃ r, OnTexts.catalogSqlNew strictLoad uri warehouse = .ok r) ↔
      NulFree uri ∧ NulFree warehouse := by
  unfold OnTexts.catalogSqlNew
  generalize (if uri.startsWith "postgres" then "DollarNumeric" else "QMark") = bindStyle
  have huri : ((((∅ : Props).insert "uri" uri).insert "warehouse" warehouse).insert
      "sql_bind_style" bindStyle).lookup "uri" = some uri := by
    rw [AList.lookup_insert_ne (by decide), AList.lookup_insert_ne (by decide),
      AList.lookup_insert]
  have hwarehouse : ((((∅ : Props).insert "uri" uri).insert "warehouse" warehouse).insert
      "sql_bind_style" bindStyle).lookup "warehouse" = some warehouse := by
    rw [AList.lookup_insert_ne (by decide), AList.lookup_insert]
  simp only [mapErr_eq_ok, strictLoad, huri, hwarehouse, Option.getD_some, provided_eq_ok,
    exists_and_left, exists_eq', and_true]

theorem strict_rest {uri : String} {warehouse props : Option String} :
    (∃ r, OnTexts.catalogRestNew strictJson strictLoad uri warehouse props = .ok r) ↔
      NulFree uri ∧ (∀ t ∈ warehouse, NulFree t) ∧ ∀ t ∈ props, NulFree t := by
  have hload : ∀ p : Props, (∃ r, mapErr "ib_catalog_rest_new" (strictLoad p) = .ok r) ↔
      NulFree ((p.lookup "uri").getD "") ∧ NulFree ((p.lookup "warehouse").getD "") := by
    simp [mapErr_eq_ok, strictLoad]
  have huri : (AList.singleton "uri" uri : Props).lookup "uri" = some uri := rfl
  have hnone : (AList.singleton "uri" uri : Props).lookup "warehouse" = none := rfl
  unfold OnTexts.catalogRestNew
  rw [except_exists_bind fun _ => strict_props, and_comm, ← and_assoc]
  refine and_congr_left' ?_
  dsimp only
  rw [hload]
  cases warehouse with
  | none => simp [Option.filter, huri, hnone]
  | some w =>
    by_cases hw : w = ""
    · simp [hw, Option.filter, huri, hnone]
    · simp [hw, Option.filter, huri]

theorem strict_dropNamespace :
    (∃ r, OnTexts.dropNamespace strictCatalog ns = .ok r) ↔ NulFree ns := by
  obtain ⟨n, hn, hfree⟩ := nsIdent_levelsFree ns "ib_drop_namespace"
  simp [OnTexts.dropNamespace, hn, mapErr_eq_ok, strictCatalog, hfree]

theorem strict_namespaceExists :
    (∃ r, OnTexts.namespaceExists strictCatalog ns = .ok r) ↔ NulFree ns := by
  obtain ⟨n, hn, hfree⟩ := nsIdent_levelsFree ns "ib_namespace_exists"
  simp [OnTexts.namespaceExists, hn, mapErr_eq_ok, strictCatalog, hfree]

theorem strict_createNamespace {props : Option String} :
    (∃ r, OnTexts.createNamespace strictJson strictCatalog ns props = .ok r) ↔
      NulFree ns ∧ ∀ t ∈ props, NulFree t := by
  obtain ⟨n, hn, hfree⟩ := nsIdent_levelsFree ns "ib_create_namespace"
  simp [OnTexts.createNamespace, hn, except_bind_eq_ok, strict_props, mapErr_eq_ok, strictCatalog,
    hfree, and_comm]

theorem strict_tableExists :
    (∃ r, OnTexts.tableExists strictCatalog ns name = .ok r) ↔ NulFree ns ∧ NulFree name := by
  obtain ⟨n, hn, hfree⟩ := nsIdent_levelsFree ns "ib_table_exists"
  simp [OnTexts.tableExists, hn, mapErr_eq_ok, strictCatalog, hfree]

theorem strict_tableDrop :
    (∃ r, OnTexts.tableDrop strictCatalog ns name = .ok r) ↔ NulFree ns ∧ NulFree name := by
  obtain ⟨n, hn, hfree⟩ := nsIdent_levelsFree ns "ib_table_drop"
  simp [OnTexts.tableDrop, hn, mapErr_eq_ok, strictCatalog, hfree]

theorem strict_tableLoad :
    (∃ r, OnTexts.tableLoad strictCatalog ns name = .ok r) ↔ NulFree ns ∧ NulFree name := by
  obtain ⟨n, hn, hfree⟩ := nsIdent_levelsFree ns "ib_table_load"
  simp [OnTexts.tableLoad, hn, except_bind_eq_ok, mapErr_eq_ok, strictCatalog, hfree, pure,
    Except.pure]

theorem outString_names {fmt : Float → String} {r : String} :
    outString (namesJson fmt []) = .ok r ↔ "[]" = r := by
  have htext : namesJson fmt [] = "[]" := rfl
  rw [htext, outString_eq_ok, and_iff_right (by decide)]

theorem strict_listTables {fmt : Float → String} :
    (∃ r, OnTexts.listTables fmt strictCatalog ns = .ok r) ↔ NulFree ns := by
  obtain ⟨n, hn, hfree⟩ := nsIdent_levelsFree ns "ib_list_tables"
  simp [OnTexts.listTables, hn, except_bind_eq_ok, mapErr_eq_ok, strictCatalog, hfree,
    outString_names]

theorem parent_levelsFree (parent : Option String) (what : String) :
    ∃ ident, (parent.filter (· ≠ "")).mapM (fun p => nsIdent p what) = .ok ident ∧
      ((∀ n ∈ ident, LevelsFree n) ↔ ∀ t ∈ parent, NulFree t) := by
  cases parent with
  | none => exact ⟨none, rfl, by simp⟩
  | some t =>
    by_cases ht : t = ""
    · subst ht
      exact ⟨none, rfl, iff_of_true (by simp) (by simp)⟩
    · obtain ⟨n, hn, hfree⟩ := nsIdent_levelsFree t what
      refine ⟨some n, ?_, by simpa using hfree⟩
      simp [Option.filter, ht, hn]

theorem strict_listNamespaces {fmt : Float → String} {parent : Option String} :
    (∃ r, OnTexts.listNamespaces fmt strictCatalog parent = .ok r) ↔ ∀ t ∈ parent, NulFree t := by
  obtain ⟨ident, hident, hfree⟩ := parent_levelsFree parent "ib_list_namespaces"
  simp only [OnTexts.listNamespaces, hident, except_ok_bind, except_bind_eq_ok, mapErr_eq_ok,
    strictCatalog, provided_eq_ok, ← hfree]
  constructor
  · rintro ⟨_, _, ⟨h, -⟩, -⟩
    exact h
  · exact fun h => ⟨"[]", [], ⟨h, rfl⟩, outString_names.mpr rfl⟩

theorem strict_spec {spec : Option String} {r : Option Unit} :
    (spec.filter fun s => trim s ≠ "").mapM (fun s =>
        mapErr "ib_table_create: partition spec JSON" (strictJson.partitionSpec s)) = .ok r ↔
      (∀ t ∈ spec, NulFree t) ∧ ((spec.filter fun s => trim s ≠ "").map fun _ => ()) = r := by
  cases spec with
  | none => simp [pure, Except.pure]
  | some t =>
    by_cases ht : trim t = ""
    · simpa [Option.filter, ht, pure, Except.pure] using
        fun _ => nulFree_of_trim_empty ht
    · by_cases hfree : NulFree t <;>
        simp [Option.filter, ht, strictJson, provided, hfree, mapErr, Except.mapError]

theorem strict_tableCreate {schema : String} {spec props : Option String} :
    (∃ r, OnTexts.tableCreate strictJson strictCatalog ns name schema spec props = .ok r) ↔
      NulFree ns ∧ NulFree name ∧ NulFree schema ∧ (∀ t ∈ spec, NulFree t) ∧
        ∀ t ∈ props, NulFree t := by
  obtain ⟨n, hn, hfree⟩ := nsIdent_levelsFree ns "ib_table_create"
  have hschema : ∀ what r, mapErr what (strictJson.schema schema) = .ok r ↔
      NulFree schema ∧ .orders = r := by simp [mapErr_eq_ok, strictJson]
  have hcreate : ∀ what c r, mapErr what (strictCatalog.createTable n c) = .ok r ↔
      (NulFree ns ∧ NulFree c.name) ∧ .orders = r := by simp [mapErr_eq_ok, strictCatalog, hfree]
  rw [OnTexts.tableCreate, except_exists_bind fun _ => strict_props]
  simp only [hn, except_ok_bind]
  rw [except_exists_bind (hschema _), except_exists_bind fun _ => strict_spec,
    except_exists_bind (hcreate _ _)]
  simp only [exists_eq', pure, Except.pure, Except.ok.injEq]
  tauto

theorem strict_filter {t : String} (schema : Schema) :
    Filter.parseFilter .basic .simplifying schema strictParse (trim t) =
      if NulFree t then .ok .alwaysTrue else .err "filter is not JSON: refused" := by
  rw [Filter.parseFilter, strictParse, provided]
  by_cases h : NulFree t
  · rw [if_pos (nulFree_trim.mpr h), if_pos h]
    rfl
  · rw [if_neg fun ht => h (nulFree_trim.mp ht), if_neg h]
    rfl

theorem strict_scan {columns filter : Option String} (snapshotId : ℤ) :
    (∃ r, OnTexts.scanNew .basic .simplifying strictParse strictBuild ⟨.orders, []⟩ columns
        snapshotId filter = .ok r) ↔
      (∀ t ∈ columns, NulFree t) ∧ ∀ t ∈ filter, NulFree t := by
  have hcolumns : (∀ names ∈ projection columns, ∀ n ∈ names, NulFree n) ↔
      ∀ t ∈ columns, NulFree t := by
    cases columns with
    | none => exact iff_of_true (by simp [projection]) (by simp)
    | some t => simpa using nulFree_projection
  have hbuild : ∀ snapshot filter, (∃ r, (do
      let scan ← Outcome.ofExcept (mapErr "ib_scan_new" (strictBuild .orders
        ⟨projection columns, snapshot, filter⟩)) id
      pure (ScanHandle.mk scan none)) = .ok r) ↔ ∀ t ∈ columns, NulFree t := by
    intro snapshot filter
    simp only [Outcome.bind_eq_ok, Outcome.ofExcept_eq_ok, mapErr_eq_ok, strictBuild,
      provided_eq_ok, hcolumns]
    constructor
    · rintro ⟨_, _, ⟨h, -⟩, -⟩
      exact h
    · exact fun h => ⟨_, (), ⟨h, trivial⟩, rfl⟩
  cases filter with
  | none => exact (hbuild _ none).trans (by simp)
  | some t =>
    by_cases ht : trim t = ""
    · have hnone : ((some t).map trim).filter (· ≠ "") = none := by simp [ht, Option.filter]
      rw [OnTexts.scanNew, hnone]
      exact (hbuild _ none).trans (by simp [nulFree_of_trim_empty ht])
    · have hsome : ((some t).map trim).filter (· ≠ "") = some (trim t) := by
        simp [ht, Option.filter]
      simp only [OnTexts.scanNew, hsome, strict_filter]
      by_cases hfree : NulFree t
      · rw [if_pos hfree]
        exact (hbuild _ (some .alwaysTrue)).trans (by simp [hfree])
      · rw [if_neg hfree]
        exact iff_of_false (by simp [Outcome.mapErr]) (by simp [hfree])

/-- The read of a batch with one column under the name as it arrives. -/
theorem strict_readColumn {α : Type} {read' : RecordBatch → String → Outcome α}
    (h : Reading read) {t : DataType} {cells : List (Option t.Val)}
    (hread : ∃ r, read' (.single ⟨"c", t, true, none⟩ cells) "c" = .ok r) :
    (∃ r, OnTexts.readColumn (.single ⟨uptoNul name, t, true, none⟩ cells) (read name) read' =
      .ok r) ↔ NulFree (read name) := by
  rw [h.free]
  unfold OnTexts.readColumn
  by_cases hname : read name = uptoNul name
  · rw [hname, RecordBatch.columnByName_single ⟨uptoNul name, t, true, none⟩ cells]
    exact iff_of_true hread rfl
  · have hnone : (RecordBatch.single ⟨uptoNul name, t, true, none⟩ cells).columnByName (read name) =
        none := by
      simp [RecordBatch.columnByName, RecordBatch.single, Ne.symm hname]
    rw [hnone]
    exact iff_of_false (by simp) hname

theorem strict_builderCol (h : Reading read) :
    (∃ r, (do
      let s ← (Values.ints []).supply name []
      finish (Values.ints []).what (← OnTexts.supplyColumn .basic s.what
        ⟨⟨[⟨uptoNul name, .int64, true, none⟩]⟩, ∅, none⟩ (read name) s.array)) = .ok r) ↔
      NulFree (read name) := by
  have hsupply : (Values.ints []).supply name [] = .ok (.int (arg name) (n := 0) none none) := rfl
  have harray : (Supply.int (arg name) (n := 0) none none).array = .ok ⟨.int64, []⟩ := rfl
  rw [h.free, hsupply, Outcome.ok_bind, harray]
  by_cases hname : read name = uptoNul name
  · have hfind : (ArrowSchema.mk [⟨uptoNul name, .int64, true, none⟩]).find (uptoNul name) =
        some ⟨uptoNul name, .int64, true, none⟩ := by simp [ArrowSchema.find]
    refine iff_of_true ?_ hname
    rw [hname]
    simp only [OnTexts.supplyColumn, addColumn, hfind]
    exact ⟨_, rfl⟩
  · have hfind : (ArrowSchema.mk [⟨uptoNul name, .int64, true, none⟩]).find (read name) = none := by
      simp [ArrowSchema.find, Ne.symm hname]
    refine iff_of_false ?_ hname
    simp [OnTexts.supplyColumn, addColumn, hfind, finish, fail]

end

namespace StringCall

/-- In the strict world a call is served exactly if no string has a zero character as read. -/
theorem serve_strict_iff {read : String → String} (h : Reading read) (c : StringCall) :
    (∃ r, c.serve read (strict c) = .ok r) ↔ ∀ s ∈ c.strings, NulFree (read s) := by
  cases c with
  | catalogSql uri warehouse =>
    exact exists_ofExcept.trans (strict_sql.trans (by simp [strings]))
  | catalogRest uri warehouse propsJson =>
    exact exists_ofExcept.trans (strict_rest.trans (by simp only [given_free h]; simp [strings]))
  | listNamespaces parent =>
    exact exists_ofExcept.trans (strict_listNamespaces.trans ((given_free h parent).trans
      (by simp [strings])))
  | createNamespace ns propsJson =>
    exact exists_ofExcept.trans (strict_createNamespace.trans
      (by simp only [given_free h]; simp [strings]))
  | namespaceExists ns =>
    exact exists_ofExcept.trans (strict_namespaceExists.trans (by simp [strings]))
  | dropNamespace ns => exact exists_ofExcept.trans (strict_dropNamespace.trans (by simp [strings]))
  | listTables ns => exact exists_ofExcept.trans (strict_listTables.trans (by simp [strings]))
  | tableExists ns name =>
    exact exists_ofExcept.trans (strict_tableExists.trans (by simp [strings]))
  | loadTable ns name => exact exists_ofExcept.trans (strict_tableLoad.trans (by simp [strings]))
  | dropTable ns name => exact exists_ofExcept.trans (strict_tableDrop.trans (by simp [strings]))
  | createTable ns name schemaJson specJson propsJson =>
    exact exists_ofExcept.trans (strict_tableCreate.trans
      (by simp only [given_free h]; simp [strings]))
  | scan columns snapshotId filter =>
    exact (strict_scan _).trans (by simp only [given_free h]; simp [strings])
  | intCol name => exact (strict_readColumn h ⟨[0], rfl⟩).trans (by simp [strings])
  | floatCol name => exact (strict_readColumn h ⟨[0], rfl⟩).trans (by simp [strings])
  | boolCol name => exact (strict_readColumn h ⟨[true], rfl⟩).trans (by simp [strings])
  | strCol name => exact (strict_readColumn h ⟨[""], rfl⟩).trans (by simp [strings])
  | validity name => exact (strict_readColumn h ⟨[true], rfl⟩).trans (by simp [strings])
  | builderCol name => exact (strict_builderCol h).trans (by simp [strings])

/-- A call works on its strings or raises exactly if none of them has a zero character. -/
theorem arrives_iff (c : StringCall) : Arrives c ↔ ∀ s ∈ c.strings, NulFree s := by
  constructor
  · intro harrives
    by_cases hc : c = .listTables ""
    · subst hc
      simp [strings]
    · obtain ⟨r, hr⟩ := (serve_strict_iff reading_uptoNul c).mpr fun s _ => nulFree_uptoNul s
      have hrun := (run_eq_ok hc _).mpr hr
      exact (serve_strict_iff reading_id c).mp ⟨r, harrives _ _ _ r hrun⟩
  · intro hfree Spec Scan w r hr
    by_cases hc : c = .listTables ""
    · subst hc
      obtain ⟨m, hm⟩ := listTables_empty w.fmt w.catalog
      cases hm.symm.trans hr
    · have hsame : ∀ s ∈ c.strings, uptoNul s = id s := fun s hs =>
        uptoNul_eq_self_iff.mpr (hfree s hs)
      rw [meant, ← serve_congr hsame]
      exact (run_eq_ok hc w).mp hr

/-- A catalog with one table to drop. -/
def ordersCatalog : CatalogApi Unit :=
  { strictCatalog with
    dropTable := fun t => provided (t.namespaceIdent.parts = ["db"] ∧ t.name = "orders") () }

/-- A name cut at its zero character drops the table of the shorter name, where the shim at work
on the whole name refuses. -/
theorem drop_table_cut :
    let c := dropTable "db" "orders\x00old"
    let w : World Unit Unit := { strict c with catalog := ordersCatalog }
    c.run w = .ok () ∧ c.meant w = .err "ib_table_drop: refused" ∧
      ∀ (Spec Scan : Type) (w : World Spec Scan), c.run w = (dropTable "db" "orders").run w := by
  have hcut : uptoNul "orders\x00old" = "orders" := by decide
  have hname : uptoNul "orders" = "orders" := by decide
  refine ⟨?_, rfl, fun Spec Scan w => ?_⟩
  · rw [run, dropTable_eq, hcut]
    rfl
  · rw [run, run, dropTable_eq, dropTable_eq, hcut, hname]

end StringCall

end IcebergRs.Mojo
