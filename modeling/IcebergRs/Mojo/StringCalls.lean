import IcebergRs.Mojo.Catalog
import IcebergRs.Mojo.Masks
import IcebergRs.Shim.OnTexts

/-! String arguments of the Mojo binding. A string crosses as its bytes and a terminating zero,
and the shim reads up to the first zero, so what arrives is the string before its first zero
character. -/
namespace IcebergRs.Mojo

/-- A call of a method with its string arguments. -/
inductive StringCall where
  | catalogSql (uri warehouse : String)
  | catalogRest (uri warehouse propsJson : String)
  | listNamespaces (parent : String)
  | createNamespace (ns propsJson : String)
  | namespaceExists (ns : String)
  | dropNamespace (ns : String)
  | listTables (ns : String)
  | tableExists (ns name : String)
  | loadTable (ns name : String)
  | dropTable (ns name : String)
  | createTable (ns name schemaJson specJson propsJson : String)
  | scan (columns : String) (snapshotId : Int64) (filter : String)
  | intCol (name : String)
  | floatCol (name : String)
  | boolCol (name : String)
  | strCol (name : String)
  | validity (name : String)
  | builderCol (name : String)

/-- The objects the methods are called on, their other arguments, and what the crates answer.
A column call without a mask passes an empty one. -/
structure World (Spec Scan : Type) where
  arrow : Arrow
  datum : DatumApi
  ops : PredicateOps
  json : FromJson Spec
  parseJson : String → Except String Json
  fmt : Float → String
  load : Props → Except String (CatalogApi Spec)
  build : Table → ScanRequest → Except String Scan
  catalog : CatalogApi Spec
  table : TableHandle
  batch : RecordBatch
  builder : BuilderHandle
  values : Values
  valid : List Bool

namespace StringCall

def strings : StringCall → List String
  | catalogSql uri warehouse => [uri, warehouse]
  | catalogRest uri warehouse propsJson => [uri, warehouse, propsJson]
  | listNamespaces parent => [parent]
  | createNamespace ns propsJson => [ns, propsJson]
  | namespaceExists ns | dropNamespace ns | listTables ns => [ns]
  | tableExists ns name | loadTable ns name | dropTable ns name => [ns, name]
  | createTable ns name schemaJson specJson propsJson =>
    [ns, name, schemaJson, specJson, propsJson]
  | scan columns _ filter => [columns, filter]
  | intCol name | floatCol name | boolCol name | strCol name | validity name
  | builderCol name => [name]

/-- What the method returns. -/
def Answer (Spec Scan : Type) : StringCall → Type
  | catalogSql .. | catalogRest .. => CatalogApi Spec
  | listNamespaces _ | listTables _ => String
  | createNamespace .. | dropNamespace _ | dropTable .. => Unit
  | namespaceExists _ | tableExists .. => Bool
  | loadTable .. | createTable .. => TableHandle
  | scan .. => ScanHandle Scan
  | intCol _ => List Int64
  | floatCol _ => List Float
  | boolCol _ | validity _ => List Bool
  | strCol _ => List String
  | builderCol _ => BuilderHandle

variable {Spec Scan : Type}

/-- The method as the binding has it. -/
def run (w : World Spec Scan) : (c : StringCall) → Outcome (c.Answer Spec Scan)
  | catalogSql uri warehouse => Mojo.sql w.load uri warehouse
  | catalogRest uri warehouse propsJson => Mojo.rest w.json w.load uri warehouse propsJson
  | listNamespaces parent => Mojo.listNamespaces w.fmt w.catalog parent
  | createNamespace ns propsJson => Mojo.createNamespace w.json w.catalog ns propsJson
  | namespaceExists ns => Mojo.namespaceExists w.catalog ns
  | dropNamespace ns => Mojo.dropNamespace w.catalog ns
  | listTables ns => Mojo.listTables w.fmt w.catalog ns
  | tableExists ns name => Mojo.tableExists w.catalog ns name
  | loadTable ns name => Mojo.loadTable w.catalog ns name
  | dropTable ns name => Mojo.dropTable w.catalog ns name
  | createTable ns name schemaJson specJson propsJson =>
    Mojo.createTable w.json w.catalog ns name schemaJson specJson propsJson
  | scan columns snapshotId filter =>
    Mojo.scanNew w.datum w.ops w.parseJson w.build w.table columns snapshotId filter
  | intCol name => Mojo.intCol w.arrow w.batch name
  | floatCol name => Mojo.floatCol w.arrow w.batch name
  | boolCol name => Mojo.boolCol w.arrow w.batch name
  | strCol name => Mojo.strCol w.arrow w.batch name
  | validity name => Mojo.validity w.arrow w.batch name
  | builderCol name => w.values.call w.arrow w.builder name w.valid

/-- An optional argument that is given. -/
def given (read : String → String) (s : String) : Option String :=
  if s = "" then none else some (read s)

/-- The shim at work on the texts that the strings are read as. -/
def serve (read : String → String) (w : World Spec Scan) :
    (c : StringCall) → Outcome (c.Answer Spec Scan)
  | catalogSql uri warehouse =>
    .ofExcept (OnTexts.catalogSqlNew w.load (read uri) (read warehouse)) id
  | catalogRest uri warehouse propsJson =>
    .ofExcept (OnTexts.catalogRestNew w.json w.load (read uri) (given read warehouse)
      (given read propsJson)) id
  | listNamespaces parent =>
    .ofExcept (OnTexts.listNamespaces w.fmt w.catalog (given read parent)) id
  | createNamespace ns propsJson =>
    .ofExcept (OnTexts.createNamespace w.json w.catalog (read ns) (given read propsJson)) id
  | namespaceExists ns => .ofExcept (OnTexts.namespaceExists w.catalog (read ns)) id
  | dropNamespace ns => .ofExcept (OnTexts.dropNamespace w.catalog (read ns)) id
  | listTables ns => .ofExcept (OnTexts.listTables w.fmt w.catalog (read ns)) id
  | tableExists ns name => .ofExcept (OnTexts.tableExists w.catalog (read ns) (read name)) id
  | loadTable ns name => .ofExcept (OnTexts.tableLoad w.catalog (read ns) (read name)) id
  | dropTable ns name => .ofExcept (OnTexts.tableDrop w.catalog (read ns) (read name)) id
  | createTable ns name schemaJson specJson propsJson =>
    .ofExcept (OnTexts.tableCreate w.json w.catalog (read ns) (read name) (read schemaJson)
      (given read specJson) (given read propsJson)) id
  | scan columns snapshotId filter =>
    OnTexts.scanNew w.datum w.ops w.parseJson w.build w.table (given read columns)
      snapshotId.toInt (given read filter)
  | intCol name => OnTexts.readColumn w.batch (read name) (Mojo.intCol w.arrow)
  | floatCol name => OnTexts.readColumn w.batch (read name) (Mojo.floatCol w.arrow)
  | boolCol name => OnTexts.readColumn w.batch (read name) (Mojo.boolCol w.arrow)
  | strCol name => OnTexts.readColumn w.batch (read name) (Mojo.strCol w.arrow)
  | validity name => OnTexts.readColumn w.batch (read name) (Mojo.validity w.arrow)
  | builderCol name => do
    let s ← w.values.supply name w.valid
    finish w.values.what
      (← OnTexts.supplyColumn w.arrow s.what w.builder (read name) s.array)

/-- What the call means: the shim at work on the very strings. -/
def meant (w : World Spec Scan) (c : StringCall) : Outcome (c.Answer Spec Scan) := c.serve id w

/-- Whatever the call returns, it has worked on the very strings. -/
def Arrives (c : StringCall) : Prop :=
  ∀ (Spec Scan : Type) (w : World Spec Scan) (r : c.Answer Spec Scan),
    c.run w = .ok r → c.meant w = .ok r

end StringCall

theorem cstrOpt_optArg (s what : String) :
    cstrOpt (optArg s) what = .ok (StringCall.given uptoNul s) := by
  unfold optArg StringCall.given
  by_cases hs : s = ""
  · rw [if_pos hs, hs]
    rfl
  · have hne : (utf8 s).length ≠ 0 := fun h =>
      hs (utf8_injective (List.eq_nil_of_length_eq_zero h))
    rw [if_neg hs, if_neg hne, arg_eq, cstrOpt_cName_eq]

/-- The text of the `Error` that a failed call raises. -/
def raised (what m : String) : String := what ++ ": " ++ setErr m

section
variable {α : Type} {x : Except String α} {what sym a b : String}

/-- Only the text of an error depends on what it is raised for. -/
theorem eq_ok_of_raised {y z : Outcome α} {r : α} (hy : y = .ofExcept x (raised what))
    (hz : z = .ofExcept x id) : y = .ok r ↔ z = .ok r := by
  rw [hy, hz, Outcome.ofExcept_eq_ok, Outcome.ofExcept_eq_ok]

theorem handle_pointer : handle what (.pointer () x) = .ofExcept x (raised what) := by
  cases x <;> rfl

theorem strCall1_pointer {x : Except String String} {f : CString → Reply Unit (Option String)}
    (hf : f (optArg a) = .pointer () x) (hx : ∀ p, x = .ok p → NulFree p) :
    strCall1 sym f a = .ofExcept x (raised sym) := by
  rw [strCall1, hf]
  cases x with
  | error m => rfl
  | ok p =>
    have hp := uptoNul_eq_self_iff.mpr (hx p rfl)
    exact congrArg Outcome.ok ((readString_cName p).trans hp)

theorem call_status {r : Reply Unit ℤ} {x : Except String Unit} (h : r = .status () x) :
    ((if r.ret < 0 then fail what r else .ok r.ret) >>= fun _ => pure ()) =
      Outcome.ofExcept x (raised what) := by
  subst h
  cases x <;> rfl

theorem call_flag {r : Reply Unit ℤ} {x : Except String Bool} (h : r = .flag () x) :
    ((if r.ret < 0 then fail what r else .ok r.ret) >>= fun code => pure (code == 1)) =
      Outcome.ofExcept x (raised what) := by
  subst h
  cases x with
  | error m => rfl
  | ok b => cases b <;> rfl

end

section
variable {Spec : Type} (json : FromJson Spec) (fmt : Float → String) (cat : CatalogApi Spec)
variable (load : Props → Except String (CatalogApi Spec)) (ns name : String)

theorem sql_eq (uri warehouse : String) : sql load uri warehouse =
    .ofExcept (OnTexts.catalogSqlNew load (uptoNul uri) (uptoNul warehouse))
      (raised "Catalog.sql") := by
  rw [sql, ← handle_pointer]
  simp only [ibCatalogSqlNew, cstr_arg, except_ok_bind]
  rfl

theorem rest_eq (uri warehouse propsJson : String) : rest json load uri warehouse propsJson =
    .ofExcept (OnTexts.catalogRestNew json load (uptoNul uri) (StringCall.given uptoNul warehouse)
      (StringCall.given uptoNul propsJson)) (raised "Catalog.rest") := by
  rw [rest, ← handle_pointer]
  simp only [ibCatalogRestNew, cstr_arg, cstrOpt_optArg, except_ok_bind]
  rfl

theorem listNamespaces_eq (parent : String) : listNamespaces fmt cat parent =
    .ofExcept (OnTexts.listNamespaces fmt cat (StringCall.given uptoNul parent))
      (raised "ib_list_namespaces") := by
  refine strCall1_pointer ?_ fun p hp => ?_
  · simp only [ibListNamespaces, cstrOpt_optArg, except_ok_bind]
    rfl
  · obtain ⟨_, -, hp⟩ := except_bind_eq_ok.mp hp
    exact nulFree_of_outString hp

theorem createNamespace_eq (propsJson : String) : createNamespace json cat ns propsJson =
    .ofExcept (OnTexts.createNamespace json cat (uptoNul ns) (StringCall.given uptoNul propsJson))
      (raised "Catalog.create_namespace") := by
  have hcall : ibCreateNamespace json cat (arg ns) (optArg propsJson) = .status ()
      (OnTexts.createNamespace json cat (uptoNul ns) (StringCall.given uptoNul propsJson)) := by
    simp only [ibCreateNamespace, cstr_arg, cstrOpt_optArg, except_ok_bind]
    rfl
  rw [createNamespace, intCall2, hcall]
  cases OnTexts.createNamespace json cat (uptoNul ns) (StringCall.given uptoNul propsJson) <;> rfl

theorem namespaceExists_eq : namespaceExists cat ns =
    .ofExcept (OnTexts.namespaceExists cat (uptoNul ns)) (raised "Catalog.namespace_exists") := by
  refine call_flag ?_
  simp only [ibNamespaceExists, cstr_arg, except_ok_bind]
  rfl

theorem dropNamespace_eq : dropNamespace cat ns =
    .ofExcept (OnTexts.dropNamespace cat (uptoNul ns)) (raised "Catalog.drop_namespace") := by
  refine call_status ?_
  simp only [ibDropNamespace, cstr_arg, except_ok_bind]
  rfl

/-- An empty name is passed as a null pointer, although it is not optional. -/
theorem listTables_empty : ∃ m, listTables fmt cat "" = .err m := ⟨_, rfl⟩

theorem listTables_eq {ns : String} (h : ns ≠ "") : listTables fmt cat ns =
    .ofExcept (OnTexts.listTables fmt cat (uptoNul ns)) (raised "ib_list_tables") := by
  have harg : optArg ns = arg ns :=
    if_neg fun hlen => h (utf8_injective (List.eq_nil_of_length_eq_zero hlen))
  refine strCall1_pointer ?_ fun p hp => ?_
  · simp only [ibListTables, harg, cstr_arg, except_ok_bind]
    rfl
  · obtain ⟨_, -, hp⟩ := except_bind_eq_ok.mp hp
    exact nulFree_of_outString hp

theorem tableExists_eq : tableExists cat ns name =
    .ofExcept (OnTexts.tableExists cat (uptoNul ns) (uptoNul name))
      (raised "Catalog.table_exists") := by
  refine call_flag ?_
  simp only [ibTableExists, tableIdent, cstr_arg, except_ok_bind, bind_assoc, pure_bind]
  rfl

theorem dropTable_eq : dropTable cat ns name =
    .ofExcept (OnTexts.tableDrop cat (uptoNul ns) (uptoNul name))
      (raised "Catalog.drop_table") := by
  refine call_status ?_
  simp only [ibTableDrop, tableIdent, cstr_arg, except_ok_bind, bind_assoc, pure_bind]
  rfl

theorem loadTable_eq : loadTable cat ns name =
    .ofExcept (OnTexts.tableLoad cat (uptoNul ns) (uptoNul name)) (raised "ib_table_load") := by
  rw [loadTable, tableCall, ← handle_pointer]
  simp only [ibTableLoad, tableIdent, cstr_arg, except_ok_bind, bind_assoc, pure_bind]
  rfl

theorem createTable_eq (schemaJson specJson propsJson : String) :
    createTable json cat ns name schemaJson specJson propsJson =
      .ofExcept (OnTexts.tableCreate json cat (uptoNul ns) (uptoNul name) (uptoNul schemaJson)
        (StringCall.given uptoNul specJson) (StringCall.given uptoNul propsJson))
        (raised "Catalog.create_table") := by
  rw [createTable, ← handle_pointer]
  simp only [ibTableCreate, cstr_arg, cstrOpt_optArg, except_ok_bind]
  rfl

end

section
variable {Scan : Type} (api : DatumApi) (ops : PredicateOps)
variable (parseJson : String → Except String Json)
variable (build : Table → ScanRequest → Except String Scan) (h : TableHandle)

theorem ibScanNew_optArg (columns : String) (snapshotId : ℤ) (filter : String) :
    ibScanNew api ops parseJson build h (optArg columns) snapshotId (optArg filter) =
      match OnTexts.scanNew api ops parseJson build h (StringCall.given uptoNul columns)
        snapshotId (StringCall.given uptoNul filter) with
      | .ok s => .ok (.done h (some s))
      | .err m => .ok (.fail h none m)
      | .panic w => .panic w := by
  simp only [ibScanNew, scanRequest, OnTexts.scanNew, cstrOpt_optArg, Outcome.ofExcept,
    Outcome.ok_bind]
  cases ((StringCall.given uptoNul filter).map trim).filter (· ≠ "") with
  | none =>
    simp only [Outcome.pure_eq, Outcome.ok_bind]
    cases mapErr "ib_scan_new" (build h.table _) <;> rfl
  | some json =>
    simp only
    cases Filter.parseFilter api ops h.table.currentSchema parseJson json with
    | panic w => rfl
    | err m => rfl
    | ok p =>
      simp only [Outcome.mapErr, Outcome.pure_eq, Outcome.ok_bind]
      cases mapErr "ib_scan_new" (build h.table _) <;> rfl

theorem scanNew_eq_ok {columns filter : String} {snapshotId : Int64} {r : ScanHandle Scan} :
    scanNew api ops parseJson build h columns snapshotId filter = .ok r ↔
      OnTexts.scanNew api ops parseJson build h (StringCall.given uptoNul columns)
        snapshotId.toInt (StringCall.given uptoNul filter) = .ok r := by
  rw [scanNew, ibScanNew_optArg]
  cases OnTexts.scanNew api ops parseJson build h (StringCall.given uptoNul columns)
    snapshotId.toInt (StringCall.given uptoNul filter) <;> simp [fail]

end

/-- A read that depends on nothing of the batch but the column of its name. -/
structure ByColumn {α : Type} (read : RecordBatch → String → Outcome α) : Prop where
  same : ∀ {batch batch' : RecordBatch} {name name' : String} {col : ArrayRef},
    batch.columnByName (uptoNul name) = some col →
    batch'.columnByName (uptoNul name') = some col → read batch name = read batch' name'
  missing : ∀ {batch : RecordBatch} {name : String},
    batch.columnByName (uptoNul name) = none → ∀ r, read batch name ≠ .ok r

theorem ByColumn.eq_ok {α : Type} {read : RecordBatch → String → Outcome α} (h : ByColumn read)
    {batch : RecordBatch} {name : String} {r : α} :
    read batch name = .ok r ↔ OnTexts.readColumn batch (uptoNul name) read = .ok r := by
  unfold OnTexts.readColumn
  cases hcol : batch.columnByName (uptoNul name) with
  | none => exact iff_of_false (h.missing hcol r) (by simp)
  | some col =>
    have hsingle := RecordBatch.columnByName_single ⟨"c", col.dataType, true, none⟩ col.cells
    have hread : read batch name = read (.single ⟨"c", col.dataType, true, none⟩ col.cells) "c" :=
      h.same hcol hsingle
    rw [hread]

section
variable (A : Arrow) {batch batch' : RecordBatch} {name name' : String} {col : ArrayRef}

section
variable (hcol : batch.columnByName (uptoNul name) = some col)
variable (hcol' : batch'.columnByName (uptoNul name') = some col)
include hcol hcol'

theorem numRows_same : batch.numRows = batch'.numRows :=
  (RecordBatch.columnByName_len hcol).symm.trans (RecordBatch.columnByName_len hcol')

theorem getColumn_same {α : Type} (what : String) (t : DataType) (slot : Option t.Val → α)
    (bufs : OutBuffers α) (cap : ℕ) : getColumn what t slot A batch (arg name) bufs cap =
      getColumn what t slot A batch' (arg name') bufs cap := by
  simp only [getColumn, cstr_arg, column, hcol, hcol']

theorem utf8Size_same :
    ibBatchUtf8Size A batch (arg name) = ibBatchUtf8Size A batch' (arg name') := by
  simp only [ibBatchUtf8Size, utf8Column, cstr_arg, column, hcol, hcol']

theorem getStr_same (bufs : StrBuffers) (bytesCap cap : ℕ) :
    ibBatchGetStr A batch (arg name) bufs bytesCap cap =
      ibBatchGetStr A batch' (arg name') bufs bytesCap cap := by
  simp only [ibBatchGetStr, utf8Column, cstr_arg, column, hcol, hcol']

end

section
variable (hcol : batch.columnByName (uptoNul name) = none)
include hcol

theorem getColumn_missing {α : Type} (what : String) (t : DataType) (slot : Option t.Val → α)
    (bufs : OutBuffers α) (cap : ℕ) :
    ∃ m, getColumn what t slot A batch (arg name) bufs cap = .fail bufs (-1) m := by
  simp only [getColumn, cstr_arg, column, hcol]
  exact ⟨_, rfl⟩

theorem utf8Size_missing : ∃ m, ibBatchUtf8Size A batch (arg name) = .fail () (-1) m := by
  simp only [ibBatchUtf8Size, utf8Column, cstr_arg, column, hcol]
  exact ⟨_, rfl⟩

end

theorem byColumn_values {α : Type} (what shim : String) (t : DataType)
    (slot : Option t.Val → α) (zero : α) : ByColumn fun batch name =>
      getValues batch name what (getColumn shim t slot A) zero batch.numRows where
  same hcol hcol' := by
    simp only [getValues, getColumn_same A hcol hcol', numRows_same hcol hcol']
  missing {batch name} hcol r := by
    obtain ⟨m, hm⟩ := getColumn_missing A hcol shim t slot
      ⟨unsafePtr (List.replicate batch.numRows zero), none⟩ batch.numRows
    simp [getValues, hm, fail]

theorem byColumn_boolCol : ByColumn (boolCol A) where
  same {batch batch' name name' _} hcol hcol' := by
    have hget : ibBatchGetBool A batch (arg name) = ibBatchGetBool A batch' (arg name') :=
      funext₂ (getColumn_same A hcol hcol' _ _ _)
    simp only [boolCol, getBool, hget, numRows_same hcol hcol']
  missing {batch name} hcol r := by
    have hget : ∃ m, ibBatchGetBool A batch (arg name) ⟨unsafePtr (List.replicate batch.numRows 0),
        none⟩ batch.numRows = .fail _ (-1) m := getColumn_missing A hcol _ _ _ _ _
    obtain ⟨m, hm⟩ := hget
    simp [boolCol, getBool, hm, fail]

theorem byColumn_validity : ByColumn (validity A) where
  same {batch batch' name name' _} hcol hcol' := by
    have hget : ibBatchGetI64 A batch (arg name) = ibBatchGetI64 A batch' (arg name') :=
      funext₂ (getColumn_same A hcol hcol' _ _ _)
    simp only [validity, getValidity, hget, numRows_same hcol hcol']
  missing {batch name} hcol r := by
    have hget : ∃ m, ibBatchGetI64 A batch (arg name) ⟨unsafePtr (List.replicate batch.numRows 0),
        unsafePtr (List.replicate batch.numRows 0)⟩ batch.numRows = .fail _ (-1) m :=
      getColumn_missing A hcol _ _ _ _ _
    obtain ⟨m, hm⟩ := hget
    simp [validity, getValidity, hm, fail]

theorem byColumn_strCol : ByColumn (strCol A) where
  same hcol hcol' := by
    simp only [strCol, getStr, utf8Size_same A hcol hcol', getStr_same A hcol hcol',
      numRows_same hcol hcol']
  missing hcol r := by
    obtain ⟨m, hm⟩ := utf8Size_missing A hcol
    simp [strCol, getStr, hm, fail]

end

theorem supply_name {c : Values} {name : String} {valid : List Bool} {s : Supply}
    (h : c.supply name valid = .ok s) : s.name = arg name := by
  cases c <;>
    obtain ⟨_, -, h⟩ := Outcome.bind_eq_ok.mp h <;>
    obtain ⟨_, -, h⟩ := Outcome.bind_eq_ok.mp h <;>
    cases h <;> rfl

theorem call_eq_serve {A : Arrow} {b : BuilderHandle} {c : Values} {name : String}
    {valid : List Bool} : c.call A b name valid = (do
      let s ← c.supply name valid
      finish c.what (← OnTexts.supplyColumn A s.what b (uptoNul name) s.array)) := by
  rw [Values.call_eq]
  cases h : c.supply name valid with
  | err m => rfl
  | panic w => rfl
  | ok s =>
    rw [Outcome.ok_bind, Outcome.ok_bind, s.run_eq, supply_name h]
    simp only [supplyColumn, cstr_arg]
    rfl

namespace StringCall
variable {Spec Scan : Type}

/-- The binding works on the strings as they are before their first zero characters, except
that it raises on an empty namespace whose tables are to be listed. -/
theorem run_eq_ok {c : StringCall} (hc : c ≠ .listTables "") (w : World Spec Scan)
    {r : c.Answer Spec Scan} : c.run w = .ok r ↔ c.serve uptoNul w = .ok r := by
  cases c with
  | catalogSql uri warehouse => exact eq_ok_of_raised (sql_eq _ _ _) rfl
  | catalogRest uri warehouse propsJson => exact eq_ok_of_raised (rest_eq _ _ _ _ _) rfl
  | listNamespaces parent => exact eq_ok_of_raised (listNamespaces_eq _ _ _) rfl
  | createNamespace ns propsJson => exact eq_ok_of_raised (createNamespace_eq _ _ _ _) rfl
  | namespaceExists ns => exact eq_ok_of_raised (namespaceExists_eq _ _) rfl
  | dropNamespace ns => exact eq_ok_of_raised (dropNamespace_eq _ _) rfl
  | listTables ns =>
    have hns : ns ≠ "" := fun h => hc (h ▸ rfl)
    exact eq_ok_of_raised (listTables_eq _ _ hns) rfl
  | tableExists ns name => exact eq_ok_of_raised (tableExists_eq _ _ _) rfl
  | loadTable ns name => exact eq_ok_of_raised (loadTable_eq _ _ _) rfl
  | dropTable ns name => exact eq_ok_of_raised (dropTable_eq _ _ _) rfl
  | createTable ns name schemaJson specJson propsJson =>
    exact eq_ok_of_raised (createTable_eq _ _ _ _ _ _ _) rfl
  | scan columns snapshotId filter => exact scanNew_eq_ok _ _ _ _ _
  | intCol name => exact (byColumn_values w.arrow _ _ _ _ _).eq_ok
  | floatCol name => exact (byColumn_values w.arrow _ _ _ _ _).eq_ok
  | boolCol name => exact (byColumn_boolCol w.arrow).eq_ok
  | strCol name => exact (byColumn_strCol w.arrow).eq_ok
  | validity name => exact (byColumn_validity w.arrow).eq_ok
  | builderCol name => simp only [run, serve, call_eq_serve]

/-- Only the texts that the strings are read as matter. -/
theorem serve_congr {read read' : String → String} {c : StringCall}
    (h : ∀ s ∈ c.strings, read s = read' s) (w : World Spec Scan) :
    c.serve read w = c.serve read' w := by
  cases c <;> simp only [strings, List.forall_mem_cons] at h <;> simp only [serve, given, h]
  all_goals rfl

end StringCall
end IcebergRs.Mojo
