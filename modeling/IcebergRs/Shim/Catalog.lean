import IcebergRs.Iceberg.Catalog
import IcebergRs.Shim.Scan

/-! The entry points of `catalog.rs`. Each reads its texts in order and hands over to the
catalog; the first failure is the error of the call. -/
namespace IcebergRs

/-- Namespaces of several levels are dotted. -/
def nsIdent (s what : String) : Except String NamespaceIdent :=
  mapErr s!"{what}: bad namespace '{s}'" (NamespaceIdent.fromVec (split '.' s))

variable {Spec : Type} (json : FromJson Spec)

def propsFromJson (text : Option String) (what : String) : Except String Props :=
  match (text.map trim).filter (· ≠ "") with
  | none => .ok ∅
  | some text => mapErr s!"{what}: props JSON must be an object of strings" (json.props text)

/-- `load` answers for the builder of REST catalogs. -/
def ibCatalogRestNew (load : Props → Except String (CatalogApi Spec))
    (uri warehouse propsJson : CString) : Reply Unit (Option (CatalogApi Spec)) :=
  .pointer () do
    let uri ← cstr uri "ib_catalog_rest_new: uri"
    let warehouse ← cstrOpt warehouse "ib_catalog_rest_new: warehouse"
    let propsJson ← cstrOpt propsJson "ib_catalog_rest_new: props_json"
    let props ← propsFromJson json propsJson "ib_catalog_rest_new"
    let props := props.insert "uri" uri
    let props := match warehouse.filter (· ≠ "") with
      | some w => props.insert "warehouse" w
      | none => props
    mapErr "ib_catalog_rest_new" (load props)

/-- `load` answers for the builder of SQL catalogs. -/
def ibCatalogSqlNew (load : Props → Except String (CatalogApi Spec))
    (uri warehouse : CString) : Reply Unit (Option (CatalogApi Spec)) :=
  .pointer () do
    let uri ← cstr uri "ib_catalog_sql_new: uri"
    let warehouse ← cstr warehouse "ib_catalog_sql_new: warehouse"
    let bindStyle := if uri.startsWith "postgres" then "DollarNumeric" else "QMark"
    let props : Props := (((∅ : Props).insert "uri" uri).insert "warehouse" warehouse).insert
      "sql_bind_style" bindStyle
    mapErr "ib_catalog_sql_new" (load props)

section
variable (fmt : Float → String) (cat : CatalogApi Spec)

/-- A list of names as JSON. -/
def namesJson (names : List String) : String := Json.text fmt (.array (names.map .string))

def ibListNamespaces (parent : CString) : Reply Unit (Option String) :=
  .pointer () do
    let parent ← cstrOpt parent "ib_list_namespaces: parent"
    let parent ← (parent.filter (· ≠ "")).mapM fun p => nsIdent p "ib_list_namespaces"
    let ns ← mapErr "ib_list_namespaces" (cat.listNamespaces parent)
    outString (namesJson fmt (ns.map fun n => String.intercalate "." n.parts))

def ibCreateNamespace (ns propsJson : CString) : Reply Unit ℤ :=
  .status () do
    let ns ← cstr ns "ib_create_namespace: ns"
    let ident ← nsIdent ns "ib_create_namespace"
    let propsJson ← cstrOpt propsJson "ib_create_namespace: props_json"
    let props ← propsFromJson json propsJson "ib_create_namespace"
    mapErr "ib_create_namespace" (cat.createNamespace ident props)

def ibNamespaceExists (ns : CString) : Reply Unit ℤ :=
  .flag () do
    let ns ← cstr ns "ib_namespace_exists: ns"
    let ident ← nsIdent ns "ib_namespace_exists"
    mapErr "ib_namespace_exists" (cat.namespaceExists ident)

def ibDropNamespace (ns : CString) : Reply Unit ℤ :=
  .status () do
    let ns ← cstr ns "ib_drop_namespace: ns"
    let ident ← nsIdent ns "ib_drop_namespace"
    mapErr "ib_drop_namespace" (cat.dropNamespace ident)

def ibListTables (ns : CString) : Reply Unit (Option String) :=
  .pointer () do
    let ns ← cstr ns "ib_list_tables: ns"
    let ident ← nsIdent ns "ib_list_tables"
    let ts ← mapErr "ib_list_tables" (cat.listTables ident)
    outString (namesJson fmt (ts.map TableIdent.name))

/-- What the calls about one table read first. -/
def tableIdent (ns name : CString) (what : String) : Except String TableIdent := do
  let ns ← cstr ns s!"{what}: ns"
  let name ← cstr name s!"{what}: name"
  let nsi ← nsIdent ns what
  pure ⟨nsi, name⟩

def ibTableLoad (ns name : CString) : Reply Unit (Option TableHandle) :=
  .pointer () do
    let ident ← tableIdent ns name "ib_table_load"
    let t ← mapErr "ib_table_load" (cat.loadTable ident)
    pure ⟨t, []⟩

def ibTableCreate (ns name schemaJson partitionSpecJson propsJson : CString) :
    Reply Unit (Option TableHandle) :=
  .pointer () do
    let ns ← cstr ns "ib_table_create: ns"
    let name ← cstr name "ib_table_create: name"
    let schemaJson ← cstr schemaJson "ib_table_create: schema_json"
    let specJson ← cstrOpt partitionSpecJson "ib_table_create: partition_spec_json"
    let propsJson ← cstrOpt propsJson "ib_table_create: props_json"
    let props ← propsFromJson json propsJson "ib_table_create"
    let nsi ← nsIdent ns "ib_table_create"
    let schema ← mapErr "ib_table_create: schema JSON" (json.schema schemaJson)
    let spec ← (specJson.filter fun s => trim s ≠ "").mapM fun s =>
      mapErr "ib_table_create: partition spec JSON" (json.partitionSpec s)
    let t ← mapErr "ib_table_create" (cat.createTable nsi ⟨name, schema, spec, props⟩)
    pure ⟨t, []⟩

def ibTableExists (ns name : CString) : Reply Unit ℤ :=
  .flag () do
    let ident ← tableIdent ns name "ib_table_exists"
    mapErr "ib_table_exists" (cat.tableExists ident)

def ibTableDrop (ns name : CString) : Reply Unit ℤ :=
  .status () do
    let ident ← tableIdent ns name "ib_table_drop"
    mapErr "ib_table_drop" (cat.dropTable ident)

end

/-- Every dotted text is a namespace. -/
theorem nsIdent_ok (s what : String) : ∃ n, nsIdent s what = .ok n := by
  have h : split '.' s ≠ [] := by
    simp [split, List.splitOn_ne_nil]
  refine ⟨⟨split '.' s, h⟩, ?_⟩
  rw [nsIdent, NamespaceIdent.fromVec, dif_pos h]
  rfl

end IcebergRs
