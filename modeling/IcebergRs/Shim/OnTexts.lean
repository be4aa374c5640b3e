import IcebergRs.Shim.Builder
import IcebergRs.Shim.Catalog

/-! What the entry points do with their texts once they have read them, whatever characters
these are made of. -/
namespace IcebergRs.OnTexts

section
variable {Spec : Type} (json : FromJson Spec) (fmt : Float → String) (cat : CatalogApi Spec)

def catalogRestNew (load : Props → Except String (CatalogApi Spec)) (uri : String)
    (warehouse propsJson : Option String) : Except String (CatalogApi Spec) := do
  let props ← propsFromJson json propsJson "ib_catalog_rest_new"
  let props := props.insert "uri" uri
  let props := match warehouse.filter (· ≠ "") with
    | some w => props.insert "warehouse" w
    | none => props
  mapErr "ib_catalog_rest_new" (load props)

def catalogSqlNew (load : Props → Except String (CatalogApi Spec)) (uri warehouse : String) :
    Except String (CatalogApi Spec) :=
  let bindStyle := if uri.startsWith "postgres" then "DollarNumeric" else "QMark"
  mapErr "ib_catalog_sql_new" (load ((((∅ : Props).insert "uri" uri).insert "warehouse"
    warehouse).insert "sql_bind_style" bindStyle))

def listNamespaces (parent : Option String) : Except String String := do
  let parent ← (parent.filter (· ≠ "")).mapM fun p => nsIdent p "ib_list_namespaces"
  let ns ← mapErr "ib_list_namespaces" (cat.listNamespaces parent)
  outString (namesJson fmt (ns.map fun n => String.intercalate "." n.parts))

def createNamespace (ns : String) (propsJson : Option String) : Except String Unit := do
  let ident ← nsIdent ns "ib_create_namespace"
  let props ← propsFromJson json propsJson "ib_create_namespace"
  mapErr "ib_create_namespace" (cat.createNamespace ident props)

def namespaceExists (ns : String) : Except String Bool := do
  let ident ← nsIdent ns "ib_namespace_exists"
  mapErr "ib_namespace_exists" (cat.namespaceExists ident)

def dropNamespace (ns : String) : Except String Unit := do
  let ident ← nsIdent ns "ib_drop_namespace"
  mapErr "ib_drop_namespace" (cat.dropNamespace ident)

def listTables (ns : String) : Except String String := do
  let ident ← nsIdent ns "ib_list_tables"
  let ts ← mapErr "ib_list_tables" (cat.listTables ident)
  outString (namesJson fmt (ts.map TableIdent.name))

def tableLoad (ns name : String) : Except String TableHandle := do
  let nsi ← nsIdent ns "ib_table_load"
  let t ← mapErr "ib_table_load" (cat.loadTable ⟨nsi, name⟩)
  pure ⟨t, []⟩

def tableCreate (ns name schemaJson : String) (specJson propsJson : Option String) :
    Except String TableHandle := do
  let props ← propsFromJson json propsJson "ib_table_create"
  let nsi ← nsIdent ns "ib_table_create"
  let schema ← mapErr "ib_table_create: schema JSON" (json.schema schemaJson)
  let spec ← (specJson.filter fun s => trim s ≠ "").mapM fun s =>
    mapErr "ib_table_create: partition spec JSON" (json.partitionSpec s)
  let t ← mapErr "ib_table_create" (cat.createTable nsi ⟨name, schema, spec, props⟩)
  pure ⟨t, []⟩

def tableExists (ns name : String) : Except String Bool := do
  let nsi ← nsIdent ns "ib_table_exists"
  mapErr "ib_table_exists" (cat.tableExists ⟨nsi, name⟩)

def tableDrop (ns name : String) : Except String Unit := do
  let nsi ← nsIdent ns "ib_table_drop"
  mapErr "ib_table_drop" (cat.dropTable ⟨nsi, name⟩)

end

def scanNew {Scan : Type} (api : DatumApi) (ops : PredicateOps)
    (parseJson : String → Except String Json)
    (build : Table → ScanRequest → Except String Scan) (h : TableHandle)
    (columnsCsv : Option String) (snapshotId : ℤ) (filterJson : Option String) :
    Outcome (ScanHandle Scan) := do
  let snapshot := if snapshotId ≠ 0 then some snapshotId else none
  let filter ← match (filterJson.map trim).filter (· ≠ "") with
    | some json => do
      let p ← (Filter.parseFilter api ops h.table.currentSchema parseJson json).mapErr
        fun e => s!"ib_scan_new: {e}"
      pure (some p)
    | none => pure none
  let scan ← .ofExcept (mapErr "ib_scan_new" (build h.table
    ⟨projection columnsCsv, snapshot, filter⟩)) id
  pure ⟨scan, none⟩

/-- A read of the column of that name. -/
def readColumn {α : Type} (batch : RecordBatch) (name : String)
    (read : RecordBatch → String → Outcome α) : Outcome α :=
  match batch.columnByName name with
  | some col => read (.single ⟨"c", col.dataType, true, none⟩ col.cells) "c"
  | none => .err s!"no column named '{name}' in the batch"

/-- A column supplied under that name. -/
def supplyColumn (A : Arrow) (what : String) (b : BuilderHandle) (name : String)
    (array : Outcome ArrayRef) : Outcome (Reply BuilderHandle ℤ) :=
  match array with
  | .err m => .ok (.fail b (-1) m)
  | .panic w => .panic w
  | .ok a => .ok (addColumn A b name a what)

end IcebergRs.OnTexts
