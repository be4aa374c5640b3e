import IcebergRs.Mojo.Strings
import IcebergRs.Shim.Catalog

/-! The catalog calls of the Mojo binding and `Table.scan`. A string is passed as the address
of its bytes and a zero, and an empty string of an optional argument as a null pointer. The
overloads with fewer arguments pass empty strings. -/
namespace IcebergRs.Mojo

/-- An optional string. -/
def optArg (s : String) : CString := if (utf8 s).length = 0 then none else arg s

/-- `_str_call1`, with the function that `sym` names. -/
def strCall1 (sym : String) (f : CString → Reply Unit (Option String)) (a : String) :
    Outcome String :=
  let r := f (optArg a)
  match r.ret with
  | some p => .ok (takeString (cName p))
  | none => fail sym r

def intCall1 (f : CString → Reply Unit ℤ) (a what : String) : Outcome ℤ :=
  let r := f (arg a)
  if r.ret < 0 then fail what r else .ok r.ret

def intCall2 (f : CString → CString → Reply Unit ℤ) (a b what : String) : Outcome Unit :=
  let r := f (arg a) (optArg b)
  if r.ret < 0 then fail what r else .ok ()

def intCall2i (f : CString → CString → Reply Unit ℤ) (a b what : String) : Outcome ℤ :=
  let r := f (arg a) (arg b)
  if r.ret < 0 then fail what r else .ok r.ret

/-- The handle behind a pointer that is returned. -/
def handle {α : Type} (what : String) (r : Reply Unit (Option α)) : Outcome α :=
  match r.ret with
  | some p => .ok p
  | none => fail what r

def tableCall (sym : String) (f : CString → CString → Reply Unit (Option TableHandle))
    (ns name : String) : Outcome TableHandle := handle sym (f (arg ns) (arg name))

section
variable {Spec : Type} (json : FromJson Spec) (fmt : Float → String) (cat : CatalogApi Spec)

/-- `Catalog.sql`. -/
def sql (load : Props → Except String (CatalogApi Spec)) (uri warehouse : String) :
    Outcome (CatalogApi Spec) :=
  handle "Catalog.sql" (ibCatalogSqlNew load (arg uri) (arg warehouse))

/-- `Catalog.rest`. -/
def rest (load : Props → Except String (CatalogApi Spec)) (uri warehouse propsJson : String) :
    Outcome (CatalogApi Spec) :=
  handle "Catalog.rest"
    (ibCatalogRestNew json load (arg uri) (optArg warehouse) (optArg propsJson))

def listNamespaces (parent : String) : Outcome String :=
  strCall1 "ib_list_namespaces" (ibListNamespaces fmt cat) parent

def createNamespace (ns propsJson : String) : Outcome Unit :=
  intCall2 (ibCreateNamespace json cat) ns propsJson "Catalog.create_namespace"

def namespaceExists (ns : String) : Outcome Bool := do
  pure ((← intCall1 (ibNamespaceExists cat) ns "Catalog.namespace_exists") == 1)

def dropNamespace (ns : String) : Outcome Unit := do
  let _ ← intCall1 (ibDropNamespace cat) ns "Catalog.drop_namespace"

def listTables (ns : String) : Outcome String :=
  strCall1 "ib_list_tables" (ibListTables fmt cat) ns

def tableExists (ns name : String) : Outcome Bool := do
  pure ((← intCall2i (ibTableExists cat) ns name "Catalog.table_exists") == 1)

def loadTable (ns name : String) : Outcome TableHandle :=
  tableCall "ib_table_load" (ibTableLoad cat) ns name

def dropTable (ns name : String) : Outcome Unit := do
  let _ ← intCall2i (ibTableDrop cat) ns name "Catalog.drop_table"

/-- `_table_create`. -/
def createTable (ns name schemaJson specJson propsJson : String) : Outcome TableHandle :=
  handle "Catalog.create_table" (ibTableCreate json cat (arg ns) (arg name) (arg schemaJson)
    (optArg specJson) (optArg propsJson))

/-- `_scan_new`. -/
def scanNew {Scan : Type} (api : DatumApi) (ops : PredicateOps)
    (parseJson : String → Except String Json)
    (build : Table → ScanRequest → Except String Scan) (table : TableHandle) (columns : String)
    (snapshotId : Int64) (filter : String) : Outcome (ScanHandle Scan) := do
  let r ← ibScanNew api ops parseJson build table (optArg columns) snapshotId.toInt (optArg filter)
  match r.ret with
  | some p => .ok p
  | none => fail "Table.scan" r

end
end IcebergRs.Mojo
