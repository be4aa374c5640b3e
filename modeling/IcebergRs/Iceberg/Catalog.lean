import IcebergRs.Iceberg.Table
import Mathlib.Data.List.AList

/-! Catalogs of the `iceberg` crate: what they are told, and what they answer. -/
namespace IcebergRs

/-- A `HashMap` of properties. -/
abbrev Props := AList (fun _ : String => String)

def NamespaceIdent.fromVec (parts : List String) : Except String NamespaceIdent :=
  if h : parts ≠ [] then .ok ⟨parts, h⟩
  else .error "DataInvalid => Namespace identifier can't be empty!"

/-- What `create_table` is told; `Spec` is an unbound partition spec. -/
structure TableCreation (Spec : Type) where
  name : String
  schema : Schema
  partitionSpec : Option Spec
  properties : Props

/-- The answers of a catalog. -/
structure CatalogApi (Spec : Type) where
  listNamespaces : Option NamespaceIdent → Except String (List NamespaceIdent)
  createNamespace : NamespaceIdent → Props → Except String Unit
  namespaceExists : NamespaceIdent → Except String Bool
  dropNamespace : NamespaceIdent → Except String Unit
  listTables : NamespaceIdent → Except String (List TableIdent)
  loadTable : TableIdent → Except String Table
  createTable : NamespaceIdent → TableCreation Spec → Except String Table
  tableExists : TableIdent → Except String Bool
  dropTable : TableIdent → Except String Unit

/-- `serde_json::from_str` at the types that entry points read. -/
structure FromJson (Spec : Type) where
  props : String → Except String Props
  schema : String → Except String Schema
  partitionSpec : String → Except String Spec

end IcebergRs
