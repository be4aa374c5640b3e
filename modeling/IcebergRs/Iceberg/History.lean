import IcebergRs.Iceberg.Table

/-! What the metadata of a table keeps of its past: every schema it has had, and for each
snapshot the schema it was written under. -/
namespace IcebergRs

structure TableHistory extends Table where
  /-- The schemas of the table with their schema ids. -/
  schemas : List (ℤ × Schema)
  /-- The schema id that a snapshot records, if it records one. -/
  schemaId : Snapshot → Option ℤ

namespace TableHistory
variable (t : TableHistory)

def snapshotById (id : ℤ) : Option Snapshot := t.snapshots.find? (fun s => s.id = id)

def schemaById (id : ℤ) : Option Schema :=
  (t.schemas.find? (fun p => p.1 = id)).map Prod.snd

/-- `Snapshot::schema`: the recorded schema, or the current one if none is recorded. -/
def snapshotSchema (s : Snapshot) : Option Schema :=
  match t.schemaId s with
  | some id => t.schemaById id
  | none => some t.currentSchema

/-- The snapshot that a scan reads; 0 stands for the current one. -/
def selected (id : ℤ) : Option Snapshot :=
  if id = 0 then t.currentSnapshotId.bind t.snapshotById else t.snapshotById id

/-- The schema that a scan of a snapshot binds its predicate against. -/
def scannedSchema (id : ℤ) : Option Schema := (t.selected id).bind t.snapshotSchema

end TableHistory
end IcebergRs
