import IcebergRs.Arrow.Batch
import IcebergRs.Iceberg.Schema

/-! Tables of the `iceberg` crate as far as the append path reads and changes them, and
the writers and transactions the path calls, whose answers are parameters. -/
namespace IcebergRs

structure DataFile where
  path : String
  deriving DecidableEq, Repr

structure Snapshot where
  id : ℤ
  /-- The data files this snapshot added to the table, in the order given. -/
  added : List DataFile
  deriving DecidableEq, Repr

structure NamespaceIdent where
  parts : List String
  nonempty : parts ≠ []
  deriving DecidableEq

structure TableIdent where
  namespaceIdent : NamespaceIdent
  name : String
  deriving DecidableEq

/-- A table of a namespace with one level. -/
def TableIdent.within (ns name : String) : TableIdent := ⟨⟨[ns], by simp⟩, name⟩

/-- A table as loaded: its metadata at one moment. -/
structure Table where
  identifier : TableIdent
  currentSchema : Schema
  /-- Whether the default partition spec has no fields. -/
  unpartitioned : Bool
  snapshots : List Snapshot
  currentSnapshotId : Option ℤ
  uuid : String

namespace Table
variable (t : Table)

/-- All files the snapshots of the table added, oldest snapshot first. -/
def added : List DataFile := t.snapshots.flatMap Snapshot.added

def addSnapshot (s : Snapshot) : Table :=
  { t with snapshots := t.snapshots ++ [s], currentSnapshotId := some s.id }

@[simp] theorem addSnapshot_snapshots (s : Snapshot) :
    (t.addSnapshot s).snapshots = t.snapshots ++ [s] := rfl

@[simp] theorem addSnapshot_added (s : Snapshot) :
    (t.addSnapshot s).added = t.added ++ s.added := by
  simp [added]

end Table

/-- The table over the sample schema, without snapshots. -/
def Table.orders : Table :=
  ⟨.within "db" "orders", .orders, true, [], none, "f79c3e09"⟩

/-- One opened data file writer: what writing batches and closing answers. `Key` is a
partition value and `split` the partition splitter. -/
structure WriterApi where
  Writer : Type
  Key : Type
  tableProperties : Except String Unit
  location : Except String Unit
  build : Except String Writer
  write : Writer → RecordBatch → Except String Writer
  close : Writer → Except String (List DataFile)
  splitter : Except String Unit
  split : RecordBatch → Except String (List (Key × RecordBatch))
  fanout : Writer
  writePartition : Writer → Key → RecordBatch → Except String Writer
  closeFanout : Writer → Except String (List DataFile)

/-- A writer that takes everything and closes with one file. -/
def WriterApi.single (path : String) : WriterApi where
  Writer := Unit
  Key := Unit
  tableProperties := .ok ()
  location := .ok ()
  build := .ok ()
  write _ _ := .ok ()
  close _ := .ok [⟨path⟩]
  splitter := .ok ()
  split b := .ok [((), b)]
  fanout := ()
  writePartition _ _ _ := .ok ()
  closeFanout _ := .ok [⟨path⟩]

/-- An open transaction: the table it starts from and the files it will add. -/
structure Transaction where
  table : Table
  files : List DataFile

def Transaction.new (t : Table) : Transaction := ⟨t, []⟩

@[simp] theorem Transaction.new_files (t : Table) : (Transaction.new t).files = [] := rfl

/-- What applying a fast append of some files answers, and what committing answers and
does to the catalog's table. -/
structure CommitApi where
  apply : Transaction → List DataFile → Except String Transaction
  commit : Transaction → Table → Except String Table × Table

/-- A commit is atomic: it adds one snapshot with the files of the transaction, under an id
it generates and that is not negative, and returns the new table, or it adds nothing. -/
structure CommitApi.Lawful (api : CommitApi) : Prop where
  apply : ∀ tx files tx', api.apply tx files = .ok tx' → tx'.files = tx.files ++ files
  commit_ok : ∀ tx c t c', api.commit tx c = (.ok t, c') →
    ∃ id, 0 ≤ id ∧ c' = c.addSnapshot ⟨id, tx.files⟩ ∧ t = c'
  commit_err : ∀ tx c e c', api.commit tx c = (.error e, c') → c' = c

/-- Commits that always succeed, with the given snapshot id. -/
def CommitApi.succeeding (id : ℤ) : CommitApi where
  apply tx files := .ok { tx with files := tx.files ++ files }
  commit tx c := (.ok (c.addSnapshot ⟨id, tx.files⟩), c.addSnapshot ⟨id, tx.files⟩)

theorem CommitApi.succeeding_lawful {id : ℤ} (hid : 0 ≤ id) : (succeeding id).Lawful where
  apply _ _ _ h := by rw [← Except.ok.inj h]
  commit_ok _ _ _ _ h := by
    obtain ⟨ht, rfl⟩ := Prod.mk.inj h
    exact ⟨id, hid, rfl, (Except.ok.inj ht).symm⟩
  commit_err _ _ _ _ h := nomatch (Prod.mk.inj h).1

end IcebergRs
