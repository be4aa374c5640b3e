import IcebergRs.Shim.Metadata
import IcebergRs.Support.ParentsFirst

/-! The listing of snapshots, oldest first. It is sorted by sequence numbers, and these grow from a
snapshot to its children only where both were written in format version 2 or 3: snapshots of
version 1 have the number 0, also after the table was upgraded. -/
namespace IcebergRs

inductive FormatVersion where
  | v1 | v2 | v3
  deriving DecidableEq, Repr

/-- The snapshot was written on top of the other one. -/
def IsParent (p s : SnapshotMetadata) : Prop := s.parentSnapshotId = some p.snapshotId

/-- The map of a table's snapshots, whose entries have no order of their own. Version 1 has no
sequence numbers, and they are read as 0. A table of a later version may have such snapshots. -/
structure SnapshotMap where
  formatVersion : FormatVersion
  snapshots : List SnapshotMetadata
  ids : (snapshots.map SnapshotMetadata.snapshotId).Nodup
  unnumbered : formatVersion = .v1 → ∀ s ∈ snapshots, s.sequenceNumber = 0

/-- The snapshots in the order `ib_table_snapshots_json` prints them. -/
def listedSnapshots (api : MetadataApi) (t : Table) : List SnapshotMetadata :=
  (api.snapshots t).mergeSort fun a b => a.sequenceNumber ≤ b.sequenceNumber

/-- The call prints every snapshot of the map once, and each after its parent. -/
structure OldestFirst (api : MetadataApi) (fmt : Float → String) (h : TableHandle)
    (m : SnapshotMap) : Prop where
  printed : (ibTableSnapshotsJson api fmt h).ret =
    some (Json.text fmt (.array ((listedSnapshots api h.table).map snapshotJson)))
  once : (listedSnapshots api h.table).Perm m.snapshots
  order : ParentsFirst IsParent (listedSnapshots api h.table)

theorem listedSnapshots_eq (api : MetadataApi) (t : Table) : listedSnapshots api t =
    (api.snapshots t).mergeSort fun a b => a.sequenceNumber.toInt ≤ b.sequenceNumber.toInt := by
  simp only [listedSnapshots, Int64.le_iff_toInt_le]

theorem listedSnapshots_perm (api : MetadataApi) (t : Table) :
    (listedSnapshots api t).Perm (api.snapshots t) := List.mergeSort_perm _ _

theorem nulFree_snapshotJson (fmt : Float → String) (s : SnapshotMetadata) :
    NulFree (Json.text fmt (snapshotJson s)) := by
  have hnull : NulFree (Json.text fmt .null) := by
    rw [Json.text]
    decide
  have hstring : ∀ t, NulFree (Json.text fmt (.string t)) := by
    intro t
    rw [Json.text]
    exact Json.nulFree_quote t
  refine Json.nulFree_object fun p hp => ?_
  simp only [List.mem_cons, List.not_mem_nil, or_false] at hp
  rcases hp with rfl | rfl | rfl | rfl | rfl | rfl | rfl | rfl
  · exact hstring _
  · exact hstring _
  · cases s.parentSnapshotId with
    | none => exact hnull
    | some id => exact Json.nulFree_ofInt64 id
  · cases s.schemaId with
    | none => exact hnull
    | some id => exact Json.nulFree_ofInt64 _
  · exact Json.nulFree_ofInt64 _
  · exact Json.nulFree_ofInt64 _
  · refine Json.nulFree_object fun q hq => ?_
    obtain ⟨r, -, rfl⟩ := List.mem_map.mp hq
    exact hstring _
  · exact Json.nulFree_ofInt64 _

/-- The listing has no zero characters, so it is always handed out. -/
theorem ibTableSnapshotsJson_ret (api : MetadataApi) (fmt : Float → String) (h : TableHandle) :
    (ibTableSnapshotsJson api fmt h).ret =
      some (Json.text fmt (.array ((listedSnapshots api h.table).map snapshotJson))) := by
  have hfree : NulFree
      (Json.text fmt (.array ((listedSnapshots api h.table).map snapshotJson))) := by
    refine Json.nulFree_array fun v hv => ?_
    obtain ⟨s, -, rfl⟩ := List.mem_map.mp hv
    exact nulFree_snapshotJson fmt s
  have hout := outString_eq_ok.mpr ⟨hfree, rfl⟩
  simp only [listedSnapshots] at hout ⊢
  simp only [ibTableSnapshotsJson, hout]
  rfl

/-- Whatever order the map is iterated in, the listing is oldest first exactly when every snapshot
has a greater sequence number than its parent, if that is in the table. -/
theorem snapshots_oldest_first_iff (api : MetadataApi) (fmt : Float → String) (h : TableHandle)
    (m : SnapshotMap) :
    (∀ order : List SnapshotMetadata, order.Perm m.snapshots →
        OldestFirst { api with snapshots := fun _ => order } fmt h m) ↔
      ∀ p ∈ m.snapshots, ∀ s ∈ m.snapshots, IsParent p s →
        p.sequenceNumber < s.sequenceNumber := by
  simp only [Int64.lt_iff_toInt_lt]
  refine Iff.trans ⟨fun hall order hperm => ?_, fun hall order hperm => ?_⟩
    (parentsFirst_mergeSort_iff (.of_map SnapshotMetadata.snapshotId m.ids))
  · have horder := (hall order hperm).order
    rwa [listedSnapshots_eq] at horder
  · refine ⟨ibTableSnapshotsJson_ret _ fmt h, (listedSnapshots_perm _ h.table).trans hperm, ?_⟩
    rw [listedSnapshots_eq]
    exact hall order hperm

/-- In a table of version 1 the numbers grow only if no snapshot has its parent in the table. -/
theorem SnapshotMap.unnumbered_iff {m : SnapshotMap} (hv : m.formatVersion = .v1) :
    (∀ p ∈ m.snapshots, ∀ s ∈ m.snapshots, IsParent p s → p.sequenceNumber < s.sequenceNumber) ↔
      ∀ p ∈ m.snapshots, ∀ s ∈ m.snapshots, ¬ IsParent p s := by
  refine forall₂_congr fun p hp => forall₂_congr fun s hs => ?_
  rw [m.unnumbered hv p hp, m.unnumbered hv s hs]
  exact imp_congr_right fun _ => iff_of_false (by decide) id

def firstAppend : SnapshotMetadata := ⟨11, none, 0, 1700000000000, "m1.avro", some 0, "append", []⟩

def secondAppend : SnapshotMetadata :=
  ⟨12, some 11, 0, 1700000001000, "m2.avro", some 0, "append", []⟩

/-- A version 1 table with two appends, the second on top of the first. -/
def SnapshotMap.twoAppends : SnapshotMap where
  formatVersion := .v1
  snapshots := [firstAppend, secondAppend]
  ids := by decide
  unnumbered := by simp [firstAppend, secondAppend]

/-- If the map gives the second append first, it is listed first. -/
theorem child_listed_before_parent :
    let api : MetadataApi :=
      { metadataJson := fun _ => .ok "null"
        schemaJson := fun _ => .ok "null"
        partitionSpecJson := fun _ => .ok "null"
        location := fun _ => "file:///tmp/orders"
        snapshots := fun _ => [secondAppend, firstAppend] }
    (api.snapshots .orders).Perm SnapshotMap.twoAppends.snapshots ∧
      listedSnapshots api .orders = [secondAppend, firstAppend] ∧
      ¬ OldestFirst api (fun _ => "0") ⟨.orders, []⟩ .twoAppends := by
  intro api
  have hlisted : listedSnapshots api .orders = [secondAppend, firstAppend] := by
    rw [listedSnapshots_eq, mergeSort_of_key_eq]
    simp [api, firstAppend, secondAppend]
  refine ⟨List.Perm.swap _ _ _, hlisted, fun h => ?_⟩
  have horder := h.order
  rw [hlisted] at horder
  simpa using horder [] secondAppend [firstAppend] rfl firstAppend (by simp) rfl

end IcebergRs
