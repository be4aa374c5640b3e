import IcebergRs.Shim.Append

/-! Committing and rolling back what a handle has staged. -/
namespace IcebergRs

/-- `current_snapshot_id().unwrap_or(0)`. -/
def currentSnapshotIdOr0 (t : Table) : ℤ := t.currentSnapshotId.getD 0

/-- `catalog` is the table as the catalog has it, which the commit may change. -/
def ibTableCommit (api : CommitApi) (catalog : Table) (h : TableHandle) :
    Reply (TableHandle × Table) ℤ :=
  if h.pending.isEmpty then .done (h, catalog) (currentSnapshotIdOr0 h.table)
  else
    let files := h.pending
    let h := { h with pending := [] }
    match api.apply (.new h.table) files with
    | .error e =>
      let h := { h with pending := files }
      .fail (h, catalog) (-1) s!"ib_table_commit: {e}"
    | .ok tx =>
      match api.commit tx catalog with
      | (.ok t, catalog) =>
        let h := { h with table := t }
        .done (h, catalog) (currentSnapshotIdOr0 h.table)
      | (.error e, catalog) =>
        let h := { h with pending := files }
        .fail (h, catalog) (-1) s!"ib_table_commit: {e}"

def ibTableRollback (h : TableHandle) : Reply TableHandle ℤ := .done { h with pending := [] } 0

/-- A commit does nothing with nothing pending. Otherwise it either adds one snapshot with
the pending files, or fails and changes nothing. -/
theorem ibTableCommit_cases {api : CommitApi} (hapi : api.Lawful) (catalog : Table)
    (h : TableHandle) :
    (h.pending = [] ∧ ibTableCommit api catalog h =
      .done (h, catalog) (currentSnapshotIdOr0 h.table)) ∨
    (h.pending ≠ [] ∧ ∃ id, 0 ≤ id ∧ ibTableCommit api catalog h =
      .done (⟨catalog.addSnapshot ⟨id, h.pending⟩, []⟩, catalog.addSnapshot ⟨id, h.pending⟩) id) ∨
    (h.pending ≠ [] ∧ ∃ m, ibTableCommit api catalog h = .fail (h, catalog) (-1) m) := by
  by_cases hp : h.pending = []
  · exact .inl ⟨hp, by simp [ibTableCommit, hp]⟩
  unfold ibTableCommit
  rw [if_neg (by simpa using hp)]
  dsimp only
  split
  next e _ => exact .inr (.inr ⟨hp, _, rfl⟩)
  next tx htx =>
    have hfiles : tx.files = h.pending := by simpa using hapi.apply _ _ _ htx
    split
    next t c hc =>
      obtain ⟨id, hid, rfl, rfl⟩ := hapi.commit_ok _ _ _ _ hc
      exact .inr (.inl ⟨hp, id, hid, by rw [hfiles]; rfl⟩)
    next e c hc =>
      obtain rfl := hapi.commit_err _ _ _ _ hc
      exact .inr (.inr ⟨hp, _, rfl⟩)

end IcebergRs
