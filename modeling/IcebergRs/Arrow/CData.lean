import Mathlib.Algebra.Group.Nat.Defs

/-! The two structs of the Arrow C Data Interface. Whoever owns a struct runs its release
callback, and a struct without a callback counts as released. -/
namespace IcebergRs

/-- The memory of one struct, and what became of the callback that was put there. -/
structure FfiStruct where
  /-- The memory holds a struct with a release callback. -/
  callback : Bool
  /-- The values that have taken the struct over and have not been dropped. -/
  owners : ℕ
  /-- How often the callback has run. -/
  runs : ℕ
  deriving DecidableEq, Repr

inductive Ownership where
  | empty | live | consumed | released
  deriving DecidableEq, Repr

namespace FfiStruct

/-- Zeroed memory. -/
def empty : FfiStruct := ⟨false, 0, 0⟩

/-- Memory that a struct was exported to. -/
def exported : FfiStruct := ⟨true, 0, 0⟩

/-- `ptr::read`, which copies the struct out and leaves the memory as it is. -/
def read (s : FfiStruct) : FfiStruct :=
  if s.callback then { s with owners := s.owners + 1 } else s

/-- One of the owners is dropped. -/
def drop (s : FfiStruct) : FfiStruct :=
  match s.owners with
  | 0 => s
  | n + 1 => { s with owners := n, runs := s.runs + 1 }

/-- `ptr::write` of an empty struct. -/
def clear (s : FfiStruct) : FfiStruct := { s with callback := false }

/-- Reading the struct, dropping it, and leaving an empty one behind. A struct without a
callback is dropped without effect. -/
def release (s : FfiStruct) : FfiStruct := if s.callback then s.read.drop.clear else s

def ownership (s : FfiStruct) : Ownership :=
  if s.owners = 0 ∧ s.runs = 0 then if s.callback then .live else .empty
  else if s.callback then .consumed else .released

variable {s : FfiStruct}

theorem release_callback : s.release.callback = false := by
  unfold release
  split
  · rfl
  · simp_all

theorem release_of_callback (h : s.callback = false) : s.release = s := by
  simp [release, h]

/-- After a release there is no callback that another one could run. -/
theorem release_release : s.release.release = s.release :=
  release_of_callback release_callback

end FfiStruct

/-- The memory of an `ArrowArray` and of its `ArrowSchema`. -/
structure FfiPair where
  array : FfiStruct
  schema : FfiStruct
  deriving DecidableEq, Repr

namespace FfiPair

def empty : FfiPair := ⟨.empty, .empty⟩

def exported : FfiPair := ⟨.exported, .exported⟩

/-- Nobody has taken over or released either of the two. -/
def Live (p : FfiPair) : Prop := p.array.ownership = .live ∧ p.schema.ownership = .live

end FfiPair
end IcebergRs
