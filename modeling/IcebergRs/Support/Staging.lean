import IcebergRs.Support.Accounts
import Mathlib.Algebra.BigOperators.Option

/-! Stores that take their contents in two stages. Owners stage contents, and settle or drop what
they have staged: each owner has an account, and so has what is settled. -/
namespace IcebergRs
open Function

@[ext]
structure Store (ι M : Type*) where
  settled : M
  staged : ι → M

namespace Store

inductive Op (ι M : Type*) where
  | stage (i : ι) (m : M)
  | settle (i : ι)
  | drop (i : ι)
  | idle

namespace Op
variable {ι M : Type*}

/-- The owner that an operation is of; an idle one is of nobody. -/
def owner : Op ι M → Option ι
  | stage i _ | settle i | drop i => some i
  | idle => none

/-- The operation on the account of its owner and the account of what is settled. -/
def among {α : Type*} (f : ι → α) (top : α) : Op ι M → Accounts.Op α M
  | stage i m => .deposit (f i) m
  | settle i => .transfer (f i) top
  | drop i => .clear (f i)
  | idle => .idle

end Op

section
variable {ι M : Type*}

/-- The store as accounts. -/
def accounts (s : Store ι M) : Accounts (Option ι) M
  | none => s.settled
  | some i => s.staged i

variable [DecidableEq ι] [AddCommMonoid M] (s : Store ι M)

def apply : Op ι M → Store ι M
  | .stage i m => { s with staged := update s.staged i (s.staged i + m) }
  | .settle i => ⟨s.settled + s.staged i, update s.staged i 0⟩
  | .drop i => { s with staged := update s.staged i 0 }
  | .idle => s

def run (ops : List (Op ι M)) : Store ι M := ops.foldl apply s

/-- What one operation settles. -/
def settles : Op ι M → M
  | .settle i => s.staged i
  | .stage .. | .drop _ | .idle => 0

/-- What one operation drops. -/
def gone : Op ι M → M
  | .drop i => s.staged i
  | .stage .. | .settle _ | .idle => 0

/-- What the operations drop, one after the other. -/
def dropped : Store ι M → List (Op ι M) → M
  | _, [] => 0
  | s, op :: ops => s.gone op + dropped (s.apply op) ops

variable {s} {I : Finset ι} {op : Op ι M} {ops : List (Op ι M)}

theorem apply_settled : (s.apply op).settled = s.settled + s.settles op := by
  cases op with
  | settle i => rfl
  | stage i m => exact (add_zero _).symm
  | drop i => exact (add_zero _).symm
  | idle => exact (add_zero _).symm

/-- A store with one owner shows what its operations do to that owner's account, and to the account
of what is settled, among others. -/
theorem apply_among {α : Type*} [DecidableEq α] {one : Store Unit M} {op : Op Unit M}
    {t : Accounts α M} {a top : α} (hne : a ≠ top) (h : t a = one.staged ()) :
    t.apply (op.among (fun _ => a) top) =
      update (update t top (t top + one.settles op)) a ((one.apply op).staged ()) := by
  cases op with
  | stage _ m => simp [Op.among, Accounts.apply, apply, settles, h]
  | settle _ => simp [Op.among, Accounts.apply, apply, settles, h, update_comm hne, hne.symm]
  | drop _ => simp [Op.among, Accounts.apply, apply, settles]
  | idle => simp [Op.among, Accounts.apply, apply, settles, ← h]

end
end Store

section
variable {ε σ α M : Type*} [AddMonoid M]

/-- A loop each of whose steps adds what it is given has added all of it in the end. -/
theorem foldlM_adds {f : σ → α → Except ε σ} {content : σ → M} {size : α → M}
    (hf : ∀ s a s', f s a = .ok s' → content s' = content s + size a) {xs : List α} {s s' : σ}
    (h : xs.foldlM f s = .ok s') : content s' = content s + (xs.map size).sum := by
  induction xs generalizing s with
  | nil =>
    obtain rfl := Except.ok.inj h
    simp
  | cons a xs ih =>
    rw [List.foldlM_cons] at h
    cases ha : f s a with
    | error e =>
      rw [ha] at h
      cases h
    | ok t =>
      rw [ha] at h
      rw [ih h, hf s a t ha, List.map_cons, List.sum_cons, add_assoc]

end
end IcebergRs
