import Mathlib.Algebra.BigOperators.Group.Finset.Basic
import Mathlib.Tactic.Abel

/-! Accounts that hold elements of a commutative monoid: numbers of rows, or multisets of them.
Contents come in by deposits, move from one account to another, and go when an account is cleared.
However many accounts there may be, none of this loses contents or makes them up. -/
namespace IcebergRs
open Function

abbrev Accounts (α M : Type*) := α → M

namespace Accounts

inductive Op (α M : Type*) where
  | deposit (a : α) (m : M)
  | transfer (a b : α)
  | clear (a : α)
  | idle

namespace Op
variable {α M : Type*}

end Op

section
variable {α M : Type*} [DecidableEq α] [AddCommMonoid M] (s : Accounts α M)

/-- A transfer takes all that the first account holds. -/
def apply : Op α M → Accounts α M
  | .deposit a m => update s a (s a + m)
  | .transfer a b => let t := update s a 0; update t b (t b + s a)
  | .clear a => update s a 0
  | .idle => s

def run (ops : List (Op α M)) : Accounts α M := ops.foldl apply s

/-- What one operation clears. -/
def gone : Op α M → M
  | .clear a => s a
  | .deposit .. | .transfer .. | .idle => 0

variable {s} {I : Finset α} {op : Op α M} {ops : List (Op α M)}

end
end Accounts
end IcebergRs
