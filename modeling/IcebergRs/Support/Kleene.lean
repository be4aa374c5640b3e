import Mathlib.Tactic.Common

/-! Kleene's strong three-valued logic, as a filter uses it on rows with nulls. -/
namespace IcebergRs

inductive Kleene where
  | no | unknown | yes
  deriving DecidableEq, Repr

namespace Kleene

def and : Kleene → Kleene → Kleene
  | no, _ | _, no => no
  | yes, b => b
  | a, yes => a
  | unknown, unknown => unknown

def neg : Kleene → Kleene
  | no => yes
  | unknown => unknown
  | yes => no

/-- Disjunction is the De Morgan dual of conjunction. -/
def or (a b : Kleene) : Kleene := (a.neg.and b.neg).neg

/-- The conjunction of a list; the empty conjunction is true. -/
def all : List Kleene → Kleene
  | [] => yes
  | a :: as => a.and (all as)

/-- The disjunction of a list; the empty disjunction is false. -/
def any : List Kleene → Kleene
  | [] => no
  | a :: as => a.or (any as)

@[simp] theorem neg_neg (a : Kleene) : a.neg.neg = a := by cases a <;> rfl

@[simp] theorem yes_and (a : Kleene) : yes.and a = a := by cases a <;> rfl

@[simp] theorem and_yes (a : Kleene) : a.and yes = a := by cases a <;> rfl

@[simp] theorem no_and (a : Kleene) : no.and a = no := by cases a <;> rfl

@[simp] theorem and_no (a : Kleene) : a.and no = no := by cases a <;> rfl

@[simp] theorem no_or (a : Kleene) : no.or a = a := by cases a <;> rfl

@[simp] theorem or_no (a : Kleene) : a.or no = a := by cases a <;> rfl

@[simp] theorem yes_or (a : Kleene) : yes.or a = yes := by cases a <;> rfl

@[simp] theorem or_yes (a : Kleene) : a.or yes = yes := by cases a <;> rfl

theorem and_assoc (a b c : Kleene) : (a.and b).and c = a.and (b.and c) := by
  cases a <;> cases b <;> cases c <;> rfl

theorem neg_and (a b : Kleene) : (a.and b).neg = a.neg.or b.neg := by simp [or]

theorem neg_or (a b : Kleene) : (a.or b).neg = a.neg.and b.neg := by simp [or]

theorem or_assoc (a b c : Kleene) : (a.or b).or c = a.or (b.or c) := by
  simp only [or, neg_neg, and_assoc]

/-- A left fold with `and`, as an accumulator loop computes it, is the conjunction. -/
theorem foldl_and (as : List Kleene) (a : Kleene) : as.foldl and a = all (a :: as) := by
  induction as generalizing a with
  | nil => simp [all]
  | cons b as ih => simp only [List.foldl_cons, ih, all, and_assoc]

theorem foldl_or (as : List Kleene) (a : Kleene) : as.foldl or a = any (a :: as) := by
  induction as generalizing a with
  | nil => simp [any]
  | cons b as ih => simp only [List.foldl_cons, ih, any, or_assoc]

end Kleene
end IcebergRs
