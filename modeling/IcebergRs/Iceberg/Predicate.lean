import IcebergRs.Iceberg.Schema
import IcebergRs.Support.Kleene

/-! Datums and predicates of the `iceberg` crate, and the three-valued meaning of a
predicate on a row. What the crate computes itself is a parameter with named laws. -/
namespace IcebergRs

/-- The value held by a datum. -/
inductive Literal where
  | bool (b : Bool)
  | int (i : Int32)
  | long (i : Int64)
  | float (f : Float32)
  | double (f : Float)
  | string (s : String)
  | int128 (i : ℤ)
  | uint128 (n : ℕ)
  deriving DecidableEq

/-- The integer, or the count of days, microseconds or nanoseconds, that is held. -/
def Literal.integer? : Literal → Option ℤ
  | .int i => some i.toInt
  | .long i => some i.toInt
  | _ => none

structure Datum where
  ty : PrimitiveType
  lit : Literal
  deriving DecidableEq

namespace Datum

def bool (b : Bool) : Datum := ⟨.boolean, .bool b⟩
def int (i : Int32) : Datum := ⟨.int, .int i⟩
def long (i : Int64) : Datum := ⟨.long, .long i⟩
def float (f : Float32) : Datum := ⟨.float, .float f⟩
def double (f : Float) : Datum := ⟨.double, .double f⟩
def string (s : String) : Datum := ⟨.string, .string s⟩
def date (days : Int32) : Datum := ⟨.date, .int days⟩
def timestampMicros (k : Int64) : Datum := ⟨.timestamp, .long k⟩
def timestamptzMicros (k : Int64) : Datum := ⟨.timestamptz, .long k⟩
def timestampNanos (k : Int64) : Datum := ⟨.timestampNs, .long k⟩
def timestamptzNanos (k : Int64) : Datum := ⟨.timestamptzNs, .long k⟩

end Datum

/-- The fallible datum constructors, and the texts error messages quote. `decimalScale` is
the scale that `decimalFromStr` gives to the decimal of a text. -/
structure DatumApi where
  dateFromStr : String → Except String Datum
  timeFromStr : String → Except String Datum
  timeMicros : Int64 → Except String Datum
  timestampFromStr : String → Except String Datum
  timestamptzFromStr : String → Except String Datum
  uuidFromStr : String → Except String Datum
  decimalFromStr : String → Except String Datum
  decimalScale : String → ℕ
  typeText : PrimitiveType → String
  floatText : Float → String

/-- The unscaled value of a plain decimal text (a sign, digits, a point and more digits), and
how many digits follow its point. -/
def unscaled (s : String) : Option (ℤ × ℕ) :=
  let negative := s.toList.head? = some '-'
  let digits := if negative then s.toList.drop 1 else s.toList
  let whole := digits.takeWhile (· ≠ '.')
  let frac := (digits.dropWhile (· ≠ '.')).drop 1
  let value : ℕ := (whole ++ frac).foldl (fun n c => 10 * n + (c.toNat - 48)) 0
  if whole ≠ [] ∧ (whole ++ frac).all Char.isDigit then
    some (if negative then -(value : ℤ) else value, frac.length)
  else none

/-- Each constructor tags its result with the type in its name. A decimal has 38 digits and
the scale of its text. -/
structure DatumApi.Lawful (api : DatumApi) : Prop where
  date : ∀ s d, api.dateFromStr s = .ok d → d.ty = .date
  time : ∀ s d, api.timeFromStr s = .ok d → d.ty = .time
  timeMicros : ∀ k d, api.timeMicros k = .ok d → d = ⟨.time, .long k⟩
  timestamp : ∀ s d, api.timestampFromStr s = .ok d → d.ty = .timestamp
  timestamptz : ∀ s d, api.timestamptzFromStr s = .ok d → d.ty = .timestamptz
  uuid : ∀ s d, api.uuidFromStr s = .ok d → d.ty = .uuid
  decimal : ∀ s d, api.decimalFromStr s = .ok d → d.ty = .decimal 38 (api.decimalScale s)
  scale : ∀ s n k, unscaled s = some (n, k) → api.decimalScale s = k

/-- A lawful choice of constructors: decimals of 38 digits with the scale of their text,
times within a day, and no other text. -/
def DatumApi.basic : DatumApi where
  dateFromStr _ := .error "invalid date"
  timeFromStr _ := .error "invalid time"
  timeMicros k :=
    if 0 ≤ k.toInt ∧ k.toInt < 86400000000 then .ok ⟨.time, .long k⟩ else .error "invalid time"
  timestampFromStr _ := .error "invalid timestamp"
  timestamptzFromStr _ := .error "invalid timestamptz"
  uuidFromStr _ := .error "invalid uuid"
  decimalFromStr s :=
    match unscaled s with
    | some (n, scale) => .ok ⟨.decimal 38 scale, .int128 n⟩
    | none => .error "invalid decimal"
  decimalScale s := ((unscaled s).map Prod.snd).getD 0
  typeText _ := "a primitive type"
  floatText := toString

theorem DatumApi.basic_lawful : DatumApi.basic.Lawful where
  date _ _ h := nomatch h
  time _ _ h := nomatch h
  timeMicros k d h := by
    simp only [basic] at h
    split at h
    · exact (Except.ok.inj h).symm
    · cases h
  timestamp _ _ h := nomatch h
  timestamptz _ _ h := nomatch h
  uuid _ _ h := nomatch h
  decimal s d h := by
    simp only [basic] at h ⊢
    split at h
    next n scale hs =>
      obtain rfl := Except.ok.inj h
      simp [hs]
    · cases h
  scale s n k h := by simp [basic, h]

inductive UnaryOp where
  | isNull | notNull | isNan | notNan
  deriving DecidableEq, Repr

inductive BinaryOp where
  | eq | notEq | lessThan | lessThanOrEq | greaterThan | greaterThanOrEq
  | startsWith | notStartsWith
  deriving DecidableEq, Repr

inductive SetOp where
  | isIn | notIn
  deriving DecidableEq, Repr

/-- One test of one column. -/
inductive Atom where
  | unary (op : UnaryOp) (column : String)
  | binary (op : BinaryOp) (column : String) (datum : Datum)
  | set (op : SetOp) (column : String) (datums : List Datum)
  deriving DecidableEq

def UnaryOp.complement : UnaryOp → UnaryOp
  | .isNull => .notNull
  | .notNull => .isNull
  | .isNan => .notNan
  | .notNan => .isNan

def BinaryOp.complement : BinaryOp → BinaryOp
  | .eq => .notEq
  | .notEq => .eq
  | .lessThan => .greaterThanOrEq
  | .greaterThanOrEq => .lessThan
  | .greaterThan => .lessThanOrEq
  | .lessThanOrEq => .greaterThan
  | .startsWith => .notStartsWith
  | .notStartsWith => .startsWith

def SetOp.complement : SetOp → SetOp
  | .isIn => .notIn
  | .notIn => .isIn

namespace Atom

def complement : Atom → Atom
  | unary op c => unary op.complement c
  | binary op c d => binary op.complement c d
  | set op c ds => set op.complement c ds

def column : Atom → String
  | unary _ c | binary _ c _ | set _ c _ => c

def datums : Atom → List Datum
  | unary _ _ => []
  | binary _ _ d => [d]
  | set _ _ ds => ds

@[simp] theorem complement_complement (a : Atom) : a.complement.complement = a := by
  rcases a with ⟨op, c⟩ | ⟨op, c, d⟩ | ⟨op, c, ds⟩ <;> cases op <;> rfl

@[simp] theorem complement_column (a : Atom) : a.complement.column = a.column := by
  cases a <;> rfl

@[simp] theorem complement_datums (a : Atom) : a.complement.datums = a.datums := by
  cases a <;> rfl

end Atom

inductive Predicate where
  | alwaysTrue | alwaysFalse
  | and (p q : Predicate) | or (p q : Predicate) | not (p : Predicate)
  | atom (a : Atom)
  deriving DecidableEq, Inhabited

/-- Truth values of all atoms on one row, where complementary tests disagree. -/
structure Valuation where
  value : Atom → Kleene
  complement : ∀ a, value a.complement = (value a).neg

namespace Predicate

def eval (v : Valuation) : Predicate → Kleene
  | alwaysTrue => .yes
  | alwaysFalse => .no
  | and p q => (p.eval v).and (q.eval v)
  | or p q => (p.eval v).or (q.eval v)
  | not p => (p.eval v).neg
  | atom a => v.value a

def atoms : Predicate → List Atom
  | alwaysTrue | alwaysFalse => []
  | and p q | or p q => p.atoms ++ q.atoms
  | not p => p.atoms
  | atom a => [a]

end Predicate

/-- `Predicate::and`, `Predicate::or` and `Predicate::negate`. -/
structure PredicateOps where
  and : Predicate → Predicate → Predicate
  or : Predicate → Predicate → Predicate
  negate : Predicate → Predicate

/-- The operations denote Kleene's connectives and invent no atoms. -/
structure PredicateOps.Lawful (ops : PredicateOps) : Prop where
  eval_and : ∀ v p q, (ops.and p q).eval v = (p.eval v).and (q.eval v)
  eval_or : ∀ v p q, (ops.or p q).eval v = (p.eval v).or (q.eval v)
  eval_negate : ∀ v p, (ops.negate p).eval v = (p.eval v).neg
  atoms_and : ∀ p q, ∀ a ∈ (ops.and p q).atoms, a ∈ p.atoms ∨ a ∈ q.atoms
  atoms_or : ∀ p q, ∀ a ∈ (ops.or p q).atoms, a ∈ p.atoms ∨ a ∈ q.atoms
  atoms_negate : ∀ p, ∀ a ∈ (ops.negate p).atoms, a ∈ p.atoms ∨ a.complement ∈ p.atoms

/-- The connectives that join any number of predicates. -/
inductive Connective where
  | and | or
  deriving DecidableEq, Repr

def Connective.eval : Connective → List Kleene → Kleene
  | .and => Kleene.all
  | .or => Kleene.any

def PredicateOps.join (ops : PredicateOps) : Connective → Predicate → Predicate → Predicate
  | .and => ops.and
  | .or => ops.or

namespace PredicateOps.Lawful
variable {ops : PredicateOps} (h : ops.Lawful)
include h

/-- Joining predicates one after another evaluates to the connective of all of them. -/
theorem eval_foldl (v : Valuation) (c : Connective) (p : Predicate) (ps : List Predicate) :
    (ps.foldl (ops.join c) p).eval v = c.eval ((p :: ps).map (Predicate.eval v)) := by
  cases c with
  | and =>
    have hf : (ps.foldl ops.and p).eval v = (ps.map (Predicate.eval v)).foldl Kleene.and (p.eval v)
    := by
      induction ps generalizing p with
      | nil => rfl
      | cons q ps ih => simp only [List.foldl_cons, List.map_cons, ih, h.eval_and]
    exact hf.trans (Kleene.foldl_and _ _)
  | or =>
    have hf : (ps.foldl ops.or p).eval v = (ps.map (Predicate.eval v)).foldl Kleene.or (p.eval v)
    := by
      induction ps generalizing p with
      | nil => rfl
      | cons q ps ih => simp only [List.foldl_cons, List.map_cons, ih, h.eval_or]
    exact hf.trans (Kleene.foldl_or _ _)

theorem atoms_join {c : Connective} {p q : Predicate} {a : Atom}
    (ha : a ∈ (ops.join c p q).atoms) : a ∈ p.atoms ∨ a ∈ q.atoms := by
  cases c with
  | and => exact h.atoms_and p q a ha
  | or => exact h.atoms_or p q a ha

theorem atoms_foldl {c : Connective} {p : Predicate} {ps : List Predicate} {a : Atom}
    (ha : a ∈ (ps.foldl (ops.join c) p).atoms) : ∃ q ∈ p :: ps, a ∈ q.atoms := by
  induction ps generalizing p with
  | nil => exact ⟨p, by simp, ha⟩
  | cons q ps ih =>
    obtain ⟨r, hr, har⟩ := ih ha
    rcases List.mem_cons.mp hr with rfl | hr
    · rcases h.atoms_join har with hp | hq
      · exact ⟨p, by simp, hp⟩
      · exact ⟨q, by simp, hq⟩
    · exact ⟨r, by simp [hr], har⟩

end PredicateOps.Lawful

/-- A named column, whose methods build the atoms. -/
structure Reference where
  name : String

namespace Reference
variable (r : Reference)

def isNull : Predicate := .atom (.unary .isNull r.name)
def isNotNull : Predicate := .atom (.unary .notNull r.name)
def isNan : Predicate := .atom (.unary .isNan r.name)
def isNotNan : Predicate := .atom (.unary .notNan r.name)
def equalTo (d : Datum) : Predicate := .atom (.binary .eq r.name d)
def notEqualTo (d : Datum) : Predicate := .atom (.binary .notEq r.name d)
def lessThan (d : Datum) : Predicate := .atom (.binary .lessThan r.name d)
def lessThanOrEqualTo (d : Datum) : Predicate := .atom (.binary .lessThanOrEq r.name d)
def greaterThan (d : Datum) : Predicate := .atom (.binary .greaterThan r.name d)
def greaterThanOrEqualTo (d : Datum) : Predicate := .atom (.binary .greaterThanOrEq r.name d)
def startsWith (d : Datum) : Predicate := .atom (.binary .startsWith r.name d)
def notStartsWith (d : Datum) : Predicate := .atom (.binary .notStartsWith r.name d)
def isIn (ds : List Datum) : Predicate := .atom (.set .isIn r.name ds)
def isNotIn (ds : List Datum) : Predicate := .atom (.set .notIn r.name ds)

end Reference

namespace PredicateOps

/-- Constants absorb or disappear, every other pair is kept. -/
def simplifyAnd : Predicate → Predicate → Predicate
  | .alwaysFalse, _ | _, .alwaysFalse => .alwaysFalse
  | .alwaysTrue, q => q
  | p, .alwaysTrue => p
  | p, q => .and p q

def simplifyOr : Predicate → Predicate → Predicate
  | .alwaysTrue, _ | _, .alwaysTrue => .alwaysTrue
  | .alwaysFalse, q => q
  | p, .alwaysFalse => p
  | p, q => .or p q

/-- Negation pushed down to the atoms. -/
def pushNegate : Predicate → Predicate
  | .alwaysTrue => .alwaysFalse
  | .alwaysFalse => .alwaysTrue
  | .and p q => .or (pushNegate p) (pushNegate q)
  | .or p q => .and (pushNegate p) (pushNegate q)
  | .not p => p
  | .atom a => .atom a.complement

/-- Operations with the crate's simplifications, as an instance of the laws. -/
def simplifying : PredicateOps where
  and := simplifyAnd
  or := simplifyOr
  negate := pushNegate

theorem simplifyAnd_eval (v : Valuation) (p q : Predicate) :
    (simplifyAnd p q).eval v = (p.eval v).and (q.eval v) := by
  unfold simplifyAnd
  split <;> simp [Predicate.eval]

theorem simplifyOr_eval (v : Valuation) (p q : Predicate) :
    (simplifyOr p q).eval v = (p.eval v).or (q.eval v) := by
  unfold simplifyOr
  split <;> simp [Predicate.eval]

theorem pushNegate_eval (v : Valuation) (p : Predicate) :
    (pushNegate p).eval v = (p.eval v).neg := by
  induction p with
  | alwaysTrue => rfl
  | alwaysFalse => rfl
  | and p q hp hq => simp only [pushNegate, Predicate.eval, hp, hq, Kleene.neg_and]
  | or p q hp hq => simp only [pushNegate, Predicate.eval, hp, hq, Kleene.neg_or]
  | not p _ => simp only [pushNegate, Predicate.eval, Kleene.neg_neg]
  | atom a => simp only [pushNegate, Predicate.eval, v.complement]

theorem simplifyAnd_atoms {p q : Predicate} {a : Atom} (h : a ∈ (simplifyAnd p q).atoms) :
    a ∈ p.atoms ∨ a ∈ q.atoms := by
  unfold simplifyAnd at h
  split at h <;> simp_all [Predicate.atoms]

theorem simplifyOr_atoms {p q : Predicate} {a : Atom} (h : a ∈ (simplifyOr p q).atoms) :
    a ∈ p.atoms ∨ a ∈ q.atoms := by
  unfold simplifyOr at h
  split at h <;> simp_all [Predicate.atoms]

theorem pushNegate_atoms {p : Predicate} {a : Atom} (h : a ∈ (pushNegate p).atoms) :
    a ∈ p.atoms ∨ a.complement ∈ p.atoms := by
  induction p with
  | alwaysTrue => simp [pushNegate, Predicate.atoms] at h
  | alwaysFalse => simp [pushNegate, Predicate.atoms] at h
  | and p q hp hq | or p q hp hq =>
    simp only [pushNegate, Predicate.atoms, List.mem_append] at *
    rcases h with h | h
    · exact (hp h).imp Or.inl Or.inl
    · exact (hq h).imp Or.inr Or.inr
  | not p _ => exact Or.inl h
  | atom b =>
    obtain rfl : a = b.complement := by simpa [pushNegate, Predicate.atoms] using h
    exact Or.inr (by simp [Predicate.atoms])

theorem simplifying_lawful : simplifying.Lawful where
  eval_and := simplifyAnd_eval
  eval_or := simplifyOr_eval
  eval_negate := pushNegate_eval
  atoms_and _ _ _ := simplifyAnd_atoms
  atoms_or _ _ _ := simplifyOr_atoms
  atoms_negate _ _ := pushNegate_atoms

end PredicateOps
end IcebergRs
