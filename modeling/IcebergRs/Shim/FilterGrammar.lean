import IcebergRs.Shim.FilterBuild

/-! Which accepted filters lie outside the documented grammar: those in which some node
has an operand that the arm of its operator does not look at. -/
namespace IcebergRs

/-- The comparisons whose operand is a string prefix and not any literal. -/
def BinaryOp.TakesPrefix (b : BinaryOp) : Prop := b = .startsWith ∨ b = .notStartsWith

inductive Json.IsLiteral : Json → Prop
  | bool (b : Bool) : IsLiteral (.bool b)
  | number (n : Number) : IsLiteral (.number n)
  | string (s : String) : IsLiteral (.string s)

namespace Filter
section
variable (schema : Schema)

/-- The documented grammar. -/
inductive InGrammar : Json → Prop
  | const {s : String} {b : Bool} (hs : Op.read s = some (.const b)) :
      InGrammar (.array [.string s])
  | join {s : String} {c : Connective} {args : List Json} (hs : Op.read s = some (.join c))
      (hlen : 2 ≤ args.length) (h : ∀ f ∈ args, InGrammar f) :
      InGrammar (.array (.string s :: args))
  | not {s : String} {f : Json} (hs : Op.read s = some .not) (h : InGrammar f) :
      InGrammar (.array [.string s, f])
  | unary {s c : String} {u : UnaryOp} (hs : Op.read s = some (.unary u))
      (hc : (schema.primitive? c).isSome) : InGrammar (.array [.string s, .string c])
  | set {s c : String} {m : SetOp} {items : List Json} (hs : Op.read s = some (.set m))
      (hc : (schema.primitive? c).isSome) (hitems : ∀ x ∈ items, x.IsLiteral) :
      InGrammar (.array [.string s, .string c, .array items])
  | binary {s c : String} {b : BinaryOp} {lit : Json} (hs : Op.read s = some (.binary b))
      (hc : (schema.primitive? c).isSome) (hlit : lit.IsLiteral)
      (hb : b.TakesPrefix → lit.asStr.isSome) : InGrammar (.array [.string s, .string c, lit])

/-- The nodes that `build` takes although the grammar has no such node: operands after
`true` or `false`, a null or NaN test of something that is no primitive column, and a
prefix that is not a string. -/
inductive Slip : Json → Prop
  | operands {s : String} {b : Bool} {x : Json} {args : List Json}
      (hs : Op.read s = some (.const b)) : Slip (.array (.string s :: x :: args))
  | column {s c : String} {u : UnaryOp} (hs : Op.read s = some (.unary u))
      (hc : schema.primitive? c = none) : Slip (.array [.string s, .string c])
  | prefixKind {s : String} {b : BinaryOp} {c lit : Json} (hs : Op.read s = some (.binary b))
      (hb : b.TakesPrefix) (hl : lit.asStr = none) : Slip (.array [.string s, c, lit])
  | not {s : String} {f : Json} (hs : Op.read s = some .not) (h : Slip f) :
      Slip (.array [.string s, f])
  | join {s : String} {c : Connective} {f : Json} {args : List Json}
      (hs : Op.read s = some (.join c)) (hf : f ∈ args) (h : Slip f) :
      Slip (.array (.string s :: args))

variable {schema} {api : DatumApi} {ops : PredicateOps}

theorem not_slip_of_inGrammar {v : Json} (h : InGrammar schema v) : ¬ Slip schema v := by
  induction h with
  | const hs =>
    intro hv
    cases hv with
    | join _ hf _ => simp at hf
  | join hs _ _ ih =>
    intro hv
    cases hv with
    | join _ hf hslip => exact ih _ hf hslip
    | _ hs' => simp [hs] at hs'
  | not hs _ ih =>
    intro hv
    cases hv with
    | not _ hslip => exact ih hslip
    | _ hs' => simp [hs] at hs'
  | unary hs hc =>
    intro hv
    cases hv with
    | column _ hc' => simp [hc'] at hc
    | _ hs' => simp [hs] at hs'
  | set hs _ _ =>
    intro hv
    cases hv with
    | _ hs' => simp [hs] at hs'
  | @binary s c b lit hs _ _ hb =>
    intro hv
    cases hv with
    | prefixKind hs' hp hl =>
      obtain rfl : b = _ := by simpa [hs] using hs'
      simpa [hl] using hb hp
    | _ hs' => simp [hs] at hs'

/-- `datum` takes nothing but literals. -/
theorem isLiteral_of_datum {v : Json} {ty : PrimitiveType} {c : String} {d : Datum}
    (h : datum api v ty c = .ok d) : v.IsLiteral := by
  cases v with
  | bool b => exact .bool b
  | number n => exact .number n
  | string s => exact .string s
  | null | array xs | object fs =>
    cases ty <;> simp [datum, Json.asBool, Json.asI64, Json.asF64, Json.asStr, Outcome.okOr] at h

theorem inGrammar_of_builds {v : Json} {p : Predicate} (h : Builds api ops schema v p)
    (hv : ¬ Slip schema v) : InGrammar schema v := by
  induction h with
  | @alwaysTrue s args hs | @alwaysFalse s args hs =>
    cases args with
    | nil => exact .const hs
    | cons x xs => exact absurd (.operands hs) hv
  | @logical s first rest c hs hrest _ ih =>
    refine .join hs ?_ fun f hf => ?_
    · simpa using Nat.succ_le_of_lt (List.length_pos_iff.mpr hrest)
    · obtain ⟨q, hq, rfl⟩ : ∃ q ∈ first :: rest, q.1 = f := by
        simpa [eq_comm] using hf
      exact ih q hq fun hslip => hv (.join hs hf hslip)
  | not hs _ ih => exact .not hs (ih fun hslip => hv (.not hs hslip))
  | @unary s c u hs =>
    refine .unary hs (Option.isSome_iff_ne_none.mpr fun hc => ?_)
    exact hv (.column hs hc)
  | @set s c ty items ds m hs hty hds =>
    refine .set hs (by simp [hty]) fun x hx => ?_
    obtain ⟨d, -, hd⟩ := Outcome.ok_of_mapM_ok hds hx
    exact isLiteral_of_datum hd
  | @binary s c ty lit d b hs hty hd =>
    refine .binary hs (by simp [hty]) (isLiteral_of_datum hd) fun hp => ?_
    exact Option.isSome_iff_ne_none.mpr fun hl => hv (.prefixKind hs hp hl)

/-- An accepted filter is in the grammar exactly when no node of it slips through. -/
theorem build_in_grammar_iff {v : Json} {p : Predicate} (h : build api ops schema v = .ok p) :
    InGrammar schema v ↔ ¬ Slip schema v :=
  ⟨not_slip_of_inGrammar, inGrammar_of_builds (build_eq_ok.mp h)⟩

theorem build_in_grammar_iff_orders :
    InGrammar .orders (.array [.string "is-null", .string "count"]) ↔
      ¬ Slip .orders (.array [.string "is-null", .string "count"]) := by
  have h : build .basic .simplifying .orders (.array [.string "is-null", .string "count"]) =
      .ok (.atom (.unary .isNull "count")) := rfl
  exact build_in_grammar_iff h

/-- A null test of a column that the table does not have is accepted. -/
theorem build_accepts_outside_grammar :
    build .basic .simplifying .orders (.array [.string "is-null", .string "nosuch"]) =
        .ok (.atom (.unary .isNull "nosuch")) ∧
      ¬ InGrammar .orders (.array [.string "is-null", .string "nosuch"]) := by
  have hs : Op.read "is-null" = some (.unary .isNull) := by decide
  exact ⟨rfl, fun h => not_slip_of_inGrammar h (.column hs (by decide))⟩

end
end Filter
end IcebergRs
