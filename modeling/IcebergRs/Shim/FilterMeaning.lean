import IcebergRs.Shim.FilterBuild

/-! The documented filter language with its direct three-valued meaning, and the proof
that `build` translates every filter of it into a predicate of the same meaning. -/
namespace IcebergRs

/-- The filters a user means, before any of the crate's simplifications. -/
inductive Formula where
  | const (b : Bool)
  | join (c : Connective) (fs : List Formula)
  | not (f : Formula)
  | test (a : Atom)

instance : Inhabited Formula := ⟨.const true⟩

namespace Formula
variable (v : Valuation)

mutual
def eval : Formula → Kleene
  | const b => if b then .yes else .no
  | join c fs => c.eval (evalAll fs)
  | not f => f.eval.neg
  | test a => v.value a

def evalAll : List Formula → List Kleene
  | [] => []
  | f :: fs => f.eval :: evalAll fs
end

theorem evalAll_eq_map (fs : List Formula) : evalAll v fs = fs.map (eval v) := by
  induction fs with
  | nil => rfl
  | cons f fs ih => simp only [evalAll, List.map_cons, ih]

end Formula

namespace Filter
section
variable (api : DatumApi) (schema : Schema)

/-- The filter a JSON value is read as, one rule for each shape of node. Operators have
any ASCII case, columns are primitive columns of the schema, and literals are typed to
their column. -/
inductive Reads : Json → Formula → Prop
  | yes {s : String} (hs : Op.read s = some (.const true)) :
      Reads (.array [.string s]) (.const true)
  | no {s : String} (hs : Op.read s = some (.const false)) :
      Reads (.array [.string s]) (.const false)
  | join {s : String} {qs : List (Json × Formula)} (c : Connective)
      (hs : Op.read s = some (.join c)) (hlen : 2 ≤ qs.length)
      (h : ∀ q ∈ qs, Reads q.1 q.2) :
      Reads (.array (.string s :: qs.map Prod.fst)) (.join c (qs.map Prod.snd))
  | not {s : String} {f : Json} {F : Formula} (hs : Op.read s = some .not)
      (h : Reads f F) : Reads (.array [.string s, f]) (.not F)
  | unary {s c : String} {ty : PrimitiveType} (u : UnaryOp)
      (hs : Op.read s = some (.unary u)) (hty : schema.primitive? c = some ty) :
      Reads (.array [.string s, .string c]) (.test (.unary u c))
  | set {s c : String} {ty : PrimitiveType} {items : List Json} {ds : List Datum} (m : SetOp)
      (hs : Op.read s = some (.set m)) (hty : schema.primitive? c = some ty)
      (hds : List.Forall₂ (fun x d => datum api x ty c = .ok d) items ds) :
      Reads (.array [.string s, .string c, .array items]) (.test (.set m c ds))
  | binary {s c : String} {ty : PrimitiveType} {lit : Json} {d : Datum} (b : BinaryOp)
      (hs : Op.read s = some (.binary b)) (hty : schema.primitive? c = some ty)
      (hd : datum api lit ty c = .ok d) :
      Reads (.array [.string s, .string c, lit]) (.test (.binary b c d))

variable {api schema} {ops : PredicateOps}

/-- Every filter of the language is built, and the predicate has the filter's value on
every row. -/
theorem build_meaning (hops : ops.Lawful) {v : Json} {F : Formula} (h : Reads api schema v F) :
    ∃ p, build api ops schema v = .ok p ∧ ∀ ρ : Valuation, p.eval ρ = F.eval ρ := by
  simp only [build_eq_ok]
  induction h with
  | yes hs => exact ⟨_, .alwaysTrue hs, fun ρ => rfl⟩
  | no hs => exact ⟨_, .alwaysFalse hs, fun ρ => rfl⟩
  | @join s qs c hs hlen _ ih =>
    choose! p hp hev using ih
    obtain _ | ⟨first, rest⟩ := qs
    · simp at hlen
    have hrest : rest.map (fun q => (q.1, p q)) ≠ [] := by
      simpa using List.length_pos_iff.mp (Nat.lt_of_succ_lt_succ hlen)
    have hall : ∀ r ∈ (first.1, p first) :: rest.map (fun q => (q.1, p q)),
        Builds api ops schema r.1 r.2 := by
      intro r hr
      obtain ⟨q, hq, rfl⟩ : ∃ q ∈ first :: rest, (q.1, p q) = r := by simpa [eq_comm] using hr
      exact hp q hq
    refine ⟨_, by simpa [Function.comp_def] using Builds.logical c hs hrest hall, fun ρ => ?_⟩
    have hevs : (first :: rest).map (fun q => (p q).eval ρ) =
        (first :: rest).map (fun q => q.2.eval ρ) :=
      List.map_congr_left fun q hq => hev q hq ρ
    rw [hops.eval_foldl, Formula.eval, Formula.evalAll_eq_map]
    simpa [Function.comp_def] using congrArg c.eval hevs
  | not hs _ ih =>
    obtain ⟨p, hp, hev⟩ := ih
    refine ⟨_, .not hs hp, fun ρ => ?_⟩
    rw [hops.eval_negate, hev, Formula.eval]
  | unary u hs _ => exact ⟨_, .unary u hs, fun ρ => rfl⟩
  | set m hs hty hds => exact ⟨_, .set m hs hty (Outcome.mapM_eq_ok.mpr hds), fun ρ => rfl⟩
  | binary b hs hty hd => exact ⟨_, .binary b hs hty hd, fun ρ => rfl⟩

theorem build_meaning_orders : ∃ p,
    build .basic .simplifying .orders (.array [.string "AND",
      .array [.string "EQ", .string "id", .number (.posInt 3)],
      .array [.string "Not", .array [.string "in", .string "region",
        .array [.string "eu", .string "us"]]],
      .array [.string "isnull", .string "count"]]) = .ok p ∧
    ∀ ρ : Valuation, p.eval ρ = (Formula.join .and
      [.test (.binary .eq "id" (.long 3)),
        .not (.test (.set .isIn "region" [.string "eu", .string "us"])),
        .test (.unary .isNull "count")]).eval ρ := by
  have heq : Reads .basic .orders (.array [.string "EQ", .string "id", .number (.posInt 3)])
      (.test (.binary .eq "id" (.long 3))) := .binary .eq (by decide) rfl rfl
  have hin : Reads .basic .orders (.array [.string "in", .string "region",
      .array [.string "eu", .string "us"]])
      (.test (.set .isIn "region" [.string "eu", .string "us"])) :=
    .set .isIn (by decide) rfl (.cons rfl (.cons rfl .nil))
  have hnull : Reads .basic .orders (.array [.string "isnull", .string "count"])
      (.test (.unary .isNull "count")) := .unary .isNull (by decide) rfl
  refine build_meaning PredicateOps.simplifying_lawful
    (@Reads.join _ _ "AND" [(_, _), (_, _), (_, _)] .and (by decide) (by decide) ?_)
  simp only [List.forall_mem_cons]
  exact ⟨heq, .not (by decide) hin, hnull, by simp⟩

end
end Filter
end IcebergRs
