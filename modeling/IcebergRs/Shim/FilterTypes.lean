import IcebergRs.Shim.FilterBuild

/-! The types of the datums in an accepted filter. Each is the type of its column, except
that a decimal has 38 digits and the scale of its text. -/
namespace IcebergRs

def PrimitiveType.IsIntegral : PrimitiveType → Prop
  | .int | .long | .date | .time | .timestamp | .timestamptz | .timestampNs | .timestamptzNs =>
    True
  | _ => False

namespace Filter

section
variable (api : DatumApi)

/-- The text a decimal literal is read from. -/
def decimalText : Json → Option String
  | .string s => some s
  | .number n => some (n.text api.floatText)
  | _ => none

/-- A literal is read for a decimal column only if the column has 38 digits and the scale of
the literal's text. -/
def DecimalMatches (v : Json) : PrimitiveType → Prop
  | .decimal precision scale => ∀ t d, decimalText api v = some t →
      api.decimalFromStr t = .ok d → precision = 38 ∧ scale = api.decimalScale t
  | _ => True

/-- The datum has the type and, for integers and counts, the value of its literal. -/
structure TypedAs (v : Json) (ty : PrimitiveType) (d : Datum) : Prop where
  type : d.ty = ty
  value : ty.IsIntegral → ∀ k, v.integer? = some k → d.lit.integer? = some k

variable {api} {v : Json} {ty : PrimitiveType} {d : Datum}

theorem typedAs_of_count {i : Int64} (hty : d.ty = ty) (hv : v.asI64 = some i)
    (hl : d.lit.integer? = some i.toInt) : TypedAs v ty d where
  type := hty
  value _ k hk := by
    cases v with
    | number n =>
      rw [Json.integer?, Number.integer?_of_asI64 hv] at hk
      rw [hl, hk]
    | _ => simp [Json.integer?] at hk

theorem typedAs_of_string {s : String} (h : d.ty = ty) : TypedAs (.string s) ty d where
  type := h
  value _ k hk := by simp [Json.integer?] at hk

/-- Apart from decimals, whatever `datum` accepts is typed to the column. -/
theorem typedAs_of_datum (hapi : api.Lawful) {c : String} (hm : DecimalMatches api v ty)
    (h : datum api v ty c = .ok d) : TypedAs v ty d := by
  cases ty with
  | boolean | float | double | string =>
    simp only [datum, Outcome.okOr_eq_ok, Option.map_eq_some_iff] at h
    obtain ⟨_, _, rfl⟩ := h
    exact ⟨rfl, False.elim⟩
  | int =>
    simp only [datum, Outcome.okOr_eq_ok, Option.map_eq_some_iff, Option.bind_eq_some_iff] at h
    obtain ⟨k, ⟨i, hi, hk⟩, rfl⟩ := h
    exact typedAs_of_count rfl hi (congrArg some (toInt_of_toI32 hk))
  | long | timestampNs | timestamptzNs =>
    simp only [datum, Outcome.okOr_eq_ok, Option.map_eq_some_iff] at h
    obtain ⟨i, hi, rfl⟩ := h
    exact typedAs_of_count rfl hi rfl
  | date =>
    cases v with
    | number n =>
      simp only [datum, Outcome.okOr_eq_ok, Option.map_eq_some_iff, Option.bind_eq_some_iff] at h
      obtain ⟨k, ⟨i, hi, hk⟩, rfl⟩ := h
      exact typedAs_of_count rfl (v := .number n) hi (congrArg some (toInt_of_toI32 hk))
    | string s => exact typedAs_of_string (hapi.date s d (Outcome.ofExcept_eq_ok.mp h))
    | _ => simp [datum] at h
  | time =>
    cases v with
    | number n =>
      obtain ⟨i, hi, hk⟩ := Outcome.bind_eq_ok.mp h
      obtain rfl := hapi.timeMicros i d (Outcome.ofExcept_eq_ok.mp hk)
      exact typedAs_of_count rfl (v := .number n) (Outcome.unwrap_eq_ok.mp hi) rfl
    | string s => exact typedAs_of_string (hapi.time s d (Outcome.ofExcept_eq_ok.mp h))
    | _ => simp [datum] at h
  | timestamp =>
    cases v with
    | number n =>
      obtain ⟨i, hi, hk⟩ := Outcome.bind_eq_ok.mp h
      obtain rfl := Outcome.ok.inj hk
      exact typedAs_of_count rfl (v := .number n) (Outcome.unwrap_eq_ok.mp hi) rfl
    | string s => exact typedAs_of_string (hapi.timestamp s d (Outcome.ofExcept_eq_ok.mp h))
    | _ => simp [datum] at h
  | timestamptz =>
    cases v with
    | number n =>
      obtain ⟨i, hi, hk⟩ := Outcome.bind_eq_ok.mp h
      obtain rfl := Outcome.ok.inj hk
      exact typedAs_of_count rfl (v := .number n) (Outcome.unwrap_eq_ok.mp hi) rfl
    | string s => exact typedAs_of_string (hapi.timestamptz s d (Outcome.ofExcept_eq_ok.mp h))
    | _ => simp [datum] at h
  | uuid =>
    obtain ⟨s, _, h⟩ := Outcome.bind_eq_ok.mp h
    exact ⟨hapi.uuid s d (Outcome.ofExcept_eq_ok.mp h), False.elim⟩
  | decimal p s =>
    have htext : ∃ t, decimalText api v = some t ∧ api.decimalFromStr t = .ok d := by
      cases v <;> simp_all [datum, decimalText]
    obtain ⟨t, ht, hd⟩ := htext
    obtain ⟨rfl, rfl⟩ := hm t d ht hd
    exact ⟨hapi.decimal t d hd, False.elim⟩
  | fixed | binary => simp [datum] at h

theorem datum_of_decimalText {t c : String} {p s : ℕ} (ht : decimalText api v = some t)
    (hd : api.decimalFromStr t = .ok d) : datum api v (.decimal p s) c = .ok d := by
  cases v <;> simp_all [datum, decimalText]

theorem decimalMatches_of_type (hapi : api.Lawful) {c : String}
    (h : ∀ d, datum api v ty c = .ok d → d.ty = ty) : DecimalMatches api v ty := by
  cases ty with
  | decimal p s =>
    intro t d ht hd
    have hty := h d (datum_of_decimalText ht hd)
    rw [hapi.decimal t d hd] at hty
    injection hty with hp hs
    exact ⟨hp.symm, hs.symm⟩
  | _ => trivial

/-- The datum of a plain decimal text is typed to the column exactly when the column has 38
digits, and as many after the point as the text. -/
theorem typedAs_decimal_iff (hapi : api.Lawful) {t : String} {n : ℤ} {k : ℕ}
    (ht : unscaled t = some (n, k)) (hd : api.decimalFromStr t = .ok d) (p s : ℕ) :
    TypedAs (.string t) (.decimal p s) d ↔ p = 38 ∧ s = k := by
  have hty : d.ty = .decimal 38 k := by rw [hapi.decimal t d hd, hapi.scale t n k ht]
  constructor
  · intro h
    injection hty.symm.trans h.type with hp hs
    exact ⟨hp.symm, hs.symm⟩
  · rintro ⟨rfl, rfl⟩
    exact typedAs_of_string hty

variable (api) (schema : Schema)

/-- Some test of a decimal column has a literal that gets another precision or scale. -/
inductive Mismatched : Json → Prop
  | binary {s c : String} {b : BinaryOp} {ty : PrimitiveType} {lit : Json}
      (hs : Op.read s = some (.binary b)) (hty : schema.primitive? c = some ty)
      (h : ¬ DecimalMatches api lit ty) : Mismatched (.array [.string s, .string c, lit])
  | set {s c : String} {m : SetOp} {ty : PrimitiveType} {items : List Json} {x : Json}
      (hs : Op.read s = some (.set m)) (hty : schema.primitive? c = some ty) (hx : x ∈ items)
      (h : ¬ DecimalMatches api x ty) :
      Mismatched (.array [.string s, .string c, .array items])
  | not {s : String} {f : Json} (hs : Op.read s = some .not) (h : Mismatched f) :
      Mismatched (.array [.string s, f])
  | join {s : String} {c : Connective} {f : Json} {args : List Json}
      (hs : Op.read s = some (.join c)) (hf : f ∈ args) (h : Mismatched f) :
      Mismatched (.array (.string s :: args))

/-- Every test of the predicate has only datums of the type its column is declared with. -/
def WellTyped (p : Predicate) : Prop :=
  ∀ a ∈ p.atoms, ∀ d ∈ a.datums, schema.primitive? a.column = some d.ty

variable {api schema} {ops : PredicateOps}

theorem wellTyped_of_builds (hapi : api.Lawful) (hops : ops.Lawful) {p : Predicate}
    (h : Builds api ops schema v p) (hv : ¬ Mismatched api schema v) : WellTyped schema p := by
  induction h with
  | alwaysTrue | alwaysFalse => simp [WellTyped, Predicate.atoms]
  | @logical s first rest c hs hrest _ ih =>
    intro a ha
    obtain ⟨q, hq, haq⟩ := hops.atoms_foldl ha
    obtain ⟨r, hr, rfl⟩ : ∃ r ∈ first :: rest, r.2 = q := by simpa [eq_comm] using hq
    have hmem : r.1 ∈ first.1 :: rest.map Prod.fst := List.mem_map_of_mem (f := Prod.fst) hr
    exact ih r hr (fun hm => hv (.join hs hmem hm)) a haq
  | not hs _ ih =>
    intro a ha
    have hq := ih fun hm => hv (.not hs hm)
    rcases hops.atoms_negate _ a ha with ha | ha
    · exact hq a ha
    · simpa using hq a.complement ha
  | unary => simp [WellTyped, Predicate.atoms, Atom.datums]
  | @set s c ty items ds m hs hty hds =>
    simp only [WellTyped, Predicate.atoms, List.mem_singleton, forall_eq, Atom.datums, Atom.column]
    intro d hd
    obtain ⟨x, hx, hxd⟩ := Outcome.mem_of_mapM_ok hds hd
    have hm : DecimalMatches api x ty := by
      by_contra hm
      exact hv (.set hs hty hx hm)
    rw [hty, (typedAs_of_datum hapi hm hxd).type]
  | @binary s c ty lit d b hs hty hd =>
    simp only [WellTyped, Predicate.atoms, List.mem_singleton, forall_eq, Atom.datums, Atom.column]
    have hm : DecimalMatches api lit ty := by
      by_contra hm
      exact hv (.binary hs hty hm)
    rw [hty, (typedAs_of_datum hapi hm hd).type]

theorem not_mismatched (h : ∀ c ty lit, schema.primitive? c = some ty → DecimalMatches api lit ty)
    (v : Json) : ¬ Mismatched api schema v := by
  intro hv
  induction hv with
  | binary _ hty hm | set _ hty _ hm => exact hm (h _ _ _ hty)
  | not _ _ ih | join _ _ _ ih => exact ih

/-- A datum is typed to its column exactly when a decimal's column has 38 digits and the scale
of the text, the digits after the point when the text is plain. A filter all of whose decimals
match is well typed, and every accepted filter is exactly when the literals of all decimal
columns match. -/
theorem literals_typed_iff (hapi : api.Lawful) (hops : ops.Lawful) (schema : Schema) :
    (∀ v ty c, (∀ d, datum api v ty c = .ok d → TypedAs v ty d) ↔ DecimalMatches api v ty) ∧
    (∀ t n k d, unscaled t = some (n, k) → api.decimalFromStr t = .ok d →
      ∀ p s, TypedAs (.string t) (.decimal p s) d ↔ p = 38 ∧ s = k) ∧
    (∀ v p, build api ops schema v = .ok p → ¬ Mismatched api schema v → WellTyped schema p) ∧
    ((∀ v p, build api ops schema v = .ok p → WellTyped schema p) ↔
      ∀ c ty lit, schema.primitive? c = some ty → DecimalMatches api lit ty) := by
  refine ⟨fun v ty c => ⟨fun h => ?_, fun hm d => typedAs_of_datum hapi hm⟩,
    fun t n k d => typedAs_decimal_iff hapi, fun v p hp hv => ?_, fun h c ty lit hty => ?_,
    fun h v p hp => ?_⟩
  · exact decimalMatches_of_type hapi fun d hd => (h d hd).type
  · exact wellTyped_of_builds hapi hops (build_eq_ok.mp hp) hv
  · refine decimalMatches_of_type hapi (c := c) fun d hd => ?_
    have hs : Op.read "=" = some (.binary .eq) := by decide
    have hwt := h _ _ (build_eq_ok.mpr (.binary .eq hs hty hd))
    simpa [Predicate.atoms, Atom.datums, Atom.column, WellTyped, hty, eq_comm] using hwt
  · exact wellTyped_of_builds hapi hops (build_eq_ok.mp hp) (not_mismatched h v)

theorem literals_typed_iff_orders :
    (∀ v ty c, (∀ d, datum .basic v ty c = .ok d → TypedAs v ty d) ↔ DecimalMatches .basic v ty) ∧
    (∀ t n k d, unscaled t = some (n, k) → DatumApi.basic.decimalFromStr t = .ok d →
      ∀ p s, TypedAs (.string t) (.decimal p s) d ↔ p = 38 ∧ s = k) ∧
    (∀ v p, build .basic .simplifying .orders v = .ok p → ¬ Mismatched .basic .orders v →
      WellTyped .orders p) ∧
    ((∀ v p, build .basic .simplifying .orders v = .ok p → WellTyped .orders p) ↔
      ∀ c ty lit, Schema.orders.primitive? c = some ty → DecimalMatches .basic lit ty) :=
  literals_typed_iff DatumApi.basic_lawful PredicateOps.simplifying_lawful .orders

/-- The literal `"1.5"` for a `decimal(10,2)` column becomes a `decimal(38,1)`. -/
theorem build_decimal_mistyped :
    build .basic .simplifying .orders (.array [.string "=", .string "price", .string "1.5"]) =
        .ok (.atom (.binary .eq "price" ⟨.decimal 38 1, .int128 15⟩)) ∧
      ¬ WellTyped .orders (.atom (.binary .eq "price" ⟨.decimal 38 1, .int128 15⟩)) := by
  refine ⟨rfl, fun h => ?_⟩
  have hty := h _ (List.mem_singleton_self _) _ (List.mem_singleton_self _)
  exact absurd hty (by decide)

end
end Filter
end IcebergRs
