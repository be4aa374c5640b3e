import IcebergRs.Shim.FilterBuild

/-! Exactly which filters make the parser panic. A number for a time or timestamp column
is unwrapped as a 64-bit count, and the panic is reached once everything read before it
was accepted, so the filters `build` accepts are characterised first. -/
namespace IcebergRs

/-- The types whose numbers `datum` unwraps as a 64-bit count without a check. -/
def PrimitiveType.Unwraps (ty : PrimitiveType) : Prop :=
  ty = .time ∨ ty = .timestamp ∨ ty = .timestamptz

/-- The types that hold a 64-bit count as it is. -/
def PrimitiveType.IsCount (ty : PrimitiveType) : Prop :=
  ty = .long ∨ ty = .timestamp ∨ ty = .timestamptz ∨ ty = .timestampNs ∨ ty = .timestamptzNs

namespace Filter
section
variable (api : DatumApi)

/-- A number that is no 64-bit signed integer, for a column whose numbers are unwrapped. -/
def Wide (v : Json) (ty : PrimitiveType) : Prop :=
  ty.Unwraps ∧ ∃ n, v = .number n ∧ n.asI64 = none

/-- How a column of the type reads a string. -/
def fromText : PrimitiveType → Option (String → Except String Datum)
  | .date => some api.dateFromStr
  | .time => some api.timeFromStr
  | .timestamp => some api.timestampFromStr
  | .timestamptz => some api.timestamptzFromStr
  | .uuid => some api.uuidFromStr
  | .decimal _ _ => some api.decimalFromStr
  | _ => none

/-- The literals that a column of the type takes. -/
inductive Readable : Json → PrimitiveType → Prop
  | bool (b : Bool) : Readable (.bool b) .boolean
  | string (s : String) : Readable (.string s) .string
  | float (n : Number) {ty : PrimitiveType} (hty : ty = .float ∨ ty = .double) :
      Readable (.number n) ty
  | narrow {n : Number} {i : Int64} {k : Int32} {ty : PrimitiveType}
      (hty : ty = .int ∨ ty = .date) (hi : n.asI64 = some i) (hk : toI32 i = some k) :
      Readable (.number n) ty
  | count {n : Number} {i : Int64} {ty : PrimitiveType} (hty : ty.IsCount)
      (hi : n.asI64 = some i) : Readable (.number n) ty
  | time {n : Number} {i : Int64} {d : Datum} (hi : n.asI64 = some i)
      (hd : api.timeMicros i = .ok d) : Readable (.number n) .time
  | text {s : String} {ty : PrimitiveType} {d : Datum} {parse : String → Except String Datum}
      (hp : fromText api ty = some parse) (hd : parse s = .ok d) : Readable (.string s) ty
  | decimal {n : Number} {p s : ℕ} {d : Datum}
      (hd : api.decimalFromStr (n.text api.floatText) = .ok d) :
      Readable (.number n) (.decimal p s)

variable {api}

theorem readable_of_datum {v : Json} {ty : PrimitiveType} {c : String} {d : Datum}
    (h : datum api v ty c = .ok d) : Readable api v ty := by
  cases v with
  | bool b =>
    cases ty with
    | boolean => exact .bool b
    | _ => simp [datum, Json.asI64, Json.asF64, Json.asStr, Outcome.okOr] at h
  | string s =>
    cases ty with
    | string => exact .string s
    | date | time | timestamp | timestamptz | uuid | decimal =>
      exact .text rfl (Outcome.ofExcept_eq_ok.mp h)
    | _ => simp [datum, Json.asBool, Json.asI64, Json.asF64] at h
  | number n =>
    cases ty with
    | int | date =>
      simp only [datum, Json.asI64, Outcome.okOr_eq_ok, Option.map_eq_some_iff,
        Option.bind_eq_some_iff] at h
      obtain ⟨k, ⟨i, hi, hk⟩, -⟩ := h
      exact .narrow (by simp) hi hk
    | long | timestampNs | timestamptzNs =>
      simp only [datum, Json.asI64, Outcome.okOr_eq_ok, Option.map_eq_some_iff] at h
      obtain ⟨i, hi, -⟩ := h
      exact .count (by simp [PrimitiveType.IsCount]) hi
    | timestamp | timestamptz =>
      obtain ⟨i, hi, -⟩ := Outcome.bind_eq_ok.mp h
      exact .count (by simp [PrimitiveType.IsCount]) (Outcome.unwrap_eq_ok.mp hi)
    | time =>
      obtain ⟨i, hi, hd⟩ := Outcome.bind_eq_ok.mp h
      exact .time (Outcome.unwrap_eq_ok.mp hi) (Outcome.ofExcept_eq_ok.mp hd)
    | float | double => exact .float n (by simp)
    | decimal p s => exact .decimal (Outcome.ofExcept_eq_ok.mp h)
    | _ => simp [datum, Json.asBool, Json.asStr, Outcome.okOr] at h
  | null | array xs | object fs =>
    cases ty <;> simp [datum, Json.asBool, Json.asI64, Json.asF64, Json.asStr, Outcome.okOr] at h

theorem datum_of_readable {v : Json} {ty : PrimitiveType} (h : Readable api v ty) (c : String) :
    ∃ d, datum api v ty c = .ok d := by
  cases h with
  | bool b => exact ⟨_, rfl⟩
  | string s => exact ⟨_, rfl⟩
  | float n hty => rcases hty with rfl | rfl <;> exact ⟨_, rfl⟩
  | narrow hty hi hk => rcases hty with rfl | rfl <;> simp [datum, Json.asI64, hi, hk]
  | count hty hi =>
    rcases hty with rfl | rfl | rfl | rfl | rfl <;> simp [datum, Json.asI64, hi, Outcome.unwrap]
  | time hi hd => simp [datum, hi, Outcome.unwrap, hd]
  | @text s ty d parse hp hd =>
    cases ty <;> simp only [fromText, Option.some.injEq, reduceCtorEq] at hp
    all_goals
      subst hp
      simp [datum, Json.asStr, Outcome.okOr, hd]
  | decimal hd => simp [datum, hd]

theorem datum_ok_iff {v : Json} {ty : PrimitiveType} {c : String} :
    (∃ d, datum api v ty c = .ok d) ↔ Readable api v ty :=
  ⟨fun ⟨_, h⟩ => readable_of_datum h, fun h => datum_of_readable h c⟩

theorem datum_panic_iff {v : Json} {ty : PrimitiveType} {c : String} :
    (∃ w, datum api v ty c = .panic w) ↔ Wide v ty := by
  have hu : ∀ n : Number, (∃ w, Outcome.unwrap n.asI64 = .panic w) ↔ n.asI64 = none := by
    intro n
    cases n.asI64 <;> simp [Outcome.unwrap]
  cases ty with
  | time | timestamp | timestamptz =>
    cases v with
    | number n => simp [datum, Outcome.bind_eq_panic, Wide, PrimitiveType.Unwraps, hu]
    | _ => simp [datum, Wide]
  | date | decimal => cases v <;> simp [datum, Wide, PrimitiveType.Unwraps]
  | _ => simp [datum, Wide, PrimitiveType.Unwraps, Outcome.bind_eq_panic]

variable (api) (schema : Schema)

/-- The filters that are accepted, inside the documented grammar or not. -/
inductive Accepted : Json → Prop
  | const {s : String} {b : Bool} {args : List Json} (hs : Op.read s = some (.const b)) :
      Accepted (.array (.string s :: args))
  | join {s : String} {c : Connective} {args : List Json} (hs : Op.read s = some (.join c))
      (hlen : 2 ≤ args.length) (h : ∀ f ∈ args, Accepted f) :
      Accepted (.array (.string s :: args))
  | not {s : String} {f : Json} (hs : Op.read s = some .not) (h : Accepted f) :
      Accepted (.array [.string s, f])
  | unary {s c : String} {u : UnaryOp} (hs : Op.read s = some (.unary u)) :
      Accepted (.array [.string s, .string c])
  | set {s c : String} {m : SetOp} {ty : PrimitiveType} {items : List Json}
      (hs : Op.read s = some (.set m)) (hty : schema.primitive? c = some ty)
      (hitems : ∀ x ∈ items, Readable api x ty) :
      Accepted (.array [.string s, .string c, .array items])
  | binary {s c : String} {b : BinaryOp} {ty : PrimitiveType} {lit : Json}
      (hs : Op.read s = some (.binary b)) (hty : schema.primitive? c = some ty)
      (hlit : Readable api lit ty) : Accepted (.array [.string s, .string c, lit])

/-- The filters whose reading comes to a wide number, everything before it being accepted. -/
inductive Reaches : Json → Prop
  | binary {s c : String} {b : BinaryOp} {ty : PrimitiveType} {lit : Json}
      (hs : Op.read s = some (.binary b)) (hty : schema.primitive? c = some ty)
      (h : Wide lit ty) : Reaches (.array [.string s, .string c, lit])
  | set {s c : String} {m : SetOp} {ty : PrimitiveType} {before after : List Json} {x : Json}
      (hs : Op.read s = some (.set m)) (hty : schema.primitive? c = some ty)
      (hbefore : ∀ y ∈ before, Readable api y ty) (h : Wide x ty) :
      Reaches (.array [.string s, .string c, .array (before ++ x :: after)])
  | not {s : String} {f : Json} (hs : Op.read s = some .not) (h : Reaches f) :
      Reaches (.array [.string s, f])
  | join {s : String} {c : Connective} {before after : List Json} {f : Json}
      (hs : Op.read s = some (.join c)) (hlen : 2 ≤ (before ++ f :: after).length)
      (hbefore : ∀ g ∈ before, Accepted api schema g) (h : Reaches f) :
      Reaches (.array (.string s :: (before ++ f :: after)))

variable {api schema} {ops : PredicateOps}

theorem accepted_of_builds {v : Json} {p : Predicate} (h : Builds api ops schema v p) :
    Accepted api schema v := by
  induction h with
  | alwaysTrue hs | alwaysFalse hs => exact .const hs
  | @logical s first rest c hs hrest _ ih =>
    refine .join hs ?_ fun f hf => ?_
    · simpa using Nat.succ_le_of_lt (List.length_pos_iff.mpr hrest)
    · obtain ⟨q, hq, rfl⟩ : ∃ q ∈ first :: rest, q.1 = f := by simpa [eq_comm] using hf
      exact ih q hq
  | not hs _ ih => exact .not hs ih
  | unary u hs => exact .unary hs
  | set m hs hty hds =>
    apply Accepted.set hs hty
    intro x hx
    obtain ⟨d, -, hd⟩ := Outcome.ok_of_mapM_ok hds hx
    exact readable_of_datum hd
  | binary b hs hty hd => exact .binary hs hty (readable_of_datum hd)

theorem build_of_accepted {v : Json} (h : Accepted api schema v) :
    ∃ p, build api ops schema v = .ok p := by
  induction h with
  | @const s b args hs =>
    cases b with
    | true => exact ⟨_, build_alwaysTrue hs⟩
    | false => exact ⟨_, build_alwaysFalse hs⟩
  | @join s c args hs hlen _ ih =>
    obtain ⟨ps, hps⟩ := Outcome.exists_mapM_ok ih
    obtain _ | ⟨f, fs⟩ := args
    · simp at hlen
    have hfs : fs ≠ [] := List.length_pos_iff.mp (Nat.lt_of_succ_lt_succ hlen)
    obtain ⟨p, hp⟩ := ih f (by simp)
    obtain ⟨qs, hqs⟩ := Outcome.exists_mapM_ok fun g hg => ih g (List.mem_cons_of_mem f hg)
    exact ⟨_, by rw [build_logical c hs hfs, hp, Outcome.ok_bind, hqs, Outcome.ok_bind]⟩
  | not hs _ ih =>
    obtain ⟨p, hp⟩ := ih
    exact ⟨_, (build_not_eq_ok hs).mpr ⟨_, p, rfl, hp, rfl⟩⟩
  | unary hs => exact ⟨_, (build_unary_eq_ok _ hs).mpr ⟨_, rfl, rfl⟩⟩
  | @set s c m ty items hs hty hitems =>
    obtain ⟨ds, hds⟩ := Outcome.exists_mapM_ok fun x hx => datum_of_readable (hitems x hx) c
    exact ⟨_, (build_set_eq_ok m hs).mpr ⟨c, ty, items, ds, rfl, hty, hds, rfl⟩⟩
  | @binary s c b ty lit hs hty hlit =>
    obtain ⟨d, hd⟩ := datum_of_readable hlit c
    exact ⟨_, (build_binary_eq_ok b hs).mpr ⟨c, ty, lit, d, rfl, hty, hd, rfl⟩⟩

theorem build_ok_iff {v : Json} : (∃ p, build api ops schema v = .ok p) ↔ Accepted api schema v :=
  ⟨fun ⟨_, h⟩ => accepted_of_builds (build_eq_ok.mp h), build_of_accepted⟩

theorem build_of_reaches {v : Json} (h : Reaches api schema v) :
    ∃ w, build api ops schema v = .panic w := by
  induction h with
  | @binary s c b ty lit hs hty h =>
    obtain ⟨w, hw⟩ := (datum_panic_iff (c := c)).mpr h
    exact ⟨w, (build_binary_eq_panic b hs).mpr ⟨c, ty, lit, rfl, hty, hw⟩⟩
  | @set s c m ty before after x hs hty hbefore h =>
    obtain ⟨w, hw⟩ := (datum_panic_iff (c := c)).mpr h
    exact ⟨w, (build_set_eq_panic m hs).mpr ⟨c, ty, _, rfl, hty, Outcome.mapM_eq_panic.mpr
      ⟨before, x, after, rfl, fun y hy => datum_of_readable (hbefore y hy) c, hw⟩⟩⟩
  | not hs _ ih =>
    obtain ⟨w, hw⟩ := ih
    exact ⟨w, (build_not_eq_panic hs).mpr ⟨_, rfl, hw⟩⟩
  | @join s c before after f hs hlen hbefore _ ih =>
    obtain ⟨w, hw⟩ := ih
    exact ⟨w, (build_logical_eq_panic c hs).mpr ⟨hlen, Outcome.mapM_eq_panic.mpr
      ⟨before, f, after, rfl, fun g hg => build_of_accepted (hbefore g hg), hw⟩⟩⟩

theorem reaches_of_build {v : Json} {w : String} (h : build api ops schema v = .panic w) :
    Reaches api schema v := by
  induction v using Json.arrayInduction generalizing w with
  | leaf v hv => cases v <;> simp [build, Json.asArray] at h hv
  | array xs ih =>
    have hne : ∀ m, build api ops schema (.array xs) ≠ .err m := by simp [h]
    obtain ⟨s, args, o, rfl, hs⟩ := head_of_build hne
    cases o with
    | const b =>
      cases b with
      | true => exact absurd ((build_alwaysTrue hs).symm.trans h) (by simp)
      | false => exact absurd ((build_alwaysFalse hs).symm.trans h) (by simp)
    | join c =>
      obtain ⟨hlen, hw⟩ := (build_logical_eq_panic c hs).mp h
      obtain ⟨before, f, after, rfl, hbefore, hf⟩ := Outcome.mapM_eq_panic.mp hw
      exact .join hs hlen (fun g hg => build_ok_iff.mp (hbefore g hg)) (ih f (by simp) hf)
    | not =>
      obtain ⟨f, rfl, hf⟩ := (build_not_eq_panic hs).mp h
      exact .not hs (ih f (by simp) hf)
    | unary u => exact absurd h (build_unary_ne_panic u hs)
    | set m =>
      obtain ⟨c, ty, items, rfl, hty, hw⟩ := (build_set_eq_panic m hs).mp h
      obtain ⟨before, x, after, rfl, hbefore, hx⟩ := Outcome.mapM_eq_panic.mp hw
      exact .set hs hty (fun y hy => datum_ok_iff.mp (hbefore y hy)) (datum_panic_iff.mp ⟨w, hx⟩)
    | binary b =>
      obtain ⟨c, ty, lit, rfl, hty, hw⟩ := (build_binary_eq_panic b hs).mp h
      exact .binary hs hty (datum_panic_iff.mp ⟨w, hw⟩)

/-- The parser panics exactly on a wide number for a time or timestamp column that its
reading comes to. -/
theorem parser_never_panics_iff (api : DatumApi) (ops : PredicateOps) (schema : Schema) :
    (∀ v ty c, (∀ w, datum api v ty c ≠ .panic w) ↔ ¬ Wide v ty) ∧
    (∀ v, (∀ w, build api ops schema v ≠ .panic w) ↔ ¬ Reaches api schema v) ∧
    (∀ parseJson json, (∀ w, parseFilter api ops schema parseJson json ≠ .panic w) ↔
      ∀ v, parseJson json = .ok v → ¬ Reaches api schema v) := by
  have hbuild : ∀ v, (∀ w, build api ops schema v ≠ .panic w) ↔ ¬ Reaches api schema v := by
    intro v
    rw [← not_exists, not_iff_not]
    constructor
    · rintro ⟨w, h⟩
      exact reaches_of_build h
    · exact build_of_reaches
  refine ⟨fun v ty c => ?_, hbuild, fun parseJson json => ?_⟩
  · rw [← not_exists, not_iff_not]
    exact datum_panic_iff
  · cases h : parseJson json <;> simp [parseFilter, Outcome.ofExcept, h, hbuild]

/-- The literal `9223372036854775808` for a `timestamp` column panics. -/
theorem build_timestamp_panics :
    build .basic .simplifying .orders (.array [.string "=", .string "ts",
      .number (.posInt 9223372036854775808)]) =
        .panic "called `Option::unwrap()` on a `None` value" := rfl

end
end Filter
end IcebergRs
