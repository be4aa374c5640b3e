import IcebergRs.Shim.Filter

/-! What a run of `build` that succeeds can have done, as a relation between JSON values
and predicates with one rule for each kind of node. -/
namespace IcebergRs.Filter

/-- The operators of the language, apart from how they are spelled. -/
inductive Op where
  | const (b : Bool)
  | join (c : Connective)
  | not
  | unary (u : UnaryOp)
  | set (m : SetOp)
  | binary (b : BinaryOp)
  deriving DecidableEq

/-- The operator that a lower-case spelling names. -/
def Op.ofLower : String → Option Op
  | "true" => some (.const true)
  | "false" => some (.const false)
  | "and" => some (.join .and)
  | "or" => some (.join .or)
  | "not" => some .not
  | "is-null" | "isnull" => some (.unary .isNull)
  | "not-null" | "is-not-null" | "notnull" => some (.unary .notNull)
  | "is-nan" | "isnan" => some (.unary .isNan)
  | "not-nan" | "is-not-nan" => some (.unary .notNan)
  | "in" => some (.set .isIn)
  | "not-in" | "notin" => some (.set .notIn)
  | "=" | "==" | "eq" => some (.binary .eq)
  | "!=" | "<>" | "ne" => some (.binary .notEq)
  | "<" | "lt" => some (.binary .lessThan)
  | "<=" | "le" => some (.binary .lessThanOrEq)
  | ">" | "gt" => some (.binary .greaterThan)
  | ">=" | "ge" => some (.binary .greaterThanOrEq)
  | "starts-with" | "startswith" => some (.binary .startsWith)
  | "not-starts-with" => some (.binary .notStartsWith)
  | _ => none

/-- The operator that a spelling in any ASCII case names. -/
def Op.read (s : String) : Option Op := Op.ofLower (toAsciiLowercase s)

def Op.arm : Op → Arm
  | .const true => .alwaysTrue
  | .const false => .alwaysFalse
  | .join _ => .logical
  | .not => .not
  | .unary .isNull => .isNull
  | .unary .notNull => .notNull
  | .unary .isNan => .isNan
  | .unary .notNan => .notNan
  | .set _ => .membership
  | .binary _ => .comparison

/-- How many arguments the operator takes, where that is fixed. -/
def Op.arity : Op → Option ℕ
  | .const _ | .join _ => none
  | .not | .unary _ => some 1
  | .set _ | .binary _ => some 2

/-- The outer match sends each spelling to the arm of its operator. -/
theorem arm_eq_map (t : String) : arm t = (Op.ofLower t).map Op.arm := by
  unfold Op.ofLower
  split <;> try rfl
  unfold arm
  split <;> first | rfl | contradiction

theorem comparison_of_read {t : String} {b : BinaryOp} (h : Op.ofLower t = some (.binary b))
    (r : Reference) (d : Datum) : comparison t r d = .atom (.binary b r.name d) := by
  unfold Op.ofLower at h
  split at h <;> cases h <;> rfl

theorem membership_of_read {t : String} {m : SetOp} (h : Op.ofLower t = some (.set m))
    (r : Reference) (ds : List Datum) : membership t r ds = .atom (.set m r.name ds) := by
  unfold Op.ofLower at h
  split at h <;> cases h <;> rfl

theorem join_of_read {t : String} {c : Connective} (h : Op.ofLower t = some (.join c))
    (ops : PredicateOps) :
    ops.join c = fun acc p => if t = "and" then ops.and acc p else ops.or acc p := by
  unfold Op.ofLower at h
  split at h <;> cases h <;> rfl

theorem arm_of_read {s : String} {o : Op} (h : Op.read s = some o) :
    arm (toAsciiLowercase s) = some o.arm := by
  rw [arm_eq_map, ← Op.read, h, Option.map_some]

theorem columnType_eq_ok {schema : Schema} {name : String} {ty : PrimitiveType} :
    columnType schema name = .ok ty ↔ schema.primitive? name = some ty := by
  unfold columnType
  rw [Schema.primitive?_eq_some]
  split
  next h => simp [h]
  next field h =>
    cases hf : field.fieldType <;> simp [h, hf]

@[simp] theorem columnType_ne_panic {schema : Schema} {name w : String} :
    columnType schema name ≠ .panic w := by
  unfold columnType
  split
  · simp
  · split <;> simp

@[simp] theorem need_self {op : String} {n : ℕ} : need op n n = .ok () := if_pos rfl

/-- A node has its operator, so counting its arguments does not go below zero. -/
theorem need_err {op : String} {len n : ℕ} (h : len ≠ n) :
    ∃ m, need op (len + 1) (n + 1) = .err m := by
  simp [need, sub, h]

@[simp] theorem col_eq_ok {op c : String} {f g : Json} {args : List Json} :
    col op (f :: g :: args) 1 = .ok c ↔ g = .string c := by
  simp [col, Json.asStr_eq_some]

@[simp] theorem col_ne_panic {op w : String} {arr : List Json} {i : ℕ} :
    col op arr i ≠ .panic w := by
  simp [col]

section
variable (api : DatumApi) (ops : PredicateOps) (schema : Schema)

inductive Builds : Json → Predicate → Prop
  | alwaysTrue {s : String} {args : List Json} (hs : Op.read s = some (.const true)) :
      Builds (.array (.string s :: args)) .alwaysTrue
  | alwaysFalse {s : String} {args : List Json} (hs : Op.read s = some (.const false)) :
      Builds (.array (.string s :: args)) .alwaysFalse
  | logical {s : String} {first : Json × Predicate} {rest : List (Json × Predicate)}
      (c : Connective) (hs : Op.read s = some (.join c)) (hrest : rest ≠ [])
      (h : ∀ q ∈ first :: rest, Builds q.1 q.2) :
      Builds (.array (.string s :: first.1 :: rest.map Prod.fst))
        ((rest.map Prod.snd).foldl (ops.join c) first.2)
  | not {s : String} {f : Json} {p : Predicate} (hs : Op.read s = some .not)
      (h : Builds f p) : Builds (.array [.string s, f]) (ops.negate p)
  | unary {s c : String} (u : UnaryOp) (hs : Op.read s = some (.unary u)) :
      Builds (.array [.string s, .string c]) (.atom (.unary u c))
  | set {s c : String} {ty : PrimitiveType} {items : List Json} {ds : List Datum} (m : SetOp)
      (hs : Op.read s = some (.set m)) (hty : schema.primitive? c = some ty)
      (hds : items.mapM (datum api · ty c) = .ok ds) :
      Builds (.array [.string s, .string c, .array items]) (.atom (.set m c ds))
  | binary {s c : String} {ty : PrimitiveType} {lit : Json} {d : Datum} (b : BinaryOp)
      (hs : Op.read s = some (.binary b)) (hty : schema.primitive? c = some ty)
      (hd : datum api lit ty c = .ok d) :
      Builds (.array [.string s, .string c, lit]) (.atom (.binary b c d))

variable {api ops schema}

theorem build_array (arr : List Json) :
    build api ops schema (.array arr) =
      buildNode api ops schema arr (arr.map (build api ops schema)) := by
  have h : ∀ vs, buildEach api ops schema vs = vs.map (build api ops schema) := by
    intro vs
    induction vs with
    | nil => rfl
    | cons v vs ih => simp only [buildEach, ih, List.map_cons]
  simp only [build, h]

/-- Every node that is not refused at once starts with an operator that has an arm. -/
theorem head_of_build {xs : List Json} (h : ∀ m, build api ops schema (.array xs) ≠ .err m) :
    ∃ s args o, xs = .string s :: args ∧ Op.read s = some o := by
  rw [build_array, buildNode] at h
  rcases xs with _ | ⟨head, args⟩
  · simp at h
  rcases hh : head.asStr with _ | s
  · simp [hh] at h
  rcases ho : Op.read s with _ | o
  · have harm : arm (toAsciiLowercase s) = none := by
      rw [arm_eq_map, ← Op.read, ho, Option.map_none]
    simp [hh, harm] at h
  obtain rfl := Json.asStr_eq_some.mp hh
  exact ⟨s, args, o, rfl, ho⟩

section arms
variable {s : String} {args : List Json} {p : Predicate} {w : String}

theorem build_alwaysTrue (hs : Op.read s = some (.const true)) :
    build api ops schema (.array (.string s :: args)) = .ok .alwaysTrue := by
  rw [build_array, buildNode]
  simp only [List.head?_cons, Option.bind_some, Json.asStr, arm_of_read hs, Op.arm]

theorem build_alwaysFalse (hs : Op.read s = some (.const false)) :
    build api ops schema (.array (.string s :: args)) = .ok .alwaysFalse := by
  rw [build_array, buildNode]
  simp only [List.head?_cons, Option.bind_some, Json.asStr, arm_of_read hs, Op.arm]

/-- An operator with another number of arguments than it takes is refused. -/
theorem build_arity_err {o : Op} {n : ℕ} (hs : Op.read s = some o) (ho : o.arity = some n)
    (hargs : args.length ≠ n) :
    ∃ m, build api ops schema (.array (.string s :: args)) = .err m := by
  obtain ⟨m, hm⟩ := @need_err (toAsciiLowercase s) _ _ hargs
  refine ⟨m, ?_⟩
  rw [build_array, buildNode]
  simp only [List.head?_cons, Option.bind_some, Json.asStr, arm_of_read hs, List.length_cons]
  cases o with
  | const b => cases ho
  | join c => cases ho
  | not => cases ho; simp [Op.arm, hm]
  | unary u => cases ho; cases u <;> simp [Op.arm, hm]
  | set c => cases ho; simp [Op.arm, hm]
  | binary b => cases ho; simp [Op.arm, hm]

/-- What holds of some arguments of the right number is to be shown only for that number. -/
theorem build_iff_of_arity {o : Op} {n : ℕ} {r : Outcome Predicate} {P : Prop}
    (hs : Op.read s = some o) (ho : o.arity = some n) (hr : ∀ m, .err m ≠ r)
    (hP : P → args.length = n)
    (h : args.length = n → (build api ops schema (.array (.string s :: args)) = r ↔ P)) :
    build api ops schema (.array (.string s :: args)) = r ↔ P := by
  by_cases hargs : args.length = n
  · exact h hargs
  · obtain ⟨m, hm⟩ : ∃ m, build api ops schema _ = .err m := build_arity_err hs ho hargs
    rw [hm]
    exact iff_of_false (hr m) fun hp => hargs (hP hp)

theorem build_not (hs : Op.read s = some .not) (f : Json) :
    build api ops schema (.array [.string s, f]) =
      build api ops schema f >>= fun q => .ok (ops.negate q) := by
  rw [build_array, buildNode]
  simp [Json.asStr, arm_of_read hs, Op.arm, index]

theorem build_unary (u : UnaryOp) (hs : Op.read s = some (.unary u)) (f : Json) :
    build api ops schema (.array [.string s, f]) =
      col (toAsciiLowercase s) [.string s, f] 1 >>= fun c => .ok (.atom (.unary u c)) := by
  rw [build_array, buildNode]
  simp only [List.head?_cons, Option.bind_some, Json.asStr, arm_of_read hs]
  cases u <;> simp [Op.arm, Reference.isNull, Reference.isNotNull, Reference.isNan,
    Reference.isNotNan]

theorem build_set (m : SetOp) (hs : Op.read s = some (.set m)) (f g : Json) :
    ∃ e, build api ops schema (.array [.string s, f, g]) = (do
      let c ← col (toAsciiLowercase s) [.string s, f, g] 1
      let ty ← columnType schema c
      let items ← .okOr g.asArray e
      let ds ← items.mapM (datum api · ty c)
      .ok (.atom (.set m c ds))) := by
  rw [build_array, buildNode]
  simp only [List.head?_cons, Option.bind_some, Json.asStr, arm_of_read hs, Op.arm,
    membership_of_read hs]
  exact ⟨_, rfl⟩

theorem build_binary (b : BinaryOp) (hs : Op.read s = some (.binary b)) (f lit : Json) :
    build api ops schema (.array [.string s, f, lit]) = (do
      let c ← col (toAsciiLowercase s) [.string s, f, lit] 1
      let ty ← columnType schema c
      let d ← datum api lit ty c
      .ok (.atom (.binary b c d))) := by
  rw [build_array, buildNode]
  simp only [List.head?_cons, Option.bind_some, Json.asStr, arm_of_read hs, Op.arm,
    comparison_of_read hs]
  rfl

theorem build_not_eq_ok (hs : Op.read s = some .not) :
    build api ops schema (.array (.string s :: args)) = .ok p ↔
      ∃ f q, args = [f] ∧ build api ops schema f = .ok q ∧ p = ops.negate q := by
  refine build_iff_of_arity hs rfl (by simp) (fun ⟨_, _, h, _⟩ => congrArg List.length h)
    fun hargs => ?_
  obtain ⟨f, rfl⟩ := List.length_eq_one_iff.mp hargs
  simp [build_not hs, Outcome.bind_eq_ok, @eq_comm _ p]

theorem build_not_eq_panic (hs : Op.read s = some .not) :
    build api ops schema (.array (.string s :: args)) = .panic w ↔
      ∃ f, args = [f] ∧ build api ops schema f = .panic w := by
  refine build_iff_of_arity hs rfl (by simp) (fun ⟨_, h, _⟩ => congrArg List.length h)
    fun hargs => ?_
  obtain ⟨f, rfl⟩ := List.length_eq_one_iff.mp hargs
  simp [build_not hs, Outcome.bind_eq_panic]

theorem build_unary_eq_ok (u : UnaryOp) (hs : Op.read s = some (.unary u)) :
    build api ops schema (.array (.string s :: args)) = .ok p ↔
      ∃ c, args = [.string c] ∧ p = .atom (.unary u c) := by
  refine build_iff_of_arity hs rfl (by simp) (fun ⟨_, h, _⟩ => congrArg List.length h)
    fun hargs => ?_
  obtain ⟨f, rfl⟩ := List.length_eq_one_iff.mp hargs
  simp [build_unary u hs, Outcome.bind_eq_ok, @eq_comm _ p]

theorem build_unary_ne_panic (u : UnaryOp) (hs : Op.read s = some (.unary u)) :
    build api ops schema (.array (.string s :: args)) ≠ .panic w := by
  by_cases hargs : args.length = 1
  · obtain ⟨f, rfl⟩ := List.length_eq_one_iff.mp hargs
    simp [build_unary u hs, Outcome.bind_eq_panic]
  · obtain ⟨m, hm⟩ : ∃ m, build api ops schema _ = .err m := build_arity_err hs rfl hargs
    simp [hm]

theorem build_set_eq_ok (m : SetOp) (hs : Op.read s = some (.set m)) :
    build api ops schema (.array (.string s :: args)) = .ok p ↔
      ∃ c ty items ds, args = [.string c, .array items] ∧ schema.primitive? c = some ty ∧
        items.mapM (datum api · ty c) = .ok ds ∧ p = .atom (.set m c ds) := by
  refine build_iff_of_arity hs rfl (by simp) (fun ⟨_, _, _, _, h, _⟩ => congrArg List.length h)
    fun hargs => ?_
  obtain ⟨f, g, rfl⟩ := List.length_eq_two.mp hargs
  obtain ⟨e, he⟩ : ∃ e, build api ops schema _ = _ := build_set m hs f g
  simp only [he, Outcome.bind_eq_ok, col_eq_ok, columnType_eq_ok, Outcome.okOr_eq_ok,
    Json.asArray_eq_some, Outcome.ok.injEq]
  constructor
  · rintro ⟨c, rfl, ty, hty, items, rfl, ds, hds, rfl⟩
    exact ⟨c, ty, items, ds, rfl, hty, hds, rfl⟩
  · rintro ⟨c, ty, items, ds, h, hty, hds, rfl⟩
    cases h
    exact ⟨c, rfl, ty, hty, items, rfl, ds, hds, rfl⟩

theorem build_set_eq_panic (m : SetOp) (hs : Op.read s = some (.set m)) :
    build api ops schema (.array (.string s :: args)) = .panic w ↔
      ∃ c ty items, args = [.string c, .array items] ∧ schema.primitive? c = some ty ∧
        items.mapM (datum api · ty c) = .panic w := by
  refine build_iff_of_arity hs rfl (by simp) (fun ⟨_, _, _, h, _⟩ => congrArg List.length h)
    fun hargs => ?_
  obtain ⟨f, g, rfl⟩ := List.length_eq_two.mp hargs
  obtain ⟨e, he⟩ : ∃ e, build api ops schema _ = _ := build_set m hs f g
  simp only [he, Outcome.bind_eq_panic, col_ne_panic, columnType_ne_panic, col_eq_ok,
    columnType_eq_ok, Outcome.okOr_eq_ok, Outcome.okOr_ne_panic, Json.asArray_eq_some,
    reduceCtorEq, and_false, exists_false, false_or, or_false]
  constructor
  · rintro ⟨c, rfl, ty, hty, items, rfl, hw⟩
    exact ⟨c, ty, items, rfl, hty, hw⟩
  · rintro ⟨c, ty, items, h, hty, hw⟩
    cases h
    exact ⟨c, rfl, ty, hty, items, rfl, hw⟩

theorem build_binary_eq_ok (b : BinaryOp) (hs : Op.read s = some (.binary b)) :
    build api ops schema (.array (.string s :: args)) = .ok p ↔
      ∃ c ty lit d, args = [.string c, lit] ∧ schema.primitive? c = some ty ∧
        datum api lit ty c = .ok d ∧ p = .atom (.binary b c d) := by
  refine build_iff_of_arity hs rfl (by simp) (fun ⟨_, _, _, _, h, _⟩ => congrArg List.length h)
    fun hargs => ?_
  obtain ⟨f, lit, rfl⟩ := List.length_eq_two.mp hargs
  simp [build_binary b hs, Outcome.bind_eq_ok, columnType_eq_ok, @eq_comm _ p]

theorem build_binary_eq_panic (b : BinaryOp) (hs : Op.read s = some (.binary b)) :
    build api ops schema (.array (.string s :: args)) = .panic w ↔
      ∃ c ty lit, args = [.string c, lit] ∧ schema.primitive? c = some ty ∧
        datum api lit ty c = .panic w := by
  refine build_iff_of_arity hs rfl (by simp) (fun ⟨_, _, _, h, _⟩ => congrArg List.length h)
    fun hargs => ?_
  obtain ⟨f, lit, rfl⟩ := List.length_eq_two.mp hargs
  simp [build_binary b hs, Outcome.bind_eq_panic, columnType_eq_ok]

/-- With enough operands, all of them are built in order and then joined. -/
theorem build_logical (c : Connective) (hs : Op.read s = some (.join c)) {f : Json}
    {fs : List Json} (hfs : fs ≠ []) :
    build api ops schema (.array (.string s :: f :: fs)) =
      build api ops schema f >>= fun p =>
        fs.mapM (build api ops schema) >>= fun ps => .ok (ps.foldl (ops.join c) p) := by
  have hlen : ¬ (Json.string s :: f :: fs).length < 3 := by
    have := List.length_pos_iff.mpr hfs
    simp only [List.length_cons]
    omega
  rw [build_array, buildNode]
  simp only [List.head?_cons, Option.bind_some, Json.asStr, arm_of_read hs, Op.arm, if_neg hlen,
    List.map_cons, List.drop_succ_cons, List.drop_zero, Outcome.unwrap, Outcome.ok_bind,
    join_of_read hs]
  exact congrArg _ (funext fun p => Outcome.foldlM_map _ _ fs p)

theorem build_logical_err (c : Connective) (hs : Op.read s = some (.join c))
    (args : List Json) (hargs : args.length < 2) :
    ∃ m, build api ops schema (.array (.string s :: args)) = .err m := by
  have hlen : (Json.string s :: args).length < 3 := by
    simp only [List.length_cons]
    omega
  rw [build_array, buildNode]
  simp only [List.head?_cons, Option.bind_some, Json.asStr, arm_of_read hs, Op.arm, if_pos hlen]
  exact ⟨_, rfl⟩

theorem build_logical_eq_panic (c : Connective) (hs : Op.read s = some (.join c)) :
    build api ops schema (.array (.string s :: args)) = .panic w ↔
      2 ≤ args.length ∧ args.mapM (build api ops schema) = .panic w := by
  by_cases hlen : args.length < 2
  · obtain ⟨m, hm⟩ : ∃ m, build api ops schema (.array (.string s :: args)) = .err m :=
      build_logical_err c hs args hlen
    simp [hm, Nat.not_le_of_lt hlen]
  obtain _ | ⟨f, fs⟩ := args
  · simp at hlen
  have hfs : fs ≠ [] := by
    rintro rfl
    simp at hlen
  have hpos : 1 ≤ fs.length := List.length_pos_iff.mpr hfs
  simp [build_logical c hs hfs, Outcome.bind_eq_panic, List.mapM_cons, hpos]

end arms

theorem builds_of_build {v : Json} {p : Predicate} (h : build api ops schema v = .ok p) :
    Builds api ops schema v p := by
  induction v using Json.arrayInduction generalizing p with
  | leaf v hv => cases v <;> simp [build, Json.asArray] at h hv
  | array xs ih =>
    have hne : ∀ m, build api ops schema (.array xs) ≠ .err m := by simp [h]
    obtain ⟨s, args, o, rfl, hs⟩ := head_of_build hne
    cases o with
    | const b =>
      cases b with
      | true =>
        obtain rfl := Outcome.ok.inj ((build_alwaysTrue hs).symm.trans h)
        exact .alwaysTrue hs
      | false =>
        obtain rfl := Outcome.ok.inj ((build_alwaysFalse hs).symm.trans h)
        exact .alwaysFalse hs
    | join c =>
      rcases args with _ | ⟨f, fs⟩
      · obtain ⟨m, hm⟩ := build_logical_err c hs [] (by simp)
        exact absurd (hm.symm.trans h) (by simp)
      by_cases hfs : fs = []
      · obtain ⟨m, hm⟩ := build_logical_err c hs (f :: fs) (by simp [hfs])
        exact absurd (hm.symm.trans h) (by simp)
      rw [build_logical c hs hfs] at h
      obtain ⟨q, hq, ps, hps, rfl⟩ := by simpa only [Outcome.bind_eq_ok, Outcome.ok.injEq] using h
      obtain ⟨qs, rfl, rfl, hqs⟩ := Outcome.mapM_eq_ok_pairs.mp hps
      have hall : ∀ r ∈ (f, q) :: qs, Builds api ops schema r.1 r.2 := by
        intro r hr
        rcases List.mem_cons.mp hr with rfl | hr
        · exact ih f (by simp) hq
        · exact ih r.1 (by simp [List.mem_map_of_mem hr]) (hqs r hr)
      exact .logical c hs (by simpa using hfs) hall
    | not =>
      obtain ⟨f, q, rfl, hf, rfl⟩ := (build_not_eq_ok hs).mp h
      exact .not hs (ih f (by simp) hf)
    | unary u =>
      obtain ⟨c, rfl, rfl⟩ := (build_unary_eq_ok u hs).mp h
      exact .unary u hs
    | set m =>
      obtain ⟨c, ty, items, ds, rfl, hty, hds, rfl⟩ := (build_set_eq_ok m hs).mp h
      exact .set m hs hty hds
    | binary b =>
      obtain ⟨c, ty, lit, d, rfl, hty, hd, rfl⟩ := (build_binary_eq_ok b hs).mp h
      exact .binary b hs hty hd

theorem build_of_builds {v : Json} {p : Predicate} (h : Builds api ops schema v p) :
    build api ops schema v = .ok p := by
  induction h with
  | alwaysTrue hs => exact build_alwaysTrue hs
  | alwaysFalse hs => exact build_alwaysFalse hs
  | @logical s first rest c hs hrest _ ih =>
    have hps : (rest.map Prod.fst).mapM (build api ops schema) = .ok (rest.map Prod.snd) :=
      Outcome.mapM_eq_ok_pairs.mpr
        ⟨rest, rfl, rfl, fun q hq => ih q (List.mem_cons_of_mem _ hq)⟩
    rw [build_logical c hs (by simpa using hrest), ih first (by simp)]
    simp only [Outcome.ok_bind, hps]
  | not hs _ ih => exact (build_not_eq_ok hs).mpr ⟨_, _, rfl, ih, rfl⟩
  | unary u hs => exact (build_unary_eq_ok u hs).mpr ⟨_, rfl, rfl⟩
  | set m hs hty hds => exact (build_set_eq_ok m hs).mpr ⟨_, _, _, _, rfl, hty, hds, rfl⟩
  | binary b hs hty hd => exact (build_binary_eq_ok b hs).mpr ⟨_, _, _, _, rfl, hty, hd, rfl⟩

/-- `build` succeeds exactly along the rules of `Builds`. -/
theorem build_eq_ok {v : Json} {p : Predicate} :
    build api ops schema v = .ok p ↔ Builds api ops schema v p :=
  ⟨builds_of_build, build_of_builds⟩

end
end IcebergRs.Filter
