import IcebergRs.Iceberg.History
import IcebergRs.Shim.FilterTypes
import IcebergRs.Shim.Scan

/-! Filters on scans of a snapshot. The shim reads a filter against the current schema of the
table, and the scan binds it against the schema the snapshot records. -/
namespace IcebergRs.Filter

section
variable (api : DatumApi)

/-- Some literal is read for columns of the type. -/
def HasLiteral (ty : PrimitiveType) : Prop := ∃ v c d, datum api v ty c = .ok d

/-- One type, or two decimals. -/
def SameKind : PrimitiveType → PrimitiveType → Prop
  | .decimal _ _, .decimal _ _ => True
  | a, b => a = b

/-- What a filter can do with a column name is the same under both schemas. -/
structure SameColumn (current scanned : Schema) (c : String) : Prop where
  kept : (scanned.primitive? c).isSome → (current.primitive? c).isSome
  same : ∀ ty, current.primitive? c = some ty ∨ scanned.primitive? c = some ty → HasLiteral api ty →
    ∃ a b, current.primitive? c = some a ∧ scanned.primitive? c = some b ∧ SameKind a b ∧
      ∀ lit, DecimalMatches api lit b

variable {api} {v lit : Json} {ty a b : PrimitiveType} {c c' : String} {d : Datum}

/-- Reading a literal depends neither on the column's name nor on the digits of a decimal. -/
theorem datum_congr (c' : String) (hab : SameKind a b) (h : datum api v a c = .ok d) :
    datum api v b c' = .ok d := by
  cases a with
  | decimal p s =>
    cases b with
    | decimal p' s' => cases v <;> simp_all [datum]
    | _ => cases hab
  | _ =>
    obtain rfl : _ = b := by cases b <;> exact hab
    cases v <;> simp_all [datum, Outcome.bind_eq_ok]

theorem sameKind_self (ty : PrimitiveType) : SameKind ty ty := by
  cases ty <;> first | rfl | trivial

theorem sameKind_symm (h : SameKind a b) : SameKind b a := by
  cases a <;> cases b <;> first | trivial | exact h.symm

theorem sameKind_of_datum (hapi : api.Lawful) (h : datum api v ty c = .ok d) :
    SameKind ty d.ty := by
  cases ty with
  | decimal p s =>
    obtain ⟨t, ht⟩ : ∃ t, api.decimalFromStr t = .ok d := by
      cases v with
      | string s => exact ⟨s, Outcome.ofExcept_eq_ok.mp h⟩
      | number n => exact ⟨_, Outcome.ofExcept_eq_ok.mp h⟩
      | _ => simp [datum] at h
    rw [hapi.decimal t d ht]
    trivial
  | _ =>
    rw [(typedAs_of_datum hapi (by trivial) h).type]
    exact sameKind_self _

theorem SameColumn.datum {current scanned : Schema} (h : SameColumn api current scanned c)
    (hb : scanned.primitive? c = some b) (hd : Filter.datum api lit b c = .ok d) :
    ∃ a, current.primitive? c = some a ∧ Filter.datum api lit a c = .ok d := by
  obtain ⟨a, b', ha, hb', hab, -⟩ := h.same b (.inr hb) ⟨lit, c, d, hd⟩
  obtain rfl := Option.some.inj (hb.symm.trans hb')
  exact ⟨a, ha, datum_congr _ (sameKind_symm hab) hd⟩

theorem SameColumn.typed (hapi : api.Lawful) {current scanned : Schema}
    (h : SameColumn api current scanned c) (ha : current.primitive? c = some a)
    (hd : Filter.datum api lit a c = .ok d) : scanned.primitive? c = some d.ty := by
  obtain ⟨a', b, ha', hb, hab, hm⟩ := h.same a (.inl ha) ⟨lit, c, d, hd⟩
  obtain rfl := Option.some.inj (ha.symm.trans ha')
  rw [hb, (typedAs_of_datum hapi (hm lit) (datum_congr c hab hd)).type]

variable {ops : PredicateOps} {schema current scanned : Schema} {p : Predicate}

/-- Every datum of an accepted filter was read for the type of its column. -/
theorem datums_of_builds (hops : ops.Lawful) (h : Builds api ops schema v p) :
    ∀ x ∈ p.atoms, ∀ d ∈ x.datums, ∃ ty lit, schema.primitive? x.column = some ty ∧
      Filter.datum api lit ty x.column = .ok d := by
  induction h with
  | alwaysTrue | alwaysFalse => simp [Predicate.atoms]
  | logical c hs hrest _ ih =>
    intro x hx
    obtain ⟨q, hq, hxq⟩ := hops.atoms_foldl hx
    obtain ⟨r, hr, rfl⟩ := List.mem_map.mp (List.map_cons (f := Prod.snd) ▸ hq)
    exact ih r hr x hxq
  | not hs _ ih =>
    intro x hx
    rcases hops.atoms_negate _ x hx with hx | hx
    · exact ih x hx
    · simpa using ih x.complement hx
  | unary => simp [Predicate.atoms, Atom.datums]
  | set m hs hty hds =>
    simp only [Predicate.atoms, List.mem_singleton, forall_eq, Atom.datums, Atom.column]
    intro d hd
    obtain ⟨x, -, hxd⟩ := Outcome.mem_of_mapM_ok hds hd
    exact ⟨_, x, hty, hxd⟩
  | binary b hs hty hd =>
    simp only [Predicate.atoms, List.mem_singleton, forall_eq, Atom.datums, Atom.column]
    exact ⟨_, _, hty, hd⟩

/-- A filter read under the scanned schema is read alike under the current one. -/
theorem builds_of_sameColumn (h : ∀ c, SameColumn api current scanned c)
    (hp : Builds api ops scanned v p) : Builds api ops current v p := by
  induction hp with
  | alwaysTrue hs => exact .alwaysTrue hs
  | alwaysFalse hs => exact .alwaysFalse hs
  | logical c hs hrest _ ih => exact .logical c hs hrest ih
  | not hs _ ih => exact .not hs ih
  | unary u hs => exact .unary u hs
  | @set s c ty items ds m hs hty hds =>
    obtain ⟨a, ha⟩ := Option.isSome_iff_exists.mp ((h c).kept (hty ▸ rfl))
    refine .set m hs ha (Outcome.mapM_eq_ok.mpr ?_)
    apply (Outcome.mapM_eq_ok.mp hds).imp
    intro x d hd
    obtain ⟨a', ha', hd'⟩ := (h c).datum hty hd
    obtain rfl := Option.some.inj (ha.symm.trans ha')
    exact hd'
  | @binary s c ty lit d b hs hty hd =>
    obtain ⟨a, ha, hd'⟩ := (h c).datum hty hd
    exact .binary b hs ha hd'

theorem wellTyped_of_sameColumn (hapi : api.Lawful) (hops : ops.Lawful)
    (h : ∀ c, SameColumn api current scanned c) (hp : Builds api ops current v p) :
    WellTyped scanned p := by
  intro x hx d hd
  obtain ⟨ty, lit, hty, hlit⟩ := datums_of_builds hops hp x hx d hd
  exact (h x.column).typed hapi hty hlit

/-- If every filter that is read under one schema is accepted under the other, and typed by
it, then the columns are the same. -/
theorem sameColumn_of_served (hapi : api.Lawful)
    (hacc : ∀ v p, build api ops scanned v = .ok p → build api ops current v = .ok p)
    (htyp : ∀ v p, build api ops current v = .ok p → WellTyped scanned p) (c : String) :
    SameColumn api current scanned c := by
  have hin : Op.read "in" = some (.set .isIn) := by decide
  have heq : Op.read "=" = some (.binary .eq) := by decide
  have hkept : ∀ b, scanned.primitive? c = some b → ∃ a, current.primitive? c = some a := by
    intro b hb
    have hs : Builds api ops scanned (.array [.string "in", .string c, .array []]) _ :=
      .set .isIn hin hb rfl
    obtain ⟨c', a, items, ds, hargs, ha, -⟩ :=
      (build_set_eq_ok .isIn hin).mp (hacc _ _ (build_eq_ok.mpr hs))
    obtain ⟨rfl, -⟩ : c = c' ∧ [] = items := by simpa using hargs
    exact ⟨a, ha⟩
  have hread : ∀ a lit d, current.primitive? c = some a → datum api lit a c = .ok d →
      scanned.primitive? c = some d.ty := by
    intro a lit d ha hd
    have hp := htyp _ _ (build_eq_ok.mpr (.binary .eq heq ha hd))
    simpa [Predicate.atoms, Atom.datums, Atom.column, WellTyped] using hp
  have hsame : ∀ a, current.primitive? c = some a → HasLiteral api a →
      ∃ a b, current.primitive? c = some a ∧ scanned.primitive? c = some b ∧ SameKind a b ∧
        ∀ lit, DecimalMatches api lit b := by
    rintro a ha ⟨lit, c', d, hd⟩
    have hd := datum_congr c (sameKind_self a) hd
    have hb := hread a lit d ha hd
    have hab := sameKind_of_datum hapi hd
    refine ⟨a, d.ty, ha, hb, hab, fun lit' => decimalMatches_of_type hapi (c := c) ?_⟩
    intro d' hd'
    have hb' := hread a lit' d' ha (datum_congr _ (sameKind_symm hab) hd')
    exact Option.some.inj (hb'.symm.trans hb)
  refine ⟨fun hb => ?_, fun ty hty hlit => ?_⟩
  · obtain ⟨b, hb⟩ := Option.isSome_iff_exists.mp hb
    exact Option.isSome_iff_exists.mpr (hkept b hb)
  · rcases hty with ha | hb
    · exact hsame ty ha hlit
    · obtain ⟨lit, c', d, hd⟩ := hlit
      have hd := datum_congr c (sameKind_self ty) hd
      have hs : Builds api ops scanned (.array [.string "=", .string c, lit]) _ :=
        .binary .eq heq hb hd
      obtain ⟨c'', a, lit', d', hargs, ha, hd', -⟩ :=
        (build_binary_eq_ok .eq heq).mp (hacc _ _ (build_eq_ok.mpr hs))
      obtain ⟨rfl, rfl⟩ : c = c'' ∧ lit = lit' := by simpa using hargs
      exact hsame a ha ⟨lit, c, d', hd'⟩

section
variable {parseJson : String → Except String Json} {h : TableHandle}
variable {columnsCsv filterJson : CString} {csv : Option String} {text : String} {id : ℤ}
variable (hcsv : cstrOpt columnsCsv "ib_scan_new: columns_csv" = .ok csv)
variable (htext : cstrOpt filterJson "ib_scan_new: filter_json" = .ok (some text))
variable (hne : trim text ≠ "") (hv : parseJson (trim text) = .ok v)
include hcsv htext hne hv

/-- The scan builder is told the predicate that the current schema makes of the filter. -/
theorem scanRequest_eq_ok {request : ScanRequest} :
    scanRequest api ops parseJson h columnsCsv id filterJson = .ok request ↔
      ∃ p, build api ops h.table.currentSchema v = .ok p ∧
        request = ⟨projection csv, if id ≠ 0 then some id else none, some p⟩ := by
  have hfilter : ((some text).map trim).filter (· ≠ "") = some (trim text) := by simp [hne]
  have hparse : parseFilter api ops h.table.currentSchema parseJson (trim text) =
      build api ops h.table.currentSchema v := by
    simp [parseFilter, hv, Outcome.ofExcept]
  simp only [scanRequest, hcsv, htext, Outcome.ofExcept, Outcome.ok_bind, hfilter, hparse,
    Outcome.bind_eq_ok, Outcome.mapErr_eq_ok, Outcome.pure_eq, Outcome.ok.injEq,
    @eq_comm _ request]

theorem scanRequest_filter :
    (∃ request, scanRequest api ops parseJson h columnsCsv id filterJson = .ok request ∧
      request.filter = some p) ↔ build api ops h.table.currentSchema v = .ok p := by
  simp only [scanRequest_eq_ok hcsv htext hne hv]
  constructor
  · rintro ⟨_, ⟨q, hq, rfl⟩, hp⟩
    rwa [← Option.some.inj hp]
  · intro hp
    exact ⟨_, ⟨p, hp, rfl⟩, rfl⟩

end

variable (api ops) in
/-- Every filter that is well typed for the schema is handed to the scan as that schema
reads it, and no filter that is handed over has a datum of another type. -/
def ServedBy (h : TableHandle) (id : ℤ) (scanned : Schema) : Prop :=
  ∀ (parseJson : String → Except String Json) (columnsCsv filterJson : CString)
      (csv : Option String) (text : String) (v : Json),
    cstrOpt columnsCsv "ib_scan_new: columns_csv" = .ok csv →
    cstrOpt filterJson "ib_scan_new: filter_json" = .ok (some text) → trim text ≠ "" →
    parseJson (trim text) = .ok v →
    (∀ p, build api ops scanned v = .ok p →
      ∃ request, scanRequest api ops parseJson h columnsCsv id filterJson = .ok request ∧
        request.filter = some p) ∧
    ∀ request p, scanRequest api ops parseJson h columnsCsv id filterJson = .ok request →
      request.filter = some p → WellTyped scanned p

theorem servedBy_iff (hapi : api.Lawful) (hops : ops.Lawful) (h : TableHandle) (id : ℤ)
    (scanned : Schema) : ServedBy api ops h id scanned ↔
      ∀ c, SameColumn api h.table.currentSchema scanned c := by
  constructor
  · intro hall
    have hname : ∀ what, cstrOpt (cName "f") what = .ok (some "f") := fun what =>
      (cstrOpt_cName_eq "f" what).trans (by rw [uptoNul_eq (by decide)])
    have hne : trim "f" ≠ "" := by decide
    have hserved : ∀ v, _ := fun v =>
      hall (fun _ => .ok v) none (cName "f") none "f" v rfl (hname _) hne rfl
    apply sameColumn_of_served hapi
    · intro v p hp
      exact (scanRequest_filter rfl (hname _) hne rfl).mp ((hserved v).1 p hp)
    · intro v p hp
      have hreq : (∃ request, scanRequest api ops (fun _ => .ok v) h none id (cName "f") =
          .ok request ∧ request.filter = some p) ↔ _ := scanRequest_filter rfl (hname _) hne rfl
      obtain ⟨request, hr, hf⟩ := hreq.mpr hp
      exact (hserved v).2 request p hr hf
  · intro hall parseJson columnsCsv filterJson csv text v hcsv htext hne hv
    have hreq (p : Predicate) : (∃ request, scanRequest api ops parseJson h columnsCsv id
        filterJson = .ok request ∧ request.filter = some p) ↔ _ :=
      scanRequest_filter hcsv htext hne hv
    refine ⟨fun p hp => ?_, fun request p hr hf => ?_⟩
    · exact (hreq p).mpr (build_eq_ok.mpr (builds_of_sameColumn hall (build_eq_ok.mp hp)))
    · have hp := (hreq p).mp ⟨request, hr, hf⟩
      exact wellTyped_of_sameColumn hapi hops hall (build_eq_ok.mp hp)

variable (api ops) in
/-- The filters on a scan of the snapshot are read by the schema the scan binds them to. -/
def Served (t : TableHistory) (pending : List DataFile) (id : ℤ) : Prop :=
  ∀ scanned, t.scannedSchema id = some scanned → ServedBy api ops ⟨t.toTable, pending⟩ id scanned

/-- The filters on a scan are typed by the schema of its snapshot exactly when a filter can
do the same with every column name under that schema and under the current one. -/
theorem snapshot_filters_served_iff (hapi : api.Lawful) (hops : ops.Lawful) (t : TableHistory)
    (pending : List DataFile) (id : ℤ) : Served api ops t pending id ↔
      ∀ scanned, t.scannedSchema id = some scanned →
        ∀ c, SameColumn api t.currentSchema scanned c :=
  forall_congr' fun scanned => forall_congr' fun _ => servedBy_iff hapi hops _ id scanned

/-- The schema that snapshot 7 of the table below records. -/
def evolvedFrom : Schema where
  fields := [⟨1, "x", false, .primitive .int⟩, ⟨2, "n", false, .primitive .int⟩]
  nested := []
  names := by decide
  ids := by decide

/-- A table whose column `x` was an `int` when snapshot 7 was written, and is a `string` now,
and whose column `n` was promoted from `int` to `long`. -/
def evolved : TableHistory where
  identifier := .within "db" "evolved"
  currentSchema :=
    { fields := [⟨2, "n", false, .primitive .long⟩, ⟨3, "x", false, .primitive .string⟩]
      nested := []
      names := by decide
      ids := by decide }
  unpartitioned := true
  snapshots := [⟨7, []⟩]
  currentSnapshotId := some 7
  uuid := "9c12d441"
  schemas := [(0, evolvedFrom)]
  schemaId _ := some 0

theorem snapshot_filters_served_evolved : Served .basic .simplifying evolved [] 7 ↔
    ∀ scanned, evolved.scannedSchema 7 = some scanned →
      ∀ c, SameColumn .basic evolved.currentSchema scanned c :=
  snapshot_filters_served_iff DatumApi.basic_lawful PredicateOps.simplifying_lawful evolved [] 7

/-- The filter on `x` that its snapshot reads is refused, and the one on `n` is handed over
with a `long` although the snapshot has an `int`, also for the current snapshot. -/
theorem snapshot_filter_mistyped : evolved.scannedSchema 7 = some evolvedFrom ∧
    evolved.scannedSchema 0 = some evolvedFrom ∧
    build .basic .simplifying evolvedFrom
        (.array [.string "=", .string "x", .number (.posInt 3)]) =
      .ok (.atom (.binary .eq "x" (.int 3))) ∧
    (∀ request, scanRequest .basic .simplifying
        (fun _ => .ok (.array [.string "=", .string "x", .number (.posInt 3)]))
        ⟨evolved.toTable, []⟩ none 7 (cName "f") ≠ .ok request) ∧
    (∃ request, scanRequest .basic .simplifying
        (fun _ => .ok (.array [.string "=", .string "n", .number (.posInt 3)]))
        ⟨evolved.toTable, []⟩ none 0 (cName "f") = .ok request ∧
      request.filter = some (.atom (.binary .eq "n" (.long 3)))) ∧
    ¬ WellTyped evolvedFrom (.atom (.binary .eq "n" (.long 3))) := by
  have hname : ∀ what, cstrOpt (cName "f") what = .ok (some "f") := fun what =>
    (cstrOpt_cName_eq "f" what).trans (by rw [uptoNul_eq (by decide)])
  have hne : trim "f" ≠ "" := by decide
  refine ⟨rfl, rfl, rfl, fun request h => ?_, ?_, fun h => ?_⟩
  · have hbuild : build .basic .simplifying evolved.currentSchema
        (.array [.string "=", .string "x", .number (.posInt 3)]) =
          .err "filter: column 'x' is a primitive type, expected a string literal, got 3" := rfl
    obtain ⟨p, hp, -⟩ := (scanRequest_eq_ok rfl (hname _) hne rfl).mp h
    rw [hbuild] at hp
    cases hp
  · exact (scanRequest_filter rfl (hname _) hne rfl).mpr rfl
  · have hty := h _ (List.mem_singleton_self _) _ (List.mem_singleton_self _)
    exact absurd hty (by decide)

end
end IcebergRs.Filter
