import IcebergRs.Mojo.Batches
import IcebergRs.Mojo.TypedReads
import IcebergRs.Mojo.Validity
import IcebergRs.Shim.NullPreservation

/-! Columns that are written into a builder and read from the batch that it makes. Between the two
calls a column has the type that the table declares, so its values come back where a cast to that
type and back keeps them. -/
namespace IcebergRs

/-- A column that can be cast to the type comes back from it. -/
def Arrow.Carries (A : Arrow) (col : ArrayRef) (t : DataType) : Prop :=
  ∀ cells, A.castTo col t = .ok cells → A.castTo ⟨t, cells⟩ col.dataType = .ok col.cells

theorem Arrow.carries_self (A : Arrow) (col : ArrayRef) : A.Carries col col.dataType := by
  intro cells h
  rw [castTo_self] at h
  obtain rfl := Except.ok.inj h
  exact castTo_self col

namespace Mojo

/-- The cells of the values, nulls where the mask has false. -/
def masked {α : Type} (values : List α) (valid : List Bool) : List (Option α) :=
  List.zipWith (fun value v => if v then some value else none) values
    (readMask valid values.length)

namespace Values

/-- The column that the shim decodes from the buffers of the call. -/
def column (valid : List Bool) : Values → ArrayRef
  | ints values => ⟨.int64, masked values valid⟩
  | floats values => ⟨.float64, masked values valid⟩
  | bools values => ⟨.boolean, masked values valid⟩
  | strs values => .texts (masked values valid)

/-- The values with zeros where the mask has false. -/
def zeroed (valid : List Bool) : Values → Values
  | ints values => ints ((masked values valid).map (·.getD 0))
  | floats values => floats ((masked values valid).map (·.getD 0.0))
  | bools values => bools ((masked values valid).map (·.getD false))
  | strs values => strs ((masked values valid).map (·.getD ""))

/-- A list fits in memory, a read of numbers needs a row, and the offsets of texts are 32-bit. -/
def Sized : Values → Prop
  | strs values => values.length < 2 ^ 63 ∧ (values.map utf8).flatten.length < 2 ^ 31
  | c => c.length < 2 ^ 63 ∧ 0 < c.length

/-- The read of the same kind. -/
def read (A : Arrow) (batch : RecordBatch) (name : String) : Values → Outcome Values
  | ints _ => do pure (ints (← intCol A batch name))
  | floats _ => do pure (floats (← floatCol A batch name))
  | bools _ => do pure (bools (← boolCol A batch name))
  | strs _ => do pure (strs (← strCol A batch name))

end Values

theorem collect_masked {α : Type} {values : List α} {valid : List Bool} {n : ℕ}
    {v : Option (Vector UInt8 n)} {value : Fin n → α}
    (hvalues : (List.finRange n).map value = values)
    (hv : (List.finRange n).map (fun i => !absent v i) = readMask valid n) :
    collect v value = masked values valid := by
  have hlen : values.length = n := by rw [← hvalues, List.length_map, List.length_finRange]
  rw [masked, hlen, ← hvalues, ← hv, List.zipWith_map, List.zipWith_self]
  apply List.map_congr_left
  intro i _
  cases absent v i <;> rfl

theorem map_vector_get {α : Type} {n : ℕ} (v : Vector α n) :
    (List.finRange n).map v.get = v.toList := by
  apply List.ext_getElem (by simp)
  intro i hi hi'
  simp [Vector.get]

/-- The shim finds behind the pointer of a list what the list has. -/
theorem slice_values {α : Type} (what : String) (xs : List α) {n : ℕ} (hn : xs.length = n) :
    ∃ o vals, slice (unsafePtr xs) n = .ok o ∧ valuesSlice what o = .ok vals ∧
      (List.finRange n).map vals.get = xs := by
  by_cases hne : xs = []
  · subst hne
    obtain rfl : 0 = n := hn
    exact ⟨none, #v[], rfl, rfl, rfl⟩
  · obtain ⟨v, hv, hlist⟩ := slice_unsafePtr xs hne hn
    exact ⟨some v, v, hv, rfl, (map_vector_get v).trans hlist⟩

section
variable {A : Arrow} {b b' b₀ : BuilderHandle} {name : String} {valid : List Bool} {c : Values}

/-- The buffers of a call whose mask covers the values decode to the column. -/
theorem supply_array (hvalid : valid = [] ∨ c.length ≤ valid.length) (hsized : c.Sized) {s : Supply}
    (hs : c.supply name valid = .ok s) : s.array = .ok (c.column valid) := by
  cases c with
  | ints values =>
    obtain ⟨v, hv, hread⟩ := slice_covered (n := values.length) hvalid
    obtain ⟨o, vals, ho, hvals, hlist⟩ := slice_values "ib_batch_builder_int" values rfl
    simp only [Values.supply, ho, hv, Outcome.ok_bind] at hs
    obtain rfl := Outcome.ok.inj hs
    simp only [Supply.array, Supply.what, int64Array, hvals, Outcome.ok_bind]
    exact congrArg (fun cells => Outcome.ok (ArrayRef.mk .int64 cells)) (collect_masked hlist hread)
  | floats values =>
    obtain ⟨v, hv, hread⟩ := slice_covered (n := values.length) hvalid
    obtain ⟨o, vals, ho, hvals, hlist⟩ := slice_values "ib_batch_builder_float" values rfl
    simp only [Values.supply, ho, hv, Outcome.ok_bind] at hs
    obtain rfl := Outcome.ok.inj hs
    simp only [Supply.array, Supply.what, float64Array, hvals, Outcome.ok_bind]
    exact congrArg (fun cells => Outcome.ok (ArrayRef.mk .float64 cells))
      (collect_masked hlist hread)
  | bools values =>
    obtain ⟨v, hv, hread⟩ := slice_covered (n := values.length) hvalid
    have hlen : (validBytes values).length = values.length := List.length_map _
    obtain ⟨o, vals, ho, hvals, hlist⟩ :=
      slice_values "ib_batch_builder_bool" (validBytes values) hlen
    simp only [Values.supply, ho, hv, Outcome.ok_bind] at hs
    obtain rfl := Outcome.ok.inj hs
    simp only [Supply.array, Supply.what, booleanArray, hvals, Outcome.ok_bind]
    have hflags : (List.finRange values.length).map (fun i => vals.get i != 0) = values :=
      present_validBytes ((map_vector_get vals).symm.trans hlist)
    exact congrArg (fun cells => Outcome.ok (ArrayRef.mk .boolean cells))
      (collect_masked hflags hread)
  | strs values =>
    obtain ⟨v, hv, hread⟩ := slice_covered (n := values.length) hvalid
    obtain ⟨offs, hoffs, hlist⟩ := slice_unsafePtr (n := values.length + 1)
      (offsets (values.map utf8)) (offsets_ne_nil _) (by simp)
    simp only [Values.supply, packStrings_eq, hoffs, hv, Outcome.ok_bind] at hs
    obtain rfl := Outcome.ok.inj hs
    have harray := stringArray_packed v hlist "ib_batch_builder_str" hsized.2 [0]
    rw [collect_masked (List.map_get_finRange values) hread] at harray
    rw [unsafePtr_of_ne _ (by simp)]
    exact harray

/-- A column call that does not raise is a call of the shim that stores a column. -/
theorem on_eq_ok {c : ColumnCall} (h : c.on A b = .ok b') :
    ∃ s, c.values.supply c.name c.valid = .ok s ∧ s.name = arg c.name ∧
      BuilderStep A b (.supply s 0) b' := by
  rw [ColumnCall.on, Values.call_eq, Outcome.bind_eq_ok] at h
  obtain ⟨s, hs, hrun⟩ := h
  obtain ⟨r, hr, hfinish⟩ := Outcome.bind_eq_ok.mp hrun
  rcases supply_cases c.values c.name c.valid with ⟨-, -, hpanic⟩ | ⟨-, s', hs', hname, -⟩
  · rw [hpanic] at hs
    cases hs
  · obtain rfl := Outcome.ok.inj (hs'.symm.trans hs)
    refine ⟨s', hs, hname, ?_⟩
    unfold finish at hfinish
    split at hfinish
    · cases hfinish
    next hret =>
      obtain rfl := Outcome.ok.inj hfinish
      have hstep := BuilderStep.supply hr
      rwa [not_not.mp hret] at hstep

/-- Column calls are a history of the builder. -/
theorem trace_of_cols {calls : List ColumnCall}
    (h : calls.foldlM (ColumnCall.on A) b = .ok b') :
    ∃ steps, Trace (BuilderStep A) b steps b' ∧
      ∀ step ∈ steps, ∃ c ∈ calls, ∃ s, step = .supply s 0 ∧ s.name = arg c.name := by
  induction calls generalizing b with
  | nil =>
    obtain rfl := Outcome.ok.inj h
    exact ⟨[], .nil, nofun⟩
  | cons c calls ih =>
    rw [List.foldlM_cons, Outcome.bind_eq_ok] at h
    obtain ⟨b₁, hc, h⟩ := h
    obtain ⟨s, -, hname, hstep⟩ := on_eq_ok hc
    obtain ⟨steps, hrun, hsteps⟩ := ih h
    refine ⟨_, (Trace.nil.snoc hstep).append hrun, ?_⟩
    rw [List.nil_append, List.singleton_append, List.forall_mem_cons]
    refine ⟨⟨c, List.mem_cons_self, s, rfl, hname⟩, fun step hmem => ?_⟩
    obtain ⟨c', hc', h⟩ := hsteps step hmem
    exact ⟨c', List.mem_cons_of_mem _ hc', h⟩

/-- The batch has the column of the last call for the name, cast to the type that the schema
declares under it. -/
theorem column_of_cols {before later : List ColumnCall} {c : ColumnCall} {batch : RecordBatch}
    (hb₀ : b₀.columns = ∅ ∧ b₀.rows = none) (hn : (b₀.schema.fields.map Field.name).Nodup)
    (hrun : (before ++ c :: later).foldlM (ColumnCall.on A) b₀ = .ok b)
    (hbuild : build A b = .ok batch) (hcovered : c.Covered) (hsized : c.values.Sized)
    (hlater : ∀ c' ∈ later, uptoNul c'.name ≠ uptoNul c.name) :
    ∃ f cells, b₀.schema.find (uptoNul c.name) = some f ∧
      A.castTo (c.values.column c.valid) f.dataType = .ok cells ∧
      batch.columnByName (uptoNul c.name) = some ⟨f.dataType, cells⟩ := by
  rw [List.foldlM_append, Outcome.bind_eq_ok] at hrun
  obtain ⟨b₁, hbefore, hrun⟩ := hrun
  rw [List.foldlM_cons, Outcome.bind_eq_ok] at hrun
  obtain ⟨b₂, hc, hrun⟩ := hrun
  obtain ⟨steps, htrace, -⟩ := trace_of_cols hbefore
  obtain ⟨s, hs, hname, hstep⟩ := on_eq_ok hc
  obtain ⟨steps', htrace', hsteps'⟩ := trace_of_cols hrun
  have hsame := (holds_of_trace hb₀ htrace).same
  obtain ⟨nm, col, hoffer, -, -⟩ := hstep.stored
  rw [hsame] at hoffer
  obtain ⟨hnm, array, f, cells, harray, hf, hcast, rfl⟩ := Supply.offer_eq_some.mp hoffer
  rw [hname, cstr_arg] at hnm
  obtain rfl := Except.ok.inj hnm
  obtain rfl := Outcome.ok.inj ((supply_array hcovered hsized hs).symm.trans harray)
  have hheld := holds_of_trace hb₀ ((htrace.snoc hstep).append htrace')
  refine ⟨f, cells, hf, hcast, columnByName_of_held hheld hn (build_eq_ok.mp hbuild) ?_⟩
  rw [hheld.lookup, lastColumn_append, lastColumn_snoc]
  · simp [BuilderCall.column, hoffer]
  · intro step hmem
    obtain ⟨c', hc', s', rfl, hname'⟩ := hsteps' step hmem
    cases hoffer' : s'.offer A b₀.schema with
    | none => simp [BuilderCall.column, hoffer']
    | some p =>
      obtain ⟨hnm', -⟩ := Supply.offer_eq_some.mp hoffer'
      rw [hname', cstr_arg] at hnm'
      have hne : p.1 ≠ uptoNul c.name := Except.ok.inj hnm' ▸ hlater c' hc'
      simp [BuilderCall.column, hoffer', hne]

theorem masked_isSome {α : Type} {values : List α}
    (hvalid : valid = [] ∨ values.length ≤ valid.length) :
    (masked values valid).map Option.isSome = readMask valid values.length := by
  obtain ⟨v, -, hv⟩ := slice_covered hvalid
  rw [← collect_masked (List.map_get_finRange values) hv, collect_isSome, hv]

theorem column_len (hvalid : valid = [] ∨ c.length ≤ valid.length) :
    (c.column valid).len = c.length := by
  have hlen {α : Type} (values : List α) (h : valid = [] ∨ values.length ≤ valid.length) :
      (masked values valid).length = values.length := by
    rw [← List.length_map Option.isSome, masked_isSome h, readMask_length h]
  cases c with
  | ints values => exact hlen values hvalid
  | floats values => exact hlen values hvalid
  | bools values => exact hlen values hvalid
  | strs values => exact hlen values hvalid

section
variable {batch : RecordBatch} {col : ArrayRef}

/-- A column that is cast back to its values reads as the values. -/
theorem read_of_column (hcol : batch.columnByName (uptoNul name) = some col)
    (hback : A.castTo col (c.column valid).dataType = .ok (c.column valid).cells)
    (hrows : c.length = batch.numRows) (hvalid : valid = [] ∨ c.length ≤ valid.length)
    (hsized : c.Sized) : c.read A batch name = .ok (c.zeroed valid) := by
  cases c with
  | ints values =>
    have h : Whole batch 0 (masked values valid) (intCol A batch name) :=
      (getValues_whole_iff (t := .int64) hcol hback rfl).mpr (hrows ▸ hsized.2)
    rw [Values.read, h.1]
    rfl
  | floats values =>
    have h : Whole batch 0.0 (masked values valid) (floatCol A batch name) :=
      (getValues_whole_iff (t := .float64) hcol hback rfl).mpr (hrows ▸ hsized.2)
    rw [Values.read, h.1]
    rfl
  | bools values =>
    have h : Whole batch false (masked values valid) (boolCol A batch name) :=
      (getBool_whole_iff hcol hback).mpr (hrows ▸ hsized.2)
    rw [Values.read, h.1]
    rfl
  | strs values =>
    have hbytes : (utf8Bytes (masked values valid)).length < 2 ^ 63 := by
      obtain ⟨v, -, hv⟩ := slice_covered hvalid
      rw [← collect_masked (List.map_get_finRange values) hv]
      exact (utf8Bytes_collect_le v).trans_lt (hsized.2.trans (by decide))
    rw [Values.read, strCol_eq hcol hback hbytes]
    rfl

/-- The flags of a column of integers are those of its cells. -/
theorem validity_of_column (hcol : batch.columnByName (uptoNul name) = some col)
    {cells : List (Option Int64)} (hback : A.castTo col .int64 = .ok cells)
    (hrows : 0 < batch.numRows) : validity A batch name = .ok (cells.map Option.isSome) := by
  have hlen := castTo_rows hcol hback
  have hmem (α : Type) (x : α) : unsafePtr (List.replicate batch.numRows x) =
      some (List.replicate batch.numRows x) := unsafePtr_of_ne _ (by simpa using hrows.ne')
  have hget : ibBatchGetI64 A batch (arg name) ⟨unsafePtr (List.replicate batch.numRows 0),
      unsafePtr (List.replicate batch.numRows 0)⟩ batch.numRows = _ :=
    getColumn_eq (cstr_arg name "ib_batch_get_i64") hcol hback (hmem Int64 0)
  rw [List.take_of_length_le hlen.le] at hget
  unfold validity getValidity
  dsimp only
  rw [hget, Reply.done_ret, if_neg (Int.not_lt.mpr (Int.natCast_nonneg _)), Int.toNat_natCast]
  simp only [Reply.done_state, hmem, writeValidity, Option.map_some, owned, Option.getD_some]
  exact congrArg Outcome.ok (flags_eq _ cells)

end

end

section
variable {Scan Spec Library : Type} {crates : Crates Spec} {s t : Process Scan} {p q : ℕ}
variable {c : Values} {x : RecordBatch} {name : String}

/-- The read of the same kind on an object. -/
def Values.readAt {Spec : Type} (Scan : Type) (crates : Crates Spec) (p : ℕ) (name : String) :
    Values → Abi Scan Values
  | ints _ => do pure (ints (← Batch.intCol crates p name))
  | floats _ => do pure (floats (← Batch.floatCol crates p name))
  | bools _ => do pure (bools (← Batch.boolCol crates p name))
  | strs _ => do pure (strs (← Batch.strCol crates p name))

theorem answers_read (crates : Crates Spec) (hx : HoldsBatch s p x) (name : String) (c : Values) :
    Answers s (c.readAt Scan crates p name) (c.read crates.arrow x name) := by
  cases c with
  | ints values => exact (answers_intCol hx name).map
  | floats values => exact (answers_floatCol hx name).map
  | bools values => exact (answers_boolCol hx name).map
  | strs values => exact (answers_strCol hx name).map

/-- The object reads as the values of the call, with the validity that the call gave to integers,
unless a later call had the same name or the declared type does not carry the values. -/
def ColumnCall.ReadsBack (crates : Crates Spec) (schema : ArrowSchema) (later : List ColumnCall)
    (t : Process Scan) (q : ℕ) (c : ColumnCall) : Prop :=
  (∀ c' ∈ later, uptoNul c'.name ≠ uptoNul c.name) → c.values.Sized →
  (∀ f, schema.find (uptoNul c.name) = some f →
    crates.arrow.Carries (c.values.column c.valid) f.dataType) →
  Answers t (c.values.readAt Scan crates q c.name) (.ok (c.values.zeroed c.valid)) ∧
  ∀ values, c.values = .ints values →
    Answers t (Batch.validity crates q c.name) (.ok (readMask c.valid values.length))

theorem readsBack_of_built {b₀ : BuilderHandle} {before later : List ColumnCall} {c : ColumnCall}
    (hb₀ : b₀.columns = ∅ ∧ b₀.rows = none) (hn : (b₀.schema.fields.map Field.name).Nodup)
    (hbuilt : colsBuild crates.arrow b₀ (before ++ c :: later) = .ok x) (hcovered : c.Covered)
    (hq : q ≠ 0) (hx : t.heap.lookup q = some (.batch x)) :
    c.ReadsBack crates b₀.schema later t q := by
  intro hlater hsized hcarries
  obtain ⟨b, hrun, hbuild⟩ := Outcome.bind_eq_ok.mp hbuilt
  obtain ⟨f, cells, hf, hcast, hcol⟩ :=
    column_of_cols hb₀ hn hrun hbuild hcovered hsized hlater
  have hback := hcarries f hf cells hcast
  have hrows : c.values.length = x.numRows := by
    rw [← column_len hcovered, ← Arrow.castTo_length hcast]
    exact RecordBatch.columnByName_len hcol
  have hlt : c.values.length < 2 ^ 63 := by
    cases hvalues : c.values <;> exact (hvalues ▸ hsized).1
  have hholds : HoldsBatch t q x := ⟨hq, hx, hrows ▸ hlt⟩
  constructor
  · have hread := answers_read crates hholds c.name c.values
    rwa [read_of_column hcol hback hrows hcovered hsized] at hread
  · intro values hvalues
    have hvalidity : Answers t (Batch.validity crates q c.name) _ := answers_validity hholds c.name
    rw [hvalues] at hback hsized hrows
    rw [validity_of_column hcol hback (hrows ▸ hsized.2)] at hvalidity
    have hcovered : c.valid = [] ∨ values.length ≤ c.valid.length := by
      have h := hcovered
      rwa [ColumnCall.Covered, hvalues] at h
    exact masked_isSome hcovered ▸ hvalidity

/-- In any session, columns that are supplied to a new builder make a new batch object exactly
when they make a batch, and the object reads as the columns that were supplied. -/
theorem session_round_trip {lastError : String} {S : Session Scan}
    {events : List (Event Scan Spec Library)}
    (hS : (Session.start lastError).run crates events = some S)
    {toArrow : SchemaToArrow} (hto : toArrow.Lawful) {h : TableHandle} {b : BuilderHandle}
    (hnew : (ibBatchBuilderNew toArrow h).ret = some b)
    (hb : S.process.heap.lookup p = some (.builder b)) {calls : List ColumnCall}
    (hcovered : ∀ c ∈ calls, c.Covered) {env : Env Library} (henv : spill env = 0)
    (mem : Allocators Scan) :
    (BatchBuilder.colsBuild crates mem env p calls).Follows S.process
      (colsBuild crates.arrow b calls)
      (fun q x t => NewBatches S.process p [q] [x] t ∧ ∀ before c later,
        calls = before ++ c :: later → c.ReadsBack crates b.schema later t q)
      (Spares S.process p) := by
  obtain ⟨C, -, hC⟩ := (Session.holds_run hS).boxes
  have hp : p ≠ 0 := hC.nonnull _ (hC.mem hb)
  obtain ⟨schema, hschema, rfl⟩ := ibBatchBuilderNew_eq_some hnew
  refine (builds_follows crates hp hb hcovered henv mem).mono_of_ok ?_
  refine fun q x t hbuilt hbatches => ⟨hbatches, fun before c later hcalls => ?_⟩
  subst hcalls
  have hx : t.heap.lookup q = some (.batch x) := List.singleton_inj.mp hbatches.held
  exact readsBack_of_built ⟨rfl, rfl⟩ (hto.names_nodup hschema) hbuilt
    (hcovered c (by simp)) (hbatches.fresh q (by simp)).1 hx

end

/-- Two rows with an identifier, and a count that the second row does not have. -/
def countCalls : List ColumnCall :=
  [⟨"id", .ints [7, 8], []⟩, ⟨"count", .ints [1, 2], [true, false]⟩]

theorem session_round_trip_orders : ∃ q t,
    BatchBuilder.colsBuild .sample .beyond .open 6 countCalls readingSession.process =
      .value q t ∧
    Answers t ((Values.ints [1, 2]).readAt Unit .sample q "count") (.ok (.ints [1, 0])) ∧
    Answers t (Batch.validity .sample q "count") (.ok [true, false]) := by
  have hcovered : ∀ c ∈ countCalls, c.Covered := by
    simp [countCalls, ColumnCall.Covered, Values.length]
  have henv : spill Env.open = 0 := rfl
  let b : BuilderHandle := ⟨SchemaToArrow.fieldwise .orders, ∅, none⟩
  have h := session_round_trip readingSession_run SchemaToArrow.direct_lawful (h := ⟨.orders, []⟩)
    (b := b) rfl (p := 6) rfl hcovered henv .beyond
  obtain ⟨x, hx⟩ : ∃ x, colsBuild Crates.sample.arrow b countCalls = .ok x := ⟨_, rfl⟩
  rw [hx] at h
  obtain ⟨q, t, ht, -, hreads⟩ := h
  have hread := hreads [_] ⟨"count", .ints [1, 2], [true, false]⟩ [] rfl nofun
    ⟨by decide, by decide⟩ ?_
  · exact ⟨q, t, ht, hread.1, hread.2 _ rfl⟩
  · intro f hf cells hcells
    obtain rfl : ⟨"count", .int32, true, some 3⟩ = f := Option.some.inj hf
    obtain rfl := Except.ok.inj hcells
    rfl

end Mojo
end IcebergRs
