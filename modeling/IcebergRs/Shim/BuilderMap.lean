import IcebergRs.Shim.Builder
import IcebergRs.Support.Trace

/-! The builder as a map from column names to columns: after any history of calls it holds
for each name the column of the last call that succeeded, and `build` reads that map. -/
namespace IcebergRs

/-- One call that supplies a column, with the buffers it passes. -/
inductive Supply where
  | int (name : CString) {n : ℕ} (values : Option (Vector Int64 n))
      (valid : Option (Vector UInt8 n))
  | float (name : CString) {n : ℕ} (values : Option (Vector Float n))
      (valid : Option (Vector UInt8 n))
  | bool (name : CString) {n : ℕ} (values : Option (Vector UInt8 n))
      (valid : Option (Vector UInt8 n))
  | str (name : CString) {n : ℕ} (offsets : Option (Vector Int64 (n + 1)))
      (bytes : Option (List UInt8)) (valid : Option (Vector UInt8 n))

namespace Supply

def what : Supply → String
  | int .. => "ib_batch_builder_int"
  | float .. => "ib_batch_builder_float"
  | bool .. => "ib_batch_builder_bool"
  | str .. => "ib_batch_builder_str"

def name : Supply → CString
  | int name .. | float name .. | bool name .. | str name .. => name

/-- What the buffers of the call decode to. -/
def array (s : Supply) : Outcome ArrayRef :=
  match s with
  | int _ values valid => int64Array s.what values valid
  | float _ values valid => float64Array s.what values valid
  | bool _ values valid => booleanArray s.what values valid
  | str _ offsets bytes valid => stringArray s.what offsets bytes valid

/-- The rows that the mask of the call leaves present. -/
def present : Supply → List Bool
  | @int _ n _ valid | @float _ n _ valid | @bool _ n _ valid | @str _ n _ _ valid =>
    (List.finRange n).map fun i => !absent valid i

variable (A : Arrow)

def run (b : BuilderHandle) : Supply → Outcome (Reply BuilderHandle ℤ)
  | int name values valid => ibBatchBuilderInt A b name values valid
  | float name values valid => ibBatchBuilderFloat A b name values valid
  | bool name values valid => ibBatchBuilderBool A b name values valid
  | str name offsets bytes valid => ibBatchBuilderStr A b name offsets bytes valid

variable {A}

theorem run_eq (b : BuilderHandle) (s : Supply) :
    s.run A b = supplyColumn A s.what b s.name s.array := by
  cases s <;> rfl

variable (A)

/-- The name of the column a call supplies, and the column cast to the type the schema
declares under that name. -/
def offer (schema : ArrowSchema) (s : Supply) : Option (String × ArrayRef) :=
  match cstr s.name s.what, s.array with
  | .ok name, .ok array => (schema.find name).bind fun field =>
    match A.castTo array field.dataType with
    | .ok cells => some (name, ⟨field.dataType, cells⟩)
    | .error _ => none
  | _, _ => none

variable {A}

theorem offer_eq_some {schema : ArrowSchema} {s : Supply} {name : String} {c : ArrayRef} :
    s.offer A schema = some (name, c) ↔ cstr s.name s.what = .ok name ∧
      ∃ array field cells, s.array = .ok array ∧ schema.find name = some field ∧
        A.castTo array field.dataType = .ok cells ∧ c = ⟨field.dataType, cells⟩ := by
  unfold offer
  split
  next name' array hn ha =>
    constructor
    · intro h
      obtain ⟨field, hf, h⟩ := Option.bind_eq_some_iff.mp h
      split at h
      next cells hc =>
        obtain ⟨rfl, rfl⟩ := Prod.mk.inj (Option.some.inj h)
        exact ⟨hn, array, field, cells, ha, hf, hc, rfl⟩
      next => cases h
    · rintro ⟨hn', array', field, cells, ha', hf, hc, rfl⟩
      obtain rfl := Except.ok.inj (hn.symm.trans hn')
      obtain rfl := Outcome.ok.inj (ha.symm.trans ha')
      simp [hf, hc]
  next h =>
    simp only [reduceCtorEq, false_iff, not_and, not_exists]
    intro hn array _ _ ha
    exact absurd ha (h name array hn)

end Supply

/-- The state after a column was stored. -/
def BuilderHandle.store (b : BuilderHandle) (name : String) (c : ArrayRef) : BuilderHandle :=
  { b with rows := some c.len, columns := b.columns.insert name c }

/-- A call that returns either stores what it offers, if the row counts agree, and returns
0, or changes nothing and returns -1. -/
theorem Supply.run_cases {A : Arrow} {b : BuilderHandle} {s : Supply}
    {r : Reply BuilderHandle ℤ} (h : s.run A b = .ok r) :
    (∃ name c, s.offer A b.schema = some (name, c) ∧ (∀ rows ∈ b.rows, rows = c.len) ∧
      r = .done (b.store name c) 0) ∨ ∃ m, r = .fail b (-1) m := by
  rw [run_eq, supplyColumn] at h
  split at h
  next m _ =>
    cases h
    exact .inr ⟨m, rfl⟩
  next name hn =>
    split at h
    next m _ =>
      cases h
      exact .inr ⟨m, rfl⟩
    next => cases h
    next array ha =>
      obtain rfl := Outcome.ok.inj h
      unfold addColumn
      split
      next => exact .inr ⟨_, rfl⟩
      next field hf =>
        dsimp only
        split
        next => exact .inr ⟨_, rfl⟩
        next hrows =>
          split
          next => exact .inr ⟨_, rfl⟩
          next cells hc =>
            have hlen : (⟨field.dataType, cells⟩ : ArrayRef).len = array.len :=
              Arrow.castTo_length hc
            refine .inl ⟨name, ⟨field.dataType, cells⟩, offer_eq_some.mpr
              ⟨hn, array, field, cells, ha, hf, hc, rfl⟩, fun rows hr => ?_, ?_⟩
            · rw [hlen]
              simpa using Option.filter_eq_none_iff.mp hrows rows hr
            · rw [BuilderHandle.store, hlen]

/-- A call stores what it offers as soon as the row counts agree. -/
theorem Supply.run_of_offer {A : Arrow} {b : BuilderHandle} {s : Supply} {name : String}
    {c : ArrayRef} (h : s.offer A b.schema = some (name, c))
    (hrows : ∀ rows ∈ b.rows, rows = c.len) :
    s.run A b = .ok (.done (b.store name c) 0) := by
  obtain ⟨hn, array, field, cells, ha, hf, hc, rfl⟩ := offer_eq_some.mp h
  have hlen : (⟨field.dataType, cells⟩ : ArrayRef).len = array.len := Arrow.castTo_length hc
  have hfilter : b.rows.filter (· ≠ array.len) = none := by
    simpa [Option.filter_eq_none_iff, ← hlen] using hrows
  rw [run_eq, supplyColumn, hn, ha]
  simp only [addColumn, hf, hfilter, hc, BuilderHandle.store, hlen]

/-- One call on a builder with what it returned. -/
inductive BuilderCall where
  | supply (s : Supply) (ret : ℤ)
  | build (ret : Option RecordBatch)

inductive BuilderStep (A : Arrow) : BuilderHandle → BuilderCall → BuilderHandle → Prop
  | supply {b : BuilderHandle} {s : Supply} {r : Reply BuilderHandle ℤ}
      (h : s.run A b = .ok r) : BuilderStep A b (.supply s r.ret) r.state
  | build (b : BuilderHandle) :
      BuilderStep A b (.build (ibBatchBuilderBuild A b).ret) (ibBatchBuilderBuild A b).state

/-- The column a call leaves under a name, if it succeeded and supplied that name. -/
def BuilderCall.column (A : Arrow) (schema : ArrowSchema) (name : String) :
    BuilderCall → Option ArrayRef
  | .supply s ret =>
    if ret = 0 then (s.offer A schema).bind fun p => if p.1 = name then some p.2 else none
    else none
  | .build _ => none

/-- The column of the last successful call for a name. -/
def lastColumn (A : Arrow) (schema : ArrowSchema) (calls : List BuilderCall) (name : String) :
    Option ArrayRef := calls.reverse.findSome? (BuilderCall.column A schema name)

/-- What holds of a builder after a history of calls. -/
structure Holds (A : Arrow) (schema : ArrowSchema) (calls : List BuilderCall)
    (b : BuilderHandle) : Prop where
  same : b.schema = schema
  lookup : ∀ name, b.columns.lookup name = lastColumn A schema calls name
  fits : ∀ name c, b.columns.lookup name = some c →
    b.rows = some c.len ∧ ∃ f, schema.find name = some f ∧ c.dataType = f.dataType
  rows : b.rows.isSome ↔ ∃ s, .supply s 0 ∈ calls
  fields : b.rows.isSome → schema.fields ≠ []

variable {A : Arrow} {schema : ArrowSchema} {calls : List BuilderCall} {b b' : BuilderHandle}

theorem lastColumn_snoc (c : BuilderCall) (name : String) :
    lastColumn A schema (calls ++ [c]) name =
      (c.column A schema name).or (lastColumn A schema calls name) := by
  simp only [lastColumn, List.reverse_append, List.reverse_singleton, List.singleton_append,
    List.findSome?_cons]
  cases c.column A schema name <;> rfl

/-- Calls that store nothing under a name leave its column. -/
theorem lastColumn_append {later : List BuilderCall} {name : String}
    (h : ∀ c ∈ later, c.column A schema name = none) :
    lastColumn A schema (calls ++ later) name = lastColumn A schema calls name := by
  have hnone : later.reverse.findSome? (BuilderCall.column A schema name) = none := by
    simpa [List.findSome?_eq_none_iff] using h
  rw [lastColumn, List.reverse_append, List.findSome?_append, hnone, Option.none_or]
  rfl

theorem ibBatchBuilderBuild_state (b : BuilderHandle) : (ibBatchBuilderBuild A b).state = b := by
  unfold ibBatchBuilderBuild
  split
  · rfl
  · dsimp only
    split
    · rfl
    · split <;> rfl

/-- A call that fails, and every `build`, leaves the builder as it is. -/
theorem BuilderStep.unchanged {c : BuilderCall} (h : BuilderStep A b c b')
    (hc : ∀ s, c ≠ .supply s 0) : b' = b := by
  cases h with
  | @supply s r h =>
    rcases Supply.run_cases h with ⟨name, col, -, -, rfl⟩ | ⟨m, rfl⟩
    · exact absurd rfl (hc s)
    · rfl
  | build => exact ibBatchBuilderBuild_state b

/-- A call that succeeds stores the column it offers. -/
theorem BuilderStep.stored {s : Supply} (h : BuilderStep A b (.supply s 0) b') :
    ∃ name c, s.offer A b.schema = some (name, c) ∧ (∀ rows ∈ b.rows, rows = c.len) ∧
      b' = b.store name c := by
  generalize hcall : BuilderCall.supply s 0 = call at h
  cases h with
  | build => cases hcall
  | supply h =>
    injection hcall with hs hret
    subst hs
    rcases Supply.run_cases h with ⟨name, c, ho, hr, rfl⟩ | ⟨m, rfl⟩
    · exact ⟨name, c, ho, hr, rfl⟩
    · simp at hret

theorem BuilderCall.column_eq_none {c : BuilderCall} (hc : ∀ s, c ≠ .supply s 0) (name : String) :
    c.column A schema name = none := by
  cases c with
  | build => rfl
  | supply s ret =>
    have hret : ret ≠ 0 := fun h => hc s (h ▸ rfl)
    simp [column, hret]

theorem Holds.step {c : BuilderCall} (h : Holds A schema calls b) (hs : BuilderStep A b c b') :
    Holds A schema (calls ++ [c]) b' := by
  by_cases hc : ∃ s, c = .supply s 0
  · obtain ⟨s, rfl⟩ := hc
    obtain ⟨name, c, ho, hrows, rfl⟩ := hs.stored
    rw [h.same] at ho
    obtain ⟨-, array, f, cells, -, hf, -, rfl⟩ := Supply.offer_eq_some.mp ho
    refine ⟨h.same, fun name' => ?_, fun name' c' hl => ?_, ?_,
      fun _ => List.ne_nil_of_mem (ArrowSchema.find_mem hf)⟩
    · rw [lastColumn_snoc, ← h.lookup]
      by_cases hn : name' = name
      · subst hn
        simp [BuilderHandle.store, BuilderCall.column, ho]
      · simp [BuilderHandle.store, BuilderCall.column, ho, hn, Ne.symm hn]
    · by_cases hn : name' = name
      · subst hn
        obtain rfl : _ = c' := by simpa [BuilderHandle.store] using hl
        exact ⟨rfl, f, hf, rfl⟩
      · rw [BuilderHandle.store, AList.lookup_insert_ne hn] at hl
        obtain ⟨hr, hf⟩ := h.fits name' c' hl
        exact ⟨congrArg some (hrows _ hr).symm, hf⟩
    · exact ⟨fun _ => ⟨s, by simp⟩, fun _ => rfl⟩
  · have hne : ∀ s, c ≠ .supply s 0 := fun s he => hc ⟨s, he⟩
    obtain rfl := hs.unchanged hne
    refine ⟨h.same, fun name => ?_, h.fits, ?_, h.fields⟩
    · rw [lastColumn_snoc, BuilderCall.column_eq_none hne, Option.none_or, h.lookup]
    · simp [h.rows, fun s => (hne s).symm]

theorem holds_of_trace {b₀ : BuilderHandle} (hb : b₀.columns = ∅ ∧ b₀.rows = none)
    (run : Trace (BuilderStep A) b₀ calls b) : Holds A b₀.schema calls b := by
  refine run.invariant ⟨rfl, ?_, ?_, ?_, ?_⟩ fun _ _ _ _ _ h hs => h.step hs
  · simp [hb.1, lastColumn]
  · simp [hb.1]
  · simp [hb.2]
  · simp [hb.2]

/-- The column `build` puts under a field. -/
def BuilderHandle.columnFor (b : BuilderHandle) (rows : ℕ) (f : Field) : ArrayRef :=
  (b.columns.lookup f.name).getD (.newNullArray f.dataType rows)

theorem buildColumns_eq_ok {what : String} {rows : ℕ} {columns : List ArrayRef} :
    buildColumns what b rows = .ok columns ↔
      (∀ f ∈ b.schema.fields, f.nullable = false → (b.columns.lookup f.name).isSome) ∧
        b.schema.fields.map (b.columnFor rows) = columns := by
  apply except_mapM_eq_map
  intro f c
  cases hl : b.columns.lookup f.name with
  | some a => simp [BuilderHandle.columnFor, hl]
  | none => cases f.nullable <;> simp [BuilderHandle.columnFor, hl]

theorem ibBatchBuilderBuild_eq_some {batch : RecordBatch} :
    (ibBatchBuilderBuild A b).ret = some batch ↔ ∃ rows columns, b.rows = some rows ∧
      buildColumns "ib_batch_builder_build" b rows = .ok columns ∧
        RecordBatch.tryNew A b.schema columns = .ok batch := by
  unfold ibBatchBuilderBuild batchFromColumns
  cases hr : b.rows with
  | none => simp
  | some rows =>
    dsimp only
    cases hc : buildColumns "ib_batch_builder_build" b rows with
    | error m => simp [hc]
    | ok columns =>
      cases ht : RecordBatch.tryNew A b.schema columns <;> simp [hc, ht]

theorem columnFor_len {rows : ℕ} (h : Holds A schema calls b) (hr : b.rows = some rows)
    (f : Field) : (b.columnFor rows f).len = rows := by
  unfold BuilderHandle.columnFor
  cases hl : b.columns.lookup f.name with
  | none => simp
  | some c => simpa [hr, eq_comm] using (h.fits f.name c hl).1

theorem columnFor_dataType {rows : ℕ} (h : Holds A schema calls b)
    (hn : (schema.fields.map Field.name).Nodup) {f : Field} (hf : f ∈ schema.fields) :
    (b.columnFor rows f).dataType = f.dataType := by
  unfold BuilderHandle.columnFor
  cases hl : b.columns.lookup f.name with
  | none => rfl
  | some c =>
    obtain ⟨g, hg, hty⟩ := (h.fits f.name c hl).2
    obtain rfl := Option.some.inj ((ArrowSchema.find_of_mem hn hf).symm.trans hg)
    exact hty

/-- The columns of a builder fit the schema as soon as required fields have no nulls. -/
theorem batchFits_iff {rows : ℕ} (h : Holds A schema calls b)
    (hn : (schema.fields.map Field.name).Nodup) (hr : b.rows = some rows) :
    BatchFits schema (schema.fields.map (b.columnFor rows)) ↔
      ∀ f ∈ schema.fields, f.nullable = false → (b.columnFor rows f).nullCount = 0 := by
  have hzip : schema.fields.zip (schema.fields.map (b.columnFor rows)) =
      schema.fields.map fun f => (f, b.columnFor rows f) := by
    simpa using List.zip_map' (f := id) (g := b.columnFor rows) (l := schema.fields)
  constructor
  · intro hfit f hf hnull
    exact hfit.required (f, b.columnFor rows f) (hzip ▸ List.mem_map_of_mem hf) hnull
  · intro hreq
    refine ⟨?_, ?_, ?_, ?_⟩
    · simpa using fun f hf => columnFor_dataType h hn hf
    · simpa using h.fields (hr ▸ rfl)
    · simp [columnFor_len h hr]
    · simpa [hzip] using hreq

/-- `build` succeeds exactly when some call did and each required field is held without
nulls. -/
theorem build_isSome_iff (h : Holds A schema calls b) (hn : (schema.fields.map Field.name).Nodup) :
    (ibBatchBuilderBuild A b).ret.isSome ↔ (∃ s, .supply s 0 ∈ calls) ∧
      ∀ f ∈ schema.fields, f.nullable = false →
        ∃ c, b.columns.lookup f.name = some c ∧ c.nullCount = 0 := by
  rw [← h.rows, Option.isSome_iff_exists]
  simp only [ibBatchBuilderBuild_eq_some, buildColumns_eq_ok, h.same]
  constructor
  · rintro ⟨batch, rows, columns, hr, ⟨hheld, rfl⟩, ht⟩
    refine ⟨hr ▸ rfl, fun f hf hnull => ?_⟩
    obtain ⟨c, hc⟩ := Option.isSome_iff_exists.mp (hheld f hf hnull)
    have hfit := (batchFits_iff h hn hr).mp (RecordBatch.tryNew_isOk.mp ⟨batch, ht⟩)
    exact ⟨c, hc, by simpa [BuilderHandle.columnFor, hc] using hfit f hf hnull⟩
  · rintro ⟨hrows, hheld⟩
    obtain ⟨rows, hr⟩ := Option.isSome_iff_exists.mp hrows
    have hfit : BatchFits schema (schema.fields.map (b.columnFor rows)) := by
      apply (batchFits_iff h hn hr).mpr
      intro f hf hnull
      obtain ⟨c, hc, hz⟩ := hheld f hf hnull
      simpa [BuilderHandle.columnFor, hc] using hz
    obtain ⟨batch, ht⟩ := (RecordBatch.tryNew_isOk (A := A)).mpr hfit
    refine ⟨batch, rows, _, hr, ⟨fun f hf hnull => ?_, rfl⟩, ht⟩
    obtain ⟨c, hc, -⟩ := hheld f hf hnull
    simp [hc]

/-- The batch of a successful `build`: the fields of the schema in order, each with the
column held under its name or with nulls. -/
theorem build_batch (h : Holds A schema calls b) {batch : RecordBatch}
    (hb : (ibBatchBuilderBuild A b).ret = some batch) : batch.schema = schema ∧
      b.rows = some batch.numRows ∧
        batch.columns = schema.fields.map (b.columnFor batch.numRows) := by
  obtain ⟨rows, columns, hr, hc, ht⟩ := ibBatchBuilderBuild_eq_some.mp hb
  rw [h.same] at ht
  obtain ⟨-, rfl⟩ := buildColumns_eq_ok.mp hc
  have hcols := RecordBatch.tryNew_columns ht
  have hrows : rows = batch.numRows := by
    obtain ⟨f, hf⟩ := List.exists_mem_of_ne_nil _ (h.fields (hr ▸ rfl))
    have hmem : b.columnFor rows f ∈ batch.columns := by
      rw [hcols, h.same]
      exact List.mem_map_of_mem hf
    rw [← batch.rows _ hmem, columnFor_len h hr]
  subst hrows
  exact ⟨RecordBatch.tryNew_schema ht, hr, h.same ▸ hcols⟩

/-- In the batch of a successful `build` a name finds the column held under it. -/
theorem columnByName_of_held (h : Holds A schema calls b)
    (hn : (schema.fields.map Field.name).Nodup) {batch : RecordBatch}
    (hb : (ibBatchBuilderBuild A b).ret = some batch) {name : String} {c : ArrayRef}
    (hc : b.columns.lookup name = some c) : batch.columnByName name = some c := by
  obtain ⟨f, hf, -⟩ := (h.fits name c hc).2
  obtain rfl := ArrowSchema.find_name hf
  obtain ⟨rfl, -, hcols⟩ := build_batch h hb
  apply RecordBatch.columnByName_of_mem hn
  rw [hcols, ← List.map_id batch.schema.fields, List.map_map, List.zip_map']
  refine List.mem_map.mpr ⟨f, ArrowSchema.find_mem hf, ?_⟩
  simp [BuilderHandle.columnFor, hc]

theorem ibBatchBuilderNew_eq_some {toArrow : SchemaToArrow} {t : TableHandle} {b₀ : BuilderHandle}
    (h : (ibBatchBuilderNew toArrow t).ret = some b₀) :
    ∃ schema, toArrow t.table.currentSchema = .ok schema ∧ b₀ = ⟨schema, ∅, none⟩ := by
  unfold ibBatchBuilderNew at h
  split at h
  next schema hs => exact ⟨schema, tableArrowSchema_eq_ok.mp hs, (Option.some.inj h).symm⟩
  next => cases h

/-- After any calls on a new builder: failing calls change nothing, each name has the
column of its last successful call, all columns have the declared types and one length,
and `build` succeeds exactly on complete columns and assembles them in schema order. -/
theorem builder_refines_map {toArrow : SchemaToArrow} (hto : toArrow.Lawful) {t : TableHandle}
    {b₀ : BuilderHandle} (hnew : (ibBatchBuilderNew toArrow t).ret = some b₀)
    (run : Trace (BuilderStep A) b₀ calls b) :
    (∀ (s : Supply) r, s.run A b = .ok r → r.ret = 0 ∨ r.ret = -1 ∧ r.state = b) ∧
    (∀ name, b.columns.lookup name = lastColumn A b₀.schema calls name) ∧
    (∀ name c, b.columns.lookup name = some c →
      b.rows = some c.len ∧ ∃ f, b₀.schema.find name = some f ∧ c.dataType = f.dataType) ∧
    (ibBatchBuilderBuild A b).state = b ∧
    ((ibBatchBuilderBuild A b).ret.isSome ↔ (∃ s, .supply s 0 ∈ calls) ∧
      ∀ f ∈ b₀.schema.fields, f.nullable = false →
        ∃ c, b.columns.lookup f.name = some c ∧ c.nullCount = 0) ∧
    ∀ batch, (ibBatchBuilderBuild A b).ret = some batch → batch.schema = b₀.schema ∧
      b.rows = some batch.numRows ∧
        batch.columns = b₀.schema.fields.map (b.columnFor batch.numRows) := by
  obtain ⟨schema, hs, rfl⟩ := ibBatchBuilderNew_eq_some hnew
  have h := holds_of_trace ⟨rfl, rfl⟩ run
  refine ⟨fun s r hr => ?_, h.lookup, h.fits, ibBatchBuilderBuild_state b,
    build_isSome_iff h (hto.names_nodup hs), fun batch => build_batch h⟩
  rcases Supply.run_cases hr with ⟨name, c, -, -, rfl⟩ | ⟨m, rfl⟩
  · exact .inl rfl
  · exact .inr ⟨rfl, rfl⟩

theorem builder_refines_map_orders : ∃ b₀ b : BuilderHandle,
    (ibBatchBuilderNew .direct ⟨.orders, []⟩).ret = some b₀ ∧
    Trace (BuilderStep .basic) b₀
      [.supply (.int (cName "id") (some #v[1, 2]) none) 0,
        .supply (.int (cName "nosuch") (some #v[1, 2]) none) (-1),
        .supply (.int (cName "id") (some #v[7, 8]) none) 0] b ∧
    b.columns.lookup "id" = some ⟨.int64, [some (7 : Int64), some (8 : Int64)]⟩ ∧
    (ibBatchBuilderBuild .basic b).ret.isSome := by
  let b₀ : BuilderHandle := ⟨SchemaToArrow.fieldwise .orders, ∅, none⟩
  have hid : ∀ what, cstr (cName "id") what = .ok "id" := cstr_cName (by decide)
  have offer : ∀ i j, (Supply.int (cName "id") (some #v[i, j]) none).offer .basic b₀.schema =
      some ("id", ⟨.int64, [some (i : Int64), some (j : Int64)]⟩) := fun i j =>
    Supply.offer_eq_some.mpr ⟨hid _, _, _, _, rfl, rfl, rfl, rfl⟩
  have run1 := Trace.snoc (Trace.nil (R := BuilderStep .basic) (s := b₀))
    (.supply (Supply.run_of_offer (offer 1 2) (by simp [b₀])))
  have run2 := run1.snoc (.supply (s := .int (cName "nosuch") (some #v[1, 2]) none) rfl)
  have run3 := run2.snoc (.supply (Supply.run_of_offer (offer 7 8) fun rows hr =>
    (Option.some.inj hr).symm))
  have h := builder_refines_map SchemaToArrow.direct_lawful (t := ⟨.orders, []⟩) rfl run3
  have hheld := (h.2.1 "id").trans rfl
  have hreq : ∀ f ∈ (SchemaToArrow.fieldwise .orders).fields, f.nullable = false →
      f.name = "id" := by decide
  refine ⟨b₀, _, rfl, run3, hheld, h.2.2.2.2.1.mpr
    ⟨⟨.int (cName "id") (some #v[7, 8]) none, by simp⟩, fun f hf hnull => ?_⟩⟩
  rw [hreq f hf hnull]
  exact ⟨_, hheld, rfl⟩

end IcebergRs
