import IcebergRs.Shim.Append
import IcebergRs.Shim.BuilderMap

/-! Nulls on the write path. The builder and the append both cast, and a cast replaces a
value that the declared type does not have by a null, so a column keeps its nulls exactly
when all its values have that type. -/
namespace IcebergRs

theorem collect_isSome {α : Type} {n : ℕ} (valid : Option (Vector UInt8 n)) (value : Fin n → α) :
    (collect valid value).map Option.isSome = (List.finRange n).map fun i => !absent valid i := by
  rw [collect, List.map_map]
  apply List.map_congr_left
  intro i _
  cases h : absent valid i <;> simp [h]

theorem stringCells_isSome {n : ℕ} {what : String} {offs : Vector Int64 (n + 1)}
    {blob : List UInt8} {valid : Option (Vector UInt8 n)} {cells : List (Option String)}
    (h : stringCells what offs blob valid = .ok cells) :
    cells.map Option.isSome = (List.finRange n).map fun i => !absent valid i := by
  rw [← List.forall₂_eq_eq_eq, List.forall₂_map_left_iff, List.forall₂_map_right_iff]
  apply (Outcome.mapM_eq_ok.mp h).flip.imp
  intro c i hi
  cases ha : absent valid i with
  | true =>
    obtain rfl : none = c := by simpa [ha] using hi
    rfl
  | false =>
    simp only [ha, Bool.false_eq_true, ↓reduceIte] at hi
    split at hi
    · cases hi
    · split at hi
      · obtain rfl := Outcome.ok.inj hi
        rfl
      · cases hi

/-- The decoded column is null exactly where the mask says so. -/
theorem Supply.array_validity {s : Supply} {a : ArrayRef} (h : s.array = .ok a) :
    a.validity = s.present := by
  cases s with
  | int name values valid =>
    obtain ⟨vals, -, rfl⟩ := by simpa [array, int64Array, Outcome.bind_eq_ok] using h
    exact collect_isSome valid _
  | float name values valid =>
    obtain ⟨vals, -, rfl⟩ := by simpa [array, float64Array, Outcome.bind_eq_ok] using h
    exact collect_isSome valid _
  | bool name values valid =>
    obtain ⟨vals, -, rfl⟩ := by simpa [array, booleanArray, Outcome.bind_eq_ok] using h
    exact collect_isSome valid _
  | str name offsets bytes valid =>
    obtain ⟨offs, cells, -, -, hcells, -, rfl⟩ := stringArray_eq_ok.mp h
    exact stringCells_isSome hcells

/-- Every value the call passes is one of the type its column is declared with. -/
def Supply.Representable (A : Arrow) (schema : ArrowSchema) (s : Supply) : Prop :=
  ∀ name array field, cstr s.name s.what = .ok name → s.array = .ok array →
    schema.find name = some field → A.Keeps array field.dataType

/-- A column of the batch keeps its nulls in the batch that is written. -/
def NullsKept (batch b : RecordBatch) : Prop :=
  ∀ p ∈ b.schema.fields.zip b.columns, ∀ col, batch.columnByName p.1.name = some col →
    p.2.validity = col.validity

variable {A : Arrow} {toArrow : SchemaToArrow} {io : WriterApi} {h : TableHandle}
variable {batch b : RecordBatch} {schema : ArrowSchema}

theorem stored_validity_iff {bh : BuilderHandle} {s : Supply} {r : Reply BuilderHandle ℤ}
    (hr : s.run A bh = .ok r) (h0 : r.ret = 0) :
    ∃ name c, cstr s.name s.what = .ok name ∧ r.state.columns.lookup name = some c ∧
      (c.validity = s.present ↔ s.Representable A bh.schema) := by
  rcases Supply.run_cases hr with ⟨name, c, ho, -, rfl⟩ | ⟨m, rfl⟩
  · obtain ⟨hn, array, field, cells, ha, hf, hc, rfl⟩ := Supply.offer_eq_some.mp ho
    refine ⟨name, _, hn, AList.lookup_insert _, ?_⟩
    rw [← Supply.array_validity ha]
    apply (Arrow.castTo_validity_iff hc).trans
    constructor
    · intro hk name' array' field' hn' ha' hf'
      obtain rfl := Except.ok.inj (hn.symm.trans hn')
      obtain rfl := Outcome.ok.inj (ha.symm.trans ha')
      obtain rfl := Option.some.inj (hf.symm.trans hf')
      exact hk
    · intro hs
      exact hs name array field hn ha hf
  · simp at h0

theorem nullsKept_iff (hb : conform A batch schema = .ok b) :
    NullsKept batch b ↔ ∀ f ∈ schema.fields, ∀ col, batch.columnByName f.name = some col →
      A.Keeps col f.dataType := by
  obtain ⟨hs, hcols⟩ := conform_eq_ok hb
  have hkeep : ∀ p ∈ schema.fields.zip b.columns, ∀ col, batch.columnByName p.1.name = some col →
      (p.2.validity = col.validity ↔ A.Keeps col p.1.dataType) := by
    intro p hp col hcol
    obtain ⟨col', cells, hcol', hcast, hc⟩ :=
      conformColumn_eq_ok.mp (List.forall₂_zip hcols (a := p.1) (b := p.2) hp)
    obtain rfl := Option.some.inj (hcol.symm.trans hcol')
    rw [hc]
    exact Arrow.castTo_validity_iff hcast
  unfold NullsKept
  rw [hs]
  constructor
  · intro h f hf col hcol
    obtain ⟨p, hp, rfl⟩ : ∃ p ∈ schema.fields.zip b.columns, p.1 = f := by
      rw [← List.map_fst_zip (Nat.le_of_eq hcols.length_eq)] at hf
      exact List.mem_map.mp hf
    exact (hkeep p hp col hcol).mp (h p hp col hcol)
  · intro h p hp col hcol
    exact (hkeep p hp col hcol).mpr (h p.1 (List.of_mem_zip hp).1 col hcol)

/-- Every value of the batch is one of the type of the table column of its name. -/
def TableRepresentable (A : Arrow) (toArrow : SchemaToArrow) (t : Table) (batch : RecordBatch) :
    Prop :=
  ∀ schema, toArrow t.currentSchema = .ok schema → ∀ f ∈ schema.fields, ∀ col,
    batch.columnByName f.name = some col → A.Keeps col f.dataType

theorem Stages.nullsKept_iff {files : List DataFile} (hst : Stages A toArrow io h batch b files) :
    NullsKept batch b ↔ TableRepresentable A toArrow h.table batch := by
  obtain ⟨schema, hs, hb⟩ := hst.conformed
  rw [IcebergRs.nullsKept_iff hb]
  constructor
  · intro hk schema' hs'
    obtain rfl := Except.ok.inj (hs.symm.trans hs')
    exact hk
  · intro hk
    exact hk schema hs

theorem stage_ret_zero {what : String} (h0 : (stage A toArrow io h batch what).ret = 0) :
    ∃ b files, Stages A toArrow io h batch b files := by
  rcases stage_cases what with ⟨b, files, hst, -⟩ | ⟨m, hm⟩
  · exact ⟨b, files, hst⟩
  · simp [hm] at h0

/-- A builder call that succeeds, and an append that succeeds, keep the nulls they were
given exactly when all values they were given have the declared types. -/
theorem nulls_preserved_iff (A : Arrow) (toArrow : SchemaToArrow) (io : WriterApi)
    (h : TableHandle) :
    (∀ (bh : BuilderHandle) (s : Supply) r, s.run A bh = .ok r → r.ret = 0 →
      ∃ name c, cstr s.name s.what = .ok name ∧ r.state.columns.lookup name = some c ∧
        (c.validity = s.present ↔ s.Representable A bh.schema)) ∧
    (∀ batch, (ibTableAppend A toArrow io h batch).ret = 0 →
      ∃ b files, Stages A toArrow io h batch b files ∧
        (NullsKept batch b ↔ TableRepresentable A toArrow h.table batch)) ∧
    ∀ pair, (ibTableAppendBatch A toArrow io h pair).ret = 0 →
      ∃ batch b files, importBatch pair = .ok batch ∧ Stages A toArrow io h batch b files ∧
        (NullsKept batch b ↔ TableRepresentable A toArrow h.table batch) := by
  refine ⟨fun bh s r => stored_validity_iff, fun batch h0 => ?_, fun pair h0 => ?_⟩
  · obtain ⟨b, files, hst⟩ := stage_ret_zero h0
    exact ⟨b, files, hst, hst.nullsKept_iff⟩
  · rcases ibTableAppendBatch_cases pair with ⟨batch, hb, he⟩ | ⟨m, hm⟩
    · rw [he] at h0
      obtain ⟨b, files, hst⟩ := stage_ret_zero h0
      exact ⟨batch, b, files, hb, hst, hst.nullsKept_iff⟩
    · simp [hm] at h0

/-- The value 2^40 for the `int` column `count` is stored as a null, and the call returns 0. -/
theorem builder_int_nulls_value : ∃ r,
    (Supply.int (cName "count") (some #v[1099511627776]) none).run .basic
        ⟨SchemaToArrow.fieldwise .orders, ∅, none⟩ = .ok r ∧ r.ret = 0 ∧
      r.state.columns.lookup "count" = some ⟨.int32, [none]⟩ ∧
      (Supply.int (cName "count") (some #v[1099511627776]) none).present = [true] := by
  have hname : ∀ what, cstr (cName "count") what = .ok "count" := cstr_cName (by decide)
  have hrun := Supply.run_of_offer (A := .basic)
    (b := ⟨SchemaToArrow.fieldwise .orders, ∅, none⟩)
    (s := .int (cName "count") (some #v[1099511627776]) none)
    (Supply.offer_eq_some.mpr ⟨hname _, _, _, _, rfl, rfl, rfl, rfl⟩) (by simp)
  exact ⟨_, hrun, rfl, AList.lookup_insert _, rfl⟩

end IcebergRs
