import IcebergRs.Shim.FieldIdentity

/-! Which columns of a batch an append stores. `conform` looks a column up for each field of
the schema, and neither the order of the batch's columns nor what else it carries matters. -/
namespace IcebergRs

def RecordBatch.names (b : RecordBatch) : List String := b.schema.fields.map Field.name

def ArrowSchema.names (s : ArrowSchema) : List String := s.fields.map Field.name

/-- For every field of the schema the batch has a column of its name that can be cast to the
type of the field, without a null under a required field. -/
structure Conformable (A : Arrow) (schema : ArrowSchema) (batch : RecordBatch) : Prop where
  found : ∀ f ∈ schema.fields, ∃ col cells, batch.columnByName f.name = some col ∧
    A.castTo col f.dataType = .ok cells ∧
      (f.nullable = false → (⟨f.dataType, cells⟩ : ArrayRef).nullCount = 0)
  nonempty : schema.fields ≠ []

/-- The result has the schema's fields in order, column `i` being the cast of column `i`. -/
def InOrder (A : Arrow) (schema : ArrowSchema) (batch b : RecordBatch) : Prop :=
  b.schema = schema ∧ List.Forall₂ (fun p c => ∃ cells, A.castTo p.2 p.1.dataType = .ok cells ∧
    c = ⟨p.1.dataType, cells⟩) (schema.fields.zip batch.columns) b.columns

/-- Only a batch with exactly the schema's names is conformed, column by column, and a batch
that is refused is not staged. -/
structure ColumnsKept (A : Arrow) (toArrow : SchemaToArrow) (h : TableHandle)
    (schema : ArrowSchema) (batch : RecordBatch) : Prop where
  accepted : ∀ b, conform A batch schema = .ok b →
    batch.names = schema.names ∧ InOrder A schema batch b
  refused : ∀ e, conform A batch schema = .error e → ∀ io,
    (ibTableAppend A toArrow io h batch).ret = -1 ∧
    (ibTableAppend A toArrow io h batch).state.pending = h.pending ∧
    ∀ pair, importBatch pair = .ok batch →
      (ibTableAppendBatch A toArrow io h pair).ret = -1 ∧
      (ibTableAppendBatch A toArrow io h pair).state.pending = h.pending

variable {A : Arrow} {toArrow : SchemaToArrow} {h : TableHandle}
variable {schema : ArrowSchema} {batch b : RecordBatch}

theorem forall₂_zip_of {α β γ : Type*} {R : α → β → Prop} {S : α → γ → Prop}
    {T : α × β → γ → Prop} {as : List α} {bs : List β} {cs : List γ} (hr : List.Forall₂ R as bs)
    (hs : List.Forall₂ S as cs) (ht : ∀ a b c, R a b → S a c → T (a, b) c) :
    List.Forall₂ T (as.zip bs) cs := by
  induction hr generalizing cs with
  | nil =>
    cases hs
    exact .nil
  | cons hab _ ih =>
    cases hs with
    | cons hac hs => exact .cons (ht _ _ _ hab hac) (ih hs)

/-- With the schema's names in order, a field finds the column at its own position. -/
theorem columnByName_at (hn : schema.names.Nodup) (hnames : batch.names = schema.names) :
    List.Forall₂ (fun f col => batch.columnByName f.name = some col) schema.fields
      batch.columns := by
  have hlen : schema.fields.length = batch.columns.length := by
    rw [batch.columns_length]
    simpa [RecordBatch.names, ArrowSchema.names] using (congrArg List.length hnames).symm
  have hzip : (schema.fields.zip batch.columns).map (Prod.map Field.name id) =
      (batch.schema.fields.zip batch.columns).map (Prod.map Field.name id) := by
    rw [← List.zip_map_left, ← List.zip_map_left]
    exact congrArg (List.zip · batch.columns) hnames.symm
  refine List.forall₂_iff_zip.mpr ⟨hlen, fun {f col} hf => ?_⟩
  have hmem := hzip ▸ List.mem_map_of_mem (f := Prod.map Field.name id) hf
  obtain ⟨⟨g, col'⟩, hg, he⟩ := List.mem_map.mp hmem
  obtain ⟨hname, rfl⟩ : g.name = f.name ∧ col' = col := by simpa using he
  rw [← hnames] at hn
  exact hname ▸ RecordBatch.columnByName_of_mem hn hg

theorem inOrder_of_names (hn : schema.names.Nodup) (hnames : batch.names = schema.names)
    (hb : conform A batch schema = .ok b) : InOrder A schema batch b := by
  obtain ⟨rfl, hcols⟩ := conform_eq_ok hb
  refine ⟨rfl, forall₂_zip_of (columnByName_at hn hnames) hcols fun f col c hcol hc => ?_⟩
  obtain ⟨col', cells, hcol', hcast, hcells⟩ := conformColumn_eq_ok.mp hc
  obtain rfl := Option.some.inj (hcol.symm.trans hcol')
  exact ⟨cells, hcast, hcells⟩

/-- A batch is conformed exactly when the fields of the schema find their columns in it. -/
theorem conform_isOk : (∃ b, conform A batch schema = .ok b) ↔ Conformable A schema batch := by
  constructor
  · rintro ⟨b, hb⟩
    obtain ⟨hschema, hcols⟩ := conform_eq_ok hb
    have hfit : BatchFits schema b.columns := by
      unfold conform at hb
      split at hb
      next columns _ =>
        obtain ⟨hfit, rfl⟩ := RecordBatch.tryNew_eq_ok.mp (batchFromColumns_eq_ok.mp hb)
        exact hfit
      next => cases hb
    refine ⟨fun f hf => ?_, fun he => hfit.nonempty (by simpa [he] using hcols)⟩
    obtain ⟨p, hp, rfl⟩ : ∃ p ∈ schema.fields.zip b.columns, p.1 = f := by
      rw [← List.map_fst_zip (Nat.le_of_eq hcols.length_eq)] at hf
      exact List.mem_map.mp hf
    obtain ⟨col, cells, hcol, hcast, hc⟩ :=
      conformColumn_eq_ok.mp (List.forall₂_zip hcols (a := p.1) (b := p.2) hp)
    exact ⟨col, cells, hcol, hcast, fun hnull => hc ▸ hfit.required p hp hnull⟩
  · intro h
    have : Nonempty ArrayRef := ⟨.texts []⟩
    have hcol : ∀ f ∈ schema.fields, ∃ c, conformColumn A batch schema f = .ok c ∧
        c.dataType = f.dataType ∧ c.len = batch.numRows ∧
          (f.nullable = false → c.nullCount = 0) := by
      intro f hf
      obtain ⟨col, cells, hcol, hcast, hnull⟩ := h.found f hf
      exact ⟨⟨f.dataType, cells⟩, conformColumn_eq_ok.mpr ⟨col, cells, hcol, hcast, rfl⟩, rfl,
        (Arrow.castTo_length hcast).trans (RecordBatch.columnByName_len hcol), hnull⟩
    choose! c hc hty hlen hnull using hcol
    have hmap : schema.fields.mapM (conformColumn A batch schema) = .ok (schema.fields.map c) := by
      rw [except_mapM_eq_ok, List.forall₂_map_right_iff, List.forall₂_same]
      exact hc
    have hfit : BatchFits schema (schema.fields.map c) := by
      refine ⟨?_, by simpa using h.nonempty, ?_, ?_⟩
      · simpa using hty
      · simp +contextual [hlen]
      · have hzip := List.zip_map' (f := id) (g := c) (l := schema.fields)
        rw [List.map_id] at hzip
        simpa [hzip] using hnull
    refine ⟨.ofFits schema _ hfit, ?_⟩
    simp only [conform, hmap]
    exact batchFromColumns_eq_ok.mpr (RecordBatch.tryNew_eq_ok.mpr ⟨hfit, rfl⟩)

theorem stage_of_conform_error {e what : String} {io : WriterApi}
    (hs : toArrow h.table.currentSchema = .ok schema) (he : conform A batch schema = .error e) :
    stage A toArrow io h batch what = .fail h (-1) s!"{what}: {e}" := by
  simp only [stage, tableArrowSchema_eq_ok.mpr hs, he]

/-- An append keeps a batch's columns in their order, or refuses the batch, exactly when the
batch has the schema's names in order, or is one that `conform` cannot bring onto the schema:
a column is missing or not castable, a required field gets a null, or there are no fields. -/
theorem columns_kept_iff (A : Arrow) (hto : toArrow.Lawful)
    (hs : toArrow h.table.currentSchema = .ok schema) (batch : RecordBatch) :
    ColumnsKept A toArrow h schema batch ↔
      batch.names = schema.names ∨ ¬ Conformable A schema batch := by
  constructor
  · intro hk
    by_cases hc : Conformable A schema batch
    · obtain ⟨b, hb⟩ := conform_isOk.mpr hc
      exact .inl (hk.accepted b hb).1
    · exact .inr hc
  · intro hor
    constructor
    · intro b hb
      have hnames := hor.resolve_right (not_not.mpr (conform_isOk.mp ⟨b, hb⟩))
      exact ⟨hnames, inOrder_of_names (hto.names_nodup hs) hnames hb⟩
    · intro e he io
      refine ⟨?_, ?_, fun pair hpair => ?_⟩
      · rw [ibTableAppend, stage_of_conform_error hs he, Reply.fail_ret]
      · rw [ibTableAppend, stage_of_conform_error hs he, Reply.fail_state]
      · simp only [ibTableAppendBatch, hpair, stage_of_conform_error hs he, Reply.fail_ret,
          Reply.fail_state, and_self]

/-- A batch with the columns `b`, `a` and one more for a table with the columns `a`, `b`. -/
def shuffled : RecordBatch where
  schema := ⟨[⟨"b", .int64, true, none⟩, ⟨"a", .int64, true, none⟩, ⟨"extra", .int64, true, none⟩]⟩
  columns := [⟨.int64, [some (8 : Int64)]⟩, ⟨.int64, [some (7 : Int64)]⟩,
    ⟨.int64, [some (9 : Int64)]⟩]
  numRows := 1
  typed := rfl
  rows := by simp [ArrayRef.len]

theorem columns_kept_iff_shuffled :
    ColumnsKept .basic .direct (pairHandle "a" "b" (by decide)) pairBuilder.schema shuffled ↔
      shuffled.names = pairBuilder.schema.names ∨
        ¬ Conformable .basic pairBuilder.schema shuffled :=
  columns_kept_iff .basic SchemaToArrow.direct_lawful rfl shuffled

/-- The append exchanges two columns, drops the third, and returns 0. -/
theorem append_drops_column : shuffled.names = ["b", "a", "extra"] ∧
    pairBuilder.schema.names = ["a", "b"] ∧
    (∃ b, conform .basic shuffled pairBuilder.schema = .ok b ∧
      b.columns = [⟨.int64, [some (7 : Int64)]⟩, ⟨.int64, [some (8 : Int64)]⟩]) ∧
    (ibTableAppend .basic .direct (.single "f") (pairHandle "a" "b" (by decide)) shuffled).ret = 0 ∧
    (ibTableAppend .basic .direct (.single "f") (pairHandle "a" "b" (by decide))
      shuffled).state.pending = [⟨"f"⟩] :=
  ⟨rfl, rfl, ⟨_, rfl, rfl⟩, rfl, rfl⟩

end IcebergRs
