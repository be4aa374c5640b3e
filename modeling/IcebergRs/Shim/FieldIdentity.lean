import IcebergRs.Shim.NullPreservation

/-! Which table field a supplied column is written under when the table's schema has
changed between the builder and the append. Where the names are still the same, it is the
field that now has the column's name and place. -/
namespace IcebergRs

/-- The column is written, cast to the type of the field, under the Arrow field of `f`. -/
def WrittenUnder (A : Arrow) (b : RecordBatch) (f : NestedField) (c : ArrayRef) : Prop :=
  ∃ g cells, (g, (⟨g.dataType, cells⟩ : ArrayRef)) ∈ b.schema.fields.zip b.columns ∧
    ArrowFieldOf f g ∧ A.castTo c g.dataType = .ok cells

variable {A : Arrow} {toArrow : SchemaToArrow} {io : WriterApi} {h : TableHandle}
variable {batch b : RecordBatch} {files : List DataFile}

theorem exists_arrowField {s : Schema} {a : ArrowSchema} (hto : toArrow.Lawful)
    (ha : toArrow s = .ok a) {f : NestedField} (hf : f ∈ s.fields) :
    ∃ g ∈ a.fields, ArrowFieldOf f g := by
  have hall := hto s a ha
  generalize s.fields = fs at hf hall
  generalize a.fields = gs at hall ⊢
  induction hall with
  | nil => cases hf
  | cons hfg _ ih =>
    rcases List.mem_cons.mp hf with rfl | hf
    · exact ⟨_, List.mem_cons_self, hfg⟩
    · obtain ⟨g, hg, hfg⟩ := ih hf
      exact ⟨g, List.mem_cons_of_mem _ hg, hfg⟩

/-- Every field of the table is written from the batch's column of its name. -/
theorem Stages.writtenUnder (hto : toArrow.Lawful) (hst : Stages A toArrow io h batch b files)
    {f : NestedField} (hf : f ∈ h.table.currentSchema.fields) :
    ∃ c, batch.columnByName f.name = some c ∧ WrittenUnder A b f c := by
  obtain ⟨schema, hs, hb⟩ := hst.conformed
  obtain ⟨rfl, hcols⟩ := conform_eq_ok hb
  obtain ⟨g, hg, hfg⟩ := exists_arrowField hto hs hf
  obtain ⟨p, hp, rfl⟩ : ∃ p ∈ b.schema.fields.zip b.columns, p.1 = g := by
    rw [← List.map_fst_zip (Nat.le_of_eq hcols.length_eq)] at hg
    exact List.mem_map.mp hg
  obtain ⟨c, cells, hc, hcast, he⟩ :=
    conformColumn_eq_ok.mp (List.forall₂_zip hcols (a := p.1) (b := p.2) hp)
  exact ⟨c, hfg.name ▸ hc, p.1, cells, he ▸ hp, hfg, hcast⟩

theorem RecordBatch.name_mem_of_columnByName {name : String} {c : ArrayRef}
    (h : batch.columnByName name = some c) : name ∈ batch.schema.fields.map Field.name := by
  obtain ⟨p, hp, -⟩ := Option.map_eq_some_iff.mp h
  have hname : p.1.name = name := by simpa using List.find?_some hp
  have hmem := (List.of_mem_zip (List.mem_of_find?_eq_some hp)).1
  exact hname ▸ List.mem_map_of_mem hmem

/-- Fields in the same place of two schemas with the same names have one name. -/
theorem name_eq_of_zip {s₁ s₂ : Schema} {f₁ f₂ : NestedField}
    (hnames : s₂.fields.map NestedField.name = s₁.fields.map NestedField.name)
    (hf : (f₁, f₂) ∈ s₁.fields.zip s₂.fields) : f₂.name = f₁.name := by
  have hall : List.Forall₂ (fun g₁ g₂ : NestedField => g₂.name = g₁.name) s₁.fields s₂.fields := by
    have heq := List.forall₂_eq_eq_eq ▸ hnames
    exact (List.forall₂_map_left_iff.mp (List.forall₂_map_right_iff.mp heq)).flip
  exact List.forall₂_zip hall hf

/-- When the table still has the names that the builder was created with, in their order, an
append that succeeds writes each supplied column under the field that now has its name and
place, whatever id that field has. When the table has got a new name, every append fails. -/
theorem append_by_name (hto : toArrow.Lawful) {t₁ t₂ : TableHandle} {b₀ bh : BuilderHandle}
    {calls : List BuilderCall} (hnew : (ibBatchBuilderNew toArrow t₁).ret = some b₀)
    (run : Trace (BuilderStep A) b₀ calls bh)
    (hbuild : (ibBatchBuilderBuild A bh).ret = some batch) :
    (t₂.table.currentSchema.fields.map NestedField.name =
        t₁.table.currentSchema.fields.map NestedField.name →
      (ibTableAppend A toArrow io t₂ batch).ret = 0 →
      ∃ b files, Stages A toArrow io t₂ batch b files ∧
        ∀ f₁ f₂, (f₁, f₂) ∈ t₁.table.currentSchema.fields.zip t₂.table.currentSchema.fields →
          ∀ c, lastColumn A b₀.schema calls f₁.name = some c →
            f₂.name = f₁.name ∧ WrittenUnder A b f₂ c) ∧
    ((∃ f ∈ t₂.table.currentSchema.fields,
        f.name ∉ t₁.table.currentSchema.fields.map NestedField.name) →
      (ibTableAppend A toArrow io t₂ batch).ret = -1 ∧
        (ibTableAppend A toArrow io t₂ batch).state = t₂) := by
  obtain ⟨schema, hs, rfl⟩ := ibBatchBuilderNew_eq_some hnew
  have hh := holds_of_trace ⟨rfl, rfl⟩ run
  refine ⟨fun hnames happend => ?_, fun ⟨f, hf, hnew⟩ => ?_⟩
  · obtain ⟨b, files, hst⟩ := stage_ret_zero happend
    refine ⟨b, files, hst, fun f₁ f₂ hf c hc => ?_⟩
    have hname := name_eq_of_zip hnames hf
    obtain ⟨c', hc', hw⟩ := hst.writtenUnder hto (List.of_mem_zip hf).2
    have hheld :=
      columnByName_of_held hh (hto.names_nodup hs) hbuild ((hh.lookup f₁.name).trans hc)
    rw [hname] at hc'
    obtain rfl := Option.some.inj (hc'.symm.trans hheld)
    exact ⟨hname, hw⟩
  · rcases stage_cases "ib_table_append" with ⟨b, files, hst, -⟩ | ⟨m, hm⟩
    · -- the batch has the builder's columns only, so `conform` finds none of the new name
      obtain ⟨c, hc, -⟩ := hst.writtenUnder hto hf
      have hmem := RecordBatch.name_mem_of_columnByName hc
      rw [(build_batch hh hbuild).1, hto.names_eq hs] at hmem
      exact absurd hmem hnew
    · rw [ibTableAppend, hm]
      exact ⟨rfl, rfl⟩

/-- A handle on a table with two optional columns of ids 1 and 2 under the given names. -/
def pairHandle (first second : String) (h : first ≠ second) : TableHandle where
  table :=
    { identifier := .within "db" "pair"
      currentSchema :=
        { fields := [⟨1, first, false, .primitive .long⟩, ⟨2, second, false, .primitive .long⟩]
          nested := []
          names := by simp [h]
          ids := by simp }
      unpartitioned := true
      snapshots := []
      currentSnapshotId := none
      uuid := "4b66f3a2" }
  pending := []

def pairBuilder : BuilderHandle :=
  ⟨SchemaToArrow.fieldwise (pairHandle "a" "b" (by decide)).table.currentSchema, ∅, none⟩

theorem pairBuilder_run : Trace (BuilderStep .basic) pairBuilder
    [.supply (.int (cName "a") (some #v[7]) none) 0,
      .supply (.int (cName "b") (some #v[8]) none) 0]
    ((pairBuilder.store "a" ⟨.int64, [some (7 : Int64)]⟩).store "b"
      ⟨.int64, [some (8 : Int64)]⟩) := by
  have ha : ∀ what, cstr (cName "a") what = .ok "a" := cstr_cName (by decide)
  have hb : ∀ what, cstr (cName "b") what = .ok "b" := cstr_cName (by decide)
  have one := Trace.snoc (Trace.nil (R := BuilderStep .basic) (s := pairBuilder))
    (.supply (Supply.run_of_offer (s := .int (cName "a") (some #v[7]) none)
      (Supply.offer_eq_some.mpr ⟨ha _, _, _, _, rfl, rfl, rfl, rfl⟩) (by simp [pairBuilder])))
  have two := one.snoc
    (.supply (Supply.run_of_offer (s := .int (cName "b") (some #v[8]) none)
      (Supply.offer_eq_some.mpr ⟨hb _, _, _, _, rfl, rfl, rfl, rfl⟩)
      fun _ hr => (Option.some.inj hr).symm))
  exact two

/-- The table of the columns `a` and `b` after `b` was dropped and another `b` was added. -/
def readded : TableHandle where
  table :=
    { (pairHandle "a" "b" (by decide)).table with
      currentSchema :=
        { fields := [⟨1, "a", false, .primitive .long⟩, ⟨3, "b", false, .primitive .long⟩]
          nested := []
          names := by decide
          ids := by decide } }
  pending := []

theorem append_by_name_pair : ∃ bh batch b files,
    Trace (BuilderStep .basic) pairBuilder
      [.supply (.int (cName "a") (some #v[7]) none) 0,
        .supply (.int (cName "b") (some #v[8]) none) 0] bh ∧
    (ibBatchBuilderBuild .basic bh).ret = some batch ∧
    Stages .basic .direct (.single "f") readded batch b files ∧
    WrittenUnder .basic b ⟨1, "a", false, .primitive .long⟩ ⟨.int64, [some (7 : Int64)]⟩ ∧
    WrittenUnder .basic b ⟨3, "b", false, .primitive .long⟩ ⟨.int64, [some (8 : Int64)]⟩ ∧
    (ibTableAppend .basic .direct (.single "f") (pairHandle "a" "c" (by decide)) batch).ret =
      -1 := by
  have hnew : (ibBatchBuilderNew .direct (pairHandle "a" "b" (by decide))).ret =
      some pairBuilder := rfl
  have happend : (ibTableAppend .basic .direct (.single "f") readded
      (RecordBatch.ofFits pairBuilder.schema [⟨.int64, [some (7 : Int64)]⟩,
        ⟨.int64, [some (8 : Int64)]⟩] (by decide))).ret = 0 := rfl
  have hrun := pairBuilder_run
  have hlast := (holds_of_trace ⟨rfl, rfl⟩ hrun).lookup
  have hsame := @append_by_name _ _ (.single "f") _ SchemaToArrow.direct_lawful _ readded _ _ _
    hnew hrun rfl
  have hother := @append_by_name _ _ (.single "f") _ SchemaToArrow.direct_lawful _
    (pairHandle "a" "c" (by decide)) _ _ _ hnew hrun rfl
  obtain ⟨b, files, hst, hw⟩ := hsame.1 rfl happend
  have ha := hw ⟨1, "a", false, .primitive .long⟩ ⟨1, "a", false, .primitive .long⟩
    (by simp [pairHandle, readded]) _ ((hlast "a").symm.trans rfl)
  have hb := hw ⟨2, "b", false, .primitive .long⟩ ⟨3, "b", false, .primitive .long⟩
    (by simp [pairHandle, readded]) _ ((hlast "b").symm.trans rfl)
  have hc := hother.2 ⟨⟨2, "c", false, .primitive .long⟩, by simp [pairHandle],
    by simp [pairHandle]⟩
  exact ⟨_, _, b, files, hrun, rfl, hst, ha.2, hb.2, hc.1⟩

/-- The column supplied as `b`, which had id 2, is written under the new `b` of id 3. No field
has id 2 any more, and the append returns 0. -/
theorem append_ignores_field_id : ∃ bh batch b,
    (ibBatchBuilderNew .direct (pairHandle "a" "b" (by decide))).ret = some pairBuilder ∧
    Trace (BuilderStep .basic) pairBuilder
      [.supply (.int (cName "a") (some #v[7]) none) 0,
        .supply (.int (cName "b") (some #v[8]) none) 0] bh ∧
    (ibBatchBuilderBuild .basic bh).ret = some batch ∧
    (pairHandle "a" "b" (by decide)).table.currentSchema.fields.map
        (fun f => (f.id, f.name)) = [(1, "a"), (2, "b")] ∧
    readded.table.currentSchema.fields.map (fun f => (f.id, f.name)) = [(1, "a"), (3, "b")] ∧
    (ibTableAppend .basic .direct (.single "f") readded batch).ret = 0 ∧
    Stages .basic .direct (.single "f") readded batch b [⟨"f"⟩] ∧
    b.schema.fields.zip b.columns =
      [(⟨"a", .int64, true, some 1⟩, ⟨.int64, [some (7 : Int64)]⟩),
        (⟨"b", .int64, true, some 3⟩, ⟨.int64, [some (8 : Int64)]⟩)] :=
  ⟨_, _, _, rfl, pairBuilder_run, rfl, rfl, rfl, rfl, ⟨⟨_, rfl, rfl⟩, rfl⟩, rfl⟩

end IcebergRs
