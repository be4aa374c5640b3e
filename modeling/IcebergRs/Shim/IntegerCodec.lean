import IcebergRs.Arrow.Counts
import IcebergRs.Shim.FieldIdentity
import IcebergRs.Shim.FilterTypes
import IcebergRs.Shim.Getters

/-! One integer on the three paths of the shim: read as a literal of a filter, written through
the integer builder, and read back as an integer, it is the same value of the column. -/
namespace IcebergRs

/-- What a datum stands for. -/
def Datum.meaning (d : Datum) : Option Meaning :=
  match d.ty, d.lit with
  | .int, .int i => some (.number i.toInt)
  | .long, .long i => some (.number i.toInt)
  | .date, .int i => some (.date i.toInt)
  | .time, .long i => some (.time (i.toInt * 1000))
  | .timestamp, .long i => some (.instant (i.toInt * 1000) false)
  | .timestamptz, .long i => some (.instant (i.toInt * 1000) true)
  | .timestampNs, .long i => some (.instant i.toInt false)
  | .timestamptzNs, .long i => some (.instant i.toInt true)
  | _, _ => none

theorem isCount_arrowType {ty : PrimitiveType} (h : ty.IsIntegral) : ty.arrowType.IsCount := by
  cases ty <;> trivial

/-- The value that a column of the type stores for the integer is the one that the datum
stands for. -/
def StoredAs (ty : PrimitiveType) (k : Int64) (d : Datum) : Prop :=
  ∃ v m, ty.arrowType.ofCount k = some v ∧ ty.arrowType.meaning v = some m ∧ d.meaning = some m

section
variable {api : DatumApi} {n : Number} {ty : PrimitiveType} {c : String} {d : Datum}

theorem storedAs_of_datum (hapi : api.Lawful) (hty : ty.IsIntegral)
    (h : Filter.datum api (.number n) ty c = .ok d) :
    ∃ k, n.asI64 = some k ∧ StoredAs ty k d := by
  cases ty with
  | int | date =>
    simp only [Filter.datum, Outcome.okOr_eq_ok, Option.map_eq_some_iff,
      Option.bind_eq_some_iff] at h
    obtain ⟨v, ⟨k, hk, hv⟩, rfl⟩ := h
    exact ⟨k, hk, v, _, hv, rfl, rfl⟩
  | long =>
    simp only [Filter.datum, Outcome.okOr_eq_ok, Option.map_eq_some_iff] at h
    obtain ⟨k, hk, rfl⟩ := h
    exact ⟨k, hk, k, _, rfl, rfl, rfl⟩
  | timestampNs | timestamptzNs =>
    simp only [Filter.datum, Outcome.okOr_eq_ok, Option.map_eq_some_iff] at h
    obtain ⟨k, hk, rfl⟩ := h
    refine ⟨k, hk, k, _, rfl, rfl, ?_⟩
    simp [Datum.meaning, Datum.timestampNanos, Datum.timestamptzNanos, TimeUnit.nanos]
  | time =>
    obtain ⟨k, hk, hd⟩ := Outcome.bind_eq_ok.mp h
    obtain rfl := hapi.timeMicros k d (Outcome.ofExcept_eq_ok.mp hd)
    exact ⟨k, Outcome.unwrap_eq_ok.mp hk, k, _, rfl, rfl, rfl⟩
  | timestamp | timestamptz =>
    obtain ⟨k, hk, hd⟩ := Outcome.bind_eq_ok.mp h
    obtain rfl := Outcome.ok.inj hd
    exact ⟨k, Outcome.unwrap_eq_ok.mp hk, k, _, rfl, rfl, rfl⟩
  | _ => cases hty

end

variable {A : Arrow} {t : DataType}

/-- Integers are accepted for every type of counts, and stored as the values they count. -/
theorem ibBatchBuilderInt_eq (hA : A.IntegerCasts) (ht : t.IsCount) {b : BuilderHandle}
    {name : CString} {nm : String} {f : Field} {m : ℕ} {values : Vector Int64 m}
    {valid : Option (Vector UInt8 m)} (hn : cstr name "ib_batch_builder_int" = .ok nm)
    (hf : b.schema.find nm = some f) (hty : f.dataType = t) (hrows : ∀ rows ∈ b.rows, rows = m) :
    ibBatchBuilderInt A b name (some values) valid = .ok (.done
      (b.store nm ⟨t, (collect valid values.get).map (·.bind t.ofCount)⟩) 0) := by
  obtain ⟨fname, ty, nullable, id⟩ := f
  obtain rfl : ty = t := hty
  refine Supply.run_of_offer (s := .int name (some values) valid) (Supply.offer_eq_some.mpr
    ⟨hn, _, _, _, rfl, hf, Arrow.castTo_ofCount hA ht _, rfl⟩) fun rows hr => ?_
  rw [hrows rows hr]
  simp [ArrayRef.len, collect]

/-- A column of counts is read back as its counts. -/
theorem ibBatchGetI64_eq (hA : A.IntegerCasts) (ht : t.IsCount) {batch : RecordBatch}
    {name : CString} {nm : String} {cells : List (Option t.Val)} (mem : List Int64)
    (valid : List UInt8) (cap : ℕ) (hn : cstr name "ib_batch_get_i64" = .ok nm)
    (hcol : batch.columnByName nm = some ⟨t, cells⟩) :
    ibBatchGetI64 A batch name ⟨some mem, some valid⟩ cap = .done
      ⟨some (overwrite mem (((cells.map (·.bind t.toCount)).take cap).map (·.getD 0))),
        some (overwrite valid (((cells.map (·.bind t.toCount)).take cap).map validByte))⟩
      ((cells.map (·.bind t.toCount)).take cap).length :=
  getColumn_eq (t := .int64) hn hcol (Arrow.castTo_toCount hA ht cells) rfl

/-- Written for a column of the type as a present value, the integer is accepted and stored
as the value that the datum stands for, and that cell is read back as the integer. -/
def Agrees (A : Arrow) (toArrow : SchemaToArrow) (ty : PrimitiveType) (k : Int64) (d : Datum) :
    Prop :=
  ∀ (s : Schema) (g : NestedField) (b : BuilderHandle) (name : CString) (m : ℕ)
      (values : Vector Int64 m) (valid : Option (Vector UInt8 m)) (i : Fin m),
    g ∈ s.fields → g.fieldType = .primitive ty → toArrow s = .ok b.schema →
    cstr name "ib_batch_builder_int" = .ok g.name → (∀ rows ∈ b.rows, rows = m) →
    values.get i = k → absent valid i = false →
    ∃ cells : List (Option ty.arrowType.Val),
      ibBatchBuilderInt A b name (some values) valid =
        .ok (.done (b.store g.name ⟨ty.arrowType, cells⟩) 0) ∧
      (∃ v what, cells[i.val]? = some (some v) ∧ ty.arrowType.meaning v = some what ∧
        d.meaning = some what) ∧
      ∀ (batch : RecordBatch) (name : CString) (nm : String) (mem : List Int64)
          (memValid : List UInt8) (cap : ℕ),
        cstr name "ib_batch_get_i64" = .ok nm →
        batch.columnByName nm = some ⟨ty.arrowType, cells⟩ → i.val < cap →
        ∃ out outValid, ibBatchGetI64 A batch name ⟨some mem, some memValid⟩ cap =
            .done ⟨some out, some outValid⟩ (min batch.numRows cap) ∧
          out[i.val]? = some k ∧ outValid[i.val]? = some 1

/-- Whatever JSON number the filter accepts for a column of integers, dates, times or
timestamps is a 64-bit integer, and the builder and the getter agree with the filter on it. -/
theorem integer_paths_agree {toArrow : SchemaToArrow} {api : DatumApi} (hA : A.IntegerCasts)
    (hto : toArrow.Lawful) (hapi : api.Lawful) {ty : PrimitiveType} (hty : ty.IsIntegral)
    {n : Number} {c : String} {d : Datum} (h : Filter.datum api (.number n) ty c = .ok d) :
    ∃ k : Int64, n.integer? = some k.toInt ∧ Agrees A toArrow ty k d := by
  obtain ⟨k, hk, v, what, hv, hwhat, hd⟩ := storedAs_of_datum hapi hty h
  refine ⟨k, Number.integer?_of_asI64 hk, ?_⟩
  intro s g b name m values valid i hg hgty hs hname hrows hval hpresent
  have hcount := isCount_arrowType hty
  obtain ⟨f, hf, hfg⟩ := exists_arrowField hto hs hg
  have hfind := ArrowSchema.find_of_mem (hto.names_nodup hs) hf
  rw [hfg.name] at hfind
  let cells := (collect valid values.get).map (·.bind ty.arrowType.ofCount)
  have hcell : cells[i.val]? = some (some v) := by
    simp [cells, collect, hval, hpresent, hv]
  refine ⟨cells, ibBatchBuilderInt_eq hA hcount hname hfind (hfg.dataType ty hgty) hrows,
    ⟨v, what, hcell, hwhat, hd⟩, ?_⟩
  intro batch name nm mem memValid cap hname hcol hcap
  let counts := (cells.map (·.bind ty.arrowType.toCount)).take cap
  have hcount_i : counts[i.val]? = some (some k) := by
    rw [List.getElem?_take_of_lt hcap, List.getElem?_map, hcell]
    exact congrArg some (DataType.toCount_of_ofCount hv)
  have hlen : (counts.length : ℤ) = min (batch.numRows : ℤ) cap := by
    have hrows : cells.length = batch.numRows := RecordBatch.columnByName_len hcol
    rw [List.length_take, List.length_map, hrows]
    omega
  have hget := ibBatchGetI64_eq hA hcount mem memValid cap hname hcol
  rw [hlen] at hget
  refine ⟨_, _, hget, overwrite_getElem? ?_, overwrite_getElem? ?_⟩
  · rw [List.getElem?_map, hcount_i]
    rfl
  · rw [List.getElem?_map, hcount_i]
    rfl

/-- A timestamp of the sample table on all three paths. -/
theorem integer_paths_agree_ts :
    ∃ k : Int64, (Number.posInt 1700000000000000).integer? = some k.toInt ∧
      Agrees .basic .direct .timestamp k (.timestampMicros 1700000000000000) := by
  have timestamp : PrimitiveType.timestamp.IsIntegral := trivial
  exact integer_paths_agree (c := "ts") Arrow.basic_integerCasts SchemaToArrow.direct_lawful
    DatumApi.basic_lawful timestamp rfl

end IcebergRs
