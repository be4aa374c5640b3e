import IcebergRs.Shim.IntegerCodec

/-! Integers as timestamps. The builder, the filter and the getter all count in the unit of the
column, which is the microsecond only for `timestamp` and `timestamptz`. -/
namespace IcebergRs

namespace PrimitiveType

/-- Whether the instants of a timestamp type are in UTC. -/
def zoned? : PrimitiveType → Option Bool
  | .timestamp | .timestampNs => some false
  | .timestamptz | .timestamptzNs => some true
  | _ => none

/-- The timestamp types of microsecond precision. -/
def IsMicros : PrimitiveType → Prop
  | .timestamp | .timestamptz => True
  | _ => False

end PrimitiveType

/-- The instant a number of microseconds after the epoch. -/
def micros (k : Int64) (zoned : Bool) : Meaning := .instant (k.toInt * 1000) zoned

section
variable (A : Arrow) (api : DatumApi) (ty : PrimitiveType) (zoned : Bool) (k : Int64)

/-- The builder stores the instant wherever it is given the number as a present value. -/
def StoresMicros : Prop :=
  ∀ (b : BuilderHandle) (name : CString) (nm : String) (f : Field) (m : ℕ)
      (values : Vector Int64 m) (valid : Option (Vector UInt8 m)) (i : Fin m),
    cstr name "ib_batch_builder_int" = .ok nm → b.schema.find nm = some f →
    f.dataType = ty.arrowType → (∀ rows ∈ b.rows, rows = m) →
    values.get i = k → absent valid i = false →
    ∃ cells : List (Option ty.arrowType.Val),
      ibBatchBuilderInt A b name (some values) valid =
        .ok (.done (b.store nm ⟨ty.arrowType, cells⟩) 0) ∧
      ∃ v, cells[i.val]? = some (some v) ∧ ty.arrowType.meaning v = some (micros k zoned)

/-- The number as a literal for a column of the type denotes the instant. -/
def DenotesMicros : Prop :=
  ∀ (n : Number) (c : String), n.asI64 = some k →
    ∃ d, Filter.datum api (.number n) ty c = .ok d ∧ d.meaning = some (micros k zoned)

/-- The getter returns the number for a cell that holds the instant. -/
def ReadsMicros : Prop :=
  ∀ (batch : RecordBatch) (name : CString) (nm : String) (cells : List (Option ty.arrowType.Val))
      (i : ℕ) (v : ty.arrowType.Val) (mem : List Int64) (memValid : List UInt8) (cap : ℕ),
    cstr name "ib_batch_get_i64" = .ok nm → batch.columnByName nm = some ⟨ty.arrowType, cells⟩ →
    cells[i]? = some (some v) → ty.arrowType.meaning v = some (micros k zoned) → i < cap →
    ∃ out outValid n, ibBatchGetI64 A batch name ⟨some mem, some memValid⟩ cap =
        .done ⟨some out, some outValid⟩ n ∧ out[i]? = some k ∧ outValid[i]? = some 1

end

section
variable {A : Arrow} {api : DatumApi} {ty : PrimitiveType} {zoned : Bool} {k : Int64}

theorem isIntegral_of_zoned (h : ty.zoned? = some zoned) : ty.IsIntegral := by
  cases ty <;> trivial

/-- The count of a column is the count of microseconds only if that is the unit, or for the
epoch itself. -/
theorem meaning_ofCount_iff (h : ty.zoned? = some zoned) :
    ∃ v, ty.arrowType.ofCount k = some v ∧
      (ty.arrowType.meaning v = some (micros k zoned) ↔ ty.IsMicros ∨ k = 0) := by
  have hnanos : k.toInt = k.toInt * 1000 ↔ k = 0 := by
    rw [← Int64.toInt_inj, Int64.toInt_zero]
    omega
  cases ty <;> cases h <;> refine ⟨k, rfl, ?_⟩ <;>
    simp [PrimitiveType.arrowType, DataType.meaning, micros, TimeUnit.nanos,
      PrimitiveType.IsMicros, hnanos]

/-- The instants of a timestamp column have different counts. -/
theorem meaning_inj (h : ty.zoned? = some zoned) {v v' : ty.arrowType.Val}
    (hv : ty.arrowType.meaning v = some (micros k zoned))
    (hv' : ty.arrowType.meaning v' = some (micros k zoned)) : v = v' := by
  have hinj : ∀ (n : ℤ), n ≠ 0 → ∀ {i j : Int64}, i.toInt * n = k.toInt * 1000 →
      j.toInt * n = k.toInt * 1000 → i = j := fun n hn i j hi hj =>
    Int64.toInt_inj.mp (Int.eq_of_mul_eq_mul_right hn (hi.trans hj.symm))
  cases ty <;> cases h <;>
    exact hinj _ (by decide) (Meaning.instant.inj (Option.some.inj hv)).1
      (Meaning.instant.inj (Option.some.inj hv')).1

theorem ofCount_of_toCount (h : ty.zoned? = some zoned) {v : ty.arrowType.Val}
    (hv : ty.arrowType.toCount v = some k) : ty.arrowType.ofCount k = some v := by
  cases ty <;> cases h <;> exact hv.symm

/-- A cell that holds the instant has the count of microseconds under the same condition. -/
theorem toCount_iff (h : ty.zoned? = some zoned) {v : ty.arrowType.Val}
    (hv : ty.arrowType.meaning v = some (micros k zoned)) :
    ty.arrowType.toCount v = some k ↔ ty.IsMicros ∨ k = 0 := by
  obtain ⟨v', hv', hiff⟩ := meaning_ofCount_iff (k := k) h
  rw [← hiff]
  constructor
  · intro hk
    obtain rfl : v' = v := Option.some.inj (hv'.symm.trans (ofCount_of_toCount h hk))
    exact hv
  · intro hmeans
    rw [meaning_inj h hv hmeans]
    exact DataType.toCount_of_ofCount hv'

/-- The literal denotes the value that the builder stores for the number. -/
theorem datum_zoned (api : DatumApi) (h : ty.zoned? = some zoned) {v : ty.arrowType.Val}
    (hv : ty.arrowType.ofCount k = some v) {n : Number} (hn : n.asI64 = some k) (c : String) :
    ∃ d, Filter.datum api (.number n) ty c = .ok d ∧ d.meaning = ty.arrowType.meaning v := by
  have hone : ∀ z, some (Meaning.instant k.toInt z) = some (.instant (k.toInt * 1) z) := by simp
  cases ty <;> cases h <;> cases hv <;> simp only [Filter.datum, Json.asI64, hn]
  · exact ⟨_, rfl, rfl⟩
  · exact ⟨_, rfl, rfl⟩
  · exact ⟨_, rfl, hone false⟩
  · exact ⟨_, rfl, hone true⟩

theorem denotes_iff (api : DatumApi) (h : ty.zoned? = some zoned) :
    DenotesMicros api ty zoned k ↔ ty.IsMicros ∨ k = 0 := by
  obtain ⟨v, hv, hiff⟩ := meaning_ofCount_iff (k := k) h
  rw [← hiff]
  constructor
  · intro hall
    obtain ⟨n, hn⟩ : ∃ n : Number, n.asI64 = some k := ⟨.ofInt64 k, Number.asI64_ofInt64 k⟩
    obtain ⟨d, hd, hmeans⟩ := hall n "ts" hn
    obtain ⟨d', hd', hmeans'⟩ := datum_zoned api h hv hn "ts"
    obtain rfl := Outcome.ok.inj (hd.symm.trans hd')
    exact hmeans'.symm.trans hmeans
  · intro hk n c hn
    obtain ⟨d, hd, hmeans⟩ := datum_zoned api h hv hn c
    exact ⟨d, hd, hmeans.trans hk⟩

theorem stores_iff (hA : A.IntegerCasts) (h : ty.zoned? = some zoned) :
    StoresMicros A ty zoned k ↔ ty.IsMicros ∨ k = 0 := by
  obtain ⟨v, hv, hiff⟩ := meaning_ofCount_iff (k := k) h
  have hcount := isCount_arrowType (isIntegral_of_zoned h)
  rw [← hiff]
  constructor
  · intro hall
    let f : Field := ⟨"ts", ty.arrowType, true, none⟩
    have hname := cstr_cName (s := "ts") (by decide) "ib_batch_builder_int"
    obtain ⟨cells, hrun, v', hcell, hmeans⟩ :=
      hall ⟨⟨[f]⟩, ∅, none⟩ (cName "ts") "ts" f 1 #v[k] none 0 hname rfl rfl (by simp) rfl rfl
    have hrun' : ibBatchBuilderInt A ⟨⟨[f]⟩, ∅, none⟩ (cName "ts") (some #v[k]) none = _ :=
      ibBatchBuilderInt_eq (f := f) hA hcount hname rfl rfl (by simp)
    have hstored := congrArg (fun r => r.state.columns.lookup "ts")
      (Outcome.ok.inj (hrun.symm.trans hrun'))
    simp only [Reply.done_state, BuilderHandle.store, AList.lookup_insert, Option.some.injEq,
      ArrayRef.mk.injEq, heq_eq_eq, true_and] at hstored
    rw [hstored] at hcell
    have hv' : ty.arrowType.ofCount k = some v' := Option.some.inj hcell
    obtain rfl := Option.some.inj (hv.symm.trans hv')
    exact hmeans
  · intro hk b name nm f m values valid i hn hf hty hrows hval hpresent
    refine ⟨_, ibBatchBuilderInt_eq hA hcount hn hf hty hrows, v, ?_, hk⟩
    simp [collect, hval, hpresent, hv]

/-- A present cell is read as its count. -/
theorem ibBatchGetI64_cell (hA : A.IntegerCasts) {t : DataType} (ht : t.IsCount)
    {batch : RecordBatch} {name : CString} {nm : String} {cells : List (Option t.Val)} {i : ℕ}
    {v : t.Val} (mem : List Int64) (memValid : List UInt8) {cap : ℕ}
    (hn : cstr name "ib_batch_get_i64" = .ok nm) (hcol : batch.columnByName nm = some ⟨t, cells⟩)
    (hcell : cells[i]? = some (some v)) (hcap : i < cap) :
    ∃ out outValid n, ibBatchGetI64 A batch name ⟨some mem, some memValid⟩ cap =
        .done ⟨some out, some outValid⟩ n ∧ out[i]? = some ((t.toCount v).getD 0) ∧
      outValid[i]? = some (validByte (t.toCount v)) := by
  refine ⟨_, _, _, ibBatchGetI64_eq hA ht mem memValid cap hn hcol, overwrite_getElem? ?_,
    overwrite_getElem? ?_⟩
  · rw [List.getElem?_map, List.getElem?_take_of_lt hcap, List.getElem?_map, hcell]
    rfl
  · rw [List.getElem?_map, List.getElem?_take_of_lt hcap, List.getElem?_map, hcell]
    rfl

theorem reads_iff (hA : A.IntegerCasts) (h : ty.zoned? = some zoned)
    (hv : ∃ v, ty.arrowType.meaning v = some (micros k zoned)) :
    ReadsMicros A ty zoned k ↔ ty.IsMicros ∨ k = 0 := by
  obtain ⟨v, hv⟩ := hv
  have hcount := isCount_arrowType (isIntegral_of_zoned h)
  rw [← toCount_iff h hv]
  constructor
  · intro hall
    let f : Field := ⟨"ts", ty.arrowType, true, none⟩
    have hname := cstr_cName (s := "ts") (by decide) "ib_batch_get_i64"
    have hcol := RecordBatch.columnByName_single f [some v]
    obtain ⟨out, outValid, n, hget, hout, hvalid⟩ := hall (.single f [some v]) (cName "ts") "ts"
      [some v] 0 v [0] [0] 1 hname hcol rfl hv Nat.one_pos
    obtain ⟨out', outValid', n', hget', hout', hvalid'⟩ :=
      ibBatchGetI64_cell (i := 0) hA hcount [0] [0] hname hcol rfl Nat.one_pos
    obtain ⟨rfl, rfl⟩ : out = out' ∧ outValid = outValid' := by
      simpa using congrArg Reply.state (hget.symm.trans hget')
    have hread : (ty.arrowType.toCount v).getD 0 = k := Option.some.inj (hout'.symm.trans hout)
    have hpresent : validByte (ty.arrowType.toCount v) = 1 :=
      Option.some.inj (hvalid'.symm.trans hvalid)
    cases hcell : ty.arrowType.toCount v with
    | none => simp [validByte, hcell] at hpresent
    | some j => simpa [hcell] using hread
  · intro hk batch name nm cells i v' mem memValid cap hn hcol hcell hmeans hcap
    obtain rfl := meaning_inj h hv hmeans
    simpa [hk, validByte] using
      ibBatchGetI64_cell hA hcount mem memValid hn hcol hcell hcap

/-- Integers are microseconds on all three paths. -/
def CountsMicros (A : Arrow) (api : DatumApi) (ty : PrimitiveType) (zoned : Bool) (k : Int64) :
    Prop :=
  StoresMicros A ty zoned k ∧ DenotesMicros api ty zoned k ∧ ReadsMicros A ty zoned k

/-- An integer counts microseconds in the columns of microsecond precision and for the epoch;
in any other timestamp column it counts nanoseconds. -/
theorem timestamps_micros_iff (hA : A.IntegerCasts) (api : DatumApi)
    (h : ty.zoned? = some zoned) (hv : ∃ v, ty.arrowType.meaning v = some (micros k zoned)) :
    CountsMicros A api ty zoned k ↔ ty.IsMicros ∨ k = 0 := by
  rw [CountsMicros, stores_iff hA h, denotes_iff api h, reads_iff hA h hv, and_self_iff,
    and_self_iff]

end

/-- One microsecond after the epoch in a column of microsecond precision. -/
theorem timestamps_micros_iff_one :
    CountsMicros .basic .basic .timestamp false 1 ↔
      PrimitiveType.timestamp.IsMicros ∨ (1 : Int64) = 0 :=
  timestamps_micros_iff Arrow.basic_integerCasts .basic rfl ⟨(1 : Int64), rfl⟩

/-- In a column of nanosecond precision the number 1 is one microsecond on none of the paths. -/
theorem nanosecond_column_counts_nanos :
    PrimitiveType.timestampNs.zoned? = some false ∧
      (∃ v, PrimitiveType.timestampNs.arrowType.meaning v = some (micros 1 false)) ∧
      ¬ StoresMicros .basic .timestampNs false 1 ∧ ¬ DenotesMicros .basic .timestampNs false 1 ∧
      ¬ ReadsMicros .basic .timestampNs false 1 := by
  have hk : ¬ (PrimitiveType.timestampNs.IsMicros ∨ (1 : Int64) = 0) := by
    rintro (h | h)
    · exact h
    · exact absurd h (by decide)
  have hv : ∃ v, PrimitiveType.timestampNs.arrowType.meaning v = some (micros 1 false) :=
    ⟨(1000 : Int64), rfl⟩
  exact ⟨rfl, hv, fun h => hk ((stores_iff Arrow.basic_integerCasts rfl).mp h),
    fun h => hk ((denotes_iff _ rfl).mp h),
    fun h => hk ((reads_iff Arrow.basic_integerCasts rfl hv).mp h)⟩

end IcebergRs
