import IcebergRs.Mojo.Binding
import IcebergRs.Shim.CData

/-! The `ArrowCData` objects of the Mojo binding, from the export that fills one to its
destructor. Whether the destructor releases the pair is one flag, which an append clears. -/
namespace IcebergRs.Mojo

structure ArrowCData where
  pair : FfiPair
  live : Bool

/-- A new object has zeroed memory. -/
def ArrowCData.new : ArrowCData := ⟨.empty, false⟩

/-- `Batch.export_c_data`. -/
def exportCData (toFfi : RecordBatch → Except String Unit) (batch : RecordBatch) :
    Outcome ArrowCData :=
  let out := ArrowCData.new
  let r := ibBatchExport toFfi batch (some out.pair)
  if r.ret ≠ 0 then fail "Batch.export_c_data" r
  else .ok ⟨r.state.getD out.pair, true⟩

/-- `Scan.next_c_data`. The shim has filled the memory where it hands over a batch. -/
def nextCData {Scan : Type} (toArrow : Except String (ℕ → Poll String RecordBatch))
    (toFfi : RecordBatch → Except String Unit) (h : ScanHandle Scan) :
    Outcome (ScanHandle Scan × Option ArrowCData) := do
  let out := ArrowCData.new
  let r ← ibScanNextBatch toArrow toFfi h true true
  if r.ret.code < 0 then fail "Scan.next_c_data" r
  else if r.ret.code = 0 then pure (r.state, none)
  else pure (r.state, some ⟨if r.ret.batch.isSome then .exported else out.pair, true⟩)

/-- One call of `Table.append_c_data`, with the table it is made on and what `from_ffi` and
the writers answer. -/
structure AppendCall where
  table : TableHandle
  answer : Except String FfiData
  io : WriterApi

section
variable (A : Arrow) (toArrow : SchemaToArrow)

/-- What `Table.append_c_data` leaves of the object, and whether it raises. -/
def ArrowCData.appendCData (c : AppendCall) (data : ArrowCData) : ArrowCData × Outcome Unit :=
  let r := Memory.ibTableAppendBatch A toArrow c.io c.answer (some c.table) (some data.pair)
  let data : ArrowCData := ⟨r.state.2.getD data.pair, false⟩
  (data, if r.ret ≠ 0 then fail "Table.append_c_data" r else .ok ())

/-- `__deinit__`. -/
def ArrowCData.deinit (data : ArrowCData) : FfiPair :=
  if data.live then ⟨data.pair.array.release, data.pair.schema.release⟩ else data.pair

/-- The pairs that calls of the shim import or release, as they find them, when the object
goes through some appends and then its destructor. -/
def used (data : ArrowCData) : List AppendCall → List FfiPair
  | [] => if data.live then [data.pair] else []
  | c :: calls => data.pair :: used (data.appendCData A toArrow c).1 calls

/-- The memory when the object is gone. -/
def gone (data : ArrowCData) (calls : List AppendCall) : FfiPair :=
  (calls.foldl (fun data c => (data.appendCData A toArrow c).1) data).deinit

/-- The shim gets the pair only while it is live, and in the end either callback has run
exactly once. -/
structure Inert (data : ArrowCData) (calls : List AppendCall) : Prop where
  live : ∀ pair ∈ used A toArrow data calls, pair.Live
  array : (gone A toArrow data calls).array.runs = 1
  schema : (gone A toArrow data calls).schema.runs = 1

end

/-- An object that an export has filled. -/
inductive Created : ArrowCData → Prop
  | exported {toFfi : RecordBatch → Except String Unit} {batch : RecordBatch} {data : ArrowCData}
      (h : exportCData toFfi batch = .ok data) : Created data
  | scanned {Scan : Type} {toArrow : Except String (ℕ → Poll String RecordBatch)}
      {toFfi : RecordBatch → Except String Unit} {h h' : ScanHandle Scan} {data : ArrowCData}
      (h : nextCData toArrow toFfi h = .ok (h', some data)) : Created data

variable {A : Arrow} {toArrow : SchemaToArrow} {data : ArrowCData}

theorem created_eq (h : Created data) : data = ⟨.exported, true⟩ := by
  cases h with
  | @exported toFfi batch _ h =>
    unfold exportCData ibBatchExport at h
    cases he : exportBatch toFfi batch with
    | ok u =>
      rw [he] at h
      exact (Outcome.ok.inj h).symm
    | error m =>
      rw [he] at h
      cases h
  | scanned h =>
    obtain ⟨r, hr, h⟩ := Outcome.bind_eq_ok.mp h
    rcases ibScanNextBatch_ret hr with hret | hret | ⟨b, hret⟩ <;> rw [hret] at h
    · cases h
    · cases h
    · obtain ⟨-, hdata⟩ := Prod.mk.inj (Outcome.ok.inj h)
      exact (Option.some.inj hdata).symm

variable (A toArrow) in
/-- An append on a live pair releases the array, and the schema if the import succeeds. -/
theorem appendCData_exported (c : AppendCall) (live : Bool) :
    (∃ batch, ImportsAs c.answer batch ∧
      ((⟨.exported, live⟩ : ArrowCData).appendCData A toArrow c).1 =
        ⟨⟨⟨true, 0, 1⟩, ⟨false, 0, 1⟩⟩, false⟩) ∨
    (∀ batch, ¬ ImportsAs c.answer batch) ∧
      ((⟨.exported, live⟩ : ArrowCData).appendCData A toArrow c).1 =
        ⟨⟨⟨true, 0, 1⟩, .exported⟩, false⟩ := by
  rcases memory_importBatch_exported c.answer with ⟨batch, hb, he⟩ | ⟨hb, m, he⟩
  · refine .inl ⟨batch, hb, ?_⟩
    simp only [ArrowCData.appendCData, Memory.ibTableAppendBatch, he]
    rfl
  · refine .inr ⟨hb, ?_⟩
    simp only [ArrowCData.appendCData, Memory.ibTableAppendBatch, he]
    rfl

/-- A pair is consumed at most once and inert afterwards exactly when at most one append gets
it, and that append accepts it as a struct array without top-level nulls. -/
theorem pair_inert_iff (A : Arrow) (toArrow : SchemaToArrow) (hdata : Created data)
    (calls : List AppendCall) : Inert A toArrow data calls ↔
      calls = [] ∨ ∃ c batch, calls = [c] ∧ ImportsAs c.answer batch := by
  obtain rfl := created_eq hdata
  have hlive : FfiPair.exported.Live := ⟨rfl, rfl⟩
  match calls with
  | [] =>
    refine iff_of_true ⟨fun pair hp => ?_, rfl, rfl⟩ (.inl rfl)
    obtain rfl := List.mem_singleton.mp hp
    exact hlive
  | [c] =>
    rcases appendCData_exported A toArrow c true with
      ⟨batch, hb, he⟩ | ⟨hb, he⟩
    · refine iff_of_true ⟨fun pair hp => ?_, ?_, ?_⟩ (.inr ⟨c, batch, rfl, hb⟩)
      · simp only [used, he, Bool.false_eq_true, ↓reduceIte, List.mem_singleton] at hp
        exact hp ▸ hlive
      · simp only [gone, List.foldl_cons, List.foldl_nil, he]
        rfl
      · simp only [gone, List.foldl_cons, List.foldl_nil, he]
        rfl
    · refine iff_of_false (fun h => ?_) ?_
      · have hschema := h.schema
        simp only [gone, List.foldl_cons, List.foldl_nil, he] at hschema
        cases hschema
      · rintro (h | ⟨c', batch, h, hb'⟩)
        · cases h
        · obtain ⟨rfl, -⟩ := List.cons.inj h
          exact hb batch hb'
  | c :: c' :: calls =>
    refine iff_of_false (fun h => ?_) (by simp)
    have hsecond := (h.live ((⟨.exported, true⟩ : ArrowCData).appendCData A toArrow c).1.pair
      (.tail _ (.head _))).1
    rcases appendCData_exported A toArrow c true with
      ⟨-, -, he⟩ | ⟨-, he⟩ <;> rw [he] at hsecond <;> cases hsecond

theorem pair_inert_iff_once : ∃ batch, Inert .basic .direct ⟨.exported, true⟩
    [⟨⟨.orders, []⟩, .ok (.struct 0 batch), .single "f"⟩] :=
  have hdata : exportCData (fun _ => .ok ()) (.ofRows 0) = .ok ⟨.exported, true⟩ := rfl
  ⟨.ofRows 0, (pair_inert_iff .basic .direct (.exported hdata) _).mpr (.inr ⟨_, _, rfl, rfl⟩)⟩

/-- A second append hands the shim a pair whose array was consumed, and whose schema was released,
by the import of the first. -/
theorem pair_not_inert : ∃ (data : ArrowCData) (first : AppendCall) (batch : RecordBatch),
    Created data ∧ ImportsAs first.answer batch ∧ ∀ second : AppendCall,
      (used .basic .direct data [first, second]).map
          (fun pair => (pair.array.ownership, pair.schema.ownership)) =
        [(.live, .live), (.consumed, .released)] ∧
      ¬ Inert .basic .direct data [first, second] := by
  have hdata : exportCData (fun _ => .ok ()) (.ofRows 0) = .ok ⟨.exported, true⟩ := rfl
  refine ⟨⟨.exported, true⟩, ⟨⟨.orders, []⟩, .ok (.struct 0 (.ofRows 0)), .single "f"⟩, .ofRows 0,
    .exported hdata, rfl, fun second => ⟨rfl, fun h => ?_⟩⟩
  exact absurd (h.live _ (.tail _ (.head _))).1 (by decide)

end IcebergRs.Mojo
