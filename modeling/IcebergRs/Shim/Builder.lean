import IcebergRs.Shim.Table
import Mathlib.Data.List.AList
import Mathlib.Data.List.FinRange

/-! The batch builder of `write.rs`. The four entry points that supply a column decode
their buffers differently and share the rest, `addColumn`. -/
namespace IcebergRs

structure BuilderHandle where
  schema : ArrowSchema
  columns : AList (fun _ : String => ArrayRef)
  rows : Option ℕ

def ibBatchBuilderNew (toArrow : SchemaToArrow) (h : TableHandle) :
    Reply TableHandle (Option BuilderHandle) :=
  match tableArrowSchema toArrow h.table with
  | .ok schema => .done h (some ⟨schema, ∅, none⟩)
  | .error e => .fail h none s!"ib_batch_builder_new: {e}"

def addColumn (A : Arrow) (b : BuilderHandle) (name : String) (array : ArrayRef)
    (what : String) : Reply BuilderHandle ℤ :=
  match b.schema.find name with
  | none => .fail b (-1) s!"{what}: no column named '{name}' in the table schema"
  | some field =>
    let n := array.len
    match b.rows.filter (· ≠ n) with
    | some rows =>
      .fail b (-1) s!"{what}: column '{name}' has {n} rows but the batch already has {rows}"
    | none =>
      match A.castTo array field.dataType with
      | .error e =>
        .fail b (-1) (s!"{what}: column '{name}' is {A.typeText field.dataType} in the table; " ++
          s!"cannot convert the supplied {A.typeText array.dataType}: {e}")
      | .ok cells =>
        .done { b with rows := some n, columns := b.columns.insert name ⟨field.dataType, cells⟩ } 0

section
variable {n : ℕ}

/-- The mask marks row `i` absent; a null mask marks none. -/
def absent (valid : Option (Vector UInt8 n)) (i : Fin n) : Bool :=
  match valid with
  | some v => v.get i == 0
  | none => false

/-- The rows the mask leaves, absent rows as nulls. -/
def collect {α : Type} (valid : Option (Vector UInt8 n)) (value : Fin n → α) : List (Option α) :=
  (List.finRange n).map fun i => if absent valid i then none else some (value i)

/-- `slice::from_raw_parts(values, n)` behind the null check. -/
def valuesSlice {α : Type} (what : String) (values : Option (Vector α n)) : Outcome (Vector α n) :=
  match values with
  | some vals => .ok vals
  | none => if h : n = 0 then .ok (h ▸ #v[]) else .err s!"{what}: null values pointer"

def int64Array (what : String) (values : Option (Vector Int64 n))
    (valid : Option (Vector UInt8 n)) : Outcome ArrayRef := do
  let vals ← valuesSlice what values
  pure ⟨.int64, collect valid vals.get⟩

def float64Array (what : String) (values : Option (Vector Float n))
    (valid : Option (Vector UInt8 n)) : Outcome ArrayRef := do
  let vals ← valuesSlice what values
  pure ⟨.float64, collect valid vals.get⟩

def booleanArray (what : String) (values : Option (Vector UInt8 n))
    (valid : Option (Vector UInt8 n)) : Outcome ArrayRef := do
  let vals ← valuesSlice what values
  pure ⟨.boolean, collect valid fun i => vals.get i != 0⟩

/-- `max(0) as usize`. -/
def asUsize (i : Int64) : ℕ := i.toInt.toNat

/-- `StringArray::from`, whose offsets are 32-bit. -/
def stringArrayFrom (values : List (Option String)) : Outcome ArrayRef :=
  if (utf8Bytes values).length < 2 ^ 31 then .ok ⟨.utf8, values⟩
  else .panic "byte array offset overflow"

/-- The loop of `ib_batch_builder_str`, which cuts each present row out of the blob. -/
def stringCells (what : String) (offs : Vector Int64 (n + 1)) (blob : List UInt8)
    (valid : Option (Vector UInt8 n)) : Outcome (List (Option String)) :=
  (List.finRange n).mapM fun i =>
    if absent valid i then .ok none
    else
      let s := asUsize (offs.get i.castSucc)
      let e := asUsize (offs.get i.succ)
      if e < s ∨ blob.length < e then
        .err s!"{what}: offsets[{i.val}]..[{i.val + 1}] out of range"
      else
        match fromUtf8 ((blob.drop s).take (e - s)) with
        | some v => .ok (some v)
        | none => .err s!"{what}: row {i.val} is not valid UTF-8"

/-- `bytes` is the memory behind the pointer; reading the last offset through a null
pointer crashes. -/
def stringArray (what : String) (offsets : Option (Vector Int64 (n + 1)))
    (bytes : Option (List UInt8)) (valid : Option (Vector UInt8 n)) : Outcome ArrayRef :=
  match offsets with
  | none => if 0 < n then .err s!"{what}: null offsets pointer" else .panic "null pointer read"
  | some offs => do
    let total := asUsize (offs.get (Fin.last n))
    if bytes.isNone ∧ 0 < total then .err s!"{what}: null bytes pointer"
    else
      let blob := (bytes.getD []).take total
      stringArrayFrom (← stringCells what offs blob valid)

end

theorem stringArrayFrom_eq_ok {values : List (Option String)} {a : ArrayRef} :
    stringArrayFrom values = .ok a ↔ (utf8Bytes values).length < 2 ^ 31 ∧ ⟨.utf8, values⟩ = a := by
  unfold stringArrayFrom
  split <;> simp_all

theorem stringArray_eq_ok {n : ℕ} {what : String} {offsets : Option (Vector Int64 (n + 1))}
    {bytes : Option (List UInt8)} {valid : Option (Vector UInt8 n)} {a : ArrayRef} :
    stringArray what offsets bytes valid = .ok a ↔ ∃ offs cells, offsets = some offs ∧
      ¬ (bytes.isNone ∧ 0 < asUsize (offs.get (Fin.last n))) ∧
        stringCells what offs ((bytes.getD []).take (asUsize (offs.get (Fin.last n)))) valid =
          .ok cells ∧ (utf8Bytes cells).length < 2 ^ 31 ∧ ⟨.utf8, cells⟩ = a := by
  cases offsets with
  | none => by_cases hn : 0 < n <;> simp [stringArray, hn]
  | some offs =>
    by_cases hb : bytes.isNone ∧ 0 < asUsize (offs.get (Fin.last n))
    · simp only [stringArray, if_pos hb, reduceCtorEq, false_iff]
      rintro ⟨_, cells, ⟨⟩, hb', -⟩
      exact hb' hb
    · simp only [stringArray, if_neg hb, Outcome.bind_eq_ok, stringArrayFrom_eq_ok]
      constructor
      · rintro ⟨cells, hc, hlen, ha⟩
        exact ⟨offs, cells, rfl, hb, hc, hlen, ha⟩
      · rintro ⟨_, cells, ⟨⟩, -, hc, hlen, ha⟩
        exact ⟨cells, hc, hlen, ha⟩

/-- The body the four entry points share, given what their buffers decode to. -/
def supplyColumn (A : Arrow) (what : String) (b : BuilderHandle) (name : CString)
    (array : Outcome ArrayRef) : Outcome (Reply BuilderHandle ℤ) :=
  match cstr name what with
  | .error m => .ok (.fail b (-1) m)
  | .ok name =>
    match array with
    | .err m => .ok (.fail b (-1) m)
    | .panic w => .panic w
    | .ok a => .ok (addColumn A b name a what)

section
variable (A : Arrow) (b : BuilderHandle) (name : CString) {n : ℕ}

def ibBatchBuilderInt (values : Option (Vector Int64 n)) (valid : Option (Vector UInt8 n)) :
    Outcome (Reply BuilderHandle ℤ) :=
  let what := "ib_batch_builder_int"
  supplyColumn A what b name (int64Array what values valid)

def ibBatchBuilderFloat (values : Option (Vector Float n)) (valid : Option (Vector UInt8 n)) :
    Outcome (Reply BuilderHandle ℤ) :=
  let what := "ib_batch_builder_float"
  supplyColumn A what b name (float64Array what values valid)

def ibBatchBuilderBool (values : Option (Vector UInt8 n)) (valid : Option (Vector UInt8 n)) :
    Outcome (Reply BuilderHandle ℤ) :=
  let what := "ib_batch_builder_bool"
  supplyColumn A what b name (booleanArray what values valid)

def ibBatchBuilderStr (offsets : Option (Vector Int64 (n + 1))) (bytes : Option (List UInt8))
    (valid : Option (Vector UInt8 n)) : Outcome (Reply BuilderHandle ℤ) :=
  let what := "ib_batch_builder_str"
  supplyColumn A what b name (stringArray what offsets bytes valid)

end

/-- `batch_from_columns` of `batch.rs`. -/
def batchFromColumns (A : Arrow) (s : ArrowSchema) (columns : List ArrayRef) :
    Except String RecordBatch :=
  match RecordBatch.tryNew A s columns with
  | .ok b => .ok b
  | .error e => .error s!"building record batch: {e}"

/-- The loop of `ib_batch_builder_build` over the fields of the schema. -/
def buildColumns (what : String) (b : BuilderHandle) (rows : ℕ) : Except String (List ArrayRef) :=
  b.schema.fields.mapM fun field =>
    match b.columns.lookup field.name with
    | some a => .ok a
    | none =>
      if field.nullable then .ok (.newNullArray field.dataType rows)
      else .error s!"{what}: column '{field.name}' is required but was not supplied"

def ibBatchBuilderBuild (A : Arrow) (b : BuilderHandle) :
    Reply BuilderHandle (Option RecordBatch) :=
  let what := "ib_batch_builder_build"
  match b.rows with
  | none => .fail b none s!"{what}: no columns were supplied"
  | some rows =>
    match buildColumns what b rows with
    | .error m => .fail b none m
    | .ok columns =>
      match batchFromColumns A b.schema columns with
      | .ok batch => .done b (some batch)
      | .error e => .fail b none s!"{what}: {e}"

end IcebergRs
