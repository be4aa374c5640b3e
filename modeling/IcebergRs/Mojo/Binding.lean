import IcebergRs.Mojo.Decode
import IcebergRs.Shim.Builder
import IcebergRs.Shim.Getters

/-! The column calls of the Mojo binding. A list is passed as the address of its storage
and a length, and what the shim writes behind the address is the list afterwards. A raised
`Error` is an `err`. -/
namespace IcebergRs.Mojo

section
variable {α : Type}

/-- `unsafe_ptr()`: a list with no storage has a null pointer. -/
def unsafePtr (xs : List α) : Option (List α) := if xs = [] then none else some xs

/-- The `n` elements that the shim takes behind a pointer. -/
def slice (p : Option (List α)) (n : ℕ) : Outcome (Option (Vector α n)) :=
  match p with
  | none => .ok none
  | some xs =>
    if h : n ≤ xs.length then .ok (some ⟨(xs.take n).toArray, by simpa using h⟩)
    else .panic "read past the end of the list"

/-- The list behind a pointer after a call. -/
def owned (p : Option (List α)) : List α := p.getD []

end

/-- `_cstr`. -/
def cstr (s : String) : List UInt8 := utf8 s ++ [0]

/-- A Mojo `String` passed by address. -/
def arg (s : String) : CString := unsafePtr (cstr s)

def validBytes (valid : List Bool) : List UInt8 := valid.map fun v => if v then 1 else 0

/-- `_fail`, with the message the failing call left. -/
def fail {α σ ρ : Type} (what : String) (r : Reply σ ρ) : Outcome α :=
  .err (what ++ ": " ++ r.lastError.getD "")

/-- `resize`, which cuts the list off or fills it up. -/
def resize {α : Type} (xs : List α) (n : ℕ) (value : α) : List α :=
  xs.take n ++ List.replicate (n - xs.length) value

/-- The loop of `_get_str` that cuts the rows out of the blob. -/
def cutStrings (offs : List Int64) (blob : List UInt8) (got : ℕ) : List String :=
  (List.range got).map fun i =>
    let start := asUsize (offs.getD i 0)
    let stop := asUsize (offs.getD (i + 1) 0)
    bytesToString ((blob.drop start).take (stop - start))

section
variable (A : Arrow) (batch : RecordBatch) (name : String)

/-- What `_get_i64` and `_get_f64` share, given the getter they call. -/
def getValues {α : Type} (what : String)
    (get : RecordBatch → CString → OutBuffers α → ℕ → Reply (OutBuffers α) ℤ) (zero : α)
    (rows : ℕ) : Outcome (List α) :=
  let out := List.replicate rows zero
  let r := get batch (arg name) ⟨unsafePtr out, none⟩ rows
  if r.ret < 0 then fail what r else .ok (resize (owned r.state.out) r.ret.toNat zero)

def getI64 (rows : ℕ) : Outcome (List Int64) :=
  getValues batch name "Batch.int_col" (ibBatchGetI64 A) 0 rows

def getF64 (rows : ℕ) : Outcome (List Float) :=
  getValues batch name "Batch.float_col" (ibBatchGetF64 A) 0.0 rows

def getBool (rows : ℕ) : Outcome (List Bool) :=
  let raw := List.replicate rows (0 : UInt8)
  let r := ibBatchGetBool A batch (arg name) ⟨unsafePtr raw, none⟩ rows
  if r.ret < 0 then fail "Batch.bool_col" r
  else .ok (((owned r.state.out).take r.ret.toNat).map (· != 0))

def getValidity (rows : ℕ) : Outcome (List Bool) :=
  let vals := List.replicate rows (0 : Int64)
  let raw := List.replicate rows (0 : UInt8)
  let r := ibBatchGetI64 A batch (arg name) ⟨unsafePtr vals, unsafePtr raw⟩ rows
  if r.ret < 0 then fail "Batch.validity" r
  else .ok (((owned r.state.outValid).take r.ret.toNat).map (· != 0))

def getStr (rows : ℕ) : Outcome (List String) :=
  let size := ibBatchUtf8Size A batch (arg name)
  if size.ret < 0 then fail "Batch.str_col" size
  else
    let total := size.ret.toNat
    let offs := List.replicate (rows + 1) (0 : Int64)
    let blob := List.replicate (total + 1) (0 : UInt8)
    let r := ibBatchGetStr A batch (arg name) ⟨unsafePtr offs, unsafePtr blob, none⟩ total rows
    if r.ret < 0 then fail "Batch.str_col" r
    else .ok (cutStrings (owned r.state.outOffsets) (owned r.state.outBytes) r.ret.toNat)

/-- `Batch.int_col`. -/
def intCol : Outcome (List Int64) := getI64 A batch name batch.numRows

/-- `Batch.float_col`. -/
def floatCol : Outcome (List Float) := getF64 A batch name batch.numRows

/-- `Batch.bool_col`. -/
def boolCol : Outcome (List Bool) := getBool A batch name batch.numRows

/-- `Batch.validity`. -/
def validity : Outcome (List Bool) := getValidity A batch name batch.numRows

/-- `Batch.str_col`. -/
def strCol : Outcome (List String) := getStr A batch name batch.numRows

end

/-- The packing loop of `_builder_str`: the offsets and the blob so far. -/
def packStrings (values : List String) : List Int64 × List UInt8 :=
  values.foldl (fun (offs, blob) value =>
    let blob := blob ++ utf8 value
    (offs ++ [Int64.ofNat blob.length], blob)) ([0], [])

section
variable (A : Arrow) (b : BuilderHandle) (name : String)

/-- The pointer to a mask; a mask with no entries is none. -/
def maskPtr (valid : List UInt8) : Option (List UInt8) :=
  if valid.length = 0 then none else unsafePtr valid

/-- What a builder call leaves, unless it raises. -/
def finish (what : String) (r : Reply BuilderHandle ℤ) : Outcome BuilderHandle :=
  if r.ret ≠ 0 then fail what r else .ok r.state

def builderInt (values : List Int64) (valid : List UInt8) : Outcome BuilderHandle := do
  let vals ← slice (unsafePtr values) values.length
  let valid ← slice (maskPtr valid) values.length
  let r ← ibBatchBuilderInt A b (arg name) vals valid
  finish "BatchBuilder.int_col" r

def builderFloat (values : List Float) (valid : List UInt8) : Outcome BuilderHandle := do
  let vals ← slice (unsafePtr values) values.length
  let valid ← slice (maskPtr valid) values.length
  let r ← ibBatchBuilderFloat A b (arg name) vals valid
  finish "BatchBuilder.float_col" r

def builderBool (values : List Bool) (valid : List UInt8) : Outcome BuilderHandle := do
  let raw := validBytes values
  let vals ← slice (unsafePtr raw) values.length
  let valid ← slice (maskPtr valid) values.length
  let r ← ibBatchBuilderBool A b (arg name) vals valid
  finish "BatchBuilder.bool_col" r

def builderStr (values : List String) (valid : List UInt8) : Outcome BuilderHandle := do
  let (offs, blob) := packStrings values
  let blob := blob ++ [0]
  let offs ← slice (unsafePtr offs) (values.length + 1)
  let valid ← slice (maskPtr valid) values.length
  let r ← ibBatchBuilderStr A b (arg name) offs (unsafePtr blob) valid
  finish "BatchBuilder.str_col" r

/-- `BatchBuilder.int_col`, without and with a mask. -/
def builderIntCol (values : List Int64) (valid : Option (List Bool)) : Outcome BuilderHandle :=
  builderInt A b name values ((valid.map validBytes).getD [])

/-- `BatchBuilder.float_col`, without and with a mask. -/
def builderFloatCol (values : List Float) (valid : Option (List Bool)) : Outcome BuilderHandle :=
  builderFloat A b name values ((valid.map validBytes).getD [])

/-- `BatchBuilder.bool_col`, without and with a mask. -/
def builderBoolCol (values : List Bool) (valid : Option (List Bool)) : Outcome BuilderHandle :=
  builderBool A b name values ((valid.map validBytes).getD [])

/-- `BatchBuilder.str_col`, without and with a mask. -/
def builderStrCol (values : List String) (valid : Option (List Bool)) : Outcome BuilderHandle :=
  builderStr A b name values ((valid.map validBytes).getD [])

/-- `BatchBuilder.build`. -/
def build : Outcome RecordBatch :=
  let r := ibBatchBuilderBuild A b
  match r.ret with
  | some batch => .ok batch
  | none => fail "BatchBuilder.build" r

end

theorem unsafePtr_of_ne {α : Type} (xs : List α) (h : xs ≠ []) : unsafePtr xs = some xs :=
  if_neg h

theorem unsafePtr_eq_some {α : Type} {xs ys : List α} (h : unsafePtr xs = some ys) :
    xs ≠ [] ∧ xs = ys := by
  unfold unsafePtr at h
  split at h
  · cases h
  · exact ⟨‹_›, Option.some.inj h⟩

theorem arg_eq (name : String) : arg name = cName name := by simp [arg, unsafePtr, cstr, cName]

theorem cstr_arg (name what : String) : IcebergRs.cstr (arg name) what = .ok (uptoNul name) := by
  rw [arg_eq, cstr_cName_eq]

/-- A list that is long enough is taken up to the length that is passed. -/
theorem slice_take {α : Type} {xs : List α} {n : ℕ} (hne : xs ≠ []) (hn : n ≤ xs.length) :
    ∃ v : Vector α n, slice (unsafePtr xs) n = .ok (some v) ∧ v.toList = xs.take n := by
  rw [unsafePtr_of_ne xs hne]
  exact ⟨_, dif_pos hn, by simp⟩

/-- A list is taken whole when its length is the one that is passed. -/
theorem slice_unsafePtr {α : Type} (xs : List α) {n : ℕ} (hne : xs ≠ []) (hn : xs.length = n) :
    ∃ v : Vector α n, slice (unsafePtr xs) n = .ok (some v) ∧ v.toList = xs := by
  obtain ⟨v, hv, hlist⟩ := slice_take hne (Nat.le_of_eq hn.symm)
  exact ⟨v, hv, by rw [hlist, ← hn, List.take_length]⟩

/-- The mask read from its bytes leaves present the rows that it names. -/
theorem present_validBytes {n : ℕ} {valid : List Bool} {v : Vector UInt8 n}
    (h : v.toList = validBytes valid) :
    (List.finRange n).map (fun i => !absent (some v) i) = valid := by
  have hbytes : (List.finRange n).map v.get = v.toList := by
    apply List.ext_getElem (by simp)
    intro i hi hi'
    simp [Vector.get]
  have hflags : (List.finRange n).map (fun i => !absent (some v) i) =
      ((List.finRange n).map v.get).map (· != 0) := by
    rw [List.map_map]
    rfl
  rw [hflags, hbytes, h, validBytes, List.map_map]
  conv_rhs => rw [← List.map_id valid]
  apply List.map_congr_left
  intro present _
  cases present <;> rfl

theorem packStrings_foldl (values : List String) (offs : List Int64) (blob : List UInt8) :
    values.foldl (fun (offs, blob) value =>
        let blob := blob ++ utf8 value
        (offs ++ [Int64.ofNat blob.length], blob)) (offs, blob) =
      (offs ++ (ends blob.length (values.map utf8)).map Int64.ofNat,
        blob ++ (values.map utf8).flatten) := by
  induction values generalizing offs blob with
  | nil => simp [ends]
  | cons value values ih =>
    rw [List.foldl_cons]
    dsimp only
    rw [ih]
    simp [ends]

theorem packStrings_eq (values : List String) : packStrings values =
    (offsets (values.map utf8), (values.map utf8).flatten) :=
  packStrings_foldl values [0] []

end IcebergRs.Mojo
