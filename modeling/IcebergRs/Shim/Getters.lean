import IcebergRs.Arrow.Batch
import IcebergRs.Shim.Lib
import IcebergRs.Support.Packing

/-! Typed column reads of `batch.rs`. Each casts the column to the type it reads as and
copies the first `cap` cells, nulls as a zero of that type, into the caller's memory. -/
namespace IcebergRs

/-- Memory after values were written from its start on. -/
def overwrite {α : Type} (mem xs : List α) : List α := xs ++ mem.drop xs.length

def column (batch : RecordBatch) (name what : String) : Except String ArrayRef :=
  match batch.columnByName name with
  | some c => .ok c
  | none => .error s!"{what}: no column named '{name}' in the batch"

def castColumn (A : Arrow) (col : ArrayRef) (t : DataType) (what : String) :
    Except String (List (Option t.Val)) :=
  match A.castTo col t with
  | .ok cells => .ok cells
  | .error e =>
    .error s!"{what}: cannot read a {A.typeText col.dataType} column as {A.typeText t}: {e}"

/-- The caller's buffers for values and for validity; either may be a null pointer. -/
structure OutBuffers (α : Type) where
  out : Option (List α)
  outValid : Option (List UInt8)

def validByte {α : Type} (cell : Option α) : UInt8 := if cell.isSome then 1 else 0

def writeValidity {α : Type} (cells : List (Option α)) (outValid : Option (List UInt8)) :
    Option (List UInt8) := outValid.map (overwrite · (cells.map validByte))

/-- The body of the fixed-width getters, given the type they read as and what they write
for a cell. -/
def getColumn {α : Type} (what : String) (t : DataType) (slot : Option t.Val → α) (A : Arrow)
    (batch : RecordBatch) (name : CString) (bufs : OutBuffers α) (cap : ℕ) :
    Reply (OutBuffers α) ℤ :=
  match cstr name what with
  | .error m => .fail bufs (-1) m
  | .ok name =>
    match column batch name what with
    | .error m => .fail bufs (-1) m
    | .ok col =>
      match bufs.out with
      | none => .fail bufs (-1) s!"{what}: null out pointer"
      | some mem =>
        match castColumn A col t what with
        | .error m => .fail bufs (-1) m
        | .ok arr =>
          let cells := arr.take cap
          .done ⟨some (overwrite mem (cells.map slot)), writeValidity cells bufs.outValid⟩
            cells.length

def ibBatchGetI64 (A : Arrow) : RecordBatch → CString → OutBuffers Int64 → ℕ →
    Reply (OutBuffers Int64) ℤ :=
  getColumn "ib_batch_get_i64" .int64 (fun cell : Option Int64 => cell.getD 0) A

def ibBatchGetF64 (A : Arrow) : RecordBatch → CString → OutBuffers Float → ℕ →
    Reply (OutBuffers Float) ℤ :=
  getColumn "ib_batch_get_f64" .float64 (fun cell : Option Float => cell.getD 0.0) A

def ibBatchGetBool (A : Arrow) : RecordBatch → CString → OutBuffers UInt8 → ℕ →
    Reply (OutBuffers UInt8) ℤ :=
  getColumn "ib_batch_get_bool" .boolean
    (fun cell : Option Bool => if cell = some true then 1 else 0) A

def utf8Column (A : Arrow) (batch : RecordBatch) (name what : String) :
    Except String (List (Option String)) := do
  let col ← column batch name what
  castColumn A col .utf8 what

def ibBatchUtf8Size (A : Arrow) (batch : RecordBatch) (name : CString) : Reply Unit ℤ :=
  let what := "ib_batch_utf8_size"
  match cstr name what with
  | .error m => .fail () (-1) m
  | .ok name =>
    match utf8Column A batch name what with
    | .error m => .fail () (-1) m
    | .ok arr =>
      let total := arr.foldl (fun total cell => total + (cellBytes cell).length) 0
      .done () total

/-- The caller's three buffers for a string column. -/
structure StrBuffers where
  outOffsets : Option (List Int64)
  outBytes : Option (List UInt8)
  outValid : Option (List UInt8)

/-- The copying loop: the bytes of the rows from position `pos` on, and the offset after
each of them. -/
def packCells : List (Option String) → ℕ → List UInt8 × List Int64
  | [], _ => ([], [])
  | cell :: cells, pos =>
    let s := cellBytes cell
    let pos := pos + s.length
    let rest := packCells cells pos
    (s ++ rest.1, Int64.ofNat pos :: rest.2)

def ibBatchGetStr (A : Arrow) (batch : RecordBatch) (name : CString) (bufs : StrBuffers)
    (bytesCap cap : ℕ) : Reply StrBuffers ℤ :=
  let what := "ib_batch_get_str"
  match cstr name what with
  | .error m => .fail bufs (-1) m
  | .ok name =>
    match bufs.outOffsets, bufs.outBytes with
    | some offs, some bytes =>
      match utf8Column A batch name what with
      | .error m => .fail bufs (-1) m
      | .ok arr =>
        let cells := arr.take cap
        let needed := cells.foldl (fun needed cell => needed + (cellBytes cell).length) 0
        if bytesCap < needed then
          .fail bufs (-2) s!"{what}: byte buffer too small: need {needed}, have {bytesCap}"
        else
          let packed := packCells cells 0
          .done ⟨some (overwrite offs (0 :: packed.2)), some (overwrite bytes packed.1),
            writeValidity cells bufs.outValid⟩ cells.length
    | _, _ => .fail bufs (-1) s!"{what}: null out pointer"

section
variable {A : Arrow} {batch : RecordBatch} {name : CString} {cap : ℕ}

theorem overwrite_take {α : Type} (mem xs : List α) : (overwrite mem xs).take xs.length = xs := by
  simp [overwrite]

theorem overwrite_getElem? {α : Type} {mem xs : List α} {i : ℕ} {x : α} (h : xs[i]? = some x) :
    (overwrite mem xs)[i]? = some x := by
  obtain ⟨hi, rfl⟩ := List.getElem?_eq_some_iff.mp h
  rw [overwrite, List.getElem?_append_left hi, List.getElem?_eq_getElem hi]

theorem overwrite_all {α : Type} {mem xs : List α} (h : mem.length = xs.length) :
    overwrite mem xs = xs := by
  rw [overwrite, ← h, List.drop_length, List.append_nil]

theorem column_eq_ok {name what : String} {col : ArrayRef} :
    column batch name what = .ok col ↔ batch.columnByName name = some col := by
  unfold column
  cases batch.columnByName name <;> simp

theorem castColumn_eq_ok {col : ArrayRef} {t : DataType} {what : String}
    {arr : List (Option t.Val)} : castColumn A col t what = .ok arr ↔ A.castTo col t = .ok arr := by
  unfold castColumn
  cases A.castTo col t <;> simp

/-- The column a getter reads, and what the cast to its type makes of it. -/
structure Reads (A : Arrow) (batch : RecordBatch) (name : CString) (what : String) (t : DataType)
    (col : ArrayRef) (arr : List (Option t.Val)) : Prop where
  found : ∃ nm, cstr name what = .ok nm ∧ batch.columnByName nm = some col
  cast : A.castTo col t = .ok arr

theorem Reads.length {what : String} {t : DataType} {col : ArrayRef} {arr : List (Option t.Val)}
    (h : Reads A batch name what t col arr) : arr.length = batch.numRows := by
  obtain ⟨nm, -, hcol⟩ := h.found
  rw [Arrow.castTo_length h.cast, RecordBatch.columnByName_len hcol]

/-- A fixed-width getter either fills the buffers with the first `cap` cells, or writes
nothing and returns -1. -/
theorem getColumn_cases (A : Arrow) (batch : RecordBatch) (name : CString) (cap : ℕ) {α : Type}
    (what : String) (t : DataType) (slot : Option t.Val → α) (bufs : OutBuffers α) :
    (∃ col arr mem, Reads A batch name what t col arr ∧ bufs.out = some mem ∧
      getColumn what t slot A batch name bufs cap =
        .done ⟨some (overwrite mem ((arr.take cap).map slot)),
          writeValidity (arr.take cap) bufs.outValid⟩ (arr.take cap).length) ∨
    ∃ m, getColumn what t slot A batch name bufs cap = .fail bufs (-1) m := by
  unfold getColumn
  split
  next => exact .inr ⟨_, rfl⟩
  next nm hn =>
    split
    next => exact .inr ⟨_, rfl⟩
    next col hcol =>
      split
      next => exact .inr ⟨_, rfl⟩
      next mem hmem =>
        split
        next => exact .inr ⟨_, rfl⟩
        next arr harr =>
          exact .inl ⟨col, arr, mem, ⟨⟨nm, hn, column_eq_ok.mp hcol⟩, castColumn_eq_ok.mp harr⟩,
            hmem, rfl⟩

section
variable {α : Type} {what nm : String} {col : ArrayRef} {t : DataType} {arr : List (Option t.Val)}
variable {slot : Option t.Val → α} {bufs : OutBuffers α}
variable (hn : cstr name what = .ok nm) (hcol : batch.columnByName nm = some col)
include hn hcol

/-- With memory to write to, a fixed-width getter writes the first `cap` cells there. -/
theorem getColumn_eq (hcast : A.castTo col t = .ok arr) {mem : List α}
    (hmem : bufs.out = some mem) : getColumn what t slot A batch name bufs cap =
      .done ⟨some (overwrite mem ((arr.take cap).map slot)),
        writeValidity (arr.take cap) bufs.outValid⟩ (arr.take cap).length := by
  simp only [getColumn, hn, column_eq_ok.mpr hcol, hmem, castColumn_eq_ok.mpr hcast]

/-- Without memory it fails, whatever there is to write. -/
theorem getColumn_null (hmem : bufs.out = none) : getColumn what t slot A batch name bufs cap =
    .fail bufs (-1) s!"{what}: null out pointer" := by
  simp only [getColumn, hn, column_eq_ok.mpr hcol, hmem]

end

theorem utf8Column_eq_ok {name what : String} {arr : List (Option String)} :
    utf8Column A batch name what = .ok arr ↔ ∃ col, batch.columnByName name = some col ∧
      A.castTo col .utf8 = .ok arr := by
  simp only [← @column_eq_ok batch name what, utf8Column]
  cases hc : column batch name what with
  | error e => simp [bind, Except.bind]
  | ok col =>
    simp only [bind, Except.bind, Except.ok.injEq, exists_eq_left']
    exact castColumn_eq_ok

section
variable {nm : String} {col : ArrayRef} {arr : List (Option String)}

theorem ibBatchUtf8Size_eq (hn : cstr name "ib_batch_utf8_size" = .ok nm)
    (hcol : batch.columnByName nm = some col) (hcast : A.castTo col .utf8 = .ok arr) :
    ibBatchUtf8Size A batch name = .done () (utf8Bytes arr).length := by
  have harr : utf8Column A batch nm "ib_batch_utf8_size" = .ok arr :=
    utf8Column_eq_ok.mpr ⟨col, hcol, hcast⟩
  simp only [ibBatchUtf8Size, hn, harr, foldl_cellBytes, Nat.zero_add]

theorem packCells_eq (cells : List (Option String)) (pos : ℕ) :
    packCells cells pos = (utf8Bytes cells, (ends pos (cells.map cellBytes)).map Int64.ofNat) := by
  induction cells generalizing pos with
  | nil => rfl
  | cons cell cells ih => simp [packCells, ih, ends, utf8Bytes]

/-- With room for the bytes of the first `cap` cells, the string getter packs them. -/
theorem ibBatchGetStr_eq (hn : cstr name "ib_batch_get_str" = .ok nm)
    (hcol : batch.columnByName nm = some col) (hcast : A.castTo col .utf8 = .ok arr)
    {bytesCap : ℕ} (hcap : (utf8Bytes (arr.take cap)).length ≤ bytesCap) (offs : List Int64)
    (bytes : List UInt8) (outValid : Option (List UInt8)) :
    ibBatchGetStr A batch name ⟨some offs, some bytes, outValid⟩ bytesCap cap =
      .done ⟨some (overwrite offs (offsets ((arr.take cap).map cellBytes))),
        some (overwrite bytes (utf8Bytes (arr.take cap))), writeValidity (arr.take cap) outValid⟩
        (arr.take cap).length := by
  have harr : utf8Column A batch nm "ib_batch_get_str" = .ok arr :=
    utf8Column_eq_ok.mpr ⟨col, hcol, hcast⟩
  simp only [ibBatchGetStr, hn, harr, foldl_cellBytes, Nat.zero_add, if_neg (Nat.not_lt.mpr hcap),
    packCells_eq]
  rfl

/-- The string getter either packs the first `cap` cells into the buffers, or writes nothing
and returns a negative status. -/
theorem ibBatchGetStr_cases (bufs : StrBuffers) (bytesCap : ℕ) :
    (∃ col arr offs bytes, Reads A batch name "ib_batch_get_str" .utf8 col arr ∧
      ibBatchGetStr A batch name bufs bytesCap cap =
        .done ⟨some (overwrite offs (offsets ((arr.take cap).map cellBytes))),
          some (overwrite bytes (utf8Bytes (arr.take cap))),
          writeValidity (arr.take cap) bufs.outValid⟩ (arr.take cap).length) ∨
    ∃ n m, n < 0 ∧ ibBatchGetStr A batch name bufs bytesCap cap = .fail bufs n m := by
  unfold ibBatchGetStr
  dsimp only
  split
  next => exact .inr ⟨_, _, by decide, rfl⟩
  next nm hn =>
    split
    next offs bytes hoffs hbytes =>
      split
      next => exact .inr ⟨_, _, by decide, rfl⟩
      next arr harr =>
        obtain ⟨col, hcol, hcast⟩ := utf8Column_eq_ok.mp harr
        split
        next => exact .inr ⟨_, _, by decide, rfl⟩
        next =>
          refine .inl ⟨col, arr, offs, bytes, ⟨⟨nm, hn, hcol⟩, hcast⟩, ?_⟩
          rw [packCells_eq]
          rfl
    next => exact .inr ⟨_, _, by decide, rfl⟩

end
end
end IcebergRs
