import IcebergRs.Shim.Getters
import IcebergRs.Shim.StringPacking
import IcebergRs.Support.Slices

/-! The string getter on the caller's buffers. The loops that size and copy the rows count the
same bytes, so each copy stays inside the slice that was sized for it. -/
namespace IcebergRs

namespace Memory

/-- One row of the copying loop: a null copies nothing. -/
def copyCell (cell : Option String) (pos : ℕ) (bytes : List UInt8) : Outcome (List UInt8 × ℕ) :=
  match cell with
  | some v => do
    let s := utf8 v
    let bytes ← Slice.copy bytes pos (pos + s.length) s
    pure (bytes, pos + s.length)
  | none => pure (bytes, pos)

/-- The copying loop from row `i` and position `pos` on, writing through both slices. -/
def packCells : List (Option String) → ℕ → ℕ → List Int64 → List UInt8 →
    Outcome (List Int64 × List UInt8)
  | [], _, _, offs, bytes => .ok (offs, bytes)
  | cell :: cells, i, pos, offs, bytes => do
    let (bytes, pos) ← copyCell cell pos bytes
    let offs ← Slice.set offs (i + 1) (Int64.ofNat pos)
    packCells cells (i + 1) pos offs bytes

def writeValidity {α : Type} (cells : List (Option α)) (outValid : Option (List UInt8)) :
    Outcome (Option (List UInt8)) :=
  match outValid with
  | none => .ok none
  | some mem => do
    let (_, after) ← Slice.rawParts mem cells.length
    pure (some (cells.map validByte ++ after))

/-- The rows are copied out once there is room for their bytes. -/
def writeRows (cells : List (Option String)) (offs : List Int64) (bytes : List UInt8)
    (outValid : Option (List UInt8)) : Outcome StrBuffers := do
  let needed := cells.foldl (fun needed cell => needed + (cellBytes cell).length) 0
  let (offs, offsAfter) ← Slice.rawParts offs (cells.length + 1)
  let (bytes, bytesAfter) ← Slice.rawParts bytes needed
  let offs ← Slice.set offs 0 0
  let (offs, bytes) ← packCells cells 0 0 offs bytes
  let valid ← writeValidity cells outValid
  pure ⟨some (offs ++ offsAfter), some (bytes ++ bytesAfter), valid⟩

/-- `ib_batch_get_str` with checked slices of the buffers. -/
def ibBatchGetStr (A : Arrow) (batch : RecordBatch) (name : CString) (bufs : StrBuffers)
    (bytesCap cap : ℕ) : Outcome (Reply StrBuffers ℤ) :=
  let what := "ib_batch_get_str"
  match cstr name what with
  | .error m => .ok (.fail bufs (-1) m)
  | .ok name =>
    match bufs.outOffsets, bufs.outBytes with
    | some offs, some bytes =>
      match utf8Column A batch name what with
      | .error m => .ok (.fail bufs (-1) m)
      | .ok arr => do
        let cells := arr.take cap
        let needed := cells.foldl (fun needed cell => needed + (cellBytes cell).length) 0
        if bytesCap < needed then
          pure (.fail bufs (-2) s!"{what}: byte buffer too small: need {needed}, have {bytesCap}")
        else
          pure (.done (← writeRows cells offs bytes bufs.outValid) cells.length)
    | _, _ => .ok (.fail bufs (-1) s!"{what}: null out pointer")

end Memory

theorem memory_copyCell (cell : Option String) (done bytes : List UInt8)
    (h : (cellBytes cell).length ≤ bytes.length) :
    Memory.copyCell cell done.length (done ++ bytes) =
      .ok (done ++ (cellBytes cell ++ bytes.drop (cellBytes cell).length),
        done.length + (cellBytes cell).length) := by
  cases cell with
  | none => rfl
  | some v =>
    have hcopy := Slice.copy_append done bytes (utf8 v) h
    simp only [Memory.copyCell, hcopy]
    rfl

/-- The loop stays inside its slices: with room for the rows left it writes them behind what
it has written, and their ends behind the ends. -/
theorem memory_packCells (cells : List (Option String)) (pre offs : List Int64)
    (done bytes : List UInt8) (hoffs : offs.length = cells.length)
    (hbytes : bytes.length = (utf8Bytes cells).length) {i : ℕ} (hi : pre.length = i + 1) :
    Memory.packCells cells i done.length (pre ++ offs) (done ++ bytes) =
      .ok (pre ++ (packCells cells done.length).2, done ++ (packCells cells done.length).1) := by
  induction cells generalizing pre offs done bytes i with
  | nil =>
    obtain rfl := List.length_eq_zero_iff.mp hoffs
    obtain rfl := List.length_eq_zero_iff.mp hbytes
    rfl
  | cons cell cells ih =>
    obtain ⟨y, offs, rfl⟩ := List.exists_cons_of_length_eq_add_one hoffs
    have hsize : bytes.length = (cellBytes cell).length + (utf8Bytes cells).length := by
      rw [hbytes, utf8Bytes, List.flatMap_cons, List.length_append]
      rfl
    have hcopy := memory_copyCell cell done bytes (hsize ▸ Nat.le_add_right _ _)
    have hset := Slice.set_append pre y (Int64.ofNat (done.length + (cellBytes cell).length)) offs
    have hrest := ih (pre ++ [Int64.ofNat (done.length + (cellBytes cell).length)]) offs
      (done ++ cellBytes cell) (bytes.drop (cellBytes cell).length) (by simpa using hoffs)
      (by rw [List.length_drop, hsize, Nat.add_sub_cancel_left]) (i := i + 1) (by simp [hi])
    rw [hi] at hset
    rw [Memory.packCells, hcopy, Outcome.ok_bind]
    dsimp only
    rw [hset, Outcome.ok_bind]
    simpa [packCells] using hrest

theorem memory_writeValidity {α : Type} (cells : List (Option α)) {outValid : Option (List UInt8)}
    (h : ∀ mem ∈ outValid, cells.length ≤ mem.length) :
    Memory.writeValidity cells outValid = .ok (writeValidity cells outValid) := by
  cases outValid with
  | none => rfl
  | some mem =>
    simp only [Memory.writeValidity, Slice.rawParts_eq (h mem rfl), Outcome.ok_bind, writeValidity,
      overwrite, Option.map_some, List.length_map]
    rfl

/-- What a read of some cells hands out: positions, bytes and flags. -/
structure StrOutput where
  offsets : List Int64
  bytes : List UInt8
  valid : List UInt8

def strOutput (cells : List (Option String)) : StrOutput :=
  ⟨offsets (cells.map cellBytes), utf8Bytes cells, cells.map validByte⟩

/-- The buffers with an output written over their beginnings. -/
def StrBuffers.write (bufs : StrBuffers) (out : StrOutput) : StrBuffers :=
  ⟨bufs.outOffsets.map (overwrite · out.offsets), bufs.outBytes.map (overwrite · out.bytes),
    bufs.outValid.map (overwrite · out.valid)⟩

/-- In buffers that are large enough every slice is in range, and the output of the rows is
written over their beginnings. -/
theorem memory_writeRows (cells : List (Option String)) {offs : List Int64} {bytes : List UInt8}
    {valid : Option (List UInt8)} (hoffs : cells.length + 1 ≤ offs.length)
    (hbytes : (utf8Bytes cells).length ≤ bytes.length)
    (hvalid : ∀ mem ∈ valid, cells.length ≤ mem.length) :
    Memory.writeRows cells offs bytes valid =
      .ok (StrBuffers.write ⟨some offs, some bytes, valid⟩ (strOutput cells)) := by
  have hlen := List.length_take_of_le hoffs
  obtain ⟨y, tail, hy⟩ := List.exists_cons_of_length_eq_add_one hlen
  have htail : tail.length = cells.length := by
    rw [hy, List.length_cons] at hlen
    exact Nat.succ.inj hlen
  have hset : Slice.set (y :: tail) 0 0 = .ok (0 :: tail) := Slice.set_append [] y 0 tail
  have hloop : Memory.packCells cells 0 0 (0 :: tail) (bytes.take (utf8Bytes cells).length) =
      .ok (0 :: (packCells cells 0).2, (packCells cells 0).1) :=
    memory_packCells cells [0] tail [] _ htail (List.length_take_of_le hbytes) rfl
  simp only [Memory.writeRows, foldl_cellBytes, Nat.zero_add, Slice.rawParts_eq hoffs,
    Slice.rawParts_eq hbytes, Outcome.ok_bind, hy, hset, hloop, memory_writeValidity cells hvalid,
    packCells_eq]
  simp [StrBuffers.write, strOutput, overwrite, offsets, writeValidity]

section
variable {A : Arrow} {batch : RecordBatch} {name : CString} {nm : String} {col : ArrayRef}
variable {arr : List (Option String)} (hn : cstr name "ib_batch_get_str" = .ok nm)
variable (hcol : batch.columnByName nm = some col) (hcast : A.castTo col .utf8 = .ok arr)
include hn hcol hcast

theorem memory_ibBatchGetStr_small {bytesCap cap : ℕ}
    (h : bytesCap < (utf8Bytes (arr.take cap)).length) (offs : List Int64) (bytes : List UInt8)
    (valid : Option (List UInt8)) :
    ∃ m, Memory.ibBatchGetStr A batch name ⟨some offs, some bytes, valid⟩ bytesCap cap =
      .ok (.fail ⟨some offs, some bytes, valid⟩ (-2) m) := by
  have harr : utf8Column A batch nm "ib_batch_get_str" = .ok arr :=
    utf8Column_eq_ok.mpr ⟨col, hcol, hcast⟩
  simp only [Memory.ibBatchGetStr, hn, harr, foldl_cellBytes, Nat.zero_add, if_pos h]
  exact ⟨_, rfl⟩

theorem memory_ibBatchGetStr {bytesCap cap : ℕ}
    (h : (utf8Bytes (arr.take cap)).length ≤ bytesCap) {offs : List Int64} {bytes : List UInt8}
    {valid : Option (List UInt8)} (hoffs : (arr.take cap).length + 1 ≤ offs.length)
    (hbytes : bytesCap ≤ bytes.length)
    (hvalid : ∀ mem ∈ valid, (arr.take cap).length ≤ mem.length) :
    Memory.ibBatchGetStr A batch name ⟨some offs, some bytes, valid⟩ bytesCap cap =
      .ok (.done (StrBuffers.write ⟨some offs, some bytes, valid⟩ (strOutput (arr.take cap)))
        (arr.take cap).length) := by
  have harr : utf8Column A batch nm "ib_batch_get_str" = .ok arr :=
    utf8Column_eq_ok.mpr ⟨col, hcol, hcast⟩
  have hwrite := memory_writeRows (arr.take cap) hoffs (Nat.le_trans h hbytes) hvalid
  simp only [Memory.ibBatchGetStr, hn, harr, foldl_cellBytes, Nat.zero_add,
    if_neg (Nat.not_lt.mpr h), hwrite]
  rfl

end

/-- The output of some cells, read by its positions: they start at 0, never decrease and end
where the bytes end, and between the two of a row lie the bytes of its cell. -/
structure StrOutput.Exact (out : StrOutput) (cells : List (Option String)) : Prop where
  length : out.offsets.length = cells.length + 1
  bytes : out.bytes = utf8Bytes cells
  start : out.offsets[0]? = some 0
  mono : out.offsets.Pairwise (· ≤ ·)
  stop : (out.offsets[cells.length]?).map Int64.toInt = some (out.bytes.length : ℤ)
  row : ∀ i cell, cells[i]? = some cell → ∃ s e, out.offsets[i]? = some s ∧
    out.offsets[i + 1]? = some e ∧
      (out.bytes.drop (asUsize s)).take (asUsize e - asUsize s) = cellBytes cell
  valid : out.valid = cells.map validByte

/-- One output begins with the other in each of its parts. -/
structure StrOutput.Extends (longer shorter : StrOutput) : Prop where
  offsets : shorter.offsets <+: longer.offsets
  bytes : shorter.bytes <+: longer.bytes
  valid : shorter.valid <+: longer.valid

theorem strOutput_exact {cells : List (Option String)} (h : (utf8Bytes cells).length < 2 ^ 63) :
    (strOutput cells).Exact cells := by
  have hpos : ∀ i ≤ cells.length, (strOutput cells).offsets[i]? =
      some (Int64.ofNat (offset (cells.map cellBytes) i)) ∧
        offset (cells.map cellBytes) i < 2 ^ 63 := by
    intro i hi
    exact ⟨offsets_getElem? (by simpa using hi), Nat.lt_of_le_of_lt (offset_le _ _) h⟩
  refine ⟨by simp [strOutput], rfl, rfl, offsets_pairwise h, ?_, fun i cell hcell => ?_, rfl⟩
  · obtain ⟨hget, hlt⟩ := hpos cells.length (Nat.le_refl _)
    rw [hget, Option.map_some, Int64.toInt_ofNat_of_lt hlt, ← List.length_map cellBytes,
      offset_length]
    rfl
  · obtain ⟨hi, rfl⟩ := List.getElem?_eq_some_iff.mp hcell
    obtain ⟨hs, hslt⟩ := hpos i (Nat.le_of_lt hi)
    obtain ⟨he, helt⟩ := hpos (i + 1) hi
    have hwin := window_eq (cells.map cellBytes) (by simpa using hi) []
    rw [List.append_nil, List.getElem_map] at hwin
    refine ⟨_, _, hs, he, ?_⟩
    rw [asUsize_ofNat hslt, asUsize_ofNat helt]
    exact hwin

theorem strOutput_extends (cells more : List (Option String)) :
    (strOutput (cells ++ more)).Extends (strOutput cells) where
  offsets := by
    simp only [strOutput, List.map_append]
    exact offsets_prefix _ _
  bytes := by
    simp only [strOutput, utf8Bytes, List.flatMap_append]
    exact List.prefix_append _ _
  valid := by
    simp only [strOutput, List.map_append]
    exact List.prefix_append _ _

/-- For every row capacity and byte capacity the getter either finds the bytes of its rows too
many, returns -2 and writes nothing, or writes the output of its rows over the beginnings of
the buffers and nothing else, with every slice in range. The size that `ib_batch_utf8_size`
gives is enough for any number of rows, and more rows only extend the output. A text array has
32-bit offsets. -/
theorem string_getter_exact {A : Arrow} {batch : RecordBatch} {name : CString} {nm : String}
    {col : ArrayRef} {arr : List (Option String)} (hname : ∀ what, cstr name what = .ok nm)
    (hcol : batch.columnByName nm = some col) (hcast : A.castTo col .utf8 = .ok arr)
    (hlen : (utf8Bytes arr).length < 2 ^ 31) :
    (∀ cap, (arr.take cap).length = min batch.numRows cap ∧
      (strOutput (arr.take cap)).Exact (arr.take cap)) ∧
    (∀ (cap bytesCap : ℕ) (offs : List Int64) (bytes : List UInt8) (valid : Option (List UInt8)),
      min batch.numRows cap + 1 ≤ offs.length → bytesCap ≤ bytes.length →
      (∀ mem ∈ valid, min batch.numRows cap ≤ mem.length) →
      (bytesCap < (utf8Bytes (arr.take cap)).length →
        ∃ m, Memory.ibBatchGetStr A batch name ⟨some offs, some bytes, valid⟩ bytesCap cap =
          .ok (.fail ⟨some offs, some bytes, valid⟩ (-2) m)) ∧
      ((utf8Bytes (arr.take cap)).length ≤ bytesCap →
        Memory.ibBatchGetStr A batch name ⟨some offs, some bytes, valid⟩ bytesCap cap =
          .ok (.done (StrBuffers.write ⟨some offs, some bytes, valid⟩ (strOutput (arr.take cap)))
            (min batch.numRows cap : ℕ)))) ∧
    (∃ size : ℕ, (ibBatchUtf8Size A batch name).ret = size ∧
      ∀ cap, (utf8Bytes (arr.take cap)).length ≤ size) ∧
    ∀ cap more, (strOutput (arr.take (cap + more))).Extends (strOutput (arr.take cap)) := by
  have hle : ∀ cap, (utf8Bytes (arr.take cap)).length ≤ (utf8Bytes arr).length := by
    intro cap
    have hsplit : utf8Bytes arr = utf8Bytes (arr.take cap) ++ utf8Bytes (arr.drop cap) := by
      rw [utf8Bytes, utf8Bytes, utf8Bytes, ← List.flatMap_append, List.take_append_drop]
    rw [hsplit, List.length_append]
    exact Nat.le_add_right _ _
  have hall : arr.length = batch.numRows :=
    (Arrow.castTo_length hcast).trans (RecordBatch.columnByName_len hcol)
  have hrows : ∀ cap, (arr.take cap).length = min batch.numRows cap := by
    intro cap
    rw [List.length_take, hall, Nat.min_comm]
  refine ⟨fun cap => ⟨hrows cap, strOutput_exact ?_⟩,
    fun cap bytesCap offs bytes valid hoffs hbytes hvalid => ?_, ?_, fun cap more => ?_⟩
  · exact ((hle cap).trans_lt hlen).trans (by decide)
  · rw [← hrows cap] at hoffs hvalid ⊢
    exact ⟨fun h => memory_ibBatchGetStr_small (hname _) hcol hcast h offs bytes valid,
      fun h => memory_ibBatchGetStr (hname _) hcol hcast h hoffs hbytes hvalid⟩
  · exact ⟨_, congrArg Reply.ret (ibBatchUtf8Size_eq (hname _) hcol hcast), hle⟩
  · rw [List.take_add]
    exact strOutput_extends _ _

/-- Two texts and a null, of which two rows are read into buffers that are too large. -/
theorem string_getter_exact_region :
    Memory.ibBatchGetStr .basic (.single ⟨"region", .utf8, true, some 2⟩ [some "é", none, some "x"])
        (cName "region") ⟨some [7, 7, 7, 7], some [7, 7, 7], none⟩ 3 2 =
      .ok (.done ⟨some [0, 2, 2, 7], some [195, 169, 7], none⟩ 2) := by
  have hname : ∀ what, cstr (cName "region") what = .ok "region" := cstr_cName (by decide)
  have h := (string_getter_exact (A := .basic) hname
    (RecordBatch.columnByName_single ⟨"region", .utf8, true, some 2⟩ [some "é", none, some "x"])
    (Arrow.castTo_self _) (by decide)).2.1 2 3 [7, 7, 7, 7] [7, 7, 7] none (by decide) (by decide)
    (by simp)
  rw [h.2 (by decide)]
  rfl

end IcebergRs
