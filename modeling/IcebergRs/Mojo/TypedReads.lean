import IcebergRs.Mojo.StringColumns

/-! Typed reads of whole columns. A read of a batch without rows passes a list without
storage, so the shim gets a null pointer for the values; only `str_col` makes room for one
element more than it needs. -/
namespace IcebergRs
open Mojo

/-- The read returns one entry for each row, the value of its cell or the zero of the type. -/
def Whole {α : Type} (batch : RecordBatch) (zero : α) (cells : List (Option α))
    (r : Outcome (List α)) : Prop :=
  r = .ok (cells.map (·.getD zero)) ∧ cells.length = batch.numRows

theorem resize_all {α : Type} {xs : List α} {n : ℕ} (h : xs.length = n) (value : α) :
    resize xs n value = xs := by
  simp [resize, ← h]

section
variable {A : Arrow} {batch : RecordBatch} {name : String} {col : ArrayRef}
variable (hcol : batch.columnByName (uptoNul name) = some col)
include hcol

theorem castTo_rows {t : DataType} {cells : List (Option t.Val)}
    (hcast : A.castTo col t = .ok cells) : cells.length = batch.numRows :=
  (Arrow.castTo_length hcast).trans (RecordBatch.columnByName_len hcol)

/-- The getter behind a read, called with a list of as many zeros as the batch has rows. -/
theorem getColumn_zeros {t : DataType} {cells : List (Option t.Val)} {α : Type} (what : String)
    (slot : Option t.Val → α) (hcast : A.castTo col t = .ok cells) (zero : α)
    (h : 0 < batch.numRows) :
    getColumn what t slot A batch (arg name)
        ⟨unsafePtr (List.replicate batch.numRows zero), none⟩ batch.numRows =
      .done ⟨some (cells.map slot), none⟩ batch.numRows := by
  have hrows := castTo_rows hcol hcast
  have hne : List.replicate batch.numRows zero ≠ [] := by simpa using h.ne'
  have hmem := unsafePtr_of_ne _ hne
  have hget : getColumn what t slot A batch (arg name)
      ⟨unsafePtr (List.replicate batch.numRows zero), none⟩ batch.numRows = _ :=
    getColumn_eq (cstr_arg name what) hcol hcast hmem
  rw [hget, List.take_of_length_le (Nat.le_of_eq hrows), overwrite_all (by simp [hrows]), hrows]
  rfl

theorem getColumn_norows {t : DataType} {α : Type} (what : String) (slot : Option t.Val → α)
    (zero : α) (h : batch.numRows = 0) :
    getColumn what t slot A batch (arg name)
        ⟨unsafePtr (List.replicate batch.numRows zero), none⟩ batch.numRows =
      .fail ⟨none, none⟩ (-1) s!"{what}: null out pointer" := by
  rw [h]
  exact getColumn_null (cstr_arg name what) hcol rfl

/-- A read of numbers returns the whole column exactly when there are rows to read. -/
theorem getValues_whole_iff {α : Type} {what shim : String} {t : DataType} {zero : α}
    {cells : List (Option α)} {arr : List (Option t.Val)} {slot : Option t.Val → α}
    (hcast : A.castTo col t = .ok arr) (hslot : arr.map slot = cells.map (·.getD zero)) :
    Whole batch zero cells
        (getValues batch name what (getColumn shim t slot A) zero batch.numRows) ↔
      0 < batch.numRows := by
  have hrows : cells.length = batch.numRows := by
    rw [← castTo_rows hcol hcast, ← List.length_map slot, hslot, List.length_map]
  rcases Nat.eq_zero_or_pos batch.numRows with h | h
  · have hget := getColumn_norows (A := A) hcol shim slot zero h
    refine iff_of_false (fun hw => ?_) h.not_gt
    have hread := hw.1
    rw [getValues, hget] at hread
    cases hread
  · have hget := getColumn_zeros hcol shim slot hcast zero h
    have hlen : (arr.map slot).length = batch.numRows := by simpa [hslot] using hrows
    refine iff_of_true ⟨?_, hrows⟩ h
    simp only [getValues, hget, Reply.done_ret, Reply.done_state, Int.toNat_natCast,
      if_neg (Int.not_lt.mpr (Int.natCast_nonneg _)), owned, Option.getD_some]
    rw [resize_all hlen, hslot]

theorem getBool_whole_iff {cells : List (Option Bool)}
    (hcast : A.castTo col .boolean = .ok cells) :
    Whole batch false cells (getBool A batch name batch.numRows) ↔ 0 < batch.numRows := by
  have hrows := castTo_rows hcol hcast
  rcases Nat.eq_zero_or_pos batch.numRows with h | h
  · have hget : ibBatchGetBool A batch (arg name)
        ⟨unsafePtr (List.replicate batch.numRows 0), none⟩ batch.numRows =
          .fail ⟨none, none⟩ (-1) "ib_batch_get_bool: null out pointer" :=
      getColumn_norows hcol "ib_batch_get_bool" _ 0 h
    refine iff_of_false (fun hw => ?_) h.not_gt
    have hread := hw.1
    rw [getBool, hget] at hread
    cases hread
  · let bytes : List UInt8 := cells.map fun cell => if cell = some true then 1 else 0
    have hget : ibBatchGetBool A batch (arg name)
        ⟨unsafePtr (List.replicate batch.numRows 0), none⟩ batch.numRows =
          .done ⟨some bytes, none⟩ batch.numRows := getColumn_zeros hcol _ _ hcast 0 h
    have hlen : bytes.length ≤ batch.numRows := (List.length_map _).trans_le (Nat.le_of_eq hrows)
    have hflags : bytes.map (· != 0) = cells.map (·.getD false) := by
      rw [List.map_map]
      apply List.map_congr_left
      intro c _
      rcases c with _ | (_ | _) <;> rfl
    refine iff_of_true ⟨?_, hrows⟩ h
    simp only [getBool, hget, Reply.done_ret, Reply.done_state, Int.toNat_natCast,
      if_neg (Int.not_lt.mpr (Int.natCast_nonneg _)), owned, Option.getD_some,
      List.take_of_length_le hlen, hflags]

end

/-- For every column that can be cast to the type of the read, `int_col`, `float_col` and
`bool_col` return the whole column exactly when the batch has rows, and `str_col` always
does. The texts of a string array have less than 2^31 bytes, as its offsets are 32-bit. -/
theorem typed_reads_whole_iff (A : Arrow) (batch : RecordBatch) (name : String) (col : ArrayRef)
    (hcol : batch.columnByName (uptoNul name) = some col) :
    (∀ cells : List (Option Int64), A.castTo col .int64 = .ok cells →
      (Whole batch 0 cells (intCol A batch name) ↔ 0 < batch.numRows)) ∧
    (∀ cells : List (Option Float), A.castTo col .float64 = .ok cells →
      (Whole batch 0.0 cells (floatCol A batch name) ↔ 0 < batch.numRows)) ∧
    (∀ cells : List (Option Bool), A.castTo col .boolean = .ok cells →
      (Whole batch false cells (boolCol A batch name) ↔ 0 < batch.numRows)) ∧
    ∀ cells : List (Option String), A.castTo col .utf8 = .ok cells →
      (utf8Bytes cells).length < 2 ^ 31 → Whole batch "" cells (strCol A batch name) := by
  refine ⟨fun cells h => ?_, fun cells h => ?_, fun cells h => getBool_whole_iff hcol h,
    fun cells h hlen => ⟨strCol_eq hcol h (hlen.trans (by decide)), castTo_rows hcol h⟩⟩
  · exact getValues_whole_iff (t := .int64) hcol h rfl
  · exact getValues_whole_iff (t := .float64) hcol h rfl

/-- A column of three rows with a null between two values. -/
def gapped : RecordBatch where
  schema := ⟨[⟨"n", .int64, true, some 1⟩]⟩
  columns := [⟨.int64, [some (7 : Int64), none, some (9 : Int64)]⟩]
  numRows := 3
  typed := rfl
  rows := by simp [ArrayRef.len]

theorem typed_reads_whole_iff_gapped : intCol .basic gapped "n" = .ok [7, 0, 9] :=
  (((typed_reads_whole_iff .basic gapped "n"
    ⟨.int64, [some (7 : Int64), none, some (9 : Int64)]⟩ rfl).1 [some 7, none, some 9] rfl).mpr
      (by decide)).1

/-- A batch built from an empty list has the column `id`, and `int_col` raises on it. -/
theorem int_col_raises_on_empty : ∃ (b : BuilderHandle) (batch : RecordBatch),
    builderIntCol .basic ⟨SchemaToArrow.fieldwise .orders, ∅, none⟩ "id" [] none = .ok b ∧
    build .basic b = .ok batch ∧ batch.columnByName "id" = some ⟨.int64, []⟩ ∧
    intCol .basic batch "id" = .err "Batch.int_col: ib_batch_get_i64: null out pointer" :=
  ⟨_, _, rfl, rfl, rfl, rfl⟩

end IcebergRs
