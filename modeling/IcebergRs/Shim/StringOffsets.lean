import IcebergRs.Shim.BuilderMap
import IcebergRs.Support.Slices

/-! Arbitrary offsets in the string builder call. Negative offsets are read as 0 and the
rows that the mask leaves out are not looked at; every other row has to lie inside the blob. -/
namespace IcebergRs

namespace Memory
variable {n : ℕ}

/-- The loop with each row cut out of the blob as a slice. -/
def stringCells (what : String) (offs : Vector Int64 (n + 1)) (blob : List UInt8)
    (valid : Option (Vector UInt8 n)) : Outcome (List (Option String)) :=
  (List.finRange n).mapM fun i =>
    if absent valid i then .ok none
    else
      let s := asUsize (offs.get i.castSucc)
      let e := asUsize (offs.get i.succ)
      if e < s ∨ blob.length < e then
        .err s!"{what}: offsets[{i.val}]..[{i.val + 1}] out of range"
      else do
        match fromUtf8 (← Slice.get blob s e) with
        | some v => .ok (some v)
        | none => .err s!"{what}: row {i.val} is not valid UTF-8"

def stringArray (what : String) (offsets : Option (Vector Int64 (n + 1)))
    (bytes : Option (List UInt8)) (valid : Option (Vector UInt8 n)) : Outcome ArrayRef :=
  match offsets with
  | none => if 0 < n then .err s!"{what}: null offsets pointer" else .panic "null pointer read"
  | some offs => do
    let total := asUsize (offs.get (Fin.last n))
    if bytes.isNone ∧ 0 < total then .err s!"{what}: null bytes pointer"
    else
      let blob ← if total = 0 then .ok [] else do
        pure (← Slice.rawParts (bytes.getD []) total).1
      stringArrayFrom (← stringCells what offs blob valid)

/-- `ib_batch_builder_str` with checked slices of the blob. -/
def ibBatchBuilderStr (A : Arrow) (b : BuilderHandle) (name : CString)
    (offsets : Option (Vector Int64 (n + 1))) (bytes : Option (List UInt8))
    (valid : Option (Vector UInt8 n)) : Outcome (Reply BuilderHandle ℤ) :=
  let what := "ib_batch_builder_str"
  supplyColumn A what b name (stringArray what offsets bytes valid)

end Memory

section
variable {n : ℕ} (what : String) (offs : Vector Int64 (n + 1)) (valid : Option (Vector UInt8 n))

/-- The check before each slice keeps it inside the blob. -/
theorem memory_stringCells (blob : List UInt8) :
    Memory.stringCells what offs blob valid = stringCells what offs blob valid := by
  unfold Memory.stringCells stringCells
  congr 1
  funext i
  split
  · rfl
  · dsimp only
    split
    · rfl
    next hrange =>
      obtain ⟨hle, hin⟩ := not_or.mp hrange
      rw [Slice.get_eq (Nat.not_lt.mp hle) (Nat.not_lt.mp hin)]
      rfl

theorem memory_stringArray {bytes : Option (List UInt8)}
    (h : asUsize (offs.get (Fin.last n)) ≤ (bytes.getD []).length) :
    Memory.stringArray what (some offs) bytes valid = stringArray what (some offs) bytes valid := by
  unfold Memory.stringArray stringArray
  dsimp only
  split
  · rfl
  · rw [Slice.rawParts_eq h]
    split
    next hz =>
      rw [hz, List.take_zero, Outcome.ok_bind, memory_stringCells]
    next =>
      rw [Outcome.ok_bind, Outcome.pure_eq, Outcome.ok_bind, memory_stringCells]

end

/-- With as many bytes as the last offset says, all slices of the call are in range. -/
theorem memory_ibBatchBuilderStr (A : Arrow) (b : BuilderHandle) (name : CString) {n : ℕ}
    {offs : Vector Int64 (n + 1)} {bytes : Option (List UInt8)} (valid : Option (Vector UInt8 n))
    (h : asUsize (offs.get (Fin.last n)) ≤ (bytes.getD []).length) :
    Memory.ibBatchBuilderStr A b name (some offs) bytes valid =
      ibBatchBuilderStr A b name (some offs) bytes valid :=
  congrArg (supplyColumn A "ib_batch_builder_str" b name) (memory_stringArray _ _ _ h)

section
variable {n : ℕ} {what : String} {offs : Vector Int64 (n + 1)} {blob : List UInt8}
variable {valid : Option (Vector UInt8 n)} {i : Fin n} {cell : Option String}

/-- Between its two offsets, negative ones taken as 0, the row has the bytes of the text. -/
def RowIs (offs : Vector Int64 (n + 1)) (blob : List UInt8) (i : Fin n) (text : String) : Prop :=
  let s := asUsize (offs.get i.castSucc)
  let e := asUsize (offs.get i.succ)
  s ≤ e ∧ e ≤ blob.length ∧ utf8 text = (blob.drop s).take (e - s)

instance (text : String) : Decidable (RowIs offs blob i text) :=
  inferInstanceAs (Decidable (_ ≤ _ ∧ _ ≤ _ ∧ _ = _))

/-- A masked row is a null and any other row its text. -/
def CellIs (offs : Vector Int64 (n + 1)) (blob : List UInt8) (valid : Option (Vector UInt8 n))
    (i : Fin n) (cell : Option String) : Prop :=
  if absent valid i then cell = none else ∃ text, cell = some text ∧ RowIs offs blob i text

theorem stringCell_eq_ok :
    (if absent valid i then .ok none
      else
        let s := asUsize (offs.get i.castSucc)
        let e := asUsize (offs.get i.succ)
        if e < s ∨ blob.length < e then
          .err s!"{what}: offsets[{i.val}]..[{i.val + 1}] out of range"
        else
          match fromUtf8 ((blob.drop s).take (e - s)) with
          | some v => .ok (some v)
          | none => .err s!"{what}: row {i.val} is not valid UTF-8" : Outcome (Option String)) =
      .ok cell ↔ CellIs offs blob valid i cell := by
  unfold CellIs
  split
  · simp [eq_comm]
  · dsimp only [RowIs]
    split
    next hout =>
      simp only [reduceCtorEq, false_iff, not_exists, not_and]
      intro text _ hs he
      omega
    next hin =>
      obtain ⟨hs, he⟩ := not_or.mp hin
      simp only [Nat.not_lt.mp hs, Nat.not_lt.mp he, true_and, ← fromUtf8_eq_some]
      split
      next v hv => simp [hv, eq_comm]
      next hv => simp [hv]

/-- The loop collects the cells of all rows. -/
theorem stringCells_eq_ok {cells : List (Option String)} :
    stringCells what offs blob valid = .ok cells ↔
      List.Forall₂ (CellIs offs blob valid) (List.finRange n) cells := by
  rw [stringCells, Outcome.mapM_eq_ok]
  exact ⟨fun h => h.imp fun _ _ => stringCell_eq_ok.mp,
    fun h => h.imp fun _ _ => stringCell_eq_ok.mpr⟩

theorem stringCells_ne_panic {w : String} : stringCells what offs blob valid ≠ .panic w := by
  intro h
  obtain ⟨_, i, _, -, -, hi⟩ := Outcome.mapM_eq_panic.mp h
  split at hi
  · cases hi
  · dsimp only at hi
    split at hi
    · cases hi
    · split at hi <;> cases hi

/-- A row that is not masked and not a text inside the blob ends the loop with an error. -/
theorem stringCells_err (ha : absent valid i = false) (hrow : ¬ ∃ text, RowIs offs blob i text) :
    ∃ m, stringCells what offs blob valid = .err m := by
  cases h : stringCells what offs blob valid with
  | err m => exact ⟨m, rfl⟩
  | panic w => exact absurd h stringCells_ne_panic
  | ok cells =>
    obtain ⟨cell, -, hcell⟩ := Outcome.ok_of_mapM_ok h (List.mem_finRange i)
    have hcell := stringCell_eq_ok.mp hcell
    rw [CellIs, ha, if_neg Bool.false_ne_true] at hcell
    obtain ⟨text, -, htext⟩ := hcell
    exact absurd ⟨text, htext⟩ hrow

end

/-- The array of a call that passes as many bytes as its last offset says. -/
theorem stringArray_bytes {n : ℕ} (what : String) {offs : Vector Int64 (n + 1)}
    {bytes : Option (List UInt8)} (valid : Option (Vector UInt8 n))
    (h : (bytes.getD []).length = asUsize (offs.get (Fin.last n))) :
    stringArray what (some offs) bytes valid =
      stringCells what offs (bytes.getD []) valid >>= stringArrayFrom := by
  have hsome : ¬ (bytes.isNone ∧ 0 < asUsize (offs.get (Fin.last n))) := by
    rintro ⟨hnone, hpos⟩
    rw [Option.isNone_iff_eq_none.mp hnone] at h
    exact hpos.ne h
  rw [stringArray, if_neg hsome, List.take_of_length_le h.le]

/-- A call that returns 0 has stored the array of these cells under the name it was given, cast
to the type of the column. -/
structure StoresTexts (A : Arrow) (b : BuilderHandle) (name : CString) {n : ℕ}
    (offs : Vector Int64 (n + 1)) (blob : List UInt8) (valid : Option (Vector UInt8 n))
    (cells : List (Option String)) (b' : BuilderHandle) : Prop where
  cell : List.Forall₂ (CellIs offs blob valid) (List.finRange n) cells
  stored : ∃ nm f vals, cstr name "ib_batch_builder_str" = .ok nm ∧ b.schema.find nm = some f ∧
    A.castTo (.texts cells) f.dataType = .ok vals ∧ b' = b.store nm ⟨f.dataType, vals⟩

section
variable (A : Arrow) (b : BuilderHandle) (name : CString) {n : ℕ} (offs : Vector Int64 (n + 1))
variable (bytes : Option (List UInt8)) (valid : Option (Vector UInt8 n))
variable (h : (bytes.getD []).length = asUsize (offs.get (Fin.last n)))
include h

theorem ibBatchBuilderStr_ne_outOfRange :
    ibBatchBuilderStr A b name (some offs) bytes valid ≠ .panic Slice.outOfRange := by
  intro hp
  have harray : stringArray "ib_batch_builder_str" (some offs) bytes valid ≠
      .panic Slice.outOfRange := by
    rw [stringArray_bytes _ valid h]
    intro hw
    rcases Outcome.bind_eq_panic.mp hw with hcells | ⟨cells, -, hfrom⟩
    · exact stringCells_ne_panic hcells
    · unfold stringArrayFrom at hfrom
      split at hfrom
      · cases hfrom
      · exact absurd (Outcome.panic.inj hfrom) (by decide)
  unfold ibBatchBuilderStr supplyColumn at hp
  dsimp only at hp
  split at hp
  · cases hp
  · split at hp
    · cases hp
    next w hw =>
      obtain rfl := Outcome.panic.inj hp
      exact harray hw
    · cases hp

/-- Whatever the offsets are, no slice is out of range. A call that succeeds stores nulls at
the masked rows and at all others the texts between their offsets, negative ones taken as 0;
a row that is not masked and not such a text makes the call fail and leave the builder. -/
theorem string_offsets_clamped :
    Memory.ibBatchBuilderStr A b name (some offs) bytes valid ≠ .panic Slice.outOfRange ∧
    (∀ r, Memory.ibBatchBuilderStr A b name (some offs) bytes valid = .ok r → r.ret = 0 →
      ∃ cells, StoresTexts A b name offs (bytes.getD []) valid cells r.state) ∧
    ∀ i, absent valid i = false → (¬ ∃ text, RowIs offs (bytes.getD []) i text) →
      ∃ m, Memory.ibBatchBuilderStr A b name (some offs) bytes valid = .ok (.fail b (-1) m) := by
  have harray := stringArray_bytes "ib_batch_builder_str" valid h
  rw [memory_ibBatchBuilderStr A b name valid h.ge]
  refine ⟨ibBatchBuilderStr_ne_outOfRange A b name offs bytes valid h, fun r hr hret => ?_,
    fun i ha hrow => ?_⟩
  · rcases Supply.run_cases (s := .str name (some offs) bytes valid) hr with
      ⟨nm, c, hoffer, -, rfl⟩ | ⟨m, rfl⟩
    · obtain ⟨hn, array, f, vals, hsome, hf, hcast, rfl⟩ := Supply.offer_eq_some.mp hoffer
      obtain ⟨cells, hcells, hfrom⟩ := Outcome.bind_eq_ok.mp (harray.symm.trans hsome)
      obtain ⟨-, rfl⟩ := stringArrayFrom_eq_ok.mp hfrom
      exact ⟨cells, stringCells_eq_ok.mp hcells, nm, f, vals, hn, hf, hcast, rfl⟩
    · simp at hret
  · obtain ⟨m, hm⟩ : ∃ m, stringCells "ib_batch_builder_str" offs _ valid = .err m :=
      stringCells_err ha hrow
    rw [hm, Outcome.err_bind] at harray
    rw [ibBatchBuilderStr]
    simp only [harray, supplyColumn]
    split
    · exact ⟨_, rfl⟩
    · exact ⟨m, rfl⟩

variable {nm : String} {f : Field} {cells : List (Option String)}

/-- Rows that are texts or masked are accepted for a string column. -/
theorem ibBatchBuilderStr_of_cells (hn : cstr name "ib_batch_builder_str" = .ok nm)
    (hf : b.schema.find nm = some f) (hty : f.dataType = .utf8) (hrows : ∀ rows ∈ b.rows, rows = n)
    (hcells : List.Forall₂ (CellIs offs (bytes.getD []) valid) (List.finRange n) cells)
    (hlen : (utf8Bytes cells).length < 2 ^ 31) :
    Memory.ibBatchBuilderStr A b name (some offs) bytes valid =
      .ok (.done (b.store nm (.texts cells)) 0) := by
  have hcount : cells.length = n := by rw [← hcells.length_eq, List.length_finRange]
  have harray :
      stringArray "ib_batch_builder_str" (some offs) bytes valid = .ok (.texts cells) := by
    rw [stringArray_bytes _ valid h, stringCells_eq_ok.mpr hcells]
    exact stringArrayFrom_eq_ok.mpr ⟨hlen, rfl⟩
  obtain ⟨fname, ty, nullable, id⟩ := f
  obtain rfl : ty = .utf8 := hty
  rw [memory_ibBatchBuilderStr A b name valid h.ge]
  exact Supply.run_of_offer (s := .str name (some offs) bytes valid)
    (Supply.offer_eq_some.mpr ⟨hn, _, _, _, harray, hf, Arrow.castTo_self _, rfl⟩)
    fun rows hr => (hrows rows hr).trans hcount.symm

end

theorem string_offsets_clamped_region : ∃ cells b', Memory.ibBatchBuilderStr .basic
      ⟨SchemaToArrow.fieldwise .orders, ∅, none⟩ (cName "region") (some #v[0, 1, 3])
      (some [97, 195, 169]) none = .ok (.done b' 0) ∧
    StoresTexts .basic ⟨SchemaToArrow.fieldwise .orders, ∅, none⟩ (cName "region") #v[0, 1, 3]
      [97, 195, 169] none cells b' := by
  have hcells : List.Forall₂ (CellIs #v[0, 1, 3] [97, 195, 169] none) (List.finRange 2)
      [some "a", some "é"] :=
    .cons ⟨"a", rfl, by decide⟩ (.cons ⟨"é", rfl, by decide⟩ .nil)
  have hrun := ibBatchBuilderStr_of_cells .basic ⟨SchemaToArrow.fieldwise .orders, ∅, none⟩
    (cName "region") #v[0, 1, 3] (some [97, 195, 169]) none rfl (cstr_cName (by decide) _) rfl rfl
    (by simp) hcells (by decide)
  obtain ⟨cells, h⟩ := (string_offsets_clamped .basic ⟨SchemaToArrow.fieldwise .orders, ∅, none⟩
    (cName "region") #v[0, 1, 3] (some [97, 195, 169]) none rfl).2.1 _ hrun rfl
  exact ⟨cells, _, hrun, h⟩

/-- A negative offset and offsets that decrease behind a mask are accepted. -/
theorem string_offsets_not_validated :
    let b : BuilderHandle := ⟨SchemaToArrow.fieldwise .orders, ∅, none⟩
    Memory.ibBatchBuilderStr .basic b (cName "region") (some #v[-5, 2]) (some [97, 98])
        (none : Option (Vector UInt8 1)) =
      .ok (.done (b.store "region" (.texts [some "ab"])) 0) ∧
    Memory.ibBatchBuilderStr .basic b (cName "region") (some #v[0, 2, 0, 2]) (some [97, 98])
        (some #v[1, 0, 1]) =
      .ok (.done (b.store "region" (.texts [some "ab", none, some "ab"])) 0) := by
  have hname := cstr_cName (s := "region") (by decide) "ib_batch_builder_str"
  have first : List.Forall₂ (CellIs #v[-5, 2] [97, 98] none) (List.finRange 1) [some "ab"] :=
    .cons ⟨"ab", rfl, by decide⟩ .nil
  have second : List.Forall₂ (CellIs #v[0, 2, 0, 2] [97, 98] (some #v[1, 0, 1])) (List.finRange 3)
      [some "ab", none, some "ab"] :=
    .cons ⟨"ab", rfl, by decide⟩ (.cons rfl (.cons ⟨"ab", rfl, by decide⟩ .nil))
  exact ⟨ibBatchBuilderStr_of_cells .basic _ _ _ _ none rfl hname rfl rfl (by simp) first
      (by decide),
    ibBatchBuilderStr_of_cells .basic _ _ _ _ _ rfl hname rfl rfl (by simp) second (by decide)⟩

end IcebergRs
