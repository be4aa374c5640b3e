import IcebergRs.Mojo.Binding

/-! Validity as it is read back. Every reader takes the nulls of the column after the cast
to the type it reads as, so what it says is true exactly of the values that type has. -/
namespace IcebergRs

/-- The first `n` bytes are 1 for a value and 0 for a null of the column. -/
def ValidityTold (col : ArrayRef) (n : ℕ) (mem : List UInt8) : Prop :=
  mem.take n = (col.validity.take n).map Bool.toUInt8

theorem validByte_eq {α : Type} (cell : Option α) : validByte cell = cell.isSome.toUInt8 := by
  cases cell <;> rfl

theorem toUInt8_injective : Function.Injective Bool.toUInt8 := by
  intro a b h
  revert a b
  decide

/-- What a getter that read the column as `t` says of nulls is true exactly when `t` has
every value it read. -/
theorem validityTold_iff {A : Arrow} {col : ArrayRef} {t : DataType} {arr : List (Option t.Val)}
    (h : A.castTo col t = .ok arr) (cap : ℕ) (mem : List UInt8) :
    ValidityTold col (arr.take cap).length (overwrite mem ((arr.take cap).map validByte)) ↔
      A.Keeps (col.firstRows cap) t := by
  have hbytes : (arr.take cap).map validByte =
      ((arr.take cap).map Option.isSome).map Bool.toUInt8 := by
    rw [List.map_map]
    exact List.map_congr_left fun c _ => validByte_eq c
  have hrows : col.validity.take (arr.take cap).length = col.validity.take cap := by
    rw [List.take_eq_take_iff, List.length_take, Arrow.castTo_length h, col.validity_length]
    omega
  have htake := overwrite_take mem ((arr.take cap).map validByte)
  rw [List.length_map] at htake
  rw [ValidityTold, htake, hrows, hbytes, toUInt8_injective.list_map.eq_iff]
  exact Arrow.castTo_take_validity_iff h cap

/-- What a getter that returned `ret` and the validity bytes `valid` has done: it read the
first rows of the column as `t`, and its bytes are true exactly when `t` has every value
among them. -/
def ToldIff (A : Arrow) (batch : RecordBatch) (name : CString) (what : String) (t : DataType)
    (cap : ℕ) (ret : ℤ) (valid : Option (List UInt8)) : Prop :=
  ∃ nm col mem, cstr name what = .ok nm ∧ batch.columnByName nm = some col ∧
    ret = min batch.numRows cap ∧ valid = some mem ∧
      (ValidityTold col ret.toNat mem ↔ A.Keeps (col.firstRows cap) t)

section
variable {A : Arrow} {batch : RecordBatch} {name : CString} {cap : ℕ}

theorem Reads.toldIff {what : String} {t : DataType} {col : ArrayRef} {arr : List (Option t.Val)}
    (h : Reads A batch name what t col arr) {outValid : Option (List UInt8)}
    (hv : outValid.isSome) : ToldIff A batch name what t cap (arr.take cap).length
      (writeValidity (arr.take cap) outValid) := by
  obtain ⟨nm, hn, hcol⟩ := h.found
  obtain ⟨mem, rfl⟩ := Option.isSome_iff_exists.mp hv
  refine ⟨nm, col, _, hn, hcol, ?_, rfl, validityTold_iff h.cast cap mem⟩
  rw [List.length_take, h.length, Nat.min_comm]

theorem getColumn_toldIff {α : Type} {what : String} {t : DataType} {slot : Option t.Val → α}
    {bufs : OutBuffers α} (hv : bufs.outValid.isSome)
    (h0 : 0 ≤ (getColumn what t slot A batch name bufs cap).ret) :
    ToldIff A batch name what t cap (getColumn what t slot A batch name bufs cap).ret
      (getColumn what t slot A batch name bufs cap).state.outValid := by
  rcases getColumn_cases A batch name cap what t slot bufs with ⟨col, arr, mem, hr, -, he⟩ | ⟨m, hm⟩
  · rw [he]
    exact hr.toldIff hv
  · rw [hm] at h0
    cases h0

theorem ibBatchGetStr_toldIff {bufs : StrBuffers} {bytesCap : ℕ} (hv : bufs.outValid.isSome)
    (h0 : 0 ≤ (ibBatchGetStr A batch name bufs bytesCap cap).ret) :
    ToldIff A batch name "ib_batch_get_str" .utf8 cap
      (ibBatchGetStr A batch name bufs bytesCap cap).ret
      (ibBatchGetStr A batch name bufs bytesCap cap).state.outValid := by
  rcases ibBatchGetStr_cases bufs bytesCap with
    ⟨col, arr, offs, bytes, hr, he⟩ | ⟨n, m, hn, hm⟩
  · rw [he]
    exact hr.toldIff hv
  · rw [hm, Reply.fail_ret] at h0
    omega

end

section
open Mojo
variable {A : Arrow} {batch : RecordBatch} {name : String}

theorem flags_eq {α : Type} (mem : List UInt8) (cells : List (Option α)) :
    ((overwrite mem (cells.map validByte)).take cells.length).map (· != 0) =
      cells.map Option.isSome := by
  rw [← List.length_map validByte, overwrite_take, List.map_map]
  apply List.map_congr_left
  intro c _
  cases c <;> rfl

/-- The flags of `Batch.validity` are the nulls of the column after the cast to `Int64`. -/
theorem validity_eq_ok {flags : List Bool} (h : validity A batch name = .ok flags) :
    ∃ col arr, batch.columnByName (uptoNul name) = some col ∧ A.castTo col .int64 = .ok arr ∧
      flags = arr.map Option.isSome := by
  unfold validity getValidity at h
  dsimp only at h
  split at h
  next => cases h
  next h0 =>
    obtain rfl := Outcome.ok.inj h
    rcases getColumn_cases A batch (arg name) batch.numRows "ib_batch_get_i64" .int64
        (fun cell : Option Int64 => cell.getD 0)
        ⟨unsafePtr (List.replicate batch.numRows 0), unsafePtr (List.replicate batch.numRows 0)⟩
      with ⟨col, arr, mem, hr, hmem, he⟩ | ⟨m, hm⟩
    · obtain ⟨nm, hn, hcol⟩ := hr.found
      rw [cstr_arg] at hn
      obtain rfl := Except.ok.inj hn
      refine ⟨col, arr, hcol, hr.cast, ?_⟩
      have hrows : arr.take batch.numRows = arr :=
        List.take_of_length_le (Nat.le_of_eq hr.length)
      have hraw := unsafePtr_of_ne (List.replicate batch.numRows (0 : UInt8))
        (by simpa using (unsafePtr_eq_some hmem).1)
      rw [ibBatchGetI64, he, hrows, hraw]
      exact flags_eq _ arr
    · exact absurd (by rw [ibBatchGetI64, hm, Reply.fail_ret]; decide) h0

/-- Whatever reads validity, through `Batch.validity` or through a getter with a validity
buffer, tells the truth exactly when the type it reads the column as has every value that
it reads. -/
theorem validity_truthful_iff (A : Arrow) (batch : RecordBatch) :
    (∀ name flags, validity A batch name = .ok flags →
      ∃ col, batch.columnByName (uptoNul name) = some col ∧
        (flags = col.validity ↔ A.Keeps col .int64)) ∧
    (∀ name bufs cap, bufs.outValid.isSome → 0 ≤ (ibBatchGetI64 A batch name bufs cap).ret →
      ToldIff A batch name "ib_batch_get_i64" .int64 cap (ibBatchGetI64 A batch name bufs cap).ret
        (ibBatchGetI64 A batch name bufs cap).state.outValid) ∧
    (∀ name bufs cap, bufs.outValid.isSome → 0 ≤ (ibBatchGetF64 A batch name bufs cap).ret →
      ToldIff A batch name "ib_batch_get_f64" .float64 cap (ibBatchGetF64 A batch name bufs cap).ret
        (ibBatchGetF64 A batch name bufs cap).state.outValid) ∧
    (∀ name bufs cap, bufs.outValid.isSome → 0 ≤ (ibBatchGetBool A batch name bufs cap).ret →
      ToldIff A batch name "ib_batch_get_bool" .boolean cap
        (ibBatchGetBool A batch name bufs cap).ret
        (ibBatchGetBool A batch name bufs cap).state.outValid) ∧
    ∀ name bufs bytesCap cap, bufs.outValid.isSome →
      0 ≤ (ibBatchGetStr A batch name bufs bytesCap cap).ret →
        ToldIff A batch name "ib_batch_get_str" .utf8 cap
          (ibBatchGetStr A batch name bufs bytesCap cap).ret
          (ibBatchGetStr A batch name bufs bytesCap cap).state.outValid := by
  refine ⟨fun name flags h => ?_, fun _ _ _ => getColumn_toldIff, fun _ _ _ => getColumn_toldIff,
    fun _ _ _ => getColumn_toldIff, fun _ _ _ _ => ibBatchGetStr_toldIff⟩
  obtain ⟨col, arr, hcol, hcast, rfl⟩ := validity_eq_ok h
  exact ⟨col, hcol, Arrow.castTo_validity_iff hcast⟩

/-- The text `eu` is present, and its validity reads back as false. -/
theorem validity_denies_text : ∃ (batch : RecordBatch) (col : ArrayRef),
    col = ⟨.utf8, [some "eu"]⟩ ∧ batch.columnByName "region" = some col ∧
      validity .basic batch "region" = .ok [false] ∧ col.validity = [true] :=
  ⟨⟨⟨[⟨"region", .utf8, true, none⟩]⟩, [⟨.utf8, [some "eu"]⟩], 1, rfl, by simp [ArrayRef.len]⟩,
    _, rfl, rfl, rfl, rfl⟩

end
end IcebergRs
