import IcebergRs.Shim.BuilderMap
import IcebergRs.Support.Packing
import Mathlib.Algebra.Order.BigOperators.Group.List
import Mathlib.Algebra.Order.Group.Nat

/-! Packed texts as the string builder call reads them: the call offers the texts that were
packed, with nulls at the rows its mask leaves out. -/
namespace IcebergRs

theorem asUsize_ofNat {k : ℕ} (h : k < 2 ^ 63) : asUsize (Int64.ofNat k) = k := by
  rw [asUsize, Int64.toInt_ofNat_of_lt h]
  rfl

theorem asUsize_get {rows : List (List UInt8)} {n : ℕ} (hn : rows.length = n)
    {offs : Vector Int64 (n + 1)} (h : offs.toList = offsets rows)
    (hlen : rows.flatten.length < 2 ^ 63) (i : Fin (n + 1)) :
    asUsize (offs.get i) = offset rows i := by
  have hlt : i.val < offs.toList.length := by
    rw [Vector.length_toList]
    exact i.isLt
  have hi : offs.toList[i.val]? = some (offs.get i) := by
    rw [List.getElem?_eq_getElem hlt, Vector.getElem_toList]
    rfl
  rw [h, offsets_getElem? (by omega)] at hi
  rw [← Option.some.inj hi, asUsize_ofNat ((offset_le rows i).trans_lt hlen)]

section
variable {texts : List String} (valid : Option (Vector UInt8 texts.length))

theorem utf8Bytes_collect_le :
    (utf8Bytes (collect valid texts.get)).length ≤ (texts.map utf8).flatten.length := by
  conv_rhs => rw [← List.map_get_finRange texts]
  rw [utf8Bytes, collect, List.flatMap_map, List.length_flatMap, List.map_map,
    List.length_flatten, List.map_map]
  apply List.sum_le_sum
  intro i _
  cases absent valid i <;> simp [cellBytes]

variable {offs : Vector Int64 (texts.length + 1)} (h : offs.toList = offsets (texts.map utf8))
include h

/-- The loop cuts out of the blob the texts that were packed. -/
theorem stringCells_packed (what : String) (hlen : (texts.map utf8).flatten.length < 2 ^ 63) :
    stringCells what offs (texts.map utf8).flatten valid = .ok (collect valid texts.get) := by
  have hpos := asUsize_get (List.length_map utf8) h hlen
  rw [stringCells, collect, Outcome.mapM_eq_ok, List.forall₂_map_right_iff, List.forall₂_same]
  intro i _
  cases ha : absent valid i with
  | true => rfl
  | false =>
    have hi : i.val < (texts.map utf8).length := by simp
    have hs : asUsize (offs.get i.castSucc) = offset (texts.map utf8) i := hpos _
    have he : asUsize (offs.get i.succ) = offset (texts.map utf8) (i + 1) := hpos _
    have hrange : ¬ (offset (texts.map utf8) (i + 1) < offset (texts.map utf8) i ∨
        (texts.map utf8).flatten.length < offset (texts.map utf8) (i + 1)) := by
      have hsucc := offset_succ hi
      have hle := offset_le (texts.map utf8) (i + 1)
      omega
    have hwin := window_eq _ hi []
    rw [List.append_nil, List.getElem_map] at hwin
    simp only [hs, he, hrange, hwin, fromUtf8_utf8, Bool.false_eq_true, ↓reduceIte]
    rfl

theorem stringArray_packed (what : String) (hlen : (texts.map utf8).flatten.length < 2 ^ 31)
    (tail : List UInt8) :
    stringArray what (some offs) (some ((texts.map utf8).flatten ++ tail)) valid =
      .ok (.texts (collect valid texts.get)) := by
  have hlen' : (texts.map utf8).flatten.length < 2 ^ 63 := hlen.trans (by decide)
  have htotal : asUsize (offs.get (Fin.last texts.length)) = (texts.map utf8).flatten.length := by
    rw [asUsize_get (List.length_map utf8) h hlen', Fin.val_last, ← List.length_map utf8,
      offset_length]
  apply stringArray_eq_ok.mpr
  refine ⟨offs, collect valid texts.get, rfl, by simp, ?_, ?_, rfl⟩
  · rw [htotal, Option.getD_some, List.take_left]
    exact stringCells_packed valid h what hlen'
  · exact (utf8Bytes_collect_le valid).trans_lt hlen

/-- A call that passes packed texts offers them for a string column. -/
theorem offer_packed {A : Arrow} {schema : ArrowSchema} {name : CString} {nm : String} {f : Field}
    (hname : cstr name "ib_batch_builder_str" = .ok nm) (hf : schema.find nm = some f)
    (hty : f.dataType = .utf8) (hlen : (texts.map utf8).flatten.length < 2 ^ 31)
    (tail : List UInt8) :
    (Supply.str name (some offs) (some ((texts.map utf8).flatten ++ tail)) valid).offer A schema =
      some (nm, .texts (collect valid texts.get)) := by
  obtain ⟨fname, ty, nullable, id⟩ := f
  obtain rfl : ty = .utf8 := hty
  exact Supply.offer_eq_some.mpr ⟨hname, _, _, _, stringArray_packed valid h _ hlen tail, hf,
    Arrow.castTo_self _, rfl⟩

end
end IcebergRs
