import IcebergRs.Mojo.Binding
import IcebergRs.Shim.Metadata

/-! Strings handed out by the shim. The binding asks for the length of the C string, has its
bytes copied into a list and decodes that. -/
namespace IcebergRs.Mojo

/-- `_read_string`. -/
def readString (p : CString) : String :=
  match p with
  | none => ""
  | some _ =>
    let n := (ibStringLen p).ret
    if n ≤ 0 then ""
    else
      let buf := List.replicate n.toNat 0
      bytesToString (owned (ibStringCopy p (unsafePtr buf) n.toNat).state)

/-- `_take_string`, which frees the C string when it has been read. -/
def takeString (p : CString) : String := readString p

/-- A text behind a `char*` is read up to its first zero. -/
theorem readString_cName (s : String) : readString (cName s) = uptoNul s := by
  have htext : (utf8 s ++ [0]).takeWhile (· ≠ 0) = utf8 (uptoNul s) := takeWhile_utf8 s
  simp only [readString, cName, ibStringLen, ibStringCopy, htext, Reply.done_ret,
    Int.toNat_natCast]
  split
  next hlen =>
    have hnil : utf8 (uptoNul s) = [] := List.eq_nil_of_length_eq_zero (by omega)
    rw [← bytesToString_utf8 (uptoNul s), hnil]
    rfl
  next hlen =>
    have hne : List.replicate (utf8 (uptoNul s)).length (0 : UInt8) ≠ [] := by
      intro hnil
      rw [List.replicate_eq_nil_iff] at hnil
      omega
    rw [unsafePtr_of_ne _ hne, if_neg (by simp), Reply.done_state, Option.map_some, owned,
      Option.getD_some, List.take_length, overwrite_all List.length_replicate, bytesToString_utf8]

/-- Every text is the decoding of its bytes, whatever characters it mixes, and every text that
the shim hands out arrives as it is. -/
theorem strings_taken_whole (cs : List Char) {s : String} (h : NulFree s) :
    bytesToString (cs.flatMap String.utf8EncodeChar) = String.ofList cs ∧
      outString s = .ok s ∧ takeString (cName s) = s := by
  refine ⟨congrArg String.ofList (decode_encode cs), outString_eq_ok.mpr ⟨h, rfl⟩, ?_⟩
  rw [takeString, readString_cName, uptoNul_eq_self_iff.mpr h]

/-- Characters of all four lengths. -/
theorem strings_taken_whole_mixed :
    bytesToString (['a', 'é', '€', '😀'].flatMap String.utf8EncodeChar) = "aé€😀" ∧
      outString "id€" = .ok "id€" ∧ takeString (cName "id€") = "id€" :=
  strings_taken_whole ['a', 'é', '€', '😀'] (by decide)

end IcebergRs.Mojo
