import IcebergRs.Support.Utf8
import Mathlib.Algebra.Group.Nat.Defs

/-! The UTF-8 decoder of the Mojo binding, and that it inverts the encoding. -/
namespace IcebergRs.Mojo

def chr (n : ℕ) : Char := Char.ofNat n

/-- The loop of `_bytes_to_string`: the first byte says how many belong together, and a
sequence cut off by the end of the buffer ends the loop. -/
def decode : List UInt8 → List Char
  | [] => []
  | byte :: rest =>
    let b := byte.toNat
    if b < 0x80 then chr b :: decode rest
    else if b < 0xE0 then
      match rest with
      | b1 :: rest => chr (((b &&& 0x1F) <<< 6) ||| (b1.toNat &&& 0x3F)) :: decode rest
      | _ => []
    else if b < 0xF0 then
      match rest with
      | b1 :: b2 :: rest =>
        chr (((b &&& 0x0F) <<< 12) ||| ((b1.toNat &&& 0x3F) <<< 6) ||| (b2.toNat &&& 0x3F))
          :: decode rest
      | _ => []
    else
      match rest with
      | b1 :: b2 :: b3 :: rest =>
        chr (((b &&& 0x07) <<< 18) ||| ((b1.toNat &&& 0x3F) <<< 12) |||
          ((b2.toNat &&& 0x3F) <<< 6) ||| (b3.toNat &&& 0x3F)) :: decode rest
      | _ => []

def bytesToString (buf : List UInt8) : String := String.ofList (decode buf)

theorem mask_eq_mod (n : ℕ) {m k : ℕ} (h : m = 2 ^ k - 1) : n &&& m = n % 2 ^ k :=
  h ▸ Nat.and_two_pow_sub_one_eq_mod n k

/-- Bits put in below a multiple of a power of two are added to it. -/
theorem or_eq_add {m n k : ℕ} (hm : 2 ^ k ∣ m) (hn : n < 2 ^ k) : m ||| n = m + n := by
  obtain ⟨a, rfl⟩ := hm
  exact (Nat.two_pow_add_eq_or_of_lt hn a).symm

section
variable (a b c d : ℕ)

theorem low_six : a &&& 0x3F = a % 64 := mask_eq_mod a (k := 6) rfl

theorem join_two : ((a &&& 0x1F) <<< 6) ||| (b &&& 0x3F) = a % 32 * 64 + b % 64 := by
  have ha : a &&& 0x1F = a % 32 := mask_eq_mod a (k := 5) rfl
  rw [ha, low_six, Nat.shiftLeft_eq, or_eq_add (k := 6)] <;> omega

theorem join_three : ((a &&& 0x0F) <<< 12) ||| ((b &&& 0x3F) <<< 6) ||| (c &&& 0x3F) =
    a % 16 * 4096 + b % 64 * 64 + c % 64 := by
  have ha : a &&& 0x0F = a % 16 := mask_eq_mod a (k := 4) rfl
  have hab : a % 16 * 2 ^ 12 ||| b % 64 * 2 ^ 6 = a % 16 * 4096 + b % 64 * 64 :=
    or_eq_add (k := 12) (by omega) (by omega)
  rw [ha, low_six, low_six, Nat.shiftLeft_eq, Nat.shiftLeft_eq, hab, or_eq_add (k := 6)] <;> omega

theorem join_four : ((a &&& 0x07) <<< 18) ||| ((b &&& 0x3F) <<< 12) ||| ((c &&& 0x3F) <<< 6) |||
    (d &&& 0x3F) = a % 8 * 262144 + b % 64 * 4096 + c % 64 * 64 + d % 64 := by
  have ha : a &&& 0x07 = a % 8 := mask_eq_mod a (k := 3) rfl
  have hab : a % 8 * 2 ^ 18 ||| b % 64 * 2 ^ 12 = a % 8 * 262144 + b % 64 * 4096 :=
    or_eq_add (k := 18) (by omega) (by omega)
  have habc : (a % 8 * 262144 + b % 64 * 4096) ||| c % 64 * 2 ^ 6 =
      a % 8 * 262144 + b % 64 * 4096 + c % 64 * 64 := or_eq_add (k := 12) (by omega) (by omega)
  rw [ha, low_six, low_six, low_six, Nat.shiftLeft_eq, Nat.shiftLeft_eq, Nat.shiftLeft_eq, hab,
    habc, or_eq_add (k := 6)] <;> omega

end

section
variable {b b1 b2 b3 : UInt8} (rest : List UInt8)

theorem decode_one (h : b.toNat < 0x80) : decode (b :: rest) = chr b.toNat :: decode rest := by
  rw [decode.eq_def]
  exact if_pos h

theorem decode_two (hl : 0x80 ≤ b.toNat) (hu : b.toNat < 0xE0) :
    decode (b :: b1 :: rest) = chr (b.toNat % 32 * 64 + b1.toNat % 64) :: decode rest := by
  rw [decode, if_neg (Nat.not_lt.mpr hl), if_pos hu, join_two]

theorem decode_three (hl : 0xE0 ≤ b.toNat) (hu : b.toNat < 0xF0) :
    decode (b :: b1 :: b2 :: rest) =
      chr (b.toNat % 16 * 4096 + b1.toNat % 64 * 64 + b2.toNat % 64) :: decode rest := by
  rw [decode, if_neg (by omega), if_neg (Nat.not_lt.mpr hl), if_pos hu, ← join_three]

theorem decode_four (hl : 0xF0 ≤ b.toNat) :
    decode (b :: b1 :: b2 :: b3 :: rest) = chr (b.toNat % 8 * 262144 + b1.toNat % 64 * 4096 +
      b2.toNat % 64 * 64 + b3.toNat % 64) :: decode rest := by
  rw [decode, if_neg (by omega), if_neg (by omega), if_neg (Nat.not_lt.mpr hl), ← join_four]

end

theorem chr_toNat (c : Char) : chr c.toNat = c := Char.ofNat_toNat c

theorem decode_encodeChar (c : Char) (rest : List UInt8) :
    decode (String.utf8EncodeChar c ++ rest) = c :: decode rest := by
  have hv : c.val.toNat < 0x110000 := by
    have h := c.valid
    simp only [UInt32.isValidChar, Nat.isValidChar] at h
    omega
  have hbyte : ∀ n < 256, (UInt8.ofNat n).toNat = n := by
    intro n h
    rw [UInt8.toNat_ofNat']
    exact Nat.mod_eq_of_lt h
  conv_rhs => rw [← chr_toNat c, Char.toNat]
  unfold String.utf8EncodeChar
  dsimp only
  generalize c.val.toNat = v at hv
  split_ifs with h1 h2 h3
  · rw [List.singleton_append, decode_one] <;> rw [hbyte] <;> omega
  · rw [List.cons_append, List.singleton_append, decode_two] <;>
      simp (disch := omega) only [hbyte]
    · congr 2
      omega
    all_goals omega
  · rw [List.cons_append, List.cons_append, List.singleton_append, decode_three] <;>
      simp (disch := omega) only [hbyte]
    · congr 2
      omega
    all_goals omega
  · rw [List.cons_append, List.cons_append, List.cons_append, List.singleton_append,
      decode_four] <;> simp (disch := omega) only [hbyte]
    · congr 2
      omega
    · omega

theorem decode_encode (cs : List Char) : decode (cs.flatMap String.utf8EncodeChar) = cs := by
  induction cs with
  | nil => rfl
  | cons c cs ih => rw [List.flatMap_cons, decode_encodeChar, ih]

/-- The decoder returns the text whose bytes it is given. -/
@[simp] theorem bytesToString_utf8 (s : String) : bytesToString (utf8 s) = s := by
  rw [bytesToString, utf8, decode_encode, String.ofList_toList]

end IcebergRs.Mojo
