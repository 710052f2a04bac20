import Mathlib

/-!
Little-endian integers of a given width in bytes. Signed values use two's complement, so
decoding reduces to the balanced residue.
-/

namespace LittleEndian

def encode : Nat → Nat → List UInt8
  | 0, _ => []
  | width + 1, value => UInt8.ofNat value :: encode width (value / 256)

def decode : List UInt8 → Nat
  | [] => 0
  | byte :: rest => byte.toNat + 256 * decode rest

@[simp] theorem encode_length (width value : Nat) : (encode width value).length = width := by
  induction width generalizing value with
  | zero => rfl
  | succ width ih => simp [encode, ih]

theorem decode_encode (width value : Nat) : decode (encode width value) = value % 256 ^ width := by
  induction width generalizing value with
  | zero => simp [encode, decode, Nat.mod_one]
  | succ width ih =>
      have byte : (UInt8.ofNat value).toNat = value % 256 := by simp
      rw [encode, decode, ih, byte, pow_succ', Nat.mod_mul]

theorem decode_encode_of_lt {width value : Nat} (bound : value < 256 ^ width) :
    decode (encode width value) = value := by
  rw [decode_encode, Nat.mod_eq_of_lt bound]

theorem decode_lt (bytes : List UInt8) : decode bytes < 256 ^ bytes.length := by
  induction bytes with
  | nil => decide
  | cons byte rest ih =>
      have small : byte.toNat < 256 := byte.toNat_lt
      rw [decode, List.length_cons, pow_succ']
      omega

theorem encode_decode (bytes : List UInt8) : encode bytes.length (decode bytes) = bytes := by
  induction bytes with
  | nil => rfl
  | cons byte rest ih =>
      have small : byte.toNat < 256 := byte.toNat_lt
      have first : UInt8.ofNat (byte.toNat + 256 * decode rest) = byte := by
        rw [← UInt8.toNat_inj, UInt8.toNat_ofNat']
        omega
      have later : (byte.toNat + 256 * decode rest) / 256 = decode rest := by omega
      rw [decode, List.length_cons, encode, first, later, ih]

/-- The bytes of the exclusive or of two integers. -/
theorem decode_xor (bytes pad : List UInt8) (same : bytes.length = pad.length) :
    decode (List.zipWith (· ^^^ ·) bytes pad) = decode bytes ^^^ decode pad := by
  induction bytes generalizing pad with
  | nil =>
      rw [List.eq_nil_of_length_eq_zero same.symm]
      rfl
  | cons byte rest ih =>
      obtain ⟨first, later, rfl⟩ := List.exists_cons_of_length_eq_add_one same.symm
      have byteLt : byte.toNat < 2 ^ 8 := byte.toNat_lt
      have firstLt : first.toNat < 2 ^ 8 := first.toNat_lt
      have base : (256 : Nat) = 2 ^ 8 := rfl
      rw [List.zipWith_cons_cons, decode, decode, decode, ih later (by simpa using same)]
      apply Nat.eq_of_testBit_eq
      intro place
      rw [base, UInt8.toNat_xor, Nat.add_comm, Nat.add_comm byte.toNat,
        Nat.add_comm first.toNat, Nat.testBit_xor,
        Nat.testBit_two_pow_mul_add _ (Nat.xor_lt_two_pow byteLt firstLt),
        Nat.testBit_two_pow_mul_add _ byteLt, Nat.testBit_two_pow_mul_add _ firstLt]
      split
      · simp
      · simp

theorem encode_xor {width : Nat} {bytes : List UInt8} (size : bytes.length = width) {value : Nat}
    (bound : value < 256 ^ width) :
    encode width (decode bytes ^^^ value) =
      List.zipWith (· ^^^ ·) bytes (encode width value) := by
  have same : bytes.length = (encode width value).length := by
    rw [size, encode_length]
  have zipped : (List.zipWith (· ^^^ ·) bytes (encode width value)).length = width := by
    rw [List.length_zipWith, encode_length, size, Nat.min_self]
  have whole := encode_decode (List.zipWith (· ^^^ ·) bytes (encode width value))
  rwa [zipped, decode_xor _ _ same, decode_encode_of_lt bound] at whole

def encodeSigned (width : Nat) (value : Int) : List UInt8 :=
  encode width (value % (256 ^ width : Nat)).toNat

def decodeSigned (bytes : List UInt8) : Int :=
  Int.bmod (decode bytes) (256 ^ bytes.length)

/-- The values a signed integer of `width` bytes can hold. -/
def FitsSigned (width : Nat) (value : Int) : Prop :=
  -((256 ^ width : Nat) : Int) ≤ value * 2 ∧ value * 2 < ((256 ^ width : Nat) : Int)

instance (width : Nat) (value : Int) : Decidable (FitsSigned width value) :=
  inferInstanceAs (Decidable (_ ∧ _))

@[simp] theorem encodeSigned_length (width : Nat) (value : Int) :
    (encodeSigned width value).length = width := by
  simp [encodeSigned]

theorem decodeSigned_encodeSigned {width : Nat} {value : Int} (fits : FitsSigned width value) :
    decodeSigned (encodeSigned width value) = value := by
  have positive : (0 : Int) < (256 ^ width : Nat) := by positivity
  have lower := Int.emod_nonneg value positive.ne'
  have upper := Int.emod_lt_of_pos value positive
  have residue : ((value % (256 ^ width : Nat)).toNat : Int) = value % (256 ^ width : Nat) :=
    Int.toNat_of_nonneg lower
  rw [decodeSigned, encodeSigned_length, encodeSigned, decode_encode_of_lt (by omega), residue,
    Int.emod_bmod, Int.bmod_eq_of_le_mul_two fits.1 fits.2]

theorem encodeSigned_decodeSigned (bytes : List UInt8) :
    encodeSigned bytes.length (decodeSigned bytes) = bytes := by
  have small : ((decode bytes : Nat) : Int) < (256 ^ bytes.length : Nat) := by
    exact_mod_cast decode_lt bytes
  rw [encodeSigned, decodeSigned, Int.bmod_emod, Int.emod_eq_of_lt (by omega) small,
    Int.toNat_natCast, encode_decode]

theorem decodeSigned_lt {bytes : List UInt8} (whole : bytes.length = 4) :
    decodeSigned bytes < 0x80000000 := by
  have bound := @Int.bmod_lt (decode bytes) (256 ^ bytes.length) (by positivity)
  rw [whole] at bound
  rw [decodeSigned, whole]
  norm_num at bound ⊢
  exact bound

theorem decodeSigned_ge {bytes : List UInt8} (whole : bytes.length = 4) :
    -0x80000000 ≤ decodeSigned bytes := by
  have bound := @Int.le_bmod (decode bytes) (256 ^ bytes.length) (by positivity)
  rw [whole] at bound
  rw [decodeSigned, whole]
  norm_num at bound ⊢
  exact bound

end LittleEndian
