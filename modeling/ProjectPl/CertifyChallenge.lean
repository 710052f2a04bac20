import ProjectPl.CertifyEncrypt

/-!
One round of the challenge. The string is combined with the key, and only its 60 bytes are sent,
as text over one of the tables. The client decodes them; the server combines them with the key
again and compares with the string it started from.
-/

namespace ProjectPl

namespace Certify

theorem strncmp_eq_zero_iff {first second : List UInt8} (long : second.length ≤ first.length)
    (unbroken : ∀ char ∈ second, char ≠ 0) :
    strncmp second.length first second = 0 ↔ first.take second.length = second := by
  induction second generalizing first with
  | nil => simp [strncmp]
  | cons char rest ih =>
      cases first with
      | nil => simp at long
      | cons byte bytes =>
          have nonzero := unbroken char List.mem_cons_self
          have later := ih (Nat.le_of_succ_le_succ long) fun other member =>
            unbroken other (List.mem_cons_of_mem _ member)
          rw [List.length_cons, strncmp, List.take_succ_cons, List.cons.injEq]
          by_cases same : byte = char
          · subst same
            simp only [ne_eq, not_true_eq_false, if_false, nonzero, true_and]
            exact later
          · have values : (byte.toNat : Int) - char.toNat ≠ 0 := by
              intro zero
              exact same (UInt8.toNat_inj.mp (by omega))
            simp [same, values]

theorem certifyString_length : ∀ index, (certifyString index).length = maxStringLen := by
  decide +kernel

theorem certifyString_all : ∀ index, (certifyString index).all (· != 0) = true := by
  decide +kernel

theorem certifyString_unbroken (index : Fin 10) : ∀ char ∈ certifyString index, char ≠ 0 :=
  fun char member => bne_iff_ne.mp (List.all_eq_true.mp (certifyString_all index) char member)

/-- The byte of an integer key that meets the byte at a place. -/
def keyByte (nEncKey : BitVec 32) (place : Nat) : UInt8 :=
  (LittleEndian.encode 4 nEncKey.toNat).getD (place % 4) 0

theorem encrypt_int32_bytes (memory : Memory) (nEncKey : BitVec 32) {place : Nat}
    (inside : place < maxConvertBufferLen) :
    (encrypt memory (.int32 nEncKey)).bytes place = memory.bytes place ^^^ keyByte nEncKey place := by
  have ends : reach (EncKey.int32 nEncKey).stride = maxConvertBufferLen :=
    (by decide : reach 4 = maxConvertBufferLen)
  rw [encrypt_bytes, ends, if_pos inside]
  rfl

def masked (nEncKey : BitVec 32) (string : List UInt8) : List UInt8 :=
  string.mapIdx fun place byte => byte ^^^ keyByte nEncKey place

theorem masked_masked (nEncKey : BitVec 32) (string : List UInt8) :
    masked nEncKey (masked nEncKey string) = string := by
  apply List.ext_getElem
  · simp [masked]
  · intro place _ _
    simp only [masked, List.getElem_mapIdx]
    rw [UInt8.xor_assoc, UInt8.xor_self, UInt8.xor_zero]

theorem masked_take (nEncKey : BitVec 32) (string : List UInt8) (count : Nat) :
    (masked nEncKey string).take count = masked nEncKey (string.take count) := by
  apply List.ext_getElem
  · simp [masked]
  · intro place _ _
    simp [masked]

theorem text_encrypt (memory : Memory) (nEncKey : BitVec 32) {count : Nat}
    (inside : count ≤ maxConvertBufferLen) :
    text count (encrypt memory (.int32 nEncKey)).bytes = masked nEncKey (text count memory.bytes) := by
  apply List.ext_getElem
  · simp [masked]
  · intro place bound _
    rw [text_length] at bound
    simp only [text, masked, List.getElem_map, List.getElem_range, List.getElem_mapIdx]
    exact encrypt_int32_bytes memory nEncKey (by omega)

end Certify

open Certify

namespace CCertifyData

/-- What a client gets by decoding the challenge. -/
def answer (made : CCertifyData × Fin 10) : List UInt8 :=
  (certifyDataRecover certifyConvertTableInit made.2 made.1.getCertifyData.1).1

theorem checkCertifyData_iff {data : CCertifyData} {response : List UInt8}
    (whole : response.length = maxConvertBufferLen) :
    (data.checkCertifyData response).2 = true ↔
      response.take maxStringLen = masked data.nEncKey (certifyString data.nStringIndex) := by
  have length := certifyString_length data.nStringIndex
  have read : ({ data with
      szString := data.szString.store 0 (response.take maxConvertBufferLen) }.encrypt
        (.int32 data.nEncKey)).getString = masked data.nEncKey response := by
    have taken : response.take maxConvertBufferLen = response := List.take_of_length_le whole.le
    rw [getString, load_zero, encrypt, text_encrypt _ _ (Nat.le_refl _), taken,
      text_store whole.ge, taken]
  have long : (certifyString data.nStringIndex).length ≤ (masked data.nEncKey response).length := by
    rw [masked, List.length_mapIdx, length, whole]
    decide
  have compared := strncmp_eq_zero_iff long (certifyString_unbroken data.nStringIndex)
  have accepted : (data.checkCertifyData response).2 = true ↔
      strncmp (certifyString data.nStringIndex).length (masked data.nEncKey response)
        (certifyString data.nStringIndex) = 0 := by
    simp only [checkCertifyData, read]
    split
    next different => simp [different]
    next same => simpa using same
  rw [accepted, compared, length, masked_take]
  constructor
  · intro same
    rw [← same, masked_masked]
  · intro same
    rw [same, masked_masked]

theorem checkCertifyData_count {data : CCertifyData} {response : List UInt8}
    (accepted : (data.checkCertifyData response).2 = true) :
    (data.checkCertifyData response).1.nCheckCount = data.nCheckCount - 1 := by
  revert accepted
  simp only [checkCertifyData]
  split
  next => exact fun accepted => absurd accepted Bool.false_ne_true
  next => exact fun _ => rfl

/-- The members that `MakeCertifyData` leaves behind, and what its challenge decodes to. -/
structure Made (data : CCertifyData) (made : CCertifyData × Fin 10) : Prop where
  count : made.1.nCheckCount = data.nCheckCount + 1
  decoded : answer made = masked made.1.nEncKey (certifyString made.1.nStringIndex) ++
    List.replicate (maxConvertBufferLen - maxStringLen) 0

theorem makeCertifyData_made (data : CCertifyData) (nEncKey : BitVec 32) (rand : Rand) :
    Made data (data.makeCertifyData certifyConvertTableInit nEncKey rand) := by
  refine ⟨rfl, ?_⟩
  generalize madeEq : data.makeCertifyData certifyConvertTableInit nEncKey rand = made
  simp only [makeCertifyData] at madeEq
  generalize (if nEncKey = 0 then
      BitVec.ofNat 32 (rand.high % 10000) <<< 16 ||| BitVec.ofNat 32 (rand.low % 10000)
    else nEncKey) = key at madeEq
  have stored : text maxStringLen (data.setString rand.string).szString.bytes =
      certifyString (Fin.ofNat 10 rand.string) := by
    have length := certifyString_length (Fin.ofNat 10 rand.string)
    have long : maxStringLen ≤ (certifyString (Fin.ofNat 10 rand.string) ++ [0]).length := by
      rw [List.length_append, length]
      exact Nat.le_add_right _ _
    simp only [setString]
    rw [text_store long, List.take_append_of_le_length length.ge, List.take_of_length_le length.le]
  subst madeEq
  have decoded := certifyDataRecover_converted
    ({ data.setString rand.string with nEncKey := key }.encrypt (.int32 key))
    (Fin.ofNat 10 rand.table)
  rw [encrypt, text_encrypt _ _ (by decide), stored] at decoded
  exact decoded

/-- The challenge is complete and exact: the decoded data is accepted and gives the count back,
and another response is accepted just if it agrees on the bytes of the string. -/
theorem challenge_exact (data : CCertifyData) (nEncKey : BitVec 32) (rand : Rand) :
    ((data.makeCertifyData certifyConvertTableInit nEncKey rand).1.checkCertifyData
        (answer (data.makeCertifyData certifyConvertTableInit nEncKey rand))).2 = true ∧
      ((data.makeCertifyData certifyConvertTableInit nEncKey rand).1.checkCertifyData
        (answer (data.makeCertifyData certifyConvertTableInit nEncKey rand))).1.nCheckCount =
          data.nCheckCount ∧
      ∀ response : List UInt8, response.length = maxConvertBufferLen →
        (((data.makeCertifyData certifyConvertTableInit nEncKey rand).1.checkCertifyData
            response).2 = true ↔
          response.take maxStringLen =
            (answer (data.makeCertifyData certifyConvertTableInit nEncKey rand)).take
              maxStringLen) := by
  obtain ⟨count, decoded⟩ := makeCertifyData_made data nEncKey rand
  generalize data.makeCertifyData certifyConvertTableInit nEncKey rand = made at count decoded ⊢
  have length : (masked made.1.nEncKey (certifyString made.1.nStringIndex)).length =
      maxStringLen := by
    rw [masked, List.length_mapIdx, certifyString_length]
  have carried : (answer made).take maxStringLen =
      masked made.1.nEncKey (certifyString made.1.nStringIndex) := by
    rw [decoded, List.take_append_of_le_length length.ge, List.take_of_length_le length.le]
  have whole : (answer made).length = maxConvertBufferLen := by
    rw [decoded, List.length_append, length, List.length_replicate]
    decide
  have accepted := (checkCertifyData_iff whole).mpr carried
  refine ⟨accepted, ?_, ?_⟩
  · rw [checkCertifyData_count accepted, count, BitVec.add_sub_cancel]
  · intro response responseWhole
    rw [checkCertifyData_iff responseWhole, carried]

end CCertifyData

end ProjectPl
