import ProjectPl.Certify

/-!
`Encrypt` and the check of a response. A pass of `Encrypt` is an exclusive or with the key's
bytes over and over, up to the end of the last block that starts inside the 80 bytes. That end is
the end of the buffer just for the lengths that divide 80. The keys of the challenge do.
-/

namespace ProjectPl

namespace Certify

/-! A pass, for any stride and any bytes to combine with. -/

/-- A block is combined with the bytes of the pad, one by one. -/
def Combines (change : List UInt8 → List UInt8) (pad : List UInt8) : Prop :=
  ∀ buffer : List UInt8, buffer.length = pad.length →
    change buffer = List.zipWith (· ^^^ ·) buffer pad

section Pass

variable {change : List UInt8 → List UInt8} {pad : List UInt8}

theorem change_bytes (combines : Combines change pad) (memory : Memory) (offset place : Nat) :
    (memory.change change pad.length offset).bytes place =
      if offset ≤ place ∧ place < offset + pad.length then
        memory.bytes place ^^^ pad.getD (place - offset) 0
      else memory.bytes place := by
  have loaded : (memory.load offset pad.length).length = pad.length := by
    rw [Memory.load, List.length_map, List.length_range]
  have block := combines _ loaded
  simp only [Memory.change, Memory.store, block, List.length_zipWith, loaded, Nat.min_self]
  split
  next inside =>
    obtain ⟨lower, upper⟩ := inside
    have bound : place - offset < pad.length := by omega
    have same : offset + (place - offset) = place := by omega
    simp [Memory.load, bound, same]
  next => rfl

theorem mem_change_accessed (memory : Memory) (size offset place : Nat) :
    place ∈ (memory.change change size offset).accessed ↔
      place ∈ memory.accessed ∨ offset ≤ place ∧ place < offset + size := by
  simp only [Memory.change, List.mem_append, List.mem_range'_1]
  tauto

theorem blocks_bytes (combines : Combines change pad) (memory : Memory) (count place : Nat) :
    ((List.range' 0 count pad.length).foldl
        (fun current offset => current.change change pad.length offset) memory).bytes place =
      if place < pad.length * count then
        memory.bytes place ^^^ pad.getD (place % pad.length) 0
      else memory.bytes place := by
  induction count with
  | zero => simp
  | succ count ih =>
      rw [List.range'_concat, List.foldl_append, List.foldl_cons, List.foldl_nil,
        change_bytes combines, ih, Nat.zero_add, Nat.mul_succ]
      by_cases earlier : place < pad.length * count
      · rw [if_neg (by omega), if_pos earlier, if_pos (by omega)]
      · by_cases now : place < pad.length * count + pad.length
        · have rest : place % pad.length = place - pad.length * count := by
            rw [Nat.mod_eq_sub_mul_div]
            congr 2
            exact Nat.div_eq_of_lt_le (by rw [Nat.mul_comm]; omega)
              (by rw [Nat.mul_comm, Nat.mul_succ]; omega)
          rw [if_pos ⟨by omega, now⟩, if_neg earlier, if_pos now, rest]
        · rw [if_neg (by omega), if_neg earlier, if_neg now]

theorem mem_blocks_accessed (memory : Memory) (size count place : Nat) :
    place ∈ ((List.range' 0 count size).foldl
        (fun current offset => current.change change size offset) memory).accessed ↔
      place ∈ memory.accessed ∨ place < size * count := by
  induction count with
  | zero => simp
  | succ count ih =>
      rw [List.range'_concat, List.foldl_append, List.foldl_cons, List.foldl_nil,
        mem_change_accessed, ih, Nat.zero_add, Nat.mul_succ, or_assoc]
      apply or_congr_right
      omega

end Pass

def reach (stride : Nat) : Nat := stride * ((maxConvertBufferLen + stride - 1) / stride)

/-! The bytes that the three overloads combine with. A string that is empty, or so long that
its length is negative as an `int`, has none. -/

def EncKey.stride : EncKey → Nat
  | .int32 _ => 4
  | .int64 _ => 8
  | .string pszEncString => (min pszEncString.intLength maxEncStringLen).toNat

def EncKey.pad : EncKey → List UInt8
  | .int32 nEncKey => LittleEndian.encode 4 nEncKey.toNat
  | .int64 ulEncKey => LittleEndian.encode 8 ulEncKey.toNat
  | .string pszEncString =>
      pszEncString.chars.take (min pszEncString.intLength maxEncStringLen).toNat

theorem intLength_le (string : CString) : string.intLength ≤ string.chars.length := by
  rw [CString.intLength, DotNet.int32, Int.bmod]
  split
  · omega
  · omega

theorem pad_length (key : EncKey) : key.pad.length = key.stride := by
  cases key with
  | int32 nEncKey => exact LittleEndian.encode_length _ _
  | int64 ulEncKey => exact LittleEndian.encode_length _ _
  | string pszEncString =>
      have bound := intLength_le pszEncString
      rw [EncKey.pad, EncKey.stride, List.length_take]
      omega

theorem xorInteger_combines (size key : Nat) (bound : key < 256 ^ size) :
    Combines (xorInteger size key) (LittleEndian.encode size key) := by
  intro buffer length
  rw [LittleEndian.encode_length] at length
  exact LittleEndian.encode_xor length bound

theorem zipWith_take {buffer : List UInt8} {size : Nat} (length : buffer.length = size)
    (chars : List UInt8) :
    List.zipWith (· ^^^ ·) buffer chars = List.zipWith (· ^^^ ·) buffer (chars.take size) := by
  induction buffer generalizing size chars with
  | nil => rfl
  | cons byte rest ih =>
      cases chars with
      | nil => rw [List.take_nil]
      | cons char chars =>
          rw [← length, List.length_cons, List.take_succ_cons, List.zipWith_cons_cons,
            List.zipWith_cons_cons, ih rfl chars]

theorem encrypt_eq (memory : Memory) (key : EncKey) :
    ∃ change, Combines change key.pad ∧
      encrypt memory key = encryptLoop key.pad.length change memory := by
  cases key with
  | int32 nEncKey =>
      have bound : nEncKey.toNat < 256 ^ 4 := nEncKey.isLt.trans_eq (by norm_num)
      refine ⟨_, xorInteger_combines 4 _ bound, ?_⟩
      rw [pad_length]
      rfl
  | int64 ulEncKey =>
      have bound : ulEncKey.toNat < 256 ^ 8 := ulEncKey.isLt.trans_eq (by norm_num)
      refine ⟨_, xorInteger_combines 8 _ bound, ?_⟩
      rw [pad_length]
      rfl
  | string pszEncString =>
      refine ⟨fun buffer => List.zipWith (· ^^^ ·) buffer pszEncString.chars, ?_, ?_⟩
      · intro buffer length
        rw [pad_length, EncKey.stride] at length
        exact zipWith_take length _
      · rw [pad_length]
        simp only [encrypt, EncKey.stride]
        split
        next none =>
          have zero : (min pszEncString.intLength maxEncStringLen).toNat = 0 := by omega
          rw [zero]
          rfl
        next => rfl

theorem encrypt_bytes (memory : Memory) (key : EncKey) (place : Nat) :
    (encrypt memory key).bytes place =
      if place < reach key.stride then memory.bytes place ^^^ key.pad.getD (place % key.stride) 0
      else memory.bytes place := by
  obtain ⟨change, combines, pass⟩ := encrypt_eq memory key
  rw [pass, ← pad_length]
  exact blocks_bytes combines memory _ place

theorem mem_encrypt_accessed (memory : Memory) (key : EncKey) (place : Nat) :
    place ∈ (encrypt memory key).accessed ↔
      place ∈ memory.accessed ∨ place < reach key.stride := by
  obtain ⟨change, -, pass⟩ := encrypt_eq memory key
  rw [pass, pad_length]
  exact mem_blocks_accessed memory _ _ place

/-- `_szString` holds 81 bytes, the last of which is for the terminator. -/
structure Confined (bytes : Nat → UInt8) (key : EncKey) : Prop where
  restores : ∀ place ≤ maxConvertBufferLen,
    (encrypt (encrypt { bytes := bytes } key) key).bytes place = bytes place
  inside : ∀ place ∈ (encrypt { bytes := bytes } key).accessed, place ≤ maxConvertBufferLen
  keeps : ∀ place, maxConvertBufferLen ≤ place →
    (encrypt { bytes := bytes } key).bytes place = bytes place

/-- The length of the key, cut to ten, divides 80: it is not 3, 6, 7 or 9. -/
def EncKey.Fits : EncKey → Prop
  | .string pszEncString =>
      pszEncString.intLength ≤ 0 ∨
        min pszEncString.intLength maxEncStringLen ∣ maxConvertBufferLen
  | _ => True

theorem encrypt_restores (bytes : Nat → UInt8) (key : EncKey) (place : Nat) :
    (encrypt (encrypt { bytes := bytes } key) key).bytes place = bytes place := by
  rw [encrypt_bytes, encrypt_bytes]
  split
  next => rw [UInt8.xor_assoc, UInt8.xor_self, UInt8.xor_zero]
  next => rfl

theorem stride_le (key : EncKey) : key.stride ≤ maxEncStringLen := by
  cases key with
  | int32 nEncKey => exact (by decide : 4 ≤ maxEncStringLen)
  | int64 ulEncKey => exact (by decide : 8 ≤ maxEncStringLen)
  | string pszEncString =>
      rw [EncKey.stride]
      omega

theorem reach_of_dvd : ∀ stride ≤ maxEncStringLen, stride ∣ maxConvertBufferLen →
    reach stride = maxConvertBufferLen := by
  decide

/-- A pass that goes on past the 80 bytes ends after the terminator's place or later. -/
theorem reach_of_not_dvd : ∀ stride ≤ maxEncStringLen, stride ≠ 0 →
    ¬stride ∣ maxConvertBufferLen → maxConvertBufferLen + 1 < reach stride ∨
      reach stride = maxConvertBufferLen + 1 ∧ maxConvertBufferLen % stride = stride - 1 := by
  decide

theorem confined_of_reach {key : EncKey} (ends : reach key.stride ≤ maxConvertBufferLen)
    (bytes : Nat → UInt8) : Confined bytes key := by
  refine ⟨fun place _ => encrypt_restores bytes key place, ?_, ?_⟩
  · intro place accessed
    rcases (mem_encrypt_accessed _ key place).mp accessed with earlier | inside
    · exact absurd earlier List.not_mem_nil
    · omega
  · intro place behind
    rw [encrypt_bytes, if_neg (by omega)]

/-- The last block changes the terminator with the last char of the key, which is not zero. -/
theorem not_confined_of_terminator {string : CString} {bytes : Nat → UInt8}
    (some : (EncKey.string string).stride ≠ 0)
    (ends : reach (EncKey.string string).stride = maxConvertBufferLen + 1)
    (last : maxConvertBufferLen % (EncKey.string string).stride =
      (EncKey.string string).stride - 1) : ¬Confined bytes (.string string) := by
  intro confined
  have kept := confined.keeps maxConvertBufferLen (Nat.le_refl _)
  rw [encrypt_bytes, if_pos (by omega), last] at kept
  have length := pad_length (.string string)
  have bound : (EncKey.string string).stride - 1 < (EncKey.string string).pad.length := by omega
  have listed := List.getElem_mem bound
  rw [List.getD_eq_getElem _ _ bound] at kept
  have zero : (EncKey.string string).pad[(EncKey.string string).stride - 1] = 0 := by
    have cancelled := congrArg (bytes maxConvertBufferLen ^^^ ·) kept
    simpa [← UInt8.xor_assoc] using cancelled
  rw [zero] at listed
  exact string.terminated 0 (List.mem_of_mem_take listed) rfl

/-- `Encrypt` is an involution confined to the buffer exactly for the keys whose blocks fit. -/
theorem encrypt_confined_iff (bytes : Nat → UInt8) (key : EncKey) :
    Confined bytes key ↔ key.Fits := by
  cases key with
  | int32 nEncKey =>
      have ends : reach (EncKey.int32 nEncKey).stride ≤ maxConvertBufferLen :=
        (by decide : reach 4 ≤ maxConvertBufferLen)
      exact iff_of_true (confined_of_reach ends bytes) trivial
  | int64 ulEncKey =>
      have ends : reach (EncKey.int64 ulEncKey).stride ≤ maxConvertBufferLen :=
        (by decide : reach 8 ≤ maxConvertBufferLen)
      exact iff_of_true (confined_of_reach ends bytes) trivial
  | string pszEncString =>
      have small := stride_le (.string pszEncString)
      by_cases none : pszEncString.intLength ≤ 0
      · have zero : (EncKey.string pszEncString).stride = 0 := by
          rw [EncKey.stride]
          omega
        refine iff_of_true (confined_of_reach ?_ bytes) (Or.inl none)
        rw [zero]
        decide
      · have some : (EncKey.string pszEncString).stride ≠ 0 := by
          rw [EncKey.stride, maxEncStringLen]
          omega
        have cast : ((EncKey.string pszEncString).stride : Int) =
            min pszEncString.intLength maxEncStringLen := by
          rw [EncKey.stride]
          omega
        have divides : (EncKey.string pszEncString).Fits ↔
            (EncKey.string pszEncString).stride ∣ maxConvertBufferLen := by
          rw [EncKey.Fits, ← cast, Int.natCast_dvd_natCast]
          exact or_iff_right none
        rw [divides]
        constructor
        · intro confined
          by_contra ragged
          rcases reach_of_not_dvd _ small some ragged with beyond | ⟨ends, last⟩
          · have outside := confined.inside (maxConvertBufferLen + 1)
              ((mem_encrypt_accessed _ _ _).mpr (Or.inr beyond))
            omega
          · exact not_confined_of_terminator some ends last confined
        · intro whole
          exact confined_of_reach (reach_of_dvd _ small whole).le bytes

def abc : CString := ⟨[97, 98, 99], by simp⟩

/-- The key "abc" is combined with the terminator, the last block being one byte too long. -/
theorem abc_not_confined : ¬Confined (fun _ => 0) (.string abc) := by
  have length : abc.intLength = 3 := by
    rw [CString.intLength, DotNet.int32_of_fits (by simp [abc]) (by simp [abc])]
    rfl
  have stride : (EncKey.string abc).stride = 3 := by
    rw [EncKey.stride, length]
    decide
  apply not_confined_of_terminator
  · rw [stride]
    decide
  · rw [stride]
    decide
  · rw [stride]
    decide

end Certify

end ProjectPl
