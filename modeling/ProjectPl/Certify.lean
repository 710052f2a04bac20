import ProjectPl.CertifyCore
import ProjectPl.Lib.SixBit

/-!
The challenge of `CCertifyData`. The ten tables are alphabets, so `Convert` and `Recover` undo
each other on the bytes that carry the string, whatever the sign of the chars on the way; a
client that decodes the challenge has the one response that is accepted.
-/

namespace ProjectPl

namespace Certify

open SixBit

theorem tables_distinct : ∀ idx : Fin 10, distinctFrom 0 (certifyConvertTableInit idx) = true := by
  decide +kernel

def alphabet (idx : Fin 10) : Alphabet :=
  { letters := certifyConvertTableInit idx
    size := by rw [certifyConvertTableInit, List.length_map, List.length_range]
    distinct := (distinctFrom_nodup (tables_distinct idx)).1 }

/-! What is left of a char, byte by byte. A shifted part and what fits below it make a sum. -/

theorem ofNat_or {high low shift : Nat} (below : low < 2 ^ shift) :
    UInt8.ofNat (high * 2 ^ shift) ||| UInt8.ofNat low = UInt8.ofNat (high * 2 ^ shift + low) := by
  rw [← Nat.shiftLeft_eq, Nat.shiftLeft_add_eq_or_of_lt below, UInt8.ofNat_or]

theorem toChar_or (first second : BitVec 32) :
    toChar (first ||| second) = toChar first ||| toChar second := by
  rw [toChar, BitVec.setWidth_or]
  rfl

theorem top_six : ∀ byte : BitVec 8,
    toChar ((promote ⟨byte⟩ &&& 0xFC).sshiftRight 2) = UInt8.ofNat (byte.toNat / 4) := by
  decide

theorem low_two : ∀ byte : BitVec 8,
    toChar ((promote ⟨byte⟩ &&& 0x03) <<< 4) = UInt8.ofNat (byte.toNat % 4 * 2 ^ 4) := by
  decide

theorem top_four : ∀ byte : BitVec 8,
    toChar ((promote ⟨byte⟩ &&& 0xF0).sshiftRight 4) = UInt8.ofNat (byte.toNat / 16) := by
  decide

theorem low_four : ∀ byte : BitVec 8,
    toChar ((promote ⟨byte⟩ &&& 0x0F) <<< 2) = UInt8.ofNat (byte.toNat % 16 * 2 ^ 2) := by
  decide

theorem top_two : ∀ byte : BitVec 8,
    toChar ((promote ⟨byte⟩ &&& 0xC0).sshiftRight 6) = UInt8.ofNat (byte.toNat / 64) := by
  decide

theorem low_six : ∀ byte : BitVec 8,
    toChar (promote ⟨byte⟩ &&& 0x3F) = UInt8.ofNat (byte.toNat % 64) := by
  decide

theorem encDigits_eq (first second third : UInt8) :
    encDigits first second third =
      (split first.toNat second.toNat third.toNat).map UInt8.ofNat := by
  obtain ⟨first⟩ := first
  obtain ⟨second⟩ := second
  obtain ⟨third⟩ := third
  have middle : second.toNat / 16 < 2 ^ 4 := by
    have small := second.isLt
    omega
  have last : third.toNat / 64 < 2 ^ 2 := by
    have small := third.isLt
    omega
  simp only [encDigits, split, List.map_cons, List.map_nil, toChar_or, top_six, low_two, top_four,
    low_four, top_two, low_six]
  rw [ofNat_or middle, ofNat_or last]
  rfl

/-- Digits are below 64, where a char and its value are the same. -/
theorem shifted_digit : ∀ digit : Fin 64,
    toChar (promote (UInt8.ofNat digit) <<< 2) = UInt8.ofNat (digit * 2 ^ 2) ∧
      toChar (promote (UInt8.ofNat digit) <<< 4) = UInt8.ofNat (digit % 16 * 2 ^ 4) ∧
      toChar (promote (UInt8.ofNat digit) <<< 6) = UInt8.ofNat (digit % 4 * 2 ^ 6) ∧
      toChar ((promote (UInt8.ofNat digit)).sshiftRight 4) = UInt8.ofNat (digit / 16) ∧
      toChar ((promote (UInt8.ofNat digit)).sshiftRight 2) = UInt8.ofNat (digit / 4) ∧
      toChar (promote (UInt8.ofNat digit)) = UInt8.ofNat digit ∧
      (promote (UInt8.ofNat digit)).toNat = digit := by
  decide

theorem decChars_eq (first second third fourth : Fin 64) :
    decChars (UInt8.ofNat first) (UInt8.ofNat second) (UInt8.ofNat third) (UInt8.ofNat fourth) =
      (join first second third fourth).map UInt8.ofNat := by
  obtain ⟨first2, -, -, -, -, -, -⟩ := shifted_digit first
  obtain ⟨-, second4, -, secondHigh, -, -, -⟩ := shifted_digit second
  obtain ⟨-, -, third6, -, thirdHigh, -, -⟩ := shifted_digit third
  obtain ⟨-, -, -, -, -, fourth0, -⟩ := shifted_digit fourth
  have low1 : (second : Nat) / 16 < 2 ^ 2 := by omega
  have low2 : (third : Nat) / 4 < 2 ^ 4 := by omega
  have low3 : (fourth : Nat) < 2 ^ 6 := fourth.isLt
  simp only [decChars, join, List.map_cons, List.map_nil, toChar_or, first2, second4, secondHigh,
    third6, thirdHigh, fourth0]
  rw [ofNat_or low1, ofNat_or low2, ofNat_or low3]
  rfl

theorem tableAt_digit (idx : Fin 10) {digit : Nat} (bound : digit < 64) :
    tableAt (certifyConvertTableInit idx) (UInt8.ofNat digit) = (alphabet idx).letter digit := by
  obtain ⟨-, -, -, -, -, -, value⟩ := shifted_digit ⟨digit, bound⟩
  rw [tableAt, value]
  rfl

theorem searchTable_letter (idx : Fin 10) {letter : UInt8}
    (known : letter ∈ certifyConvertTableInit idx) :
    searchTable (certifyConvertTableInit idx) letter =
      UInt8.ofNat ((alphabet idx).digit letter) := by
  have size : (certifyConvertTableInit idx).length = 64 := (alphabet idx).size
  have bound : (certifyConvertTableInit idx).idxOf letter < 64 := (alphabet idx).digit_lt known
  have found : (List.range 64).find?
      (fun nEncKey => letter = (certifyConvertTableInit idx).getD nEncKey 0) =
        some ((certifyConvertTableInit idx).idxOf letter) := by
    rw [List.find?_range_eq_some]
    refine ⟨?_, List.mem_range.mpr bound, ?_⟩
    · exact decide_eq_true ((alphabet idx).letter_digit known).symm
    · intro earlier before
      have inside : earlier < 64 := by omega
      have same := (alphabet idx).digit_letter inside
      simp only [decide_eq_false_iff_not, Bool.not_eq_true']
      intro equal
      rw [equal] at before
      exact absurd same (Nat.ne_of_gt before)
  rw [searchTable, found]
  rfl

/-! The loops run over whole groups, so they are the library's coding of what they read. -/

def text (count : Nat) (bytes : Nat → UInt8) : List UInt8 := (List.range count).map bytes

@[simp] theorem text_length (count : Nat) (bytes : Nat → UInt8) :
    (text count bytes).length = count := by
  rw [text, List.length_map, List.length_range]

theorem mem_text {count : Nat} {bytes : Nat → UInt8} {byte : UInt8} :
    byte ∈ text count bytes ↔ ∃ place < count, bytes place = byte := by
  simp [text]

theorem text_succ_group (count size : Nat) (bytes : Nat → UInt8) :
    text (size * (count + 1)) bytes =
      text (size * count) bytes ++ (List.range size).map fun place => bytes (size * count + place) := by
  rw [text, Nat.mul_succ, List.range_add, List.map_append, List.map_map]
  rfl

theorem encGroups_eq (idx : Fin 10) (bytes : Nat → UInt8) (count : Nat) :
    (List.range' 0 count 3).flatMap (fun offset =>
        (encDigits (bytes offset) (bytes (offset + 1)) (bytes (offset + 2))).map
          (tableAt (certifyConvertTableInit idx))) =
      (alphabet idx).encode (text (3 * count) bytes) := by
  induction count with
  | zero => rfl
  | succ count ih =>
      have group : ∀ first second third : UInt8,
          (encDigits first second third).map (tableAt (certifyConvertTableInit idx)) =
            (alphabet idx).encode [first, second, third] := by
        intro first second third
        have bounds := split_lt first.toNat_lt second.toNat_lt third.toNat_lt
        rw [encDigits_eq, List.map_map, Alphabet.encode, Alphabet.encode, List.append_nil]
        · exact List.map_congr_left fun digit member => tableAt_digit idx (bounds digit member)
        · simp
      have whole : 3 ∣ (text (3 * count) bytes).length := by simp
      rw [List.range'_concat, List.flatMap_append, ih, text_succ_group,
        Alphabet.encode_append _ whole, List.flatMap_singleton, group, Nat.zero_add]
      rfl

theorem decGroups_eq (idx : Fin 10) (bytes : Nat → UInt8) (count : Nat)
    (known : ∀ letter ∈ text (4 * count) bytes, letter ∈ certifyConvertTableInit idx) :
    (List.range' 0 count 4).flatMap (fun offset =>
        decChars (searchTable (certifyConvertTableInit idx) (bytes offset))
          (searchTable (certifyConvertTableInit idx) (bytes (offset + 1)))
          (searchTable (certifyConvertTableInit idx) (bytes (offset + 2)))
          (searchTable (certifyConvertTableInit idx) (bytes (offset + 3)))) =
      (alphabet idx).decode (text (4 * count) bytes) := by
  induction count with
  | zero => rfl
  | succ count ih =>
      have read : ∀ place < 4 * (count + 1), bytes place ∈ certifyConvertTableInit idx :=
        fun place inside => known _ (mem_text.mpr ⟨place, inside, rfl⟩)
      have earlier : ∀ letter ∈ text (4 * count) bytes, letter ∈ certifyConvertTableInit idx := by
        intro letter member
        obtain ⟨place, inside, rfl⟩ := mem_text.mp member
        exact read place (by omega)
      have whole : 4 ∣ (text (4 * count) bytes).length := by simp
      have first := read (4 * count) (by omega)
      have second := read (4 * count + 1) (by omega)
      have third := read (4 * count + 2) (by omega)
      have fourth := read (4 * count + 3) (by omega)
      have digits := decChars_eq ⟨_, (alphabet idx).digit_lt first⟩
        ⟨_, (alphabet idx).digit_lt second⟩ ⟨_, (alphabet idx).digit_lt third⟩
        ⟨_, (alphabet idx).digit_lt fourth⟩
      have group : decChars (searchTable (certifyConvertTableInit idx) (bytes (4 * count)))
          (searchTable (certifyConvertTableInit idx) (bytes (4 * count + 1)))
          (searchTable (certifyConvertTableInit idx) (bytes (4 * count + 2)))
          (searchTable (certifyConvertTableInit idx) (bytes (4 * count + 3))) =
            (alphabet idx).decode [bytes (4 * count), bytes (4 * count + 1),
              bytes (4 * count + 2), bytes (4 * count + 3)] := by
        rw [searchTable_letter idx first, searchTable_letter idx second,
          searchTable_letter idx third, searchTable_letter idx fourth, digits, Alphabet.decode,
          Alphabet.decode, List.append_nil]
        simp
      rw [List.range'_concat, List.flatMap_append, ih earlier, text_succ_group,
        Alphabet.decode_append _ whole, List.flatMap_singleton, Nat.zero_add, group]
      rfl

theorem encBuffer_eq (idx : Fin 10) (bytes : Nat → UInt8) :
    encBuffer (certifyConvertTableInit idx) bytes = (alphabet idx).encode (text maxStringLen bytes) :=
  encGroups_eq idx bytes 20

theorem decBuffer_eq (idx : Fin 10) (bytes : Nat → UInt8)
    (known : ∀ letter ∈ text maxConvertBufferLen bytes, letter ∈ certifyConvertTableInit idx) :
    decBuffer (certifyConvertTableInit idx) bytes =
      (alphabet idx).decode (text maxConvertBufferLen bytes) :=
  decGroups_eq idx bytes 20 known

theorem encoded_length (idx : Fin 10) (bytes : Nat → UInt8) :
    ((alphabet idx).encode (text maxStringLen bytes)).length = maxConvertBufferLen := by
  have whole : 3 ∣ (text maxStringLen bytes).length := by simp [maxStringLen]
  rw [(alphabet idx).encode_length whole, text_length]
  rfl

theorem decoded_length (idx : Fin 10) (bytes : Nat → UInt8) :
    ((alphabet idx).decode (text maxConvertBufferLen bytes)).length = maxStringLen := by
  have whole : 4 ∣ (text maxConvertBufferLen bytes).length := by simp [maxConvertBufferLen]
  rw [(alphabet idx).decode_length whole, text_length]
  rfl

/-! Buffers copied to and from memory. -/

theorem copied_eq {buffer : List UInt8} (fits : buffer.length ≤ maxConvertBufferLen) :
    copied buffer = buffer ++ List.replicate (maxConvertBufferLen - buffer.length) 0 := by
  rw [copied, List.take_append, List.take_of_length_le fits, List.take_replicate]
  congr 2
  omega

theorem copied_length (buffer : List UInt8) : (copied buffer).length = maxConvertBufferLen := by
  simp [copied, maxConvertBufferLen]

theorem load_zero (memory : Memory) (size : Nat) : memory.load 0 size = text size memory.bytes := by
  simp only [Memory.load, text, Nat.zero_add]

theorem text_store {memory : Memory} {data : List UInt8} {size : Nat} (inside : size ≤ data.length) :
    text size (memory.store 0 data).bytes = data.take size := by
  apply List.ext_getElem
  · simp [inside]
  · intro place textBound dataBound
    rw [text_length] at textBound
    have placeBound : place < data.length := by omega
    simp [text, Memory.store, placeBound]

end Certify

open Certify

namespace CCertifyData

theorem convert_text (data : CCertifyData) (idx : Fin 10) :
    text maxConvertBufferLen (data.convert certifyConvertTableInit idx).1.szString.bytes =
      (alphabet idx).encode (text maxStringLen data.szString.bytes) := by
  have length := encoded_length idx data.szString.bytes
  simp only [convert]
  rw [encBuffer_eq, text_store (copied_length _).ge, List.take_of_length_le (copied_length _).le,
    copied_eq length.le, length]
  simp

theorem recovered {idx : Fin 10} {bytes : Nat → UInt8}
    (known : ∀ letter ∈ text maxConvertBufferLen bytes, letter ∈ certifyConvertTableInit idx) :
    copied (decBuffer (certifyConvertTableInit idx) bytes) =
      (alphabet idx).decode (text maxConvertBufferLen bytes) ++
        List.replicate (maxConvertBufferLen - maxStringLen) 0 := by
  have length := decoded_length idx bytes
  rw [decBuffer_eq idx bytes known, copied_eq (by rw [length]; decide), length]

theorem recover_text (data : CCertifyData) (idx : Fin 10) :
    text maxConvertBufferLen (data.recover certifyConvertTableInit idx).1.szString.bytes =
      copied (decBuffer (certifyConvertTableInit idx) data.szString.bytes) := by
  simp only [recover]
  rw [text_store (copied_length _).ge, List.take_of_length_le (copied_length _).le]

/-- What decoding the result of `Convert` yields, whoever decodes it. -/
theorem recovered_converted (data : CCertifyData) (idx : Fin 10) {bytes : Nat → UInt8}
    (sent : text maxConvertBufferLen bytes =
      text maxConvertBufferLen (data.convert certifyConvertTableInit idx).1.szString.bytes) :
    copied (decBuffer (certifyConvertTableInit idx) bytes) =
      text maxStringLen data.szString.bytes ++
        List.replicate (maxConvertBufferLen - maxStringLen) 0 := by
  rw [convert_text] at sent
  have known : ∀ letter ∈ text maxConvertBufferLen bytes,
      letter ∈ certifyConvertTableInit idx := by
    rw [sent]
    exact (alphabet idx).encode_mem
  have whole : 3 ∣ (text maxStringLen data.szString.bytes).length := by simp [maxStringLen]
  rw [recovered known, sent, (alphabet idx).decode_encode whole]

theorem certifyDataRecover_converted (data : CCertifyData) (idx : Fin 10) :
    (certifyDataRecover certifyConvertTableInit idx
      (data.convert certifyConvertTableInit idx).1.getString).1 =
        text maxStringLen data.szString.bytes ++
          List.replicate (maxConvertBufferLen - maxStringLen) 0 := by
  have sent : text maxConvertBufferLen (fun offset =>
      (data.convert certifyConvertTableInit idx).1.getString.getD offset 0) =
        text maxConvertBufferLen (data.convert certifyConvertTableInit idx).1.szString.bytes := by
    rw [getString, load_zero]
    apply List.map_congr_left
    intro place inside
    have bound : place < maxConvertBufferLen := List.mem_range.mp inside
    simp [text, bound]
  have same := recovered_converted data idx sent
  simp only [certifyDataRecover]
  rw [same]

/-- `Convert` and `Recover` undo each other: over the bytes of the string one way around, and
over text of the table's letters the other. -/
theorem convert_recover_inverse (data : CCertifyData) (idx : Fin 10) :
    ((data.convert certifyConvertTableInit idx).1.recover
        certifyConvertTableInit idx).1.getString =
          data.szString.load 0 maxStringLen ++
            List.replicate (maxConvertBufferLen - maxStringLen) 0 ∧
      (certifyDataRecover certifyConvertTableInit idx
        (data.convert certifyConvertTableInit idx).1.getString).1 =
          data.szString.load 0 maxStringLen ++
            List.replicate (maxConvertBufferLen - maxStringLen) 0 ∧
      ((∀ letter ∈ data.getString, letter ∈ certifyConvertTableInit idx) →
        ((data.recover certifyConvertTableInit idx).1.convert
          certifyConvertTableInit idx).1.getString = data.getString) := by
  refine ⟨?_, ?_, ?_⟩
  · rw [getString, load_zero, load_zero, recover_text]
    exact recovered_converted data idx rfl
  · rw [load_zero]
    exact certifyDataRecover_converted data idx
  · simp only [getString, load_zero]
    intro known
    have whole : 4 ∣ (text maxConvertBufferLen data.szString.bytes).length := by
      simp [maxConvertBufferLen]
    have length := decoded_length idx data.szString.bytes
    have carried : text maxStringLen
        (data.recover certifyConvertTableInit idx).1.szString.bytes =
          (alphabet idx).decode (text maxConvertBufferLen data.szString.bytes) := by
      simp only [recover]
      rw [text_store (by rw [copied_length]; decide), recovered known,
        List.take_append_of_le_length length.ge, List.take_of_length_le length.le]
    rw [convert_text, carried, (alphabet idx).encode_decode whole known]

end CCertifyData

end ProjectPl
