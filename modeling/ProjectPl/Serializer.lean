import ProjectPl.SerializerCore

/-!
The two views of a serializer: a sending one stands for the bytes packed so far, a reading
one for the bytes still to unpack. Each `Value` call has one lemma for each view, and the
packet layer argues in these terms only.
-/

namespace ProjectPl

open Ring LittleEndian

namespace Serializer

structure Packs (ser : Serializer) (bytes : List UInt8) : Prop where
  sending : ser.forSend = true
  capacity : ser.nBufferSize = maxPacketBufferSize
  cursor : ser.pWrite = bytes.length
  size : ser.nDataSize = bytes.length
  packed : load ser.pBuffer 0 bytes.length = bytes

structure Unpacks (ser : Serializer) (bytes : List UInt8) (stores : List Nat) : Prop where
  reading : ser.forSend = false
  size : ser.nDataSize = bytes.length
  left : load ser.pBuffer ser.pRead bytes.length = bytes
  stored : ser.stores = stores

theorem new_packs : new.Packs [] :=
  ⟨rfl, rfl, rfl, rfl, rfl⟩

theorem write_packs {ser : Serializer} {bytes : List UInt8} (packs : ser.Packs bytes)
    (values : List UInt8) (room : bytes.length + values.length ≤ maxPacketBufferSize) :
    (ser.setBuffer (ser.toBufferBase.write values).1).Packs
      (bytes ++ values) := by
  obtain ⟨sending, capacity, cursor, size, packed⟩ := packs
  have accepted : ¬ser.getEmptySize < values.length := by
    simp only [BufferBase.getEmptySize]
    omega
  simp only [BufferBase.write, accepted, ↓reduceIte]
  refine ⟨sending, capacity, ?_, ?_, ?_⟩
  · simp [setBuffer, cursor]
  · simp [setBuffer, size]
  · have kept : load (store ser.pBuffer ser.pWrite values) 0 bytes.length = bytes := by
      rw [← packed]
      simp only [load_length]
      apply load_congr
      intro offset below
      exact store_outside _ _ _ _ (Or.inl (by omega))
    have added : load (store ser.pBuffer ser.pWrite values) (0 + bytes.length) values.length =
        values := by
      rw [cursor, Nat.zero_add]
      exact load_store _ _ _
    dsimp only [setBuffer]
    rw [List.length_append, load_add, kept, added]

theorem read_unpacks {ser : Serializer} {chunk rest : List UInt8} {stores : List Nat}
    (unpacks : ser.Unpacks (chunk ++ rest) stores) :
    ∃ buffer code, ser.toBufferBase.read chunk.length = (buffer, code, some chunk) ∧
      (ser.setBuffer buffer).Unpacks rest stores := by
  obtain ⟨reading, size, left, stored⟩ := unpacks
  rw [List.length_append] at size left
  have enough : ¬ser.getDataSize < chunk.length := by
    simp only [BufferBase.getDataSize]
    omega
  rw [load_add] at left
  obtain ⟨here, later⟩ := List.append_inj left (by simp)
  simp only [BufferBase.read, enough, ↓reduceIte, here]
  refine ⟨_, _, rfl, reading, ?_, later, stored⟩
  simp only [setBuffer]
  omega

theorem read_short {ser : Serializer} {bytes : List UInt8} {stores : List Nat}
    (unpacks : ser.Unpacks bytes stores) {len : Nat} (short : bytes.length < len) :
    ser.toBufferBase.read len = (ser.toBufferBase, ulongMinusOne, none) := by
  have refused : ser.getDataSize < len := by
    simpa only [BufferBase.getDataSize, unpacks.size] using short
  simp only [BufferBase.read, refused, ↓reduceIte]

theorem ofData_unpacks (src : Nat → UInt8) (length : Nat) :
    (ofData src length).Unpacks
      (if length ≤ maxPacketBufferSize then load src 0 length else []) [] := by
  have empty : (BufferBase.new maxPacketBufferSize (fun _ => 0)).getEmptySize =
      maxPacketBufferSize := rfl
  by_cases fits : length ≤ maxPacketBufferSize
  · rw [if_pos fits]
    have accepted : ¬maxPacketBufferSize < length := by omega
    have source : (load src 0 length).length = length := load_length _ _ _
    have stored := load_store (fun _ => 0) 0 (load src 0 length)
    simp only [ofData, BufferBase.write, empty, accepted, source, ↓reduceIte]
    refine ⟨rfl, ?_, ?_, rfl⟩
    · simp [BufferBase.new]
    · simpa only [source, BufferBase.new] using stored
  · rw [if_neg fits]
    have refused : maxPacketBufferSize < length := by omega
    simp only [ofData, empty, refused, ↓reduceIte]
    exact ⟨rfl, rfl, rfl, rfl⟩

section Scalar

variable {V : Type} (width : Nat) (encode : V → List UInt8) (decode : List UInt8 → V)

theorem scalar_packs {ser : Serializer} {bytes : List UInt8} (packs : ser.Packs bytes) (value : V)
    (room : bytes.length + (encode value).length ≤ maxPacketBufferSize) :
    (ser.scalar width encode decode value).1.Packs (bytes ++ encode value) ∧
      (ser.scalar width encode decode value).2 = value := by
  rw [scalar, if_pos packs.sending]
  exact ⟨write_packs packs (encode value) room, rfl⟩

theorem scalar_unpacks {ser : Serializer} {chunk rest : List UInt8} {stores : List Nat}
    (unpacks : ser.Unpacks (chunk ++ rest) stores) (value : V) (whole : chunk.length = width) :
    (ser.scalar width encode decode value).1.Unpacks rest stores ∧
      (ser.scalar width encode decode value).2 = decode chunk := by
  subst whole
  obtain ⟨buffer, code, copied, next⟩ := read_unpacks unpacks
  rw [scalar, if_neg (by simp [unpacks.reading]), copied]
  exact ⟨next, rfl⟩

theorem scalar_short {ser : Serializer} {bytes : List UInt8} {stores : List Nat}
    (unpacks : ser.Unpacks bytes stores) (value : V) (short : bytes.length < width) :
    ser.scalar width encode decode value = (ser, value) := by
  rw [scalar, if_neg (by simp [unpacks.reading]), read_short unpacks short]
  rfl

/-- A reading call takes its width from the front of the bytes left. When fewer are left it
takes nothing, and the value keeps what it was. -/
theorem scalar_read {ser : Serializer} {bytes : List UInt8} {stores : List Nat}
    (unpacks : ser.Unpacks bytes stores) (value : V) :
    (ser.scalar width encode decode value).1.Unpacks
        (if width ≤ bytes.length then bytes.drop width else bytes) stores ∧
      (ser.scalar width encode decode value).2 =
        if width ≤ bytes.length then decode (bytes.take width) else value := by
  by_cases whole : width ≤ bytes.length
  · rw [if_pos whole, if_pos whole]
    rw [← List.take_append_drop width bytes] at unpacks
    exact scalar_unpacks width encode decode unpacks value (List.length_take_of_le whole)
  · rw [if_neg whole, if_neg whole, scalar_short width encode decode unpacks value (by omega)]
    exact ⟨unpacks, rfl⟩

end Scalar

theorem sizeOfInt_of_nonneg {len : Int} (lower : 0 ≤ len) (upper : len < 2 ^ 64) :
    sizeOfInt len = len.toNat := by
  rw [sizeOfInt, Int.emod_eq_of_lt lower upper]

/-- A sending call appends its bytes where there is room for all of them, and else nothing. -/
theorem valueBytes_packs_load {ser : Serializer} {bytes : List UInt8} (packs : ser.Packs bytes)
    (pData : List UInt8) (len : Int) (fits : bytes.length ≤ maxPacketBufferSize) :
    (ser.valueBytes pData len).1.Packs
      (bytes ++ if bytes.length + sizeOfInt len ≤ maxPacketBufferSize then
        load (fun offset => pData.getD offset 0) 0 (sizeOfInt len) else []) := by
  have dataSize := packs.size
  have capacity := packs.capacity
  rw [valueBytes, if_pos packs.sending, BufferBase.getEmptySize]
  by_cases room : bytes.length + sizeOfInt len ≤ maxPacketBufferSize
  · rw [if_neg (by omega), if_pos room]
    apply write_packs packs
    rw [load_length]
    exact room
  · rw [if_pos (by omega), if_neg room, List.append_nil]
    exact packs

theorem valueBytes_packs {ser : Serializer} {bytes : List UInt8} (packs : ser.Packs bytes)
    (pData : List UInt8) {len : Int} (lower : 0 ≤ len) (inside : len.toNat ≤ pData.length)
    (room : bytes.length + len.toNat ≤ maxPacketBufferSize) :
    (ser.valueBytes pData len).1.Packs (bytes ++ pData.take len.toNat) := by
  have bound : maxPacketBufferSize = 10240 := rfl
  have size : sizeOfInt len = len.toNat := sizeOfInt_of_nonneg lower (by omega)
  have packed := valueBytes_packs_load packs pData len (by omega)
  rwa [size, if_pos room, load_getD pData 0 inside] at packed

theorem valueBytes_unpacks {ser : Serializer} {chunk rest : List UInt8} {stores : List Nat}
    (unpacks : ser.Unpacks (chunk ++ rest) stores) (pData : List UInt8) {len : Int}
    (whole : sizeOfInt len = chunk.length) :
    (ser.valueBytes pData len).1.Unpacks rest (stores ++ List.range chunk.length) ∧
      (ser.valueBytes pData len).2 = chunk ++ pData.drop chunk.length := by
  obtain ⟨buffer, code, copied, next⟩ := read_unpacks unpacks
  rw [valueBytes, if_neg (by simp [unpacks.reading]), whole, copied]
  refine ⟨⟨next.reading, next.size, next.left, ?_⟩, rfl⟩
  simp only [unpacks.stored]

theorem valueBytes_short {ser : Serializer} {bytes : List UInt8} {stores : List Nat}
    (unpacks : ser.Unpacks bytes stores) (pData : List UInt8) {len : Int}
    (short : bytes.length < sizeOfInt len) : ser.valueBytes pData len = (ser, pData) := by
  rw [valueBytes, if_neg (by simp [unpacks.reading]), read_short unpacks short]
  rfl

end Serializer

end ProjectPl
