import ProjectPl.Buffer
import ProjectPl.PacketCore
import ProjectPl.Serializer

/-!
What framing and dispatch do, in terms of byte lists: the head that `MakeNetworkPacket`
writes is the head that `ParseNetworkData` reads, and a payload that packs a registered
packet class reaches the handler of that class.
-/

namespace ProjectPl

open Ring LittleEndian

theorem parseNetworkData_eq (buffer : CircleBuffer) (packetLength : Nat) :
    parseNetworkData buffer packetLength =
      if buffer.contents.length < sizeofPacketHead then (.pending, packetLength)
      else if packetCheckHeadKey ≠ checkHead (buffer.contents.take sizeofPacketHead) then
        (.invalidPacket, packetLength)
      else if buffer.contents.length < headLength (buffer.contents.take sizeofPacketHead) then
        (.pending, packetLength)
      else (.succ, headLength (buffer.contents.take sizeofPacketHead)) := by
  have dataSize : buffer.getDataSize = buffer.contents.length := buffer.contents_length.symm
  simp only [parseNetworkData, dataSize]
  by_cases whole : buffer.contents.length < sizeofPacketHead
  · simp only [whole, ↓reduceIte]
  · simp only [(buffer.read_accepted sizeofPacketHead (by omega)).1]

def framed (payload : List UInt8) (packetSeq packetTime : Nat) : List UInt8 :=
  encode 4 packetCheckHeadKey ++
    (encode 4 (sizeofPacketHead + payload.length + sizeofPacketTail) ++
      (payload ++ (encode 4 packetCheckTailKey ++ (encode 4 packetSeq ++ encode 4 packetTime))))

theorem framed_length (payload : List UInt8) (packetSeq packetTime : Nat) :
    (framed payload packetSeq packetTime).length =
      sizeofPacketHead + payload.length + sizeofPacketTail := by
  simp only [framed, List.length_append, encode_length, sizeofPacketHead, sizeofPacketTail]
  omega

theorem makeNetworkPacket_eq_framed (payload : List UInt8) (packetSeq packetTime : Nat)
    (fits : sizeofPacketHead + payload.length + sizeofPacketTail ≤ maxPacketBufferSize) :
    makeNetworkPacket payload maxPacketBufferSize packetSeq packetTime =
      some (framed payload packetSeq packetTime) := by
  have bound : maxPacketBufferSize = 10240 := rfl
  have small : (sizeofPacketHead + payload.length + sizeofPacketTail) % 2 ^ 32 =
      sizeofPacketHead + payload.length + sizeofPacketTail := Nat.mod_eq_of_lt (by omega)
  rw [makeNetworkPacket, small, if_neg (by omega)]
  simp [framed]

theorem framed_take_head (payload : List UInt8) (packetSeq packetTime : Nat) :
    (framed payload packetSeq packetTime).take sizeofPacketHead =
      encode 4 packetCheckHeadKey ++
        encode 4 (sizeofPacketHead + payload.length + sizeofPacketTail) := by
  rw [framed, ← List.append_assoc]
  exact List.take_left' (by simp [sizeofPacketHead])

theorem framed_checkHead (payload : List UInt8) (packetSeq packetTime : Nat) :
    checkHead ((framed payload packetSeq packetTime).take sizeofPacketHead) =
      packetCheckHeadKey := by
  rw [framed_take_head, checkHead, List.take_left' (by simp)]
  exact decode_encode_of_lt (by decide)

theorem framed_headLength (payload : List UInt8) (packetSeq packetTime : Nat)
    (fits : sizeofPacketHead + payload.length + sizeofPacketTail ≤ maxPacketBufferSize) :
    headLength ((framed payload packetSeq packetTime).take sizeofPacketHead) =
      sizeofPacketHead + payload.length + sizeofPacketTail := by
  have bound : maxPacketBufferSize = 10240 := rfl
  rw [framed_take_head, headLength, List.drop_left' (by simp),
    List.take_of_length_le (by simp)]
  exact decode_encode_of_lt (by omega)

theorem framed_body (payload : List UInt8) (packetSeq packetTime : Nat) :
    ((framed payload packetSeq packetTime).drop sizeofPacketHead).take payload.length =
      payload := by
  rw [framed, ← List.append_assoc, List.drop_left' (by simp [sizeofPacketHead])]
  exact List.take_left' rfl

theorem parse_framed (buffer : CircleBuffer) (payload : List UInt8)
    (packetSeq packetTime packetLength : Nat)
    (fits : sizeofPacketHead + payload.length + sizeofPacketTail ≤ maxPacketBufferSize)
    (holds : buffer.contents = framed payload packetSeq packetTime) :
    parseNetworkData buffer packetLength =
      (.succ, (framed payload packetSeq packetTime).length) := by
  rw [parseNetworkData_eq, holds, framed_checkHead, framed_headLength payload _ _ fits,
    framed_length, if_neg (by simp [sizeofPacketHead]; omega), if_neg (by simp),
    if_neg (by omega)]

/-! The path of one frame: the receiver writes it into its ring, parses, reads it into a new
packet buffer and hands that to `MessageProcess`. -/

def deliver {Q : Type} (table : PacketTable Q) (heap : Nat → UInt8) (ring : CircleBuffer)
    (frame : List UInt8) : Option (Dispatch Q) :=
  if ring.getEmptySize < frame.length then none
  else
    let filled := (ring.write frame).1
    match parseNetworkData filled 0 with
    | (.succ, length) =>
        some (table.messageProcess (store heap 0 (filled.read length).response.copied) length)
    | _ => none

theorem load_store_slice (heap : Nat → UInt8) (bytes : List UInt8) (start count : Nat)
    (inside : start + count ≤ bytes.length) :
    load (store heap 0 bytes) start count = (bytes.drop start).take count := by
  have whole := load_store heap 0 bytes
  have cut : bytes.length = start + (count + (bytes.length - start - count)) := by omega
  have split := whole
  rw [cut, load_add, load_add] at split
  conv_rhs => rw [← split]
  rw [List.drop_left' (by simp), List.take_left' (by simp), Nat.zero_add]

theorem deliver_framed {Q : Type} (table : PacketTable Q) (heap : Nat → UInt8)
    (ring : CircleBuffer) (payload : List UInt8) (packetSeq packetTime : Nat)
    (fits : sizeofPacketHead + payload.length + sizeofPacketTail ≤ maxPacketBufferSize)
    (capacity : ring.nBufferSize = maxPacketBufferSize) (empty : ring.contents = []) :
    ∃ data, deliver table heap ring (framed payload packetSeq packetTime) =
        some (table.execute data payload.length) ∧
      load data 0 payload.length = payload := by
  have dataSize : ring.nDataSize = 0 := by
    rw [← ring.contents_length, empty]
    rfl
  have frameLength := framed_length payload packetSeq packetTime
  have room : ¬ring.getEmptySize < (framed payload packetSeq packetTime).length := by
    simp only [BufferBase.getEmptySize]
    omega
  obtain ⟨written, -, -, -⟩ := ring.write_accepted (framed payload packetSeq packetTime)
    (by rw [empty, List.length_nil]; omega)
  rw [empty, List.nil_append] at written
  have readBack := ((ring.write (framed payload packetSeq packetTime)).1.read_accepted
    (framed payload packetSeq packetTime).length (by rw [written])).1
  rw [written, List.take_length] at readBack
  refine ⟨fun offset =>
    store heap 0 (framed payload packetSeq packetTime) (sizeofPacketHead + offset), ?_, ?_⟩
  · rw [deliver, if_neg room]
    dsimp only
    rw [parse_framed _ payload packetSeq packetTime 0 fits written]
    dsimp only
    rw [readBack]
    dsimp only
    rw [PacketTable.messageProcess, if_neg (by rw [frameLength]; omega)]
    have head := load_store_slice heap (framed payload packetSeq packetTime) 0 sizeofPacketHead
      (by omega)
    rw [List.drop_zero] at head
    dsimp only
    rw [head, framed_headLength payload _ _ fits]
    have bound : maxPacketBufferSize = 10240 := rfl
    have body : (sizeofPacketHead + payload.length + sizeofPacketTail + 2 ^ 32 -
        sizeofPacketHead - sizeofPacketTail) % 2 ^ 32 = payload.length := by
      have cancel : sizeofPacketHead + payload.length + sizeofPacketTail + 2 ^ 32 -
          sizeofPacketHead - sizeofPacketTail = payload.length + 2 ^ 32 := by omega
      rw [cancel, Nat.add_mod_right]
      exact Nat.mod_eq_of_lt (by omega)
    rw [body]
  · have slice := load_store_slice heap (framed payload packetSeq packetTime) sizeofPacketHead
      payload.length (by omega)
    rw [framed_body] at slice
    rw [load_shift, slice]

namespace PacketClass

variable {P Q : Type}

/-- A class carries a packet over the wire: packing appends these bytes, and unpacking them
yields the packet that the receiver sees. -/
structure Carries (cls : PacketClass P) (sent received : P) (wire : List UInt8) : Prop where
  packs : ∀ ser bytes, ser.Packs bytes → bytes.length + wire.length ≤ maxPacketBufferSize →
    (cls.serialize ser sent).1.Packs (bytes ++ wire)
  unpacks : ∀ ser, ser.Unpacks wire [] → (cls.serialize ser cls.default).2 = received
  fits : sizeofPacketHead + (4 + wire.length) + sizeofPacketTail ≤ maxPacketBufferSize

theorem Carries.sendPacket_eq {cls : PacketClass P} {sent received : P} {wire : List UInt8}
    (carries : cls.Carries sent received wire) (packetTime : Nat) :
    cls.sendPacket sent packetTime = framed (encode 4 cls.packetType ++ wire) 0 packetTime := by
  have bound : maxPacketBufferSize = 10240 := rfl
  have fits := carries.fits
  have head : (Serializer.new.valueUInt32 cls.packetType).1.Packs (encode 4 cls.packetType) :=
    (Serializer.scalar_packs 4 (encode 4) decode Serializer.new_packs cls.packetType
      (by simp; omega)).1
  have packed := carries.packs _ _ head (by simp; omega)
  have bytes : load (cls.pack sent).pBuffer 0 (cls.pack sent).getDataSize =
      encode 4 cls.packetType ++ wire := by
    have size : (cls.pack sent).getDataSize = (encode 4 cls.packetType ++ wire).length := packed.size
    rw [size]
    exact packed.packed
  simp only [sendPacket, bytes]
  rw [makeNetworkPacket_eq_framed _ _ _ (by simpa using fits)]

/-- A carried packet arrives at the handler registered for its class, once, whatever the
offset of the receiver's empty ring. -/
theorem Carries.arrives {cls : PacketClass P} {sent received : P} {wire : List UInt8}
    (carries : cls.Carries sent received wire) {table : PacketTable Q} {handler : P → Q}
    (registered : table[cls.packetType]? =
      some (some fun data length => handler (cls.unpack data length).2))
    (typeBound : cls.packetType < 256 ^ 4) (packetTime : Nat) (heap : Nat → UInt8)
    (ring : CircleBuffer) (capacity : ring.nBufferSize = maxPacketBufferSize)
    (empty : ring.contents = []) :
    deliver table heap ring (cls.sendPacket sent packetTime) =
      some (.invoked (handler received)) := by
  have bound : maxPacketBufferSize = 10240 := rfl
  have fits := carries.fits
  obtain ⟨data, delivered, payload⟩ := deliver_framed table heap ring
    (encode 4 cls.packetType ++ wire) 0 packetTime (by simpa using fits) capacity empty
  rw [carries.sendPacket_eq, delivered]
  have start := Serializer.ofData_unpacks data (encode 4 cls.packetType ++ wire).length
  rw [if_pos (by simp; omega), payload] at start
  have typeRead (initial : Nat) := Serializer.scalar_unpacks 4 (encode 4) decode start initial
    (by simp)
  have packetType : ((Serializer.ofData data
      (encode 4 cls.packetType ++ wire).length).valueUInt32 0).2 = cls.packetType :=
    (typeRead 0).2.trans (decode_encode_of_lt typeBound)
  have body : (cls.unpack data (encode 4 cls.packetType ++ wire).length).2 = received :=
    carries.unpacks _ (typeRead cls.packetType).1
  simp only [PacketTable.execute, packetType, registered, body]

end PacketClass

end ProjectPl
