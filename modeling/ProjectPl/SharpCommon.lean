import ProjectPl.SharpPacket

/-!
Frames of `PL_Common`. The writer puts the type and the raw body into the frame, the reader takes
the body through the `byte[]` overload of `Value`, which expects a length in front of the bytes.
What it takes for the length is the first word of the body, so the rest of the frame is read four
bytes late at the earliest.
-/

namespace ProjectPl.Sharp

open DotNet LittleEndian

/-- What `PacketDeserializer` makes of the buffer of `PacketSerializer` is the packet written. -/
def RoundTrips {T : Type} (dialect : Dialect T) (base : PacketBase T) (data : List UInt8) : Prop :=
  ∃ ser packet, packetSerializer dialect base = .ok ser ∧
    packetDeserializer dialect ser.buffer ser.buffer.length = .ok packet ∧
    packet.head.packetLength = 8 + 4 + data.length + 12 ∧
    packet.body = { packetType := base.packetType, packetData := data } ∧ packet.tail = {}

theorem plCommon_lawful {packetType : Int} (fits : FitsSigned 4 packetType) :
    Dialect.plCommon.Lawful packetType :=
  ⟨encodeSigned_length 4 _, decodeSigned_encodeSigned fits⟩

/-! What the steps of a constructor that does not throw have read. -/

section Inversion

variable {T : Type} {dialect : Dialect T} {ser : Serializer}

theorem Packet.ofSerializer_inv {packet : Packet T}
    (built : Packet.ofSerializer dialect ser = .ok packet) :
    ∃ one two three, PacketHead.serialize {} ser = .ok (one, packet.head) ∧
      PacketBody.serialize dialect { packetType := dialect.noType } one
        (int32 (packet.head.packetLength - PacketHead.length - PacketTail.length)) =
          .ok (two, packet.body) ∧
      PacketTail.serialize {} two = .ok (three, packet.tail) := by
  obtain ⟨⟨one, head⟩, headRead, afterHead⟩ := bind_eq_ok built
  obtain ⟨⟨two, body⟩, bodyRead, afterBody⟩ := bind_eq_ok afterHead
  obtain ⟨⟨three, tail⟩, tailRead, returned⟩ := bind_eq_ok afterBody
  cases returned
  exact ⟨one, two, three, headRead, bodyRead, tailRead⟩

theorem PacketBody.serialize_inv {body read : PacketBody T} {next : Serializer} {bodyLength : Int}
    {size : Nat} (own : int32 (bodyLength - 4) = size)
    (done : PacketBody.serialize dialect body ser bodyLength = .ok (next, read)) :
    ∃ one, dialect.valueType ser body.packetType = .ok (one, read.packetType) ∧
      dialect.valueData one (List.replicate size 0) size = .ok (next, read.packetData) := by
  rw [PacketBody.serialize, own, newBytes_natCast, ok_bind] at done
  obtain ⟨⟨one, number⟩, numberRead, afterNumber⟩ := bind_eq_ok done
  obtain ⟨⟨two, data⟩, dataRead, returned⟩ := bind_eq_ok afterNumber
  rw [List.length_replicate] at dataRead
  cases returned
  exact ⟨one, numberRead, dataRead⟩

theorem PacketTail.serialize_inv {tail : PacketTail} {next : Serializer} {left : List UInt8}
    (reads : ser.Reads left) (done : PacketTail.serialize {} ser = .ok (next, tail)) :
    12 ≤ left.length ∧ tail.checkTail = decode (left.take 4) := by
  obtain ⟨⟨one, check⟩, checkRead, afterCheck⟩ := bind_eq_ok done
  obtain ⟨⟨two, seq⟩, seqRead, afterSeq⟩ := bind_eq_ok afterCheck
  obtain ⟨⟨three, time⟩, timeRead, returned⟩ := bind_eq_ok afterSeq
  obtain ⟨-, checkEq, oneReads⟩ := Serializer.scalar_reads_inv reads checkRead
  obtain ⟨-, -, twoReads⟩ := Serializer.scalar_reads_inv oneReads seqRead
  obtain ⟨enough, -, -⟩ := Serializer.scalar_reads_inv twoReads timeRead
  simp only [List.length_drop] at enough
  cases returned
  exact ⟨by omega, checkEq⟩

end Inversion

theorem Serializer.valueCountedBytes_inv {ser next : Serializer} {left data result : List UInt8}
    {length : Int} (reads : ser.Reads left)
    (done : ser.valueCountedBytes data length = .ok (next, result)) :
    ∃ count : Int, count = decodeSigned (left.take 4) ∧ 4 ≤ left.length ∧
      (0 ≤ count ∧ count ≤ data.length) ∧
      result = (left.drop 4).take count.toNat ++ data.drop count.toNat ∧
      next.Reads ((left.drop 4).drop count.toNat) := by
  obtain ⟨⟨one, count⟩, countRead, bytesRead⟩ := bind_eq_ok done
  obtain ⟨enough, countEq, oneReads⟩ := scalar_reads_inv reads countRead
  obtain ⟨bounds, resultEq, nextReads⟩ := valueBytes_reads_inv oneReads bytesRead
  exact ⟨count, countEq, enough, ⟨bounds.1, bounds.2.2⟩, resultEq, nextReads⟩

/-! A body that equals itself moved forward by four bytes, with zeros behind, is zero. -/

theorem zeros_of_shifted {data tail : List UInt8} {count : Nat} (room : count + 4 ≤ data.length)
    (shifted : ((data ++ tail).drop 4).take count ++ List.replicate (data.length - count) 0 = data) :
    data = List.replicate data.length 0 := by
  have inside : ((data ++ tail).drop 4).take count = (data.drop 4).take count := by
    rw [List.drop_append_of_le_length (by omega), List.take_append_of_le_length]
    rw [List.length_drop]
    omega
  rw [inside] at shifted
  have front : ((data.drop 4).take count).length = count := by
    rw [List.length_take, List.length_drop]
    omega
  -- The distance from the end bounds the number of moves to the zeros.
  have zero (distance : Nat) : ∀ idx, idx < data.length → data.length - idx ≤ distance →
      data[idx]? = some 0 := by
    induction distance with
    | zero =>
        intro idx present near
        omega
    | succ distance ih =>
        intro idx present near
        rw [← shifted]
        by_cases early : idx < count
        · rw [List.getElem?_append_left (by omega), List.getElem?_take_of_lt early,
            List.getElem?_drop]
          exact ih (4 + idx) (by omega) (by omega)
        · rw [List.getElem?_append_right (by omega), front,
            List.getElem?_replicate_of_lt (by omega)]
  apply List.ext_getElem?
  intro idx
  by_cases present : idx < data.length
  · rw [zero data.length idx present (by omega), List.getElem?_replicate_of_lt present]
  · rw [List.getElem?_eq_none (by omega), List.getElem?_eq_none (by simp; omega)]

/-- What follows the body in a frame that `PacketSerializer` makes. -/
def tailBytes : List UInt8 := encode 4 0x10000000 ++ (encode 4 0 ++ encode 4 0)

theorem framePacket_encoding (packetType : Int) (data : List UInt8) :
    (framePacket packetType data).encoding .plCommon =
      encode 4 0 ++ (encodeSigned 4 (8 + 4 + data.length + 12) ++
        (encodeSigned 4 packetType ++ (data ++ tailBytes))) := rfl

theorem frameLength_eq (size : Nat) (fits : 8 + 4 + size + 12 < 0x80000000) :
    decodeSigned (encodeSigned 4 (8 + 4 + (size : Int) + 12)) = 8 + 4 + size + 12 := by
  apply decodeSigned_encodeSigned
  constructor <;> norm_num <;> omega

/-- If the tail is found where the reader looks for it, the count it took is zero and nothing
but the count was in the body. -/
theorem tail_after_zeros {size : Nat}
    (found : decode ((List.replicate size (0 : UInt8) ++ tailBytes).take 4) = 0x10000000) :
    size = 0 := by
  rcases size with - | - | - | - | size
  · rfl
  · exact absurd found (by decide)
  · exact absurd found (by decide)
  · exact absurd found (by decide)
  · have word : (List.replicate (size + 4) (0 : UInt8) ++ tailBytes).take 4 = [0, 0, 0, 0] := rfl
    rw [word] at found
    exact absurd found (by decide)

theorem plCommon_reads_zeros {packetType : Int} {data : List UInt8} {packet : Packet Int}
    (fits : 8 + 4 + data.length + 12 < 0x80000000)
    (read : packetDeserializer .plCommon ((framePacket packetType data).encoding .plCommon)
      ((framePacket packetType data).encoding .plCommon).length = .ok packet)
    (sameData : packet.body.packetData = data) (sameTail : packet.tail.checkTail = 0x10000000) :
    data = [0, 0, 0, 0] := by
  obtain ⟨ser, created, reads⟩ := Serializer.ofBuffer_reads
    ((framePacket packetType data).encoding .plCommon)
  rw [packetDeserializer, created, ok_bind] at read
  obtain ⟨one, two, three, headRead, bodyRead, tailRead⟩ := Packet.ofSerializer_inv read
  rw [framePacket_encoding] at reads
  obtain ⟨afterHead, headEq, headReads⟩ := PacketHead.serialize_reads {} (encode_length 4 _)
    (encodeSigned_length 4 _) reads
  rw [headEq] at headRead
  obtain ⟨rfl, head⟩ := Prod.mk.inj (Except.ok.inj headRead)
  rw [← head] at bodyRead
  obtain ⟨number, numberRead, dataRead⟩ := PacketBody.serialize_inv
    (bodyLength_eq (by rw [frameLength_eq _ fits]; omega) (frameLength_eq _ fits)) bodyRead
  obtain ⟨-, -, numberReads⟩ := Serializer.scalar_reads_inv headReads numberRead
  rw [List.drop_left' (encodeSigned_length 4 _)] at numberReads
  obtain ⟨count, countEq, -, bounds, dataEq, dataReads⟩ :=
    Serializer.valueCountedBytes_inv numberReads dataRead
  obtain ⟨enough, tailEq⟩ := PacketTail.serialize_inv dataReads tailRead
  have tailLength : tailBytes.length = 12 := rfl
  simp only [List.length_drop, List.length_append, tailLength] at enough
  rw [sameData, List.drop_replicate] at dataEq
  have zeros := zeros_of_shifted (by omega) dataEq.symm
  obtain ⟨size, length⟩ : ∃ size, data.length = 4 + size := ⟨data.length - 4, by omega⟩
  rw [length, List.replicate_add] at zeros
  have noCount : count = 0 := by
    rw [countEq, zeros, List.append_assoc, List.take_left' List.length_replicate]
    decide
  rw [sameTail, noCount, zeros, List.append_assoc, List.drop_left' List.length_replicate] at tailEq
  rw [zeros, tail_after_zeros tailEq.symm]
  rfl

/-- A body of four zero bytes is read as its own length: none. -/
theorem plCommon_reads_four {packetType : Int} (fits : FitsSigned 4 packetType) :
    packetDeserializer .plCommon ((framePacket packetType [0, 0, 0, 0]).encoding .plCommon)
      ((framePacket packetType [0, 0, 0, 0]).encoding .plCommon).length =
        .ok (framePacket packetType [0, 0, 0, 0]) := by
  obtain ⟨ser, created, reads⟩ := Serializer.ofBuffer_reads
    ((framePacket packetType [0, 0, 0, 0]).encoding .plCommon)
  rw [packetDeserializer, created, ok_bind]
  rw [framePacket_encoding] at reads
  have zero : decode (encode 4 0) = 0 := decode_encode_of_lt (by norm_num)
  have check : decode (encode 4 0x10000000) = 0x10000000 := decode_encode_of_lt (by norm_num)
  have length := frameLength_eq [(0 : UInt8), 0, 0, 0].length (by decide)
  obtain ⟨one, head, headReads⟩ := PacketHead.serialize_reads {} (encode_length 4 _)
    (encodeSigned_length 4 _) reads
  rw [zero, length] at head
  obtain ⟨two, number, numberReads⟩ := Dialect.valueType_reads Dialect.plCommon.noType
    (plCommon_lawful fits) headReads
  have count : ∃ next, two.valueInt32 (4 : Nat) = .ok (next, decodeSigned [0, 0, 0, 0]) ∧
      next.Reads tailBytes :=
    Serializer.scalar_reads _ rfl (by simp) numberReads
  obtain ⟨three, countEq, countReads⟩ := count
  have none : decodeSigned [0, 0, 0, 0] = 0 := by decide
  rw [none] at countEq
  have copy : ∃ next, three.valueBytes (List.replicate 4 0) (0 : Nat) =
      .ok (next, List.replicate 4 0) ∧ next.Reads tailBytes :=
    Serializer.valueBytes_reads (Nat.zero_le _) (show three.Reads ([] ++ tailBytes) from countReads)
  obtain ⟨four, data, dataReads⟩ := copy
  have counted : two.valueCountedBytes (List.replicate 4 0) (4 : Nat) =
      .ok (four, List.replicate 4 0) := by
    rw [Serializer.valueCountedBytes, countEq]
    exact data
  rw [tailBytes] at dataReads
  obtain ⟨five, tail⟩ := PacketTail.serialize_reads (encode_length 4 _) (encode_length 4 _)
    (encode_length 4 0) (by rwa [List.append_nil])
  rw [zero, check] at tail
  exact Packet.ofSerializer_eq head
    (PacketBody.serialize_eq (bodyLength_eq (by decide) rfl) number counted) tail

theorem RoundTrips.zeros {base : PacketBase Int} {data : List UInt8}
    (isInt32 : FitsSigned 4 base.packetType) (writes : base.Writes data)
    (roundTrips : RoundTrips .plCommon base data) : data = [0, 0, 0, 0] := by
  obtain ⟨ser, packet, returned, read, -, body, tail⟩ := roundTrips
  have fits : 8 + 4 + data.length + 12 < 0x80000000 := by
    by_contra large
    cases (packetSerializer_overflow .plCommon writes (by omega)).symm.trans returned
  obtain ⟨other, same, buffer⟩ := packetSerializer_eq (plCommon_lawful isInt32) writes fits
  obtain rfl : other = ser := Except.ok.inj (same.symm.trans returned)
  rw [buffer] at read
  exact plCommon_reads_zeros fits read (by rw [body]) (by rw [tail])

/-- Of all frames that `PL_Common` writes, those are read back whose body is four zero bytes. -/
theorem plCommon_roundTrips_iff (base : PacketBase Int) (data : List UInt8)
    (isInt32 : FitsSigned 4 base.packetType) (writes : base.Writes data) :
    RoundTrips .plCommon base data ↔ data = [0, 0, 0, 0] := by
  refine ⟨RoundTrips.zeros isInt32 writes, ?_⟩
  rintro rfl
  obtain ⟨ser, returned, buffer⟩ := packetSerializer_eq (plCommon_lawful isInt32) writes (by decide)
  exact ⟨ser, _, returned, by rw [buffer, plCommon_reads_four isInt32], rfl, rfl, rfl⟩

theorem plCommon_roundTrips_iff_zero :
    (wordPacket 1 0).Writes (encodeSigned 4 0) ∧
      RoundTrips .plCommon (wordPacket 1 0) (encodeSigned 4 0) :=
  ⟨wordPacket_writes 1 0,
    (plCommon_roundTrips_iff _ _ (by decide) (wordPacket_writes 1 0)).mpr (by decide)⟩

/-- A packet with the one field `5`: its body is taken for the length of five bytes more. -/
theorem plCommon_word_not_read :
    ¬∀ (base : PacketBase Int) (data : List UInt8), FitsSigned 4 base.packetType →
      base.Writes data → RoundTrips .plCommon base data := by
  intro always
  have writes := wordPacket_writes (1 : Int) 5
  have zeros := (always _ _ (by decide) writes).zeros (by decide) writes
  exact absurd zeros (by decide)

end ProjectPl.Sharp
