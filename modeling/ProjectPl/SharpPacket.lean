import ProjectPl.SharpPacketCore

/-!
What the C# codecs do, in terms of byte lists. A writing serializer stands for the bytes written
so far and the room left behind them, a reading one for the bytes left to read. In these terms a
frame of `PL_Network` is the concatenation of its parts and is read back as written, while
`PL_Common` reads a length that no writer puts into the frame.
-/

namespace ProjectPl.Sharp

open DotNet LittleEndian

namespace Serializer

structure Wrote (ser : Serializer) (bytes : List UInt8) (room : Nat) : Prop where
  writing : ser.write = true
  cursor : ser.offset = bytes.length
  layout : ∃ blank, ser.buffer = bytes ++ blank ∧ blank.length = room

structure Reads (ser : Serializer) (left : List UInt8) : Prop where
  reading : ser.write = false
  layout : ∃ before, ser.buffer = before ++ left ∧ ser.offset = before.length

theorem ofLength_wrote (length : Nat) :
    ∃ ser, ofLength length = .ok ser ∧ ser.Wrote [] length := by
  rw [ofLength, newBytes_natCast]
  exact ⟨_, rfl, rfl, rfl, _, rfl, List.length_replicate⟩

theorem ofBuffer_reads (source : List UInt8) :
    ∃ ser, ofBuffer source source.length = .ok ser ∧ ser.Reads source := by
  have blank : (List.replicate source.length (0 : UInt8)).length = source.length :=
    List.length_replicate
  have copied := arrayCopy_append [] [] [] [] blank
  simp only [List.nil_append, List.append_nil, List.length_nil, Nat.cast_zero] at copied
  rw [ofBuffer, newBytes_natCast, ok_bind, copied]
  exact ⟨_, rfl, rfl, [], rfl, rfl⟩

theorem ofBuffer_take {source : List UInt8} {length : Nat} (inside : length ≤ source.length) :
    ofBuffer (source.take length) length = ofBuffer source length := by
  rw [ofBuffer, ofBuffer, newBytes_natCast, ok_bind, ok_bind, arrayCopy_take inside]

theorem Wrote.buffer_eq {ser : Serializer} {bytes : List UInt8} (wrote : ser.Wrote bytes 0) :
    ser.buffer = bytes := by
  obtain ⟨blank, layout, length⟩ := wrote.layout
  rw [layout, List.length_eq_zero_iff.mp length, List.append_nil]

theorem Wrote.copy {ser : Serializer} {bytes values : List UInt8} {room : Nat}
    (wrote : ser.Wrote bytes (values.length + room)) :
    ∃ buffer, arrayCopy values 0 ser.buffer ser.offset values.length = .ok buffer ∧
      ({ ser with buffer := buffer, offset := ser.offset + values.length } : Serializer).Wrote
        (bytes ++ values) room := by
  obtain ⟨writing, cursor, blank, layout, length⟩ := wrote
  have cut : blank = blank.take values.length ++ blank.drop values.length :=
    (List.take_append_drop _ _).symm
  have old : (blank.take values.length).length = values.length := by
    rw [List.length_take]
    omega
  have copied := arrayCopy_append [] [] bytes (blank.drop values.length) old
  simp only [List.nil_append, List.append_nil, List.length_nil, Nat.cast_zero] at copied
  rw [List.append_assoc, ← cut, ← layout, ← cursor] at copied
  refine ⟨_, copied, writing, ?_, _, rfl, ?_⟩
  · simp only [cursor, List.length_append]
  · rw [List.length_drop]
    omega

section Scalar

variable {V : Type} {width : Nat} {encode : V → List UInt8} {decode : List UInt8 → V}

theorem scalar_wrote {ser : Serializer} {bytes : List UInt8} {room : Nat} (value : V)
    (whole : (encode value).length = width) (wrote : ser.Wrote bytes (width + room)) :
    ∃ next, ser.scalar width encode decode value = .ok (next, value) ∧
      next.Wrote (bytes ++ encode value) room := by
  subst whole
  obtain ⟨buffer, copied, written⟩ := wrote.copy
  rw [scalar, if_pos wrote.writing, copied]
  exact ⟨_, rfl, written⟩

theorem scalar_reads {ser : Serializer} {chunk rest : List UInt8} (value : V)
    (whole : chunk.length = width) (some : chunk ≠ []) (reads : ser.Reads (chunk ++ rest)) :
    ∃ next, ser.scalar width encode decode value = .ok (next, decode chunk) ∧
      next.Reads rest := by
  subst whole
  obtain ⟨reading, before, layout, cursor⟩ := reads
  have read := bitConverter_append before rest some
  rw [List.append_assoc, ← layout, ← cursor] at read
  rw [scalar, if_neg (by simp [reading]), read]
  refine ⟨_, rfl, reading, before ++ chunk, ?_, ?_⟩
  · rw [layout, List.append_assoc]
  · simp only [cursor, List.length_append]

theorem scalar_reads_inv {ser next : Serializer} {left : List UInt8} {value result : V}
    (reads : ser.Reads left) (read : ser.scalar width encode decode value = .ok (next, result)) :
    width ≤ left.length ∧ result = decode (left.take width) ∧ next.Reads (left.drop width) := by
  obtain ⟨reading, before, layout, cursor⟩ := reads
  rw [scalar, if_neg (by simp [reading])] at read
  obtain ⟨chunk, taken, returned⟩ := bind_eq_ok read
  obtain ⟨inside, rfl⟩ := bitConverter_eq_ok taken
  rw [layout, cursor, List.length_append] at inside
  have enough : width ≤ left.length := by omega
  cases returned
  refine ⟨enough, ?_, reading, before ++ left.take width, ?_, ?_⟩
  · rw [layout, cursor, List.drop_left]
  · rw [List.append_assoc, List.take_append_drop, layout]
  · simp only [cursor, List.length_append, List.length_take]
    omega

end Scalar

theorem valueBytes_reads {ser : Serializer} {chunk rest data : List UInt8}
    (fits : chunk.length ≤ data.length) (reads : ser.Reads (chunk ++ rest)) :
    ∃ next, ser.valueBytes data chunk.length = .ok (next, chunk ++ data.drop chunk.length) ∧
      next.Reads rest := by
  obtain ⟨reading, before, layout, cursor⟩ := reads
  have copied := arrayCopy_append before rest [] (data.drop chunk.length)
    (List.length_take_of_le fits)
  simp only [List.nil_append, List.take_append_drop, List.length_nil, Nat.cast_zero] at copied
  rw [List.append_assoc, ← layout, ← cursor] at copied
  rw [valueBytes, if_neg (by simp [reading]), copied]
  refine ⟨_, rfl, reading, before ++ chunk, ?_, ?_⟩
  · rw [layout, List.append_assoc]
  · simp only [cursor, List.length_append, Int.toNat_natCast]

theorem valueBytes_reads_inv {ser next : Serializer} {left data result : List UInt8} {length : Int}
    (reads : ser.Reads left) (read : ser.valueBytes data length = .ok (next, result)) :
    (0 ≤ length ∧ length ≤ left.length ∧ length ≤ data.length) ∧
      result = left.take length.toNat ++ data.drop length.toNat ∧
      next.Reads (left.drop length.toNat) := by
  obtain ⟨reading, before, layout, cursor⟩ := reads
  rw [valueBytes, if_neg (by simp [reading])] at read
  obtain ⟨copied, taken, returned⟩ := bind_eq_ok read
  obtain ⟨inside, rfl⟩ := arrayCopy_eq_ok taken
  rw [layout, cursor, List.length_append] at inside
  have bounds : 0 ≤ length ∧ length ≤ left.length ∧ length ≤ data.length := by omega
  cases returned
  refine ⟨bounds, ?_, reading, before ++ left.take length.toNat, ?_, ?_⟩
  · rw [layout, cursor, Int.toNat_natCast, List.drop_left, Int.zero_add]
    rfl
  · rw [List.append_assoc, List.take_append_drop, layout]
  · simp only [cursor, List.length_append, List.length_take]
    omega

end Serializer

/-! The parts of a frame, written and read. -/

theorem PacketHead.serialize_wrote (head : PacketHead) {ser : Serializer} {bytes : List UInt8}
    {room : Nat} (wrote : ser.Wrote bytes (8 + room)) :
    ∃ next, head.serialize ser = .ok (next, head) ∧
      next.Wrote (bytes ++ encode 4 head.checkHead ++ encodeSigned 4 head.packetLength) room := by
  rw [show 8 + room = 4 + (4 + room) by omega] at wrote
  obtain ⟨first, check, written⟩ := Serializer.scalar_wrote head.checkHead
    (encode_length 4 _) wrote
  obtain ⟨second, length, whole⟩ := Serializer.scalar_wrote head.packetLength
    (encodeSigned_length 4 _) written
  refine ⟨second, ?_, whole⟩
  rw [serialize, Serializer.valueUInt32, check, ok_bind, Serializer.valueInt32, length]
  rfl

theorem PacketTail.serialize_wrote (tail : PacketTail) {ser : Serializer} {bytes : List UInt8}
    (wrote : ser.Wrote bytes 12) :
    ∃ next, tail.serialize ser = .ok (next, tail) ∧
      next.Wrote (bytes ++ encode 4 tail.checkTail ++ encode 4 tail.packetSeq ++
        encode 4 tail.packetTime) 0 := by
  rw [show 12 = 4 + (4 + (4 + 0)) from rfl] at wrote
  obtain ⟨first, check, one⟩ := Serializer.scalar_wrote tail.checkTail (encode_length 4 _) wrote
  obtain ⟨second, seq, two⟩ := Serializer.scalar_wrote tail.packetSeq (encode_length 4 _) one
  obtain ⟨third, time, three⟩ := Serializer.scalar_wrote tail.packetTime (encode_length 4 _) two
  refine ⟨third, ?_, three⟩
  rw [serialize, Serializer.valueUInt32, check, ok_bind, seq, ok_bind, time]
  rfl

theorem ne_nil_of_length_four {chunk : List UInt8} (whole : chunk.length = 4) : chunk ≠ [] :=
  List.ne_nil_of_length_pos (by omega)

theorem PacketHead.serialize_reads (head : PacketHead) {check length rest : List UInt8}
    {ser : Serializer} (checkWhole : check.length = 4) (lengthWhole : length.length = 4)
    (reads : ser.Reads (check ++ (length ++ rest))) :
    ∃ next, head.serialize ser =
        .ok (next, { checkHead := decode check, packetLength := decodeSigned length }) ∧
      next.Reads rest := by
  obtain ⟨first, checkRead, one⟩ := Serializer.scalar_reads head.checkHead checkWhole
    (ne_nil_of_length_four checkWhole) reads
  obtain ⟨second, lengthRead, two⟩ := Serializer.scalar_reads head.packetLength
    lengthWhole (ne_nil_of_length_four lengthWhole) one
  refine ⟨second, ?_, two⟩
  rw [serialize, Serializer.valueUInt32, checkRead, ok_bind, Serializer.valueInt32, lengthRead]
  rfl

theorem PacketTail.serialize_reads {check seq time rest : List UInt8} {ser : Serializer}
    (checkWhole : check.length = 4) (seqWhole : seq.length = 4) (timeWhole : time.length = 4)
    (reads : ser.Reads (check ++ (seq ++ (time ++ rest)))) :
    ∃ next, PacketTail.serialize {} ser =
      .ok (next, { checkTail := decode check, packetSeq := decode seq,
                   packetTime := decode time }) := by
  obtain ⟨first, checkRead, one⟩ := Serializer.scalar_reads ({} : PacketTail).checkTail checkWhole
    (ne_nil_of_length_four checkWhole) reads
  obtain ⟨second, seqRead, two⟩ := Serializer.scalar_reads ({} : PacketTail).packetSeq seqWhole
    (ne_nil_of_length_four seqWhole) one
  obtain ⟨third, timeRead, -⟩ := Serializer.scalar_reads ({} : PacketTail).packetTime timeWhole
    (ne_nil_of_length_four timeWhole) two
  refine ⟨third, ?_⟩
  rw [serialize, Serializer.valueUInt32, checkRead, ok_bind, seqRead, ok_bind, timeRead]
  rfl

section Parts

variable {T : Type} {dialect : Dialect T} {ser one two three : Serializer}

theorem PacketBody.serialize_eq {body : PacketBody T} {bodyLength : Int} {size : Nat} {number : T}
    {data : List UInt8} (own : int32 (bodyLength - 4) = size)
    (numberRead : dialect.valueType ser body.packetType = .ok (one, number))
    (dataRead : dialect.valueData one (List.replicate size 0) size = .ok (two, data)) :
    PacketBody.serialize dialect body ser bodyLength =
      .ok (two, { packetType := number, packetData := data }) := by
  rw [serialize, own, newBytes_natCast, ok_bind, numberRead, ok_bind, List.length_replicate,
    dataRead]
  rfl

theorem Packet.ofSerializer_eq {head : PacketHead} {body : PacketBody T} {tail : PacketTail}
    (headRead : PacketHead.serialize {} ser = .ok (one, head))
    (bodyRead : PacketBody.serialize dialect { packetType := dialect.noType } one
      (int32 (head.packetLength - PacketHead.length - PacketTail.length)) = .ok (two, body))
    (tailRead : PacketTail.serialize {} two = .ok (three, tail)) :
    Packet.ofSerializer dialect ser = .ok { head := head, body := body, tail := tail } := by
  rw [ofSerializer, headRead, ok_bind]
  dsimp only
  rw [bodyRead, ok_bind, tailRead]
  rfl

end Parts

/-! A frame is the concatenation of the encodings of its parts. -/

def Packet.encoding {T : Type} (dialect : Dialect T) (packet : Packet T) : List UInt8 :=
  encode 4 packet.head.checkHead ++ (encodeSigned 4 packet.head.packetLength ++
    (dialect.encodeType packet.body.packetType ++ (packet.body.packetData ++
      (encode 4 packet.tail.checkTail ++ (encode 4 packet.tail.packetSeq ++
        encode 4 packet.tail.packetTime)))))

/-- The frame that `PacketSerializer` makes of a packet number and the bytes of a body. -/
def framePacket {T : Type} (packetType : T) (data : List UInt8) : Packet T :=
  { head := { packetLength := 8 + 4 + data.length + 12 }
    body := { packetType := packetType, packetData := data }
    tail := {} }

/-- `Serialize` writes exactly the bytes `data`, as many as `GetSize` says. -/
structure PacketBase.Writes {T : Type} (base : PacketBase T) (data : List UInt8) : Prop where
  size : base.getSize - 4 = data.length
  serialize : ∀ (ser : Serializer) (bytes : List UInt8) (room : Nat),
    ser.Wrote bytes (data.length + room) →
      ∃ next, base.serialize ser = .ok next ∧ next.Wrote (bytes ++ data) room

/-- The numbers of a dialect's packet types are four bytes wide, and are read as written. -/
structure Dialect.Lawful {T : Type} (dialect : Dialect T) (packetType : T) : Prop where
  width : (dialect.encodeType packetType).length = 4
  decodes : dialect.decodeType (dialect.encodeType packetType) = packetType

theorem Dialect.valueType_reads {T : Type} {dialect : Dialect T} {packetType : T}
    {rest : List UInt8} {ser : Serializer} (start : T) (lawful : dialect.Lawful packetType)
    (reads : ser.Reads (dialect.encodeType packetType ++ rest)) :
    ∃ next, dialect.valueType ser start = .ok (next, packetType) ∧ next.Reads rest := by
  have read : ∃ next, dialect.valueType ser start =
      .ok (next, dialect.decodeType (dialect.encodeType packetType)) ∧ next.Reads rest :=
    Serializer.scalar_reads start lawful.width (ne_nil_of_length_four lawful.width) reads
  rwa [lawful.decodes] at read

section Frame

variable {T : Type} {base : PacketBase T} {data : List UInt8}

theorem packetSerializer_wrote {dialect : Dialect T} (lawful : dialect.Lawful base.packetType)
    (writes : base.Writes data) (fits : 8 + 4 + data.length + 12 < 0x80000000) :
    ∃ ser, packetSerializer dialect base = .ok ser ∧
      ser.Wrote ((framePacket base.packetType data).encoding dialect) 0 := by
  have size := writes.size
  have length : int32 (PacketHead.length + base.getSize + PacketTail.length) =
      ((8 + (4 + (data.length + 12)) : Nat) : Int) := by
    rw [PacketHead.length, PacketTail.length, int32_of_fits (by omega) (by omega)]
    omega
  obtain ⟨ser, created, blank⟩ := Serializer.ofLength_wrote (8 + (4 + (data.length + 12)))
  obtain ⟨one, head, headWrote⟩ := PacketHead.serialize_wrote
    { packetLength := ((8 + (4 + (data.length + 12)) : Nat) : Int) } blank
  obtain ⟨two, number, numberWrote⟩ := Serializer.scalar_wrote base.packetType lawful.width headWrote
  obtain ⟨three, body, bodyWrote⟩ := writes.serialize two _ 12 numberWrote
  obtain ⟨four, tail, tailWrote⟩ := PacketTail.serialize_wrote {} bodyWrote
  refine ⟨four, ?_, ?_⟩
  · rw [packetSerializer, length, created, ok_bind, head, ok_bind, Dialect.valueType, number,
      ok_bind, body, ok_bind, tail]
    rfl
  · have total : ((8 + (4 + (data.length + 12)) : Nat) : Int) = 8 + 4 + data.length + 12 := by
      omega
    simpa only [framePacket, Packet.encoding, total, List.append_assoc, List.nil_append] using
      tailWrote

theorem packetSerializer_eq {dialect : Dialect T} (lawful : dialect.Lawful base.packetType)
    (writes : base.Writes data) (fits : 8 + 4 + data.length + 12 < 0x80000000) :
    ∃ ser, packetSerializer dialect base = .ok ser ∧
      ser.buffer = (framePacket base.packetType data).encoding dialect := by
  obtain ⟨ser, returned, wrote⟩ := packetSerializer_wrote lawful writes fits
  exact ⟨ser, returned, wrote.buffer_eq⟩

/-- A body whose frame does not fit an `Int32` length has no buffer. -/
theorem packetSerializer_overflow (dialect : Dialect T) (writes : base.Writes data)
    (large : 0x80000000 ≤ 8 + 4 + data.length + 12) :
    packetSerializer dialect base = .error .overflow := by
  have size := writes.size
  obtain ⟨-, upper⟩ := base.getSize_isInt32
  have negative : int32 (PacketHead.length + base.getSize + PacketTail.length) < 0 := by
    rw [PacketHead.length, PacketTail.length]
    norm_num at upper
    rw [int32_of_overflow (by omega) (by omega)]
    omega
  rw [packetSerializer, Serializer.ofLength, newBytes, if_pos negative]
  rfl

end Frame

/-! `PL_Network`. -/

theorem plNetwork_lawful {packetType : Nat} (bound : packetType < 256 ^ 4) :
    Dialect.plNetwork.Lawful packetType :=
  ⟨encode_length 4 _, decode_encode_of_lt bound⟩

theorem PacketBody.plNetwork_reads {number data rest : List UInt8} {ser : Serializer}
    {bodyLength : Int} (numberWhole : number.length = 4)
    (own : int32 (bodyLength - 4) = data.length) (reads : ser.Reads (number ++ (data ++ rest))) :
    ∃ next, PacketBody.serialize .plNetwork { packetType := Dialect.plNetwork.noType } ser
        bodyLength = .ok (next, { packetType := decode number, packetData := data }) ∧
      next.Reads rest := by
  obtain ⟨first, numberRead, one⟩ := Serializer.scalar_reads Dialect.plNetwork.noType numberWhole
    (ne_nil_of_length_four numberWhole) reads
  have fits : data.length ≤ (List.replicate data.length (0 : UInt8)).length := by simp
  obtain ⟨second, dataRead, two⟩ := Serializer.valueBytes_reads fits one
  rw [List.drop_of_length_le (by simp), List.append_nil] at dataRead
  exact ⟨second, PacketBody.serialize_eq own numberRead dataRead, two⟩

theorem bodyLength_eq {packetLength : Int} {size : Nat} (upper : packetLength < 0x80000000)
    (own : packetLength = 8 + 4 + size + 12) :
    int32 (int32 (packetLength - PacketHead.length - PacketTail.length) - 4) = size := by
  have inner : int32 (packetLength - PacketHead.length - PacketTail.length) = size + 4 := by
    rw [PacketHead.length, PacketTail.length, int32_of_fits (by omega) (by omega)]
    omega
  rw [inner, int32_of_fits (by omega) (by omega)]
  omega

section Chunks

variable {check length number data checkTail seq time : List UInt8}

/-- Every frame whose length word is its own length is decoded, whatever its parts are. -/
theorem plNetwork_reads (checkWhole : check.length = 4) (lengthWhole : length.length = 4)
    (numberWhole : number.length = 4) (checkTailWhole : checkTail.length = 4)
    (seqWhole : seq.length = 4) (timeWhole : time.length = 4)
    (own : decodeSigned length = 8 + 4 + data.length + 12) :
    let bytes := check ++ (length ++ (number ++ (data ++ (checkTail ++ (seq ++ time)))))
    packetDeserializer .plNetwork bytes bytes.length =
      .ok { head := { checkHead := decode check, packetLength := decodeSigned length }
            body := { packetType := decode number, packetData := data }
            tail := { checkTail := decode checkTail, packetSeq := decode seq,
                      packetTime := decode time } } := by
  intro bytes
  obtain ⟨ser, created, reads⟩ := Serializer.ofBuffer_reads bytes
  obtain ⟨one, head, headRead⟩ := PacketHead.serialize_reads {} checkWhole lengthWhole reads
  obtain ⟨two, body, bodyRead⟩ := PacketBody.plNetwork_reads numberWhole
    (bodyLength_eq (decodeSigned_lt lengthWhole) own) headRead
  rw [← List.append_nil time] at bodyRead
  obtain ⟨three, tail⟩ := PacketTail.serialize_reads checkTailWhole seqWhole timeWhole bodyRead
  rw [packetDeserializer, created, ok_bind]
  exact Packet.ofSerializer_eq head body tail

end Chunks

theorem exists_parts {bytes : List UInt8} (long : 24 ≤ bytes.length) :
    ∃ check length number data checkTail seq time : List UInt8,
      bytes = check ++ (length ++ (number ++ (data ++ (checkTail ++ (seq ++ time))))) ∧
        check.length = 4 ∧ length.length = 4 ∧ number.length = 4 ∧ checkTail.length = 4 ∧
        seq.length = 4 ∧ time.length = 4 := by
  refine ⟨bytes.take 4, (bytes.drop 4).take 4, (bytes.drop 8).take 4,
    (bytes.drop 12).take (bytes.length - 24), (bytes.drop (bytes.length - 12)).take 4,
    (bytes.drop (bytes.length - 8)).take 4, bytes.drop (bytes.length - 4), ?_, ?_⟩
  · have cut (start count : Nat) : bytes.drop start =
        (bytes.drop start).take count ++ bytes.drop (start + count) := by
      rw [← List.drop_drop, List.take_append_drop]
    have body : 12 + (bytes.length - 24) = bytes.length - 12 := by omega
    have seq : bytes.length - 12 + 4 = bytes.length - 8 := by omega
    have time : bytes.length - 8 + 4 = bytes.length - 4 := by omega
    rw [← time, ← cut, ← seq, ← cut, ← body, ← cut, ← cut 8 4, ← cut 4 4, List.take_append_drop]
  · simp only [List.length_take, List.length_drop]
    omega

/-- Frames of `PL_Network` round-trip in both directions. `PacketSerializer` returns exactly when
the frame's length is an `Int32`. `PacketDeserializer` then gives back what was written. And every
array of 24 bytes or more whose length word is its own length is decoded to the parts it
consists of. -/
theorem plNetwork_frame_roundTrip :
    (∀ (base : PacketBase Nat) (data : List UInt8), base.packetType < 256 ^ 4 →
      base.Writes data →
      ((∃ ser, packetSerializer .plNetwork base = .ok ser) ↔
          8 + 4 + data.length + 12 < 0x80000000) ∧
        ∀ ser, packetSerializer .plNetwork base = .ok ser →
          packetDeserializer .plNetwork ser.buffer ser.buffer.length =
            .ok (framePacket base.packetType data)) ∧
    ∀ bytes : List UInt8, 24 ≤ bytes.length →
      decodeSigned ((bytes.drop 4).take 4) = bytes.length →
      ∃ packet, packetDeserializer .plNetwork bytes bytes.length = .ok packet ∧
        packet.encoding .plNetwork = bytes := by
  constructor
  · intro base data bound writes
    by_cases fits : 8 + 4 + data.length + 12 < 0x80000000
    · obtain ⟨ser, returned, buffer⟩ := packetSerializer_eq (plNetwork_lawful bound) writes fits
      refine ⟨iff_of_true ⟨ser, returned⟩ fits, ?_⟩
      intro other same
      obtain rfl : ser = other := Except.ok.inj (returned.symm.trans same)
      have length : decodeSigned (encodeSigned 4 (8 + 4 + (data.length : Int) + 12)) =
          8 + 4 + data.length + 12 := by
        apply decodeSigned_encodeSigned
        constructor <;> norm_num <;> omega
      rw [buffer, Packet.encoding]
      dsimp only [framePacket, Dialect.plNetwork]
      have reads := plNetwork_reads (encode_length 4 0) (encodeSigned_length 4 _)
        (encode_length 4 base.packetType) (encode_length 4 0x10000000) (encode_length 4 0)
        (encode_length 4 0) length
      rw [length, decode_encode_of_lt bound, decode_encode_of_lt (by norm_num),
        decode_encode_of_lt (by norm_num)] at reads
      exact reads
    · have failed := packetSerializer_overflow .plNetwork writes (by omega)
      refine ⟨iff_of_false ?_ fits, ?_⟩
      · rintro ⟨ser, returned⟩
        cases failed.symm.trans returned
      · intro ser returned
        cases failed.symm.trans returned
  · intro bytes long own
    obtain ⟨check, length, number, data, checkTail, seq, time, rfl, checkWhole, lengthWhole,
      numberWhole, checkTailWhole, seqWhole, timeWhole⟩ := exists_parts long
    rw [List.drop_left' checkWhole, List.take_left' lengthWhole] at own
    have total : decodeSigned length = 8 + 4 + data.length + 12 := by
      rw [own]
      simp only [List.length_append]
      omega
    refine ⟨_, plNetwork_reads checkWhole lengthWhole numberWhole checkTailWhole seqWhole timeWhole
      total, ?_⟩
    have signed : encodeSigned 4 (decodeSigned length) = length := by
      rw [← lengthWhole, encodeSigned_decodeSigned]
    have word {chunk : List UInt8} (whole : chunk.length = 4) : encode 4 (decode chunk) = chunk := by
      rw [← whole, encode_decode]
    simp only [Packet.encoding, Dialect.plNetwork, signed, word checkWhole, word numberWhole,
      word checkTailWhole, word seqWhole, word timeWhole]

/-- A packet with one `Int32` field. -/
def wordPacket {T : Type} (packetType : T) (value : Int) : PacketBase T where
  packetType := packetType
  getSize := 4 + 4
  serialize := fun ser => do
    let written ← ser.valueInt32 value
    return written.1
  getSize_isInt32 := by decide

theorem wordPacket_writes {T : Type} (packetType : T) (value : Int) :
    (wordPacket packetType value).Writes (encodeSigned 4 value) := by
  refine ⟨rfl, ?_⟩
  intro ser bytes room wrote
  rw [encodeSigned_length] at wrote
  obtain ⟨next, written, whole⟩ := Serializer.scalar_wrote value (encodeSigned_length 4 _) wrote
  refine ⟨next, ?_, whole⟩
  dsimp only [wordPacket]
  rw [Serializer.valueInt32, written]
  rfl

theorem plNetwork_frame_roundTrip_word :
    (wordPacket 1 (-2)).Writes (encodeSigned 4 (-2)) ∧
      (∃ ser, packetSerializer .plNetwork (wordPacket 1 (-2)) = .ok ser ∧
        packetDeserializer .plNetwork ser.buffer ser.buffer.length =
          .ok (framePacket 1 (encodeSigned 4 (-2)))) ∧
      let bytes : List UInt8 := [9, 9, 9, 9, 24, 0, 0, 0] ++ List.replicate 16 7
      ∃ packet, packetDeserializer .plNetwork bytes bytes.length = .ok packet ∧
        packet.encoding .plNetwork = bytes := by
  have writes := wordPacket_writes 1 (-2)
  obtain ⟨returns, roundTrip⟩ := plNetwork_frame_roundTrip.1 (wordPacket 1 (-2)) _ (by decide) writes
  obtain ⟨ser, returned⟩ := returns.mpr (by decide)
  refine ⟨writes, ⟨ser, returned, roundTrip ser returned⟩, ?_⟩
  exact plNetwork_frame_roundTrip.2 _ (by decide) (by decide)

end ProjectPl.Sharp
