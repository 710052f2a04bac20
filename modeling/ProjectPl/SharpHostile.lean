import ProjectPl.SharpCommon
import ProjectPl.SharpConnectionCore
import ProjectPl.SharpParser

/-!
The C# receive path on any bytes. The length word at the front of the buffer comes from the peer
and goes into the decoder as it is. Where the decoder accepts what is there, the call goes well.
Else it throws, and where the bytes do not fit, it returns `false`, which nobody reads: the
connection stays open in both cases.
-/

namespace ProjectPl.Sharp

open DotNet LittleEndian

/-- The length that the frame at the front of the bytes claims. -/
def declared (bytes : List UInt8) : Int := decodeSigned ((bytes.drop 4).take 4)

/-- The word behind the packet number, which `PL_Common` takes for the length of the body. -/
def counted (bytes : List UInt8) : Int := decodeSigned ((bytes.drop 12).take 4)

def PlNetworkFrame (bytes : List UInt8) : Prop := 24 ≤ declared bytes

def PlCommonFrame (bytes : List UInt8) : Prop :=
  0 ≤ counted bytes ∧ 28 + counted bytes ≤ declared bytes

instance (bytes : List UInt8) : Decidable (PlNetworkFrame bytes) :=
  inferInstanceAs (Decidable (24 ≤ declared bytes))

instance (bytes : List UInt8) : Decidable (PlCommonFrame bytes) :=
  inferInstanceAs (Decidable (0 ≤ counted bytes ∧ 28 + counted bytes ≤ declared bytes))

/-- Which of the complete frames a dialect decodes, whatever stands behind them. -/
def Decodes {T : Type} (dialect : Dialect T) (sound : List UInt8 → Prop) : Prop :=
  ∀ bytes junk, 8 ≤ bytes.length → declared bytes ≤ bytes.length →
    ((∃ packet, packetDeserializer dialect (bytes ++ junk) (declared bytes) = .ok packet) ↔
      sound bytes)

theorem declared_lt {bytes : List UInt8} (headThere : 8 ≤ bytes.length) :
    declared bytes < 0x80000000 := by
  apply decodeSigned_lt
  rw [List.length_take, List.length_drop]
  omega

theorem word_take {bytes : List UInt8} {start length : Nat} (inside : start + 4 ≤ length) :
    ((bytes.take length).drop start).take 4 = (bytes.drop start).take 4 := by
  rw [List.drop_take, List.take_take, Nat.min_eq_left (by omega)]

theorem newBytes_eq_ok {length : Int} {bytes : List UInt8} (made : newBytes length = .ok bytes) :
    0 ≤ length := by
  rw [newBytes] at made
  split at made
  · cases made
  · omega

/-! What a decoder that does not throw has found. -/

section Decoders

variable {T : Type} {dialect : Dialect T}

theorem PacketHead.serialize_inv {start head : PacketHead} {ser next : Serializer}
    {left : List UInt8} (reads : ser.Reads left) (done : start.serialize ser = .ok (next, head)) :
    8 ≤ left.length ∧ head.packetLength = declared left ∧ next.Reads (left.drop 8) := by
  obtain ⟨⟨one, check⟩, checkRead, afterCheck⟩ := bind_eq_ok done
  obtain ⟨⟨two, length⟩, lengthRead, returned⟩ := bind_eq_ok afterCheck
  obtain ⟨-, -, oneReads⟩ := Serializer.scalar_reads_inv reads checkRead
  obtain ⟨enough, lengthEq, twoReads⟩ := Serializer.scalar_reads_inv oneReads lengthRead
  rw [List.length_drop] at enough
  rw [List.drop_drop] at twoReads
  cases returned
  exact ⟨by omega, lengthEq, twoReads⟩

theorem PacketBody.serialize_room {body read : PacketBody T} {ser next : Serializer}
    {bodyLength : Int} (done : PacketBody.serialize dialect body ser bodyLength = .ok (next, read)) :
    0 ≤ int32 (bodyLength - 4) := by
  obtain ⟨blank, made, -⟩ := bind_eq_ok done
  exact newBytes_eq_ok made

theorem packetDeserializer_complete {bytes junk : List UInt8} {packet : Packet T}
    (complete : declared bytes ≤ bytes.length)
    (read : packetDeserializer dialect (bytes ++ junk) (declared bytes) = .ok packet) :
    24 ≤ declared bytes ∧ ∃ one two three : Serializer,
      one.Reads ((bytes.take (declared bytes).toNat).drop 8) ∧
      PacketBody.serialize dialect { packetType := dialect.noType } one
        (int32 (declared bytes - PacketHead.length - PacketTail.length)) = .ok (two, packet.body) ∧
      PacketTail.serialize {} two = .ok (three, packet.tail) := by
  obtain ⟨ser, created, built⟩ := bind_eq_ok read
  obtain ⟨blank, made, -⟩ := bind_eq_ok created
  obtain ⟨size, length⟩ := Int.eq_ofNat_of_zero_le (newBytes_eq_ok made)
  have whole : (bytes.take size).length = size := List.length_take_of_le (by omega)
  have inside : size ≤ (bytes ++ junk).length := by
    rw [List.length_append]
    omega
  obtain ⟨other, same, reads⟩ := Serializer.ofBuffer_reads (bytes.take size)
  have front : (bytes ++ junk).take size = bytes.take size :=
    List.take_append_of_le_length (by omega)
  rw [length, ← Serializer.ofBuffer_take inside, front] at created
  rw [whole, created] at same
  obtain rfl : ser = other := Except.ok.inj same
  obtain ⟨one, two, three, headRead, bodyRead, tailRead⟩ := Packet.ofSerializer_inv built
  obtain ⟨enough, lengthEq, oneReads⟩ := PacketHead.serialize_inv reads headRead
  rw [whole] at enough
  have own : packet.head.packetLength = declared bytes := by
    rw [lengthEq, declared, word_take (by omega)]
    rfl
  rw [own] at bodyRead
  have upper : declared bytes < 0x80000000 := declared_lt (by omega)
  have room := PacketBody.serialize_room bodyRead
  have inner : int32 (declared bytes - PacketHead.length - PacketTail.length) =
      declared bytes - 20 := by
    rw [PacketHead.length, PacketTail.length, int32_of_fits (by omega) (by omega)]
    omega
  rw [inner, int32_of_fits (by omega) (by omega)] at room
  have size_eq : (declared bytes).toNat = size := by omega
  rw [size_eq]
  exact ⟨by omega, one, two, three, oneReads, bodyRead, tailRead⟩

end Decoders

theorem plNetwork_decodes : Decodes .plNetwork PlNetworkFrame := by
  intro bytes junk headThere complete
  constructor
  · rintro ⟨packet, read⟩
    exact (packetDeserializer_complete complete read).1
  · intro lower
    rw [PlNetworkFrame] at lower
    have whole : (bytes.take (declared bytes).toNat).length = (declared bytes).toNat :=
      List.length_take_of_le (by omega)
    have wellFormed : WellFormed (declared bytes).toNat (bytes.take (declared bytes).toNat) := by
      refine ⟨?_, by omega, by omega⟩
      rw [word_take (by omega), whole, Int.toNat_of_nonneg (by omega)]
      rfl
    obtain ⟨packet, read, -⟩ := plNetwork_returnsBody _ _
      (bytes.drop (declared bytes).toNat ++ junk) wellFormed
    rw [← List.append_assoc, List.take_append_drop, whole, Int.toNat_of_nonneg (by omega)] at read
    exact ⟨packet, read⟩

theorem Serializer.valueCountedBytes_reads {ser : Serializer} {count data rest blank : List UInt8}
    (length : Int) (countWhole : count.length = 4) (own : decodeSigned count = data.length)
    (fits : data.length ≤ blank.length) (reads : ser.Reads (count ++ (data ++ rest))) :
    ∃ next, ser.valueCountedBytes blank length = .ok (next, data ++ blank.drop data.length) ∧
      next.Reads rest := by
  have countRead : ∃ next, ser.valueInt32 length = .ok (next, decodeSigned count) ∧
      next.Reads (data ++ rest) :=
    scalar_reads length countWhole (ne_nil_of_length_four countWhole) reads
  obtain ⟨one, first, oneReads⟩ := countRead
  obtain ⟨two, second, twoReads⟩ := valueBytes_reads fits oneReads
  refine ⟨two, ?_, twoReads⟩
  rw [valueCountedBytes, first, ok_bind, own]
  exact second

section Chunks

variable {check length number count data checkTail seq time rest : List UInt8}

/-- A frame of `PL_Common` with a count that fits is decoded, whatever is behind its tail. -/
theorem plCommon_reads (checkWhole : check.length = 4) (lengthWhole : length.length = 4)
    (numberWhole : number.length = 4) (countWhole : count.length = 4)
    (checkTailWhole : checkTail.length = 4) (seqWhole : seq.length = 4) (timeWhole : time.length = 4)
    (counts : decodeSigned count = data.length)
    (own : decodeSigned length = 8 + 4 + (4 + data.length + rest.length : Nat) + 12) :
    let bytes := check ++ (length ++ (number ++ (count ++ (data ++ (checkTail ++ (seq ++
      (time ++ rest)))))))
    ∃ packet, packetDeserializer .plCommon bytes bytes.length = .ok packet := by
  intro bytes
  obtain ⟨ser, created, reads⟩ := Serializer.ofBuffer_reads bytes
  obtain ⟨one, head, headReads⟩ := PacketHead.serialize_reads {} checkWhole lengthWhole reads
  have numberRead : ∃ next, Dialect.plCommon.valueType one Dialect.plCommon.noType =
      .ok (next, decodeSigned number) ∧
        next.Reads (count ++ (data ++ (checkTail ++ (seq ++ (time ++ rest))))) :=
    Serializer.scalar_reads _ numberWhole (ne_nil_of_length_four numberWhole) headReads
  obtain ⟨two, number, numberReads⟩ := numberRead
  have room : data.length ≤
      (List.replicate (4 + data.length + rest.length) (0 : UInt8)).length := by
    rw [List.length_replicate]
    omega
  obtain ⟨three, body, bodyReads⟩ := Serializer.valueCountedBytes_reads
    (4 + data.length + rest.length : Nat) countWhole counts room numberReads
  obtain ⟨four, tail⟩ := PacketTail.serialize_reads checkTailWhole seqWhole timeWhole bodyReads
  have built := Packet.ofSerializer_eq head (PacketBody.serialize_eq
    (bodyLength_eq (decodeSigned_lt lengthWhole) own) number body) tail
  have read : packetDeserializer .plCommon bytes bytes.length =
      Packet.ofSerializer .plCommon ser := by
    rw [packetDeserializer, created, ok_bind]
  exact ⟨_, read.trans built⟩

end Chunks

theorem exists_counted_parts {bytes : List UInt8} {size : Nat} (long : 28 + size ≤ bytes.length) :
    ∃ check length number count data checkTail seq time rest : List UInt8,
      bytes = check ++ (length ++ (number ++ (count ++ (data ++ (checkTail ++ (seq ++
        (time ++ rest))))))) ∧
        check.length = 4 ∧ length.length = 4 ∧ number.length = 4 ∧ count.length = 4 ∧
        data.length = size ∧ checkTail.length = 4 ∧ seq.length = 4 ∧ time.length = 4 := by
  have cut (start width : Nat) : bytes.drop start =
      (bytes.drop start).take width ++ bytes.drop (start + width) := by
    rw [← List.drop_drop, List.take_append_drop]
  refine ⟨bytes.take 4, (bytes.drop 4).take 4, (bytes.drop 8).take 4, (bytes.drop 12).take 4,
    (bytes.drop 16).take size, (bytes.drop (16 + size)).take 4,
    (bytes.drop (16 + size + 4)).take 4, (bytes.drop (16 + size + 4 + 4)).take 4,
    bytes.drop (16 + size + 4 + 4 + 4), ?_, ?_⟩
  · rw [← cut, ← cut, ← cut, ← cut, ← cut 12 4, ← cut 8 4, ← cut 4 4, List.take_append_drop]
  · simp only [List.length_take, List.length_drop]
    omega

theorem plCommon_decodes : Decodes .plCommon PlCommonFrame := by
  intro bytes junk headThere complete
  have limit := declared_lt headThere
  constructor
  · rintro ⟨packet, read⟩
    obtain ⟨lower, one, two, three, oneReads, bodyRead, tailRead⟩ :=
      packetDeserializer_complete complete read
    have whole : (bytes.take (declared bytes).toNat).length = (declared bytes).toNat :=
      List.length_take_of_le (by omega)
    have room : int32 (int32 (declared bytes - PacketHead.length - PacketTail.length) - 4) =
        ((declared bytes).toNat - 24 : Nat) := bodyLength_eq limit (by omega)
    obtain ⟨number, numberRead, dataRead⟩ := PacketBody.serialize_inv room bodyRead
    obtain ⟨-, -, numberReads⟩ := Serializer.scalar_reads_inv oneReads numberRead
    rw [List.drop_drop] at numberReads
    obtain ⟨count, countEq, -, bounds, -, dataReads⟩ :=
      Serializer.valueCountedBytes_inv numberReads dataRead
    obtain ⟨enough, -⟩ := PacketTail.serialize_inv dataReads tailRead
    have same : counted bytes = count := by
      rw [countEq, word_take (by omega)]
      rfl
    simp only [List.length_drop, whole] at enough
    rw [PlCommonFrame, same]
    omega
  · rintro ⟨lower, upper⟩
    have positive : 0 ≤ declared bytes := by omega
    obtain ⟨size, length⟩ := Int.eq_ofNat_of_zero_le positive
    obtain ⟨count, counting⟩ := Int.eq_ofNat_of_zero_le lower
    have whole : (bytes.take size).length = size := List.length_take_of_le (by omega)
    have long : 28 + count ≤ (bytes.take size).length := by omega
    obtain ⟨check, lengthWord, number, countWord, data, checkTail, seq, time, rest, parts,
      checkWhole, lengthWhole, numberWhole, countWhole, dataWhole, checkTailWhole, seqWhole,
      timeWhole⟩ := exists_counted_parts long
    have lengthEq : decodeSigned lengthWord = size := by
      rw [← length, declared, ← word_take (by omega : 4 + 4 ≤ size), parts,
        List.drop_left' checkWhole, List.take_left' lengthWhole]
    have before : (check ++ lengthWord ++ number).length = 12 := by
      rw [List.length_append, List.length_append, checkWhole, lengthWhole, numberWhole]
    have countEq : decodeSigned countWord = data.length := by
      rw [dataWhole, ← counting, counted, ← word_take (by omega : 12 + 4 ≤ size), parts,
        ← List.append_assoc, ← List.append_assoc, List.drop_left' before,
        List.take_left' countWhole]
    have total := congrArg List.length parts
    simp only [List.length_append] at total
    have own : decodeSigned lengthWord =
        8 + 4 + (4 + data.length + rest.length : Nat) + 12 := by
      rw [lengthEq]
      omega
    obtain ⟨packet, read⟩ := plCommon_reads checkWhole lengthWhole numberWhole countWhole
      checkTailWhole seqWhole timeWhole countEq own
    refine ⟨packet, ?_⟩
    have front := packetDeserializer_front .plCommon (bytes.take size) (bytes.drop size ++ junk)
    rw [← List.append_assoc, List.take_append_drop] at front
    rw [length, ← whole, front, parts]
    exact read

/-! One call on any bytes. -/

namespace RecvBuffer

section Parse

variable {T : Type} {decoder : FrameDecoder T} {size : Nat} {parser : RecvBuffer}
  {stored : List UInt8}

theorem Holds.throws (holds : parser.Holds size stored) (headThere : 8 ≤ stored.length)
    (complete : declared stored ≤ stored.length) {failure : Exception}
    (thrown : decoder parser.recvBuffer (declared stored) = .error failure) :
    (parser.parseFront decoder).1.Holds size stored ∧
      (parser.parseFront decoder).2 = { returned := .error failure } := by
  have length := holds.length
  rw [declared] at complete thrown
  rw [parseFront, PacketHead.length, if_neg (by omega), holds.readHead_eq headThere]
  dsimp only
  rw [if_neg (by omega), thrown]
  exact ⟨⟨holds.limit, holds.layout, holds.length, holds.cursor, holds.start⟩, rfl⟩

theorem Holds.decodes (holds : parser.Holds size stored) (sizeFits : size < 0x80000000)
    (headThere : 8 ≤ stored.length) (complete : declared stored ≤ stored.length)
    (positive : 0 ≤ declared stored) {packet : Packet T}
    (decoded : decoder parser.recvBuffer (declared stored) = .ok packet) :
    (parser.parseFront decoder).1.Holds size (stored.drop (declared stored).toNat) ∧
      (parser.parseFront decoder).2 = { returned := .ok true, enqueued := some packet.body } := by
  have length := holds.length
  have whole : ((stored.take (declared stored).toNat).length : Int) = declared stored := by
    rw [List.length_take]
    omega
  have parts := holds
  rw [← List.take_append_drop (declared stored).toNat stored] at parts
  obtain ⟨trimmed, trimmedHolds, trim⟩ := parts.trims
    { checkHead := decode (stored.take 4), packetLength := declared stored } sizeFits
  rw [whole] at trim
  rw [declared] at complete decoded trim
  rw [parseFront, PacketHead.length, if_neg (by omega), holds.readHead_eq headThere]
  dsimp only
  rw [if_neg (by omega), decoded]
  dsimp only
  rw [trim]
  exact ⟨trimmedHolds, rfl⟩

end Parse

/-- Where the bytes of an event do not fit, the test or the copy fails. Near the end of the range,
the sum of the lengths is negative and passes the test. -/
theorem Holds.refuses {size : Nat} {parser : RecvBuffer} {stored : List UInt8}
    (holds : parser.Holds size stored) (event : RecvEvent size) (sizeFits : size < 0x80000000)
    (full : size < (stored ++ event.chunk).length) :
    parser.maxBufferSize < int32 (parser.currPos + event.transferred) ∨
      ¬parser.maxBufferSize < int32 (parser.currPos + event.transferred) ∧
        arrayCopy event.buffer event.offset parser.recvBuffer parser.currPos event.transferred =
          .error .argument := by
  obtain ⟨limit, ⟨junk, layout, whole⟩, -, cursor, -⟩ := holds
  have inside := event.inside
  have chunkLength : event.chunk.length ≤ event.transferred := List.length_take_le _ _
  rw [List.length_append] at full whole
  rw [limit, cursor]
  by_cases fits : (stored.length : Int) + event.transferred < 0x80000000
  · rw [int32_of_fits (by omega) fits]
    exact Or.inl (by omega)
  · have short : parser.recvBuffer.length < (stored.length : Int) + event.transferred := by
      rw [layout, List.length_append]
      omega
    rw [int32_of_overflow (by omega) (by omega)]
    refine Or.inr ⟨by omega, ?_⟩
    rw [arrayCopy, if_neg (by omega), if_pos (Or.inr short)]

theorem Holds.overfull {T : Type} (decoder : FrameDecoder T) {size : Nat} {parser : RecvBuffer}
    {stored : List UInt8} (holds : parser.Holds size stored) (event : RecvEvent size)
    (sizeFits : size < 0x80000000) (full : size < (stored ++ event.chunk).length) :
    ∃ returned, returned ≠ .ok true ∧
      parser.dataParsing decoder event.buffer event.offset event.transferred =
        (parser, { returned := returned }) := by
  rcases holds.refuses event sizeFits full with refused | ⟨passed, thrown⟩
  · refine ⟨.ok false, by simp, ?_⟩
    rw [dataParsing, if_pos refused]
  · refine ⟨.error .argument, by simp, ?_⟩
    rw [dataParsing, if_neg passed, thrown]

def stored (parser : RecvBuffer) : List UInt8 := parser.recvBuffer.take parser.recvLength.toNat

end RecvBuffer

def NetSession.stored (session : NetSession) : List UInt8 :=
  (session.recvBuffer.getD []).take session.recvLength.toNat

/-- The bytes fit the buffer, and a frame that is complete there is one that is decoded. -/
structure Acceptable (size : Nat) (sound : List UInt8 → Prop) (bytes : List UInt8) : Prop where
  fits : bytes.length ≤ size
  front : 8 ≤ bytes.length → declared bytes ≤ bytes.length → sound bytes

/-- A call on any bytes. The buffer goes on holding what was received, and the call returns
`true` exactly on bytes that are acceptable. -/
theorem RecvBuffer.Holds.answers {T : Type} {dialect : Dialect T} {sound : List UInt8 → Prop}
    (decodes : Decodes dialect sound) {size : Nat} {parser : RecvBuffer} {stored : List UInt8}
    (holds : parser.Holds size stored) (event : RecvEvent size) (sizeFits : size < 0x80000000) :
    let call := RecvBuffer.onEvent (packetDeserializer dialect) parser event
    (∃ left, call.1.Holds size left) ∧
      (call.2.returned = .ok true ↔ Acceptable size sound (stored ++ event.chunk)) := by
  intro call
  by_cases fits : (stored ++ event.chunk).length ≤ size
  · obtain ⟨filled, filledHolds, called⟩ :=
      holds.fills (packetDeserializer dialect) event sizeFits fits
    obtain ⟨bytes, bytesEq⟩ : ∃ bytes, bytes = stored ++ event.chunk := ⟨_, rfl⟩
    rw [← bytesEq] at fits filledHolds ⊢
    have front : call = filled.parseFront (packetDeserializer dialect) := called
    rw [front]
    by_cases complete : 8 ≤ bytes.length ∧ declared bytes ≤ bytes.length
    · obtain ⟨headThere, complete⟩ := complete
      obtain ⟨junk, layout, -⟩ := filledHolds.layout
      have sound_iff := decodes bytes junk headThere complete
      cases decoded : packetDeserializer dialect (bytes ++ junk) (declared bytes) with
      | error failure =>
          rw [← layout] at decoded
          obtain ⟨nextHolds, reply⟩ := filledHolds.throws headThere complete decoded
          refine ⟨⟨_, nextHolds⟩, ?_⟩
          rw [reply]
          refine iff_of_false (by simp) ?_
          intro acceptable
          obtain ⟨packet, read⟩ := sound_iff.mpr (acceptable.front headThere complete)
          rw [← layout, decoded] at read
          cases read
      | ok packet =>
          have lower := (packetDeserializer_complete complete decoded).1
          have accepted := sound_iff.mp ⟨packet, decoded⟩
          rw [← layout] at decoded
          obtain ⟨nextHolds, reply⟩ :=
            filledHolds.decodes sizeFits headThere complete (by omega) decoded
          refine ⟨⟨_, nextHolds⟩, ?_⟩
          rw [reply]
          exact iff_of_true rfl ⟨fits, fun _ _ => accepted⟩
    · have short (headThere : 8 ≤ bytes.length) : bytes.length < declared bytes := by
        by_contra late
        exact complete ⟨headThere, by omega⟩
      obtain ⟨nextHolds, reply⟩ := filledHolds.waits (packetDeserializer dialect) short
      refine ⟨⟨_, nextHolds⟩, ?_⟩
      rw [reply]
      exact iff_of_true rfl
        ⟨fits, fun headThere whole => absurd ⟨headThere, whole⟩ complete⟩
  · obtain ⟨returned, failed, called⟩ :=
      holds.overfull (packetDeserializer dialect) event sizeFits (by omega)
    have same : call = (parser, { returned := returned }) := called
    rw [same]
    exact ⟨⟨stored, holds⟩, iff_of_false failed (fun acceptable => fits acceptable.fits)⟩

/-! Whole connections. -/

namespace Connection

variable {σ T : Type} {size : Nat}

/-- The call did not throw, and if it returned `false`, the connection is closed. -/
def Keeps (result : Connection σ × Option (ParseReply T)) : Prop :=
  ∀ reply, result.2 = some reply →
    (∃ accepted, reply.returned = .ok accepted) ∧
      (reply.returned = .ok false → result.1.socket = false)

/-- Every call of a run keeps the bytes or closes the connection. -/
def Survives (dataParsing : σ → RecvEvent size → σ × ParseReply T) (start : Connection σ)
    (run : List (RecvArgs size)) : Prop :=
  ∀ before args after, run = before ++ args :: after →
    Keeps ((Run.run (onEvent dataParsing) start before).1.onEvent dataParsing args)

/-- What the buffer holds before an event and the event's bytes are acceptable. -/
def Accepts (stored : σ → List UInt8) (sound : List UInt8 → Prop) (connection : Connection σ) :
    RecvArgs size → Prop
  | .socketError => True
  | .success event =>
      connection.receiving → 0 < event.transferred →
        Acceptable size sound (stored connection.parser ++ event.chunk)

def AcceptsAll (stored : σ → List UInt8) (sound : List UInt8 → Prop)
    (dataParsing : σ → RecvEvent size → σ × ParseReply T) (start : Connection σ)
    (run : List (RecvArgs size)) : Prop :=
  ∀ before args after, run = before ++ args :: after →
    (Run.run (onEvent dataParsing) start before).1.Accepts stored sound args

section Runs

variable {dataParsing : σ → RecvEvent size → σ × ParseReply T} {holding : σ → Prop}
  {stored : σ → List UInt8} {sound : List UInt8 → Prop}

/-- What one call of a parser does, as far as a connection depends on it. -/
def Answers (dataParsing : σ → RecvEvent size → σ × ParseReply T) (holding : σ → Prop)
    (stored : σ → List UInt8) (sound : List UInt8 → Prop) : Prop :=
  ∀ parser event, holding parser →
    holding (dataParsing parser event).1 ∧
      ((dataParsing parser event).2.returned = .ok true ↔
        Acceptable size sound (stored parser ++ event.chunk))

def Ready (holding : σ → Prop) (connection : Connection σ) : Prop :=
  connection.receiving → connection.socket ∧ holding connection.parser

theorem onRecvCompleted_error (connection : Connection σ) {event : RecvEvent size}
    (some : 0 < event.transferred) {failure : Exception}
    (returned : (dataParsing connection.parser event).2.returned = .error failure) :
    connection.onRecvCompleted dataParsing (.success event) =
      ({ socket := connection.socket, receiving := false,
         parser := (dataParsing connection.parser event).1 },
        Option.some (dataParsing connection.parser event).2) := by
  simp only [onRecvCompleted, if_pos some, returned]

theorem onRecvCompleted_ok (connection : Connection σ) {event : RecvEvent size}
    (some : 0 < event.transferred) {accepted : Bool}
    (returned : (dataParsing connection.parser event).2.returned = .ok accepted) :
    connection.onRecvCompleted dataParsing (.success event) =
      ({ socket := connection.socket, receiving := connection.socket,
         parser := (dataParsing connection.parser event).1 },
        Option.some (dataParsing connection.parser event).2) := by
  simp only [onRecvCompleted, if_pos some, returned, doRecv]

theorem Ready.onEvent (answers : Answers dataParsing holding stored sound)
    {connection : Connection σ} (ready : connection.Ready holding) (args : RecvArgs size) :
    (connection.onEvent dataParsing args).1.Ready holding ∧
      (Keeps (connection.onEvent dataParsing args) ↔ connection.Accepts stored sound args) := by
  by_cases receiving : connection.receiving
  · obtain ⟨socket, holds⟩ := ready receiving
    rw [Connection.onEvent, if_pos receiving]
    cases args with
    | socketError =>
        exact ⟨fun closed => absurd closed (by simp [onRecvCompleted, disconnect, doRecv]),
          iff_of_true (fun _ none => by cases none) trivial⟩
    | success event =>
        by_cases some : 0 < event.transferred
        · obtain ⟨nextHolds, returned_iff⟩ := answers connection.parser event holds
          have accepts_iff : connection.Accepts stored sound (.success event) ↔
              (dataParsing connection.parser event).2.returned = .ok true := by
            rw [returned_iff]
            exact ⟨fun accepts => accepts receiving some, fun acceptable _ _ => acceptable⟩
          rw [accepts_iff]
          cases returned : (dataParsing connection.parser event).2.returned with
          | error failure =>
              rw [onRecvCompleted_error connection some returned]
              refine ⟨fun idle => absurd idle Bool.false_ne_true, iff_of_false ?_ (by simp)⟩
              intro keeps
              obtain ⟨⟨accepted, ok⟩, -⟩ := keeps _ rfl
              rw [returned] at ok
              cases ok
          | ok accepted =>
              rw [onRecvCompleted_ok connection some returned]
              refine ⟨fun _ => ⟨socket, nextHolds⟩, ?_⟩
              constructor
              · intro keeps
                cases accepted with
                | true => rfl
                | false =>
                    have closed := (keeps _ rfl).2 returned
                    exact absurd (socket.symm.trans closed) (by simp)
              · intro true reply same
                obtain rfl := Option.some.inj same
                rw [returned, true]
                exact ⟨⟨_, rfl⟩, fun false => by cases false⟩
        · rw [onRecvCompleted, if_neg some]
          exact ⟨fun closed => absurd closed (by simp [disconnect, doRecv]),
            iff_of_true (fun _ none => by cases none) (fun _ more => absurd more some)⟩
  · rw [Connection.onEvent, if_neg receiving]
    refine ⟨ready, iff_of_true (fun _ none => by cases none) ?_⟩
    cases args with
    | socketError => trivial
    | success event => exact fun started => absurd started receiving

theorem Ready.run (answers : Answers dataParsing holding stored sound) {start : Connection σ}
    (ready : start.Ready holding) (run : List (RecvArgs size)) :
    (Run.run (Connection.onEvent dataParsing) start run).1.Ready holding := by
  induction run generalizing start with
  | nil => exact ready
  | cons args run ih => exact ih (ready.onEvent answers args).1

theorem survives_iff (answers : Answers dataParsing holding stored sound) {start : Connection σ}
    (ready : start.Ready holding) (run : List (RecvArgs size)) :
    Survives dataParsing start run ↔ AcceptsAll stored sound dataParsing start run := by
  constructor
  · intro survives before args after split
    exact ((ready.run answers before).onEvent answers args).2.mp (survives before args after split)
  · intro accepts before args after split
    exact ((ready.run answers before).onEvent answers args).2.mpr (accepts before args after split)

end Runs

end Connection

theorem RecvBuffer.Holds.stored_eq {parser : RecvBuffer} {size : Nat} {bytes : List UInt8}
    (holds : parser.Holds size bytes) : parser.stored = bytes := holds.take_eq

theorem packetParser_answers :
    Connection.Answers PacketParser.dataParsing
      (fun parser => ∃ bytes, parser.Holds PacketParser.maxBufferSize bytes)
      RecvBuffer.stored PlNetworkFrame := by
  rintro parser event ⟨bytes, holds⟩
  rw [holds.stored_eq]
  exact holds.answers plNetwork_decodes event (by decide)

theorem playerSession_answers {size : Nat} (sizeFits : size < 0x80000000) :
    Connection.Answers (World.PlayerSession.dataParsing (packetDeserializer .plCommon) :
        NetSession → RecvEvent size → NetSession × ParseReply Int)
      (fun session => ∃ parser bytes, session = .ofRecvBuffer parser ∧ parser.Holds size bytes)
      NetSession.stored PlCommonFrame := by
  rintro session event ⟨parser, bytes, rfl, holds⟩
  obtain ⟨⟨left, nextHolds⟩, returned_iff⟩ := holds.answers plCommon_decodes event sizeFits
  have same : (NetSession.ofRecvBuffer parser).stored = bytes := holds.stored_eq
  rw [same]
  exact ⟨⟨_, left, rfl, nextHolds⟩, returned_iff⟩

theorem ready_new {σ : Type} {holding : σ → Prop} {parser : σ} (holds : holding parser) :
    (Connection.new parser).Ready holding := fun _ => ⟨rfl, holds⟩

theorem packetParser_ready :
    (Connection.new PacketParser.new).Ready
      fun parser => ∃ bytes, parser.Holds PacketParser.maxBufferSize bytes :=
  ready_new ⟨[], RecvBuffer.new_holds _⟩

theorem playerSession_ready (size : Nat) :
    (Connection.new (NetSession.new size)).Ready
      fun session => ∃ parser bytes, session = .ofRecvBuffer parser ∧ parser.Holds size bytes :=
  ready_new ⟨_, [], rfl, RecvBuffer.new_holds size⟩

/-- No call throws, and none refuses bytes on a connection that stays open, exactly in the runs in
which every event leaves bytes in the buffer that fit it and start with a frame that is incomplete
or that the decoder takes. For `PL_Network` such a frame says that it has 24 bytes or more, for
`PL_Common` it says that it has 28 and the bytes it counts, and does not count fewer than none. -/
theorem dataParsing_survives_iff (first : List (RecvArgs PacketParser.maxBufferSize)) (size : Nat)
    (sizeFits : size < 0x80000000) (second : List (RecvArgs size)) :
    (Connection.Survives PacketParser.dataParsing (.new PacketParser.new) first ↔
        Connection.AcceptsAll RecvBuffer.stored PlNetworkFrame PacketParser.dataParsing
          (.new PacketParser.new) first) ∧
      (Connection.Survives (World.PlayerSession.dataParsing (packetDeserializer .plCommon))
          (.new (NetSession.new size)) second ↔
        Connection.AcceptsAll NetSession.stored PlCommonFrame
          (World.PlayerSession.dataParsing (packetDeserializer .plCommon))
          (.new (NetSession.new size)) second) :=
  ⟨Connection.survives_iff packetParser_answers packetParser_ready first,
    Connection.survives_iff (playerSession_answers sizeFits) (playerSession_ready size) second⟩

theorem single_split {α : Type} {before after : List α} {only one : α}
    (split : [only] = before ++ one :: after) : before = [] ∧ one = only := by
  cases before with
  | nil => exact ⟨rfl, (List.cons.inj split).1.symm⟩
  | cons first before => simp at split

/-- The frame of four zero bytes passes both. -/
theorem dataParsing_survives_zeroFrame :
    let event := RecvEvent.ofChunk PacketParser.maxBufferSize zeroFrame (by decide)
    Connection.Survives PacketParser.dataParsing (.new PacketParser.new) [.success event] ∧
      Connection.Survives (World.PlayerSession.dataParsing (packetDeserializer .plCommon))
        (.new (NetSession.new PacketParser.maxBufferSize)) [.success event] := by
  intro event
  have both := dataParsing_survives_iff [.success event] PacketParser.maxBufferSize (by decide)
    [.success event]
  have chunk : event.chunk = zeroFrame := chunk_ofChunk _
  constructor
  · refine both.1.mpr ?_
    intro before args after split
    obtain ⟨rfl, rfl⟩ := single_split split
    intro _ _
    rw [chunk]
    exact ⟨by decide, fun _ _ => by decide⟩
  · refine both.2.mpr ?_
    intro before args after split
    obtain ⟨rfl, rfl⟩ := single_split split
    intro _ _
    rw [chunk]
    exact ⟨by decide, fun _ _ => by decide⟩

def negativeFrame : List UInt8 := [0, 0, 0, 0, 255, 255, 255, 255]

theorem negativeFrame_not_survived :
    ¬(∀ run, Connection.Survives PacketParser.dataParsing (.new PacketParser.new) run) ∧
      ¬∀ run : List (RecvArgs PacketParser.maxBufferSize),
        Connection.Survives (World.PlayerSession.dataParsing (packetDeserializer .plCommon))
          (.new (NetSession.new PacketParser.maxBufferSize)) run := by
  have chunk : (RecvEvent.ofChunk PacketParser.maxBufferSize negativeFrame (by decide)).chunk =
      negativeFrame := chunk_ofChunk _
  constructor
  · intro survives
    have accepts := (Connection.survives_iff packetParser_answers packetParser_ready _).mp
      (survives [.success (.ofChunk _ negativeFrame (by decide))]) [] _ [] rfl rfl (by decide)
    rw [chunk] at accepts
    exact absurd (accepts.front (by decide) (by decide)) (by decide)
  · intro survives
    have accepts := (Connection.survives_iff (playerSession_answers (by decide))
      (playerSession_ready _) _).mp
      (survives [.success (.ofChunk _ negativeFrame (by decide))]) [] _ [] rfl rfl (by decide)
    rw [chunk] at accepts
    exact absurd (accepts.front (by decide) (by decide)) (by decide)

end ProjectPl.Sharp
