import ProjectPl.Lib.Framing
import ProjectPl.Lib.Run
import ProjectPl.SharpPacket
import ProjectPl.SharpParserCore

/-!
The receive buffers of the C# servers on streams of whole frames. The buffer always starts with
the bytes that were received and not yet enqueued, so nothing is lost, doubled or reordered. But
a call takes one frame at most: where an event completes two, the second stays behind until
another event comes.
-/

namespace ProjectPl.Sharp

open DotNet LittleEndian Framing

/-- A frame that a buffer of the given size can hold. The check words are not looked at. -/
structure WellFormed (size : Nat) (frame : List UInt8) : Prop where
  own : decodeSigned ((frame.drop 4).take 4) = frame.length
  lower : 24 ≤ frame.length
  upper : frame.length ≤ size

def bodyOf {T : Type} (dialect : Dialect T) (frame : List UInt8) : PacketBody T :=
  { packetType := dialect.decodeType ((frame.drop 8).take 4)
    packetData := (frame.drop 12).take (frame.length - 24) }

def ReturnsBody {T : Type} (dialect : Dialect T) (decoder : FrameDecoder T) : Prop :=
  ∀ size frame rest, WellFormed size frame →
    ∃ packet, decoder (frame ++ rest) frame.length = .ok packet ∧
      packet.body = bodyOf dialect frame

theorem packetDeserializer_front {T : Type} (dialect : Dialect T) (frame rest : List UInt8) :
    packetDeserializer dialect (frame ++ rest) frame.length =
      packetDeserializer dialect frame frame.length := by
  have inside : frame.length ≤ (frame ++ rest).length := by
    rw [List.length_append]
    omega
  have copied := Serializer.ofBuffer_take inside
  rw [List.take_left] at copied
  rw [packetDeserializer, packetDeserializer, copied]

theorem plNetwork_returnsBody : ReturnsBody .plNetwork (packetDeserializer .plNetwork) := by
  intro size frame rest wellFormed
  obtain ⟨check, length, number, data, checkTail, seq, time, rfl, checkWhole, lengthWhole,
    numberWhole, checkTailWhole, seqWhole, timeWhole⟩ := exists_parts wellFormed.lower
  have own := wellFormed.own
  rw [List.drop_left' checkWhole, List.take_left' lengthWhole] at own
  have total : decodeSigned length = 8 + 4 + data.length + 12 := by
    rw [own]
    simp only [List.length_append]
    omega
  rw [packetDeserializer_front]
  refine ⟨_, plNetwork_reads checkWhole lengthWhole numberWhole checkTailWhole seqWhole timeWhole
    total, ?_⟩
  have before : (check ++ length).length = 8 := by
    rw [List.length_append, checkWhole, lengthWhole]
  have front : (check ++ length ++ number).length = 12 := by
    rw [List.length_append, before, numberWhole]
  have inner : (check ++ (length ++ (number ++ (data ++ (checkTail ++ (seq ++ time)))))).length -
      24 = data.length := by
    simp only [List.length_append]
    omega
  rw [bodyOf, inner, ← List.append_assoc, List.drop_left' before, List.take_left' numberWhole,
    ← List.append_assoc, List.drop_left' front, List.take_left]
  rfl

namespace RecvBuffer

/-- The bytes received and not yet enqueued are at the front of the buffer. -/
structure Holds (parser : RecvBuffer) (size : Nat) (stored : List UInt8) : Prop where
  limit : parser.maxBufferSize = size
  layout : ∃ junk, parser.recvBuffer = stored ++ junk ∧ (stored ++ junk).length = size
  length : parser.recvLength = stored.length
  cursor : parser.currPos = stored.length
  start : parser.readPos = 0

theorem new_holds (size : Nat) : (new size).Holds size [] :=
  ⟨rfl, ⟨_, rfl, List.length_replicate⟩, rfl, rfl, rfl⟩

theorem Holds.take_eq {parser : RecvBuffer} {size : Nat} {stored : List UInt8}
    (holds : parser.Holds size stored) :
    parser.recvBuffer.take parser.recvLength.toNat = stored := by
  obtain ⟨junk, layout, -⟩ := holds.layout
  rw [layout, holds.length, Int.toNat_natCast, List.take_left]

section Parse

variable {T : Type} (decoder : FrameDecoder T) {size : Nat} {parser : RecvBuffer}
  {stored : List UInt8}

def filledWith (parser : RecvBuffer) (recvBuffer : List UInt8) (transferred : Int) : RecvBuffer :=
  { parser with
    recvBuffer := recvBuffer
    currPos := int32 (parser.currPos + transferred)
    recvLength := int32 (parser.recvLength + transferred) }

theorem Holds.copies (holds : parser.Holds size stored) (event : RecvEvent size)
    (sizeFits : size < 0x80000000) (fits : (stored ++ event.chunk).length ≤ size) :
    ¬parser.maxBufferSize < int32 (parser.currPos + event.transferred) ∧
      ∃ recvBuffer, arrayCopy event.buffer event.offset parser.recvBuffer parser.currPos
          event.transferred = .ok recvBuffer ∧
        (parser.filledWith recvBuffer event.transferred).Holds size (stored ++ event.chunk) := by
  obtain ⟨limit, ⟨junk, layout, whole⟩, length, cursor, start⟩ := holds
  have sized := event.sized
  have inside := event.inside
  have chunkLength : event.chunk.length = event.transferred := by
    rw [RecvEvent.chunk, List.length_take, List.length_drop]
    omega
  rw [List.length_append] at fits whole
  have split : event.buffer = event.buffer.take event.offset ++ event.chunk ++
      event.buffer.drop (event.offset + event.transferred) := by
    rw [RecvEvent.chunk, List.append_assoc, ← List.drop_drop, List.take_append_drop,
      List.take_append_drop]
  have offset : (event.buffer.take event.offset).length = event.offset := by
    rw [List.length_take]
    omega
  have old : (junk.take event.transferred).length = event.chunk.length := by
    rw [List.length_take]
    omega
  have copied := arrayCopy_append (event.buffer.take event.offset)
    (event.buffer.drop (event.offset + event.transferred)) stored (junk.drop event.transferred) old
  rw [← split, offset, chunkLength, List.append_assoc stored, List.take_append_drop, ← layout,
    ← cursor] at copied
  have exact : int32 (parser.currPos + event.transferred) = stored.length + event.transferred := by
    rw [cursor]
    exact int32_of_fits (by omega) (by omega)
  have exactLength : int32 (parser.recvLength + event.transferred) =
      stored.length + event.transferred := by
    rw [length]
    exact int32_of_fits (by omega) (by omega)
  refine ⟨?_, _, copied, limit, ⟨junk.drop event.transferred, rfl, ?_⟩, ?_, ?_, start⟩
  · rw [exact, limit]
    omega
  · simp only [List.length_append, List.length_drop]
    omega
  · rw [List.length_append, chunkLength, Nat.cast_add]
    exact exactLength
  · rw [List.length_append, chunkLength, Nat.cast_add]
    exact exact

theorem Holds.fills (holds : parser.Holds size stored) (event : RecvEvent size)
    (sizeFits : size < 0x80000000) (fits : (stored ++ event.chunk).length ≤ size) :
    ∃ filled : RecvBuffer, filled.Holds size (stored ++ event.chunk) ∧
      parser.dataParsing decoder event.buffer event.offset event.transferred =
        filled.parseFront decoder := by
  obtain ⟨room, recvBuffer, copied, filledHolds⟩ := holds.copies event sizeFits fits
  refine ⟨_, filledHolds, ?_⟩
  rw [dataParsing, if_neg room, copied]
  rfl

theorem Holds.rejects (holds : parser.Holds size stored) (event : RecvEvent size)
    (sizeFits : size ≤ PacketParser.maxBufferSize)
    (full : size < (stored ++ event.chunk).length) :
    parser.dataParsing decoder event.buffer event.offset event.transferred =
      (parser, { returned := .ok false }) := by
  have bound : PacketParser.maxBufferSize = 10240 := rfl
  obtain ⟨limit, ⟨junk, layout, whole⟩, -, cursor, -⟩ := holds
  have inside := event.inside
  have chunkLength : event.chunk.length ≤ event.transferred := List.length_take_le _ _
  rw [List.length_append] at full whole
  have exact : int32 (parser.currPos + event.transferred) = stored.length + event.transferred := by
    rw [cursor]
    exact int32_of_fits (by omega) (by omega)
  rw [dataParsing, exact, limit, if_pos (by omega)]

theorem Holds.readHead_eq (holds : parser.Holds size stored) (headThere : 8 ≤ stored.length) :
    parser.readHead =
      .ok { checkHead := decode (stored.take 4),
            packetLength := decodeSigned ((stored.drop 4).take 4) } := by
  obtain ⟨-, ⟨junk, layout, -⟩, length, -, -⟩ := holds
  have inside : stored.length ≤ (stored ++ junk).length := by
    rw [List.length_append]
    omega
  have copied := Serializer.ofBuffer_take inside
  rw [List.take_left] at copied
  obtain ⟨ser, created, reads⟩ := Serializer.ofBuffer_reads stored
  have cut : stored = stored.take 4 ++ ((stored.drop 4).take 4 ++ stored.drop 8) := by
    rw [show 8 = 4 + 4 from rfl, ← List.drop_drop, List.take_append_drop, List.take_append_drop]
  rw [cut] at reads
  obtain ⟨next, read, -⟩ := PacketHead.serialize_reads parser.head
    (by rw [List.length_take]; omega) (by rw [List.length_take, List.length_drop]; omega) reads
  rw [readHead, layout, length, ← copied, created, ok_bind, read]
  rfl

theorem Holds.waits (holds : parser.Holds size stored)
    (short : 8 ≤ stored.length → stored.length < decodeSigned ((stored.drop 4).take 4)) :
    (parser.parseFront decoder).1.Holds size stored ∧
      (parser.parseFront decoder).2 = { returned := .ok true } := by
  have length := holds.length
  by_cases headThere : 8 ≤ stored.length
  · have unfinished := short headThere
    rw [parseFront, PacketHead.length, if_neg (by omega), holds.readHead_eq headThere]
    dsimp only
    rw [if_pos (by omega)]
    exact ⟨⟨holds.limit, holds.layout, holds.length, holds.cursor, holds.start⟩, rfl⟩
  · rw [parseFront, PacketHead.length, if_pos (by omega)]
    exact ⟨holds, rfl⟩

end Parse

theorem Holds.trims {parser : RecvBuffer} {size : Nat} {frame more : List UInt8}
    (holds : parser.Holds size (frame ++ more)) (head : PacketHead) (sizeFits : size < 0x80000000) :
    ∃ trimmed : RecvBuffer, trimmed.Holds size more ∧
      { parser with head := head, readPos := frame.length }.bufferTrim = .ok trimmed := by
  obtain ⟨limit, ⟨junk, layout, whole⟩, length, cursor, -⟩ := holds
  rw [List.append_assoc] at layout whole
  have total := whole
  rw [List.length_append] at total length cursor
  have keep : int32 (((frame ++ (more ++ junk)).length : Int) - frame.length) =
      (more ++ junk).length := by
    rw [whole, int32_of_fits (by omega) (by omega)]
    omega
  have shift : int32 (((frame.length + more.length : Nat) : Int) - frame.length) =
      more.length := by
    rw [List.length_append] at total
    rw [int32_of_fits (by omega) (by omega)]
    omega
  have old : ((frame ++ (more ++ junk)).take (more ++ junk).length).length =
      (more ++ junk).length := List.length_take_of_le (by rw [whole]; omega)
  have copied := arrayCopy_append frame [] []
    ((frame ++ (more ++ junk)).drop (more ++ junk).length) old
  rw [List.append_nil, List.nil_append, List.nil_append, List.take_append_drop, List.length_nil,
    Nat.cast_zero] at copied
  refine ⟨{ parser with
    recvBuffer := more ++ junk ++ (frame ++ (more ++ junk)).drop (more ++ junk).length
    head := head
    recvLength := more.length
    currPos := more.length
    readPos := 0 }, ⟨limit, ⟨_, List.append_assoc _ _ _, ?_⟩, rfl, rfl, rfl⟩, ?_⟩
  · rw [List.length_append, List.length_append, List.length_drop, whole]
    rw [List.length_append] at total ⊢
    omega
  · rw [bufferTrim]
    dsimp only
    rw [layout, keep, copied, length, cursor, shift]
    rfl

theorem Holds.takes {T : Type} {dialect : Dialect T} {decoder : FrameDecoder T}
    (returnsBody : ReturnsBody dialect decoder) {size : Nat} {parser : RecvBuffer}
    {frame more : List UInt8} (holds : parser.Holds size (frame ++ more))
    (sizeFits : size < 0x80000000) (wellFormed : WellFormed size frame) :
    (parser.parseFront decoder).1.Holds size more ∧
      (parser.parseFront decoder).2 =
        { returned := .ok true, enqueued := some (bodyOf dialect frame) } := by
  obtain ⟨own, lower, upper⟩ := id wellFormed
  have total : (frame ++ more).length = frame.length + more.length := List.length_append
  have length := holds.length
  have lengthWord : ((frame ++ more).drop 4).take 4 = (frame.drop 4).take 4 := by
    rw [List.drop_append_of_le_length (by omega), List.take_append_of_le_length]
    rw [List.length_drop]
    omega
  obtain ⟨junk, layout, -⟩ := holds.layout
  rw [List.append_assoc] at layout
  obtain ⟨packet, decoded, body⟩ := returnsBody size frame (more ++ junk) wellFormed
  obtain ⟨trimmed, trimmedHolds, trim⟩ := holds.trims
    { checkHead := decode ((frame ++ more).take 4), packetLength := frame.length } sizeFits
  rw [parseFront, PacketHead.length, if_neg (by omega), holds.readHead_eq (by omega), lengthWord,
    own]
  dsimp only
  rw [if_neg (by omega), layout, decoded]
  dsimp only
  rw [layout] at trim
  rw [trim, ← body]
  exact ⟨trimmedHolds, rfl⟩

/-- One call on a stream of whole frames. It waits while the first frame is incomplete, and else
takes that frame and no other. -/
theorem Holds.step {T : Type} {dialect : Dialect T} {decoder : FrameDecoder T}
    (returnsBody : ReturnsBody dialect decoder) {size : Nat} {parser : RecvBuffer}
    {stored later : List UInt8} {frames : List (List UInt8)} (holds : parser.Holds size stored)
    (event : RecvEvent size) (sizeFits : size < 0x80000000)
    (fits : (stored ++ event.chunk).length ≤ size)
    (wellFormed : ∀ frame ∈ frames, WellFormed size frame)
    (whole : stored ++ event.chunk ++ later = frames.flatten) :
    let call := parser.dataParsing decoder event.buffer event.offset event.transferred
    (within frames (stored ++ event.chunk).length = [] ∧
        call.1.Holds size (stored ++ event.chunk) ∧ call.2 = { returned := .ok true }) ∨
      ∃ frame rest more, frames = frame :: rest ∧ stored ++ event.chunk = frame ++ more ∧
        call.1.Holds size more ∧
        call.2 = { returned := .ok true, enqueued := some (bodyOf dialect frame) } := by
  intro call
  obtain ⟨filled, filledHolds, called⟩ := holds.fills decoder event sizeFits fits
  have front : call = filled.parseFront decoder := called
  rw [front]
  cases frames with
  | nil =>
      have empty : stored ++ event.chunk = [] := by
        simp only [List.flatten_nil, List.append_eq_nil_iff] at whole ⊢
        exact whole.1
      refine Or.inl ⟨rfl, filledHolds.waits decoder ?_⟩
      rw [empty]
      exact fun impossible => absurd impossible (by decide)
  | cons frame rest =>
      have frameFits := wellFormed frame (by simp)
      rw [List.flatten_cons] at whole
      rcases List.append_eq_append_iff.mp whole with ⟨missing, frameEq, -⟩ | ⟨more, split, -⟩
      · by_cases complete : missing = []
        · rw [complete, List.append_nil] at frameEq
          rw [← frameEq, ← List.append_nil frame] at filledHolds
          exact Or.inr ⟨frame, rest, [], rfl, by rw [frameEq, List.append_nil],
            filledHolds.takes returnsBody sizeFits frameFits⟩
        · have some := List.length_pos_of_ne_nil complete
          have lengths := congrArg List.length frameEq
          rw [List.length_append] at lengths
          refine Or.inl ⟨within_of_short (by omega) rest, filledHolds.waits decoder ?_⟩
          intro headThere
          have own := frameFits.own
          have lengthWord : (frame.drop 4).take 4 = ((stored ++ event.chunk).drop 4).take 4 := by
            rw [frameEq, List.drop_append_of_le_length (by omega), List.take_append_of_le_length]
            rw [List.length_drop]
            omega
          rw [← lengthWord, own]
          omega
      · rw [split] at filledHolds
        exact Or.inr ⟨frame, rest, more, rfl, split, filledHolds.takes returnsBody sizeFits frameFits⟩

/-! Whole runs. -/

def onEvent {T : Type} (decoder : FrameDecoder T) {size : Nat} (parser : RecvBuffer)
    (event : RecvEvent size) : RecvBuffer × ParseReply T :=
  parser.dataParsing decoder event.buffer event.offset event.transferred

end RecvBuffer

def received {size : Nat} (events : List (RecvEvent size)) : List UInt8 :=
  events.flatMap RecvEvent.chunk

def enqueued {T : Type} (replies : List (ParseReply T)) : List (PacketBody T) :=
  replies.filterMap ParseReply.enqueued

section Run

variable {T : Type} {dialect : Dialect T} {decoder : FrameDecoder T} {size : Nat}

/-- The frames taken and the bytes left in the buffer make up the stream, as long as no call is
refused. -/
theorem run_conserves (returnsBody : ReturnsBody dialect decoder)
    (sizeFits : size ≤ PacketParser.maxBufferSize) {parser : RecvBuffer}
    {stored later : List UInt8} {frames : List (List UInt8)} {events : List (RecvEvent size)}
    (holds : parser.Holds size stored) (wellFormed : ∀ frame ∈ frames, WellFormed size frame)
    (whole : stored ++ received events ++ later = frames.flatten)
    (accepted : ∀ reply ∈ (Run.run (RecvBuffer.onEvent decoder) parser events).2,
      reply.returned ≠ .ok false) :
    ∃ count left, (Run.run (RecvBuffer.onEvent decoder) parser events).1.Holds size left ∧
      (∀ reply ∈ (Run.run (RecvBuffer.onEvent decoder) parser events).2,
        reply.returned = .ok true) ∧
      enqueued (Run.run (RecvBuffer.onEvent decoder) parser events).2 =
        (frames.take count).map (bodyOf dialect) ∧
      (frames.take count).flatten ++ left = stored ++ received events := by
  have bound : PacketParser.maxBufferSize = 10240 := rfl
  induction events generalizing parser stored frames with
  | nil => exact ⟨0, stored, holds, by simp, rfl, by simp [received]⟩
  | cons event events ih =>
      have cons : received (event :: events) = event.chunk ++ received events := rfl
      rw [cons, ← List.append_assoc] at whole ⊢
      rw [Run.run_cons] at accepted ⊢
      have here := accepted _ (List.mem_cons_self ..)
      have later := fun reply member => accepted reply (List.mem_cons_of_mem _ member)
      have fits : (stored ++ event.chunk).length ≤ size := by
        by_contra full
        apply here
        rw [RecvBuffer.onEvent, holds.rejects decoder event sizeFits (by omega)]
      rw [List.append_assoc] at whole
      rcases holds.step returnsBody event (by omega) fits wellFormed whole with
        ⟨-, nextHolds, reply⟩ | ⟨frame, rest, more, rfl, split, nextHolds, reply⟩
      · rw [← List.append_assoc] at whole
        obtain ⟨count, left, leftHolds, returned, bodies, stream⟩ :=
          ih nextHolds wellFormed whole later
        refine ⟨count, left, leftHolds, ?_, ?_, stream⟩
        · intro other member
          rcases List.mem_cons.mp member with rfl | member
          · exact congrArg ParseReply.returned reply
          · exact returned other member
        · have nothing : (RecvBuffer.onEvent decoder parser event).2.enqueued = none :=
            congrArg ParseReply.enqueued reply
          rw [enqueued, List.filterMap_cons_none nothing]
          exact bodies
      · rw [split, List.append_assoc, List.flatten_cons, List.append_cancel_left_eq,
          ← List.append_assoc] at whole
        obtain ⟨count, left, leftHolds, returned, bodies, stream⟩ :=
          ih nextHolds (fun other member => wellFormed other (by simp [member])) whole later
        refine ⟨count + 1, left, leftHolds, ?_, ?_, ?_⟩
        · intro other member
          rcases List.mem_cons.mp member with rfl | member
          · exact congrArg ParseReply.returned reply
          · exact returned other member
        · have taken : (RecvBuffer.onEvent decoder parser event).2.enqueued =
              some (bodyOf dialect frame) := congrArg ParseReply.enqueued reply
          rw [enqueued, List.filterMap_cons_some taken, List.take_succ_cons, List.map_cons]
          exact congrArg _ bodies
        · rw [List.take_succ_cons, List.flatten_cons, List.append_assoc, stream, split,
            List.append_assoc]

theorem received_append {size : Nat} (first later : List (RecvEvent size)) :
    received (first ++ later) = received first ++ received later := List.flatMap_append

/-- What was received up to an event of a run fits where the rest of the stream begins. -/
structure Cut (size : Nat) (frames : List (List UInt8)) (events : List (RecvEvent size)) : Prop where
  wellFormed : ∀ frame ∈ frames, WellFormed size frame
  whole : received events = frames.flatten
  room : ∀ before event after, events = before ++ event :: after →
    undelivered frames (received before).length + event.chunk.length ≤ size

/-- After each call, the bodies of all frames that are completely received are enqueued. -/
def DeliversEveryFrame {σ : Type} (step : σ → RecvEvent size → σ × ParseReply T)
    (dialect : Dialect T) (start : σ) (frames : List (List UInt8))
    (events : List (RecvEvent size)) : Prop :=
  ∀ before after, events = before ++ after →
    enqueued (Run.run step start before).2 =
      (within frames (received before).length).map (bodyOf dialect)

def AtMostOneEach (frames : List (List UInt8)) (events : List (RecvEvent size)) : Prop :=
  ∀ before event after, events = before ++ event :: after →
    (within frames (received (before ++ [event])).length).length ≤
      (within frames (received before).length).length + 1

theorem atMostOne_of_delivers {σ : Type} {step : σ → RecvEvent size → σ × ParseReply T} {start : σ}
    {frames : List (List UInt8)} {events : List (RecvEvent size)}
    (delivers : DeliversEveryFrame step dialect start frames events) :
    AtMostOneEach frames events := by
  intro before event after split
  have first := congrArg List.length (delivers before (event :: after) split)
  have second := congrArg List.length (delivers (before ++ [event]) after (by simp [split]))
  rw [Run.run_append, enqueued, List.filterMap_append, List.length_append, List.length_map,
    ← enqueued] at second
  rw [List.length_map] at first
  have one := List.length_filterMap_le ParseReply.enqueued
    (Run.run step (Run.run step start before).1 [event]).2
  simp only [Run.run_cons, Run.run_nil, List.length_singleton] at one second
  omega

/-- One more event: the buffer's bytes and the event's are the front of the frames that are not
complete yet, and fit the buffer. -/
theorem Cut.continues {frames : List (List UInt8)} {events before after : List (RecvEvent size)}
    {event : RecvEvent size} {left : List UInt8} (cut : Cut size frames events)
    (split : events = before ++ event :: after)
    (stream : (within frames (received before).length).flatten ++ left = received before) :
    ∃ rest, (∀ frame ∈ rest, WellFormed size frame) ∧
      left ++ event.chunk ++ received after = rest.flatten ∧
      (left ++ event.chunk).length ≤ size ∧
      received (before ++ [event]) = received before ++ event.chunk ∧
      within frames (received before ++ event.chunk).length =
        within frames (received before).length ++ within rest (left ++ event.chunk).length := by
  obtain ⟨rest, framesEq, -, continues⟩ := within_continues frames (received before).length
  have room := cut.room before event after split
  have lengths := congrArg List.length stream
  rw [List.length_append] at lengths
  have single : received [event] = event.chunk := by simp [received]
  refine ⟨rest, ?_, ?_, ?_, ?_, ?_⟩
  · intro frame member
    apply cut.wellFormed
    rw [framesEq]
    exact List.mem_append_right _ member
  · have total := cut.whole
    rw [split, received_append, ← stream, framesEq, List.flatten_append, ← framesEq,
      List.append_assoc, List.append_cancel_left_eq] at total
    rw [← total, List.append_assoc]
    rfl
  · rw [undelivered] at room
    rw [List.length_append]
    omega
  · rw [received_append, single]
  · have known : (received before ++ event.chunk).length -
        (within frames (received before).length).flatten.length =
          (left ++ event.chunk).length := by
      rw [List.length_append, List.length_append]
      omega
    rw [continues _ (by rw [List.length_append]; omega), known]

theorem delivers_of_atMostOne (returnsBody : ReturnsBody dialect decoder)
    (sizeFits : size < 0x80000000) {frames : List (List UInt8)} {events : List (RecvEvent size)}
    (cut : Cut size frames events) (oneEach : AtMostOneEach frames events)
    (before after : List (RecvEvent size)) (split : events = before ++ after) :
    ∃ left, (Run.run (RecvBuffer.onEvent decoder) (RecvBuffer.new size) before).1.Holds size left ∧
      enqueued (Run.run (RecvBuffer.onEvent decoder) (RecvBuffer.new size) before).2 =
        (within frames (received before).length).map (bodyOf dialect) ∧
      (within frames (received before).length).flatten ++ left = received before := by
  induction before using List.reverseRecOn generalizing after with
  | nil =>
      have none : within frames 0 = [] := by
        cases frames with
        | nil => rfl
        | cons frame rest =>
            have lower := (cut.wellFormed frame (by simp)).lower
            exact within_of_short (by omega) rest
      refine ⟨[], RecvBuffer.new_holds size, ?_, ?_⟩
      · rw [received, List.flatMap_nil, List.length_nil, none]
        rfl
      · rw [received, List.flatMap_nil, List.length_nil, none]
        rfl
  | append_singleton before event ih =>
      rw [List.append_assoc, List.singleton_append] at split
      obtain ⟨left, holds, bodies, stream⟩ := ih (event :: after) split
      obtain ⟨rest, wellFormed, whole, fits, grown, further⟩ := cut.continues split stream
      have oneMore := oneEach before event after split
      rw [grown, further] at oneMore ⊢
      rw [Run.run_append]
      rcases holds.step returnsBody event sizeFits fits wellFormed whole with
        ⟨nothing, nextHolds, reply⟩ | ⟨frame, others, more, rfl, taken, nextHolds, reply⟩
      · have silent : (RecvBuffer.onEvent decoder
            (Run.run (RecvBuffer.onEvent decoder) (RecvBuffer.new size) before).1
            event).2.enqueued = none := congrArg ParseReply.enqueued reply
        rw [nothing, List.append_nil]
        refine ⟨left ++ event.chunk, nextHolds, ?_, ?_⟩
        · rw [enqueued, List.filterMap_append, ← enqueued, bodies]
          simp [silent]
        · rw [← List.append_assoc, stream]
      · have one : (RecvBuffer.onEvent decoder
            (Run.run (RecvBuffer.onEvent decoder) (RecvBuffer.new size) before).1
            event).2.enqueued = some (bodyOf dialect frame) := congrArg ParseReply.enqueued reply
        have last : within others more.length = [] := by
          rw [taken, within_of_fits (by rw [List.length_append]; omega), List.length_append,
            List.length_append, Nat.add_sub_cancel_left, List.length_cons] at oneMore
          exact List.length_eq_zero_iff.mp (by omega)
        have now : within (frame :: others) (left ++ event.chunk).length = [frame] := by
          rw [taken, within_of_fits (by rw [List.length_append]; omega), List.length_append,
            Nat.add_sub_cancel_left, last]
        rw [now]
        refine ⟨more, nextHolds, ?_, ?_⟩
        · rw [enqueued, List.filterMap_append, ← enqueued, bodies]
          simp [one]
        · rw [List.flatten_append, List.flatten_singleton, List.append_assoc, ← taken,
            ← List.append_assoc, stream]

theorem delivers_iff (returnsBody : ReturnsBody dialect decoder) (sizeFits : size < 0x80000000)
    {frames : List (List UInt8)} {events : List (RecvEvent size)} (cut : Cut size frames events) :
    DeliversEveryFrame (RecvBuffer.onEvent decoder) dialect (RecvBuffer.new size) frames events ↔
      AtMostOneEach frames events := by
  constructor
  · exact atMostOne_of_delivers
  · intro oneEach before after split
    obtain ⟨left, -, bodies, -⟩ :=
      delivers_of_atMostOne returnsBody sizeFits cut oneEach before after split
    exact bodies

/-- The buffer of version two is never missing, so a session does what the plain buffer does. -/
theorem netSession_run_eq (decoder : FrameDecoder T) (parser : RecvBuffer)
    (events : List (RecvEvent size)) :
    (Run.run (fun (session : NetSession) (event : RecvEvent size) =>
        session.dataParsing decoder event.buffer event.offset event.transferred)
      (NetSession.ofRecvBuffer parser) events).2 =
    (Run.run (RecvBuffer.onEvent decoder) parser events).2 := by
  induction events generalizing parser with
  | nil => rfl
  | cons event events ih =>
      rw [Run.run_cons, Run.run_cons]
      exact congrArg _ (ih _)

theorem netSession_delivers_iff (returnsBody : ReturnsBody dialect decoder)
    (sizeFits : size < 0x80000000) {frames : List (List UInt8)} {events : List (RecvEvent size)}
    (cut : Cut size frames events) :
    DeliversEveryFrame (fun (session : NetSession) (event : RecvEvent size) =>
        session.dataParsing decoder event.buffer event.offset event.transferred) dialect
      (NetSession.new size) frames events ↔ AtMostOneEach frames events := by
  rw [← delivers_iff returnsBody sizeFits cut]
  simp only [DeliversEveryFrame, NetSession.new, netSession_run_eq]

end Run

/-- The frames of a stream are enqueued as soon as they are complete exactly when no event
completes two of them. -/
theorem dataParsing_delivers_iff (frames : List (List UInt8)) :
    (∀ (events : List (RecvEvent PacketParser.maxBufferSize)),
      Cut PacketParser.maxBufferSize frames events →
      (DeliversEveryFrame PacketParser.dataParsing .plNetwork PacketParser.new frames events ↔
        AtMostOneEach frames events)) ∧
    ∀ (decoder : FrameDecoder Int), ReturnsBody .plCommon decoder →
      ∀ (size : Nat), size < 0x80000000 →
      ∀ (events : List (RecvEvent size)), Cut size frames events →
        (DeliversEveryFrame (World.PlayerSession.dataParsing decoder) .plCommon
            (NetSession.new size) frames events ↔ AtMostOneEach frames events) ∧
          (DeliversEveryFrame (World.DbSession.dataParsing decoder) .plCommon
            (NetSession.new size) frames events ↔ AtMostOneEach frames events) ∧
          (DeliversEveryFrame (Db.WorldSession.dataParsing decoder) .plCommon
            (NetSession.new size) frames events ↔ AtMostOneEach frames events) := by
  constructor
  · intro events cut
    exact delivers_iff plNetwork_returnsBody (by decide) cut
  · intro decoder returnsBody size sizeFits events cut
    have delivers := netSession_delivers_iff returnsBody sizeFits cut
    exact ⟨delivers, delivers, delivers⟩

def RecvEvent.ofChunk (size : Nat) (bytes : List UInt8) (fits : bytes.length ≤ size) :
    RecvEvent size where
  buffer := bytes ++ List.replicate (size - bytes.length) 0
  offset := 0
  transferred := bytes.length
  sized := by
    rw [List.length_append, List.length_replicate]
    omega
  inside := by omega

theorem chunk_ofChunk {size : Nat} {bytes : List UInt8} (fits : bytes.length ≤ size) :
    (RecvEvent.ofChunk size bytes fits).chunk = bytes := by
  simp [RecvEvent.chunk, RecvEvent.ofChunk]

theorem received_ofChunk {size : Nat} {bytes : List UInt8} (fits : bytes.length ≤ size) :
    received [RecvEvent.ofChunk size bytes fits] = bytes := by
  rw [received, List.flatMap_cons, List.flatMap_nil, List.append_nil, chunk_ofChunk]

theorem cut_ofChunk {size : Nat} {frames : List (List UInt8)}
    (wellFormed : ∀ frame ∈ frames, WellFormed size frame) (fits : frames.flatten.length ≤ size) :
    Cut size frames [RecvEvent.ofChunk size frames.flatten fits] := by
  refine ⟨wellFormed, received_ofChunk fits, ?_⟩
  intro before event after split
  obtain ⟨rfl, rest⟩ := List.append_eq_singleton_iff.mp split.symm |>.resolve_right (by simp)
  obtain ⟨rfl, -⟩ := List.cons.inj rest
  have none : undelivered frames 0 = 0 := Nat.zero_sub _
  rw [received, List.flatMap_nil, List.length_nil, none, chunk_ofChunk]
  omega

def zeroFrame : List UInt8 :=
  [0, 0, 0, 0, 28, 0, 0, 0, 1, 0, 0, 0, 0, 0, 0, 0, 0, 0, 0, 16, 0, 0, 0, 0, 0, 0, 0, 0]

theorem zeroFrame_wellFormed : WellFormed PacketParser.maxBufferSize zeroFrame :=
  ⟨by decide, by decide, by decide⟩

theorem two_zeroFrames_wellFormed :
    ∀ frame ∈ [zeroFrame, zeroFrame], WellFormed PacketParser.maxBufferSize frame := by
  intro frame member
  have same : frame = zeroFrame := by simpa using member
  rw [same]
  exact zeroFrame_wellFormed

def frameDecoder {T : Type} (dialect : Dialect T) (buffer : List UInt8) (length : Int) :
    Result (Packet T) :=
  let frame := buffer.take length.toNat
  let tail := frame.drop (frame.length - 12)
  .ok { head := { checkHead := decode (frame.take 4), packetLength := length }
        body := bodyOf dialect frame
        tail := { checkTail := decode (tail.take 4), packetSeq := decode ((tail.drop 4).take 4),
                  packetTime := decode ((tail.drop 8).take 4) } }

theorem frameDecoder_returnsBody {T : Type} (dialect : Dialect T) :
    ReturnsBody dialect (frameDecoder dialect) := by
  intro size frame rest _
  refine ⟨_, rfl, ?_⟩
  rw [Int.toNat_natCast, List.take_left]

theorem dataParsing_delivers_iff_zeroFrame :
    let events := [RecvEvent.ofChunk PacketParser.maxBufferSize [zeroFrame].flatten (by decide)]
    Cut PacketParser.maxBufferSize [zeroFrame] events ∧
      DeliversEveryFrame PacketParser.dataParsing .plNetwork PacketParser.new [zeroFrame] events ∧
      packetDeserializer .plCommon zeroFrame 28 = frameDecoder .plCommon zeroFrame 28 ∧
      DeliversEveryFrame (World.PlayerSession.dataParsing (frameDecoder .plCommon)) .plCommon
        (NetSession.new PacketParser.maxBufferSize) [zeroFrame] events := by
  intro events
  have wellFormed : ∀ frame ∈ [zeroFrame], WellFormed PacketParser.maxBufferSize frame := by
    intro frame member
    rw [List.mem_singleton.mp member]
    exact zeroFrame_wellFormed
  have cut : Cut PacketParser.maxBufferSize [zeroFrame] events := cut_ofChunk wellFormed (by decide)
  have oneEach : AtMostOneEach [zeroFrame] events := by
    intro before event after split
    have most : (within [zeroFrame] (received (before ++ [event])).length).length ≤ 1 := by
      obtain ⟨rest, whole, -, -⟩ := within_continues [zeroFrame] (received (before ++ [event])).length
      have lengths := congrArg List.length whole
      rw [List.length_append, List.length_singleton] at lengths
      omega
    omega
  obtain ⟨version1, version2⟩ := dataParsing_delivers_iff [zeroFrame]
  have both := version2 (frameDecoder .plCommon) (frameDecoder_returnsBody .plCommon)
    PacketParser.maxBufferSize (by decide) events cut
  exact ⟨cut, (version1 _ cut).mpr oneEach, by decide, both.1.mpr oneEach⟩

theorem two_frames_one_enqueued :
    let events := [RecvEvent.ofChunk PacketParser.maxBufferSize [zeroFrame, zeroFrame].flatten
      (by decide)]
    Cut PacketParser.maxBufferSize [zeroFrame, zeroFrame] events ∧
      ¬DeliversEveryFrame PacketParser.dataParsing .plNetwork PacketParser.new
        [zeroFrame, zeroFrame] events := by
  intro events
  refine ⟨cut_ofChunk two_zeroFrames_wellFormed (by decide), ?_⟩
  intro delivers
  have oneEach := atMostOne_of_delivers delivers [] _ [] rfl
  rw [List.nil_append, received_ofChunk] at oneEach
  revert oneEach
  decide

/-! No byte of the stream is lost, doubled or moved, however many frames wait in the buffer. -/

/-- The frames of the bodies enqueued and the front of the buffer are the bytes received. -/
structure PacketParser.Conserves (parser : RecvBuffer) (frames : List (List UInt8))
    (bodies : List (PacketBody Nat)) (bytes : List UInt8) : Prop where
  cursor : parser.currPos = parser.recvLength
  start : parser.readPos = 0
  inside : 0 ≤ parser.recvLength ∧ parser.recvLength ≤ parser.recvBuffer.length
  stream : ∃ count, bodies = (frames.take count).map (bodyOf .plNetwork) ∧
    (frames.take count).flatten ++ parser.recvBuffer.take parser.recvLength.toNat = bytes

/-- After every call of a run in which no call is refused, the version-one parser has all of the
stream. No call throws. -/
theorem packetParser_conserves_stream (frames : List (List UInt8))
    (events : List (RecvEvent PacketParser.maxBufferSize))
    (wellFormed : ∀ frame ∈ frames, WellFormed PacketParser.maxBufferSize frame)
    (stream : received events <+: frames.flatten)
    (accepted : ∀ reply ∈ (Run.run PacketParser.dataParsing PacketParser.new events).2,
      reply.returned ≠ .ok false)
    (before after : List (RecvEvent PacketParser.maxBufferSize)) (split : events = before ++ after) :
    let run := Run.run PacketParser.dataParsing PacketParser.new before
    (∀ reply ∈ run.2, reply.returned = .ok true) ∧
      PacketParser.Conserves run.1 frames (enqueued run.2) (received before) := by
  intro run
  subst split
  obtain ⟨later, whole⟩ := stream
  rw [received_append, List.append_assoc] at whole
  rw [Run.run_append] at accepted
  obtain ⟨count, left, holds, returned, bodies, conserved⟩ := run_conserves plNetwork_returnsBody
    (Nat.le_refl _) (RecvBuffer.new_holds _) wellFormed whole
    (fun reply member => accepted reply (List.mem_append_left _ member))
  obtain ⟨junk, layout, -⟩ := holds.layout
  have final : run.1.recvBuffer = left ++ junk := layout
  have length : run.1.recvLength = left.length := holds.length
  refine ⟨returned, holds.cursor.trans holds.length.symm, holds.start, ?_, count, bodies, ?_⟩
  · rw [length, final, List.length_append]
    omega
  · have front : run.1.recvBuffer.take run.1.recvLength.toNat = left := holds.take_eq
    rw [front, conserved, List.nil_append]

theorem first_event_accepted {frames : List (List UInt8)}
    (event : RecvEvent PacketParser.maxBufferSize)
    (wellFormed : ∀ frame ∈ frames, WellFormed PacketParser.maxBufferSize frame)
    (stream : event.chunk <+: frames.flatten) :
    (PacketParser.dataParsing PacketParser.new event).2.returned = .ok true := by
  obtain ⟨later, whole⟩ := stream
  have inside := event.inside
  have fits : ([] ++ event.chunk).length ≤ PacketParser.maxBufferSize := by
    rw [List.nil_append, RecvEvent.chunk, List.length_take]
    omega
  rcases (RecvBuffer.new_holds PacketParser.maxBufferSize).step plNetwork_returnsBody event
    (by decide) fits wellFormed whole with ⟨-, -, reply⟩ | ⟨frame, rest, more, -, -, -, reply⟩
  · rw [PacketParser.dataParsing, PacketParser.new, reply]
  · rw [PacketParser.dataParsing, PacketParser.new, reply]

theorem packetParser_conserves_stream_partial :
    let events := [RecvEvent.ofChunk PacketParser.maxBufferSize (zeroFrame ++ zeroFrame.take 10)
      (by decide)]
    (∀ reply ∈ (Run.run PacketParser.dataParsing PacketParser.new events).2,
        reply.returned ≠ .ok false) ∧
      PacketParser.Conserves (Run.run PacketParser.dataParsing PacketParser.new events).1
        [zeroFrame, zeroFrame]
        (enqueued (Run.run PacketParser.dataParsing PacketParser.new events).2)
        (zeroFrame ++ zeroFrame.take 10) := by
  intro events
  have bytes : received events = zeroFrame ++ zeroFrame.take 10 := received_ofChunk _
  have whole : zeroFrame ++ zeroFrame.take 10 <+: [zeroFrame, zeroFrame].flatten := by decide
  have stream : received events <+: [zeroFrame, zeroFrame].flatten := by
    rw [bytes]
    exact whole
  have accepted : ∀ reply ∈ (Run.run PacketParser.dataParsing PacketParser.new events).2,
      reply.returned ≠ .ok false := by
    intro reply member
    have first := first_event_accepted (RecvEvent.ofChunk PacketParser.maxBufferSize
      (zeroFrame ++ zeroFrame.take 10) (by decide)) two_zeroFrames_wellFormed
      (by rw [chunk_ofChunk]; exact whole)
    rw [List.mem_singleton.mp member, first]
    decide
  have conserves := (packetParser_conserves_stream _ events two_zeroFrames_wellFormed stream
    accepted events [] (List.append_nil _).symm).2
  rw [bytes] at conserves
  exact ⟨accepted, conserves⟩

end ProjectPl.Sharp
