import ProjectPl.SharpHostile

/-!
The four receive parsers of version two, on the states that any of them reaches. Three are one
text. The fourth, of the authentication server, waits where the others go on and goes on where
they wait, so they meet only where both comparisons come out alike.
-/

namespace ProjectPl.Sharp

open DotNet LittleEndian

/-- The classes whose `DataParsing` are copies of each other. -/
inductive Copy
  | authPlayer
  | worldPlayer
  | worldDb
  | dbWorld
  deriving DecidableEq

def Copy.dataParsing {size : Nat} : Copy → NetSession → RecvEvent size → NetSession × ParseReply Int
  | .authPlayer => Auth.PlayerSession.dataParsing (packetDeserializer .plCommon)
  | .worldPlayer => World.PlayerSession.dataParsing (packetDeserializer .plCommon)
  | .worldDb => World.DbSession.dataParsing (packetDeserializer .plCommon)
  | .dbWorld => Db.WorldSession.dataParsing (packetDeserializer .plCommon)

/-- The same result, the same body enqueued and the same parser state, up to the scratch `head`. -/
structure Agree (one other : NetSession × ParseReply Int) : Prop where
  reply : one.2 = other.2
  recvBuffer : one.1.recvBuffer = other.1.recvBuffer
  recvLength : one.1.recvLength = other.1.recvLength
  currPos : one.1.currPos = other.1.currPos
  readPos : one.1.readPos = other.1.readPos

theorem Agree.refl (result : NetSession × ParseReply Int) : Agree result result :=
  ⟨rfl, rfl, rfl, rfl, rfl⟩

theorem Agree.symm {one other : NetSession × ParseReply Int} (agree : Agree one other) :
    Agree other one :=
  ⟨agree.reply.symm, agree.recvBuffer.symm, agree.recvLength.symm, agree.currPos.symm,
    agree.readPos.symm⟩

namespace RecvBuffer

section TakePacket

variable {T : Type} (decoder : FrameDecoder T)

/-- What both parsers do behind their second comparison. -/
def takePacket (headed : RecvBuffer) : RecvBuffer × ParseReply T :=
  match decoder headed.recvBuffer headed.head.packetLength with
  | .error failure => (headed, { returned := .error failure })
  | .ok packet =>
      let taken := { headed with readPos := headed.head.packetLength }
      match taken.bufferTrim with
      | .error failure => (taken, { returned := .error failure })
      | .ok trimmed => (trimmed, { returned := .ok true, enqueued := some packet.body })

theorem takePacket_loud (headed : RecvBuffer) :
    (headed.takePacket decoder).2 ≠ { returned := .ok true } := by
  rw [takePacket]
  split
  · simp
  · dsimp only
    split <;> simp

variable {decoder} {parser : RecvBuffer} {size : Nat} {stored : List UInt8}

/-- The head that both parsers read. -/
def headed (parser : RecvBuffer) (stored : List UInt8) : RecvBuffer :=
  { parser with head := { checkHead := decode (stored.take 4), packetLength := declared stored } }

theorem Holds.headed (holds : parser.Holds size stored) (bytes : List UInt8) :
    (parser.headed bytes).Holds size stored :=
  ⟨holds.limit, holds.layout, holds.length, holds.cursor, holds.start⟩

theorem Holds.readHead_short (holds : parser.Holds size stored) (short : stored.length < 8) :
    ∃ failure, parser.readHead = .error failure := by
  obtain ⟨-, ⟨junk, layout, -⟩, length, -, -⟩ := holds
  cases read : parser.readHead with
  | error failure => exact ⟨failure, rfl⟩
  | ok head =>
      obtain ⟨ser, created, reads⟩ := Serializer.ofBuffer_reads stored
      have inside : stored.length ≤ (stored ++ junk).length := by
        rw [List.length_append]
        omega
      have copied := Serializer.ofBuffer_take inside
      rw [List.take_left] at copied
      rw [readHead, layout, length, ← copied, created, ok_bind] at read
      obtain ⟨⟨next, other⟩, headRead, -⟩ := bind_eq_ok read
      have enough := (PacketHead.serialize_inv reads headRead).1
      omega

theorem Holds.parseFront_eq (holds : parser.Holds size stored) (headThere : 8 ≤ stored.length) :
    parser.parseFront decoder =
      if (stored.length : Int) < declared stored then
        (parser.headed stored, { returned := .ok true })
      else (parser.headed stored).takePacket decoder := by
  have length := holds.length
  rw [parseFront, PacketHead.length, if_neg (by omega), holds.readHead_eq headThere, ← length]
  rfl

theorem Holds.parseFrontAuth_eq (holds : parser.Holds size stored) (eight : stored.length = 8) :
    parser.parseFrontAuth decoder =
      if (stored.length : Int) > declared stored then
        (parser.headed stored, { returned := .ok true })
      else (parser.headed stored).takePacket decoder := by
  have length := holds.length
  rw [parseFrontAuth, PacketHead.length, if_neg (by omega), holds.readHead_eq (by omega), ← length]
  rfl

theorem Holds.parseFrontAuth_long (holds : parser.Holds size stored) (long : 8 < stored.length) :
    parser.parseFrontAuth decoder = (parser, { returned := .ok true }) := by
  have length := holds.length
  rw [parseFrontAuth, PacketHead.length, if_pos (by omega)]

theorem Holds.parseFrontAuth_short (holds : parser.Holds size stored) (short : stored.length < 8) :
    ∃ failure, parser.parseFrontAuth decoder = (parser, { returned := .error failure }) := by
  have length := holds.length
  obtain ⟨failure, read⟩ := holds.readHead_short short
  refine ⟨failure, ?_⟩
  rw [parseFrontAuth, PacketHead.length, if_neg (by omega), read]

end TakePacket

end RecvBuffer

/-- Where the two pairs of comparisons come out alike: a head without any frame, and a head in
front of a frame that is not complete. -/
def Meets (bytes : List UInt8) : Prop :=
  (bytes.length = 8 ∧ declared bytes = 8) ∨
    (8 < bytes.length ∧ (bytes.length : Int) < declared bytes)

def toSession (result : RecvBuffer × ParseReply Int) : NetSession × ParseReply Int :=
  (.ofRecvBuffer result.1, result.2)

section Fronts

variable {decoder : FrameDecoder Int} {parser : RecvBuffer} {size : Nat} {bytes : List UInt8}

theorem not_agree_takePacket {one headed : RecvBuffer} :
    ¬Agree (toSession (one, { returned := .ok true })) (toSession (headed.takePacket decoder)) :=
  fun agree => headed.takePacket_loud decoder agree.reply.symm

theorem RecvBuffer.Holds.fronts_agree_iff (holds : parser.Holds size bytes) :
    Agree (toSession (parser.parseFrontAuth decoder)) (toSession (parser.parseFront decoder)) ↔
      Meets bytes := by
  rcases Nat.lt_trichotomy bytes.length 8 with short | eight | long
  · obtain ⟨failure, auth⟩ : ∃ failure, parser.parseFrontAuth decoder =
        (parser, { returned := .error failure }) := holds.parseFrontAuth_short short
    obtain ⟨-, world⟩ := holds.waits decoder (fun headThere => by omega)
    refine iff_of_false ?_ (by rw [Meets]; omega)
    intro agree
    have same := agree.reply
    rw [auth, toSession, toSession, world] at same
    cases same
  · rw [holds.parseFrontAuth_eq eight, holds.parseFront_eq (by omega)]
    rcases lt_trichotomy (declared bytes) 8 with less | same | more
    · rw [if_pos (by omega), if_neg (by omega)]
      exact iff_of_false not_agree_takePacket (by rw [Meets]; omega)
    · rw [if_neg (by omega), if_neg (by omega)]
      exact iff_of_true (.refl _) (Or.inl ⟨eight, same⟩)
    · rw [if_neg (by omega), if_pos (by omega)]
      exact iff_of_false (fun agree => not_agree_takePacket agree.symm) (by rw [Meets]; omega)
  · rw [holds.parseFrontAuth_long long, holds.parseFront_eq (by omega)]
    by_cases complete : (bytes.length : Int) < declared bytes
    · rw [if_pos complete]
      exact iff_of_true ⟨rfl, rfl, rfl, rfl, rfl⟩ (Or.inr ⟨long, complete⟩)
    · rw [if_neg complete]
      exact iff_of_false not_agree_takePacket (by rw [Meets]; omega)

end Fronts

/-! What the states look like that a copy can reach. Only the authentication server leaves the
buffer with lengths below zero: it takes a frame of which only the head has come. -/

def Negative (size : Nat) (parser : RecvBuffer) : Prop :=
  parser.maxBufferSize = size ∧ parser.currPos < 0 ∧ -0x80000000 ≤ parser.currPos

def Settled (size : Nat) (session : NetSession) : Prop :=
  ∃ parser, session = .ofRecvBuffer parser ∧
    ((∃ bytes, parser.Holds size bytes) ∨ Negative size parser)

section Events

variable {size : Nat} {parser : RecvBuffer} {bytes : List UInt8}

/-- A parser below zero throws on every event and stays there. -/
theorem Negative.stuck (negative : Negative size parser) (event : RecvEvent size)
    (sizeFits : size < 0x80000000) (copy : Copy) :
    copy.dataParsing (.ofRecvBuffer parser) event =
      (.ofRecvBuffer parser, { returned := .error .argumentOutOfRange }) := by
  obtain ⟨limit, below, lower⟩ := negative
  have inside := event.inside
  have room : ¬parser.maxBufferSize < int32 (parser.currPos + event.transferred) := by
    rw [int32_of_fits (by omega) (by omega), limit]
    omega
  have thrown : arrayCopy event.buffer event.offset parser.recvBuffer parser.currPos
      event.transferred = .error .argumentOutOfRange := by
    rw [arrayCopy, if_pos (Or.inr (Or.inl below))]
  have world : parser.dataParsing (packetDeserializer .plCommon) event.buffer event.offset
      event.transferred = (parser, { returned := .error .argumentOutOfRange }) := by
    rw [RecvBuffer.dataParsing, if_neg room, thrown]
  have auth : parser.dataParsingAuth (packetDeserializer .plCommon) event.buffer event.offset
      event.transferred = (parser, { returned := .error .argumentOutOfRange }) := by
    rw [RecvBuffer.dataParsingAuth, if_neg room, thrown]
  cases copy with
  | authPlayer => exact congrArg toSession auth
  | worldPlayer => exact congrArg toSession world
  | worldDb => exact congrArg toSession world
  | dbWorld => exact congrArg toSession world

theorem RecvBuffer.Holds.fills_auth {T : Type} (decoder : FrameDecoder T)
    (holds : parser.Holds size bytes) (event : RecvEvent size) (sizeFits : size < 0x80000000)
    (fits : (bytes ++ event.chunk).length ≤ size) :
    ∃ filled : RecvBuffer, filled.Holds size (bytes ++ event.chunk) ∧
      parser.dataParsing decoder event.buffer event.offset event.transferred =
        filled.parseFront decoder ∧
      parser.dataParsingAuth decoder event.buffer event.offset event.transferred =
        filled.parseFrontAuth decoder := by
  obtain ⟨room, recvBuffer, copied, filledHolds⟩ := holds.copies event sizeFits fits
  refine ⟨_, filledHolds, ?_, ?_⟩
  · rw [dataParsing, if_neg room, copied]
    rfl
  · rw [dataParsingAuth, if_neg room, copied]
    rfl

theorem RecvBuffer.Holds.overfull_auth {T : Type} (decoder : FrameDecoder T)
    (holds : parser.Holds size bytes) (event : RecvEvent size) (sizeFits : size < 0x80000000)
    (full : size < (bytes ++ event.chunk).length) :
    parser.dataParsingAuth decoder event.buffer event.offset event.transferred =
      parser.dataParsing decoder event.buffer event.offset event.transferred := by
  rcases holds.refuses event sizeFits full with refused | ⟨passed, thrown⟩
  · rw [dataParsing, dataParsingAuth, if_pos refused, if_pos refused]
  · rw [dataParsing, dataParsingAuth, if_neg passed, if_neg passed, thrown]

theorem decoded_inside {T : Type} {dialect : Dialect T} {buffer : List UInt8} {length : Int}
    {packet : Packet T} (decoded : packetDeserializer dialect buffer length = .ok packet) :
    0 ≤ length ∧ length ≤ buffer.length := by
  obtain ⟨ser, created, -⟩ := bind_eq_ok decoded
  obtain ⟨blank, -, copy⟩ := bind_eq_ok created
  obtain ⟨copied, moved, -⟩ := bind_eq_ok copy
  have inside := (arrayCopy_eq_ok moved).1
  omega

theorem RecvBuffer.Holds.takePacket_early (holds : parser.Holds size bytes)
    (eight : bytes.length = 8) (early : 8 ≤ declared bytes) (sizeFits : size < 0x80000000) :
    (∃ left, ((parser.headed bytes).takePacket (packetDeserializer .plCommon)).1.Holds size left) ∨
      Negative size ((parser.headed bytes).takePacket (packetDeserializer .plCommon)).1 := by
  obtain ⟨junk, layout, whole⟩ := holds.layout
  have cursor := holds.cursor
  have length : parser.recvBuffer.length = size := by rw [layout, whole]
  rw [takePacket]
  dsimp only [RecvBuffer.headed]
  cases decoded : packetDeserializer .plCommon parser.recvBuffer (declared bytes) with
  | error failure => exact Or.inl ⟨_, holds.headed bytes⟩
  | ok packet =>
      have inside := (decoded_inside decoded).2
      have later : 8 < declared bytes := by
        by_contra same
        rw [layout] at decoded
        have lower := (packetDeserializer_complete (by omega) decoded).1
        omega
      have keep : int32 ((parser.recvBuffer.length : Int) - declared bytes) =
          parser.recvBuffer.length - declared bytes :=
        int32_of_fits (by omega) (by omega)
      rw [bufferTrim]
      dsimp only
      rw [keep, arrayCopy, if_neg (by omega), if_neg (by omega)]
      refine Or.inr ⟨holds.limit, ?_, ?_⟩
      · show int32 (parser.currPos - declared bytes) < 0
        rw [int32_of_fits (by omega) (by omega)]
        omega
      · show -0x80000000 ≤ int32 (parser.currPos - declared bytes)
        rw [int32_of_fits (by omega) (by omega)]
        omega

theorem RecvBuffer.Holds.auth_step (holds : parser.Holds size bytes) (event : RecvEvent size)
    (sizeFits : size < 0x80000000) :
    let next := (parser.dataParsingAuth (packetDeserializer .plCommon) event.buffer event.offset
      event.transferred).1
    (∃ left, next.Holds size left) ∨ Negative size next := by
  intro next
  by_cases fits : (bytes ++ event.chunk).length ≤ size
  · obtain ⟨filled, filledHolds, -, called⟩ :=
      holds.fills_auth (packetDeserializer .plCommon) event sizeFits fits
    have front : next = (filled.parseFrontAuth (packetDeserializer .plCommon)).1 :=
      congrArg Prod.fst called
    rw [front]
    rcases Nat.lt_trichotomy (bytes ++ event.chunk).length 8 with short | eight | long
    · obtain ⟨failure, auth⟩ : ∃ failure, filled.parseFrontAuth (packetDeserializer .plCommon) =
          (filled, { returned := .error failure }) := filledHolds.parseFrontAuth_short short
      rw [auth]
      exact Or.inl ⟨_, filledHolds⟩
    · rw [filledHolds.parseFrontAuth_eq eight]
      by_cases less : ((bytes ++ event.chunk).length : Int) > declared (bytes ++ event.chunk)
      · rw [if_pos less]
        exact Or.inl ⟨_, filledHolds.headed _⟩
      · rw [if_neg less]
        exact filledHolds.takePacket_early eight (by omega) sizeFits
    · rw [filledHolds.parseFrontAuth_long long]
      exact Or.inl ⟨_, filledHolds⟩
  · have same : next = (RecvBuffer.onEvent (packetDeserializer .plCommon) parser event).1 :=
      congrArg Prod.fst (holds.overfull_auth _ event sizeFits (by omega))
    rw [same]
    exact Or.inl (holds.answers plCommon_decodes event sizeFits).1

theorem settled_step (copy : Copy) (sizeFits : size < 0x80000000) (event : RecvEvent size)
    {session : NetSession} (settled : Settled size session) :
    Settled size (copy.dataParsing session event).1 := by
  obtain ⟨parser, rfl, ⟨bytes, holds⟩ | negative⟩ := settled
  · have world : Settled size (.ofRecvBuffer (RecvBuffer.onEvent (packetDeserializer .plCommon)
        parser event).1) :=
      ⟨_, rfl, Or.inl (holds.answers plCommon_decodes event sizeFits).1⟩
    cases copy with
    | authPlayer => exact ⟨_, rfl, holds.auth_step event sizeFits⟩
    | worldPlayer => exact world
    | worldDb => exact world
    | dbWorld => exact world
  · rw [negative.stuck event sizeFits]
    exact ⟨parser, rfl, Or.inr negative⟩

theorem settled_run (copy : Copy) (sizeFits : size < 0x80000000) (events : List (RecvEvent size))
    {session : NetSession} (settled : Settled size session) :
    Settled size (Run.run copy.dataParsing session events).1 := by
  induction events generalizing session with
  | nil => exact settled
  | cons event events ih => exact ih (settled_step copy sizeFits event settled)

/-- Where the four parsers agree: the session is stuck below zero, the event does not fit, or both
comparisons come out alike. -/
def CopiesMeet (size : Nat) (session : NetSession) (event : RecvEvent size) : Prop :=
  session.currPos < 0 ∨ size < (session.stored ++ event.chunk).length ∨
    Meets (session.stored ++ event.chunk)

theorem copy_dataParsing (copy : Copy) (session : NetSession) (event : RecvEvent size) :
    copy = .authPlayer ∨
      copy.dataParsing session event = Copy.worldPlayer.dataParsing session event := by
  cases copy with
  | authPlayer => exact Or.inl rfl
  | worldPlayer => exact Or.inr rfl
  | worldDb => exact Or.inr rfl
  | dbWorld => exact Or.inr rfl

/-- All agree as soon as the authentication server agrees with one of the others. -/
theorem all_agree_iff (session : NetSession) (event : RecvEvent size) :
    (∀ one other : Copy, Agree (one.dataParsing session event) (other.dataParsing session event)) ↔
      Agree (Copy.authPlayer.dataParsing session event)
        (Copy.worldPlayer.dataParsing session event) := by
  constructor
  · exact fun all => all _ _
  · intro auth one other
    rcases copy_dataParsing one session event with rfl | first
    · rcases copy_dataParsing other session event with rfl | second
      · exact .refl _
      · rw [second]
        exact auth
    · rw [first]
      rcases copy_dataParsing other session event with rfl | second
      · exact auth.symm
      · rw [second]
        exact .refl _

theorem copies_agree_of_settled (sizeFits : size < 0x80000000) {session : NetSession}
    (settled : Settled size session) (event : RecvEvent size) :
    (∀ one other : Copy, Agree (one.dataParsing session event) (other.dataParsing session event)) ↔
      CopiesMeet size session event := by
  rw [all_agree_iff]
  obtain ⟨parser, rfl, ⟨bytes, holds⟩ | negative⟩ := settled
  · have same : (NetSession.ofRecvBuffer parser).stored = bytes := holds.stored_eq
    have above : ¬(NetSession.ofRecvBuffer parser).currPos < 0 := by
      have cursor : (NetSession.ofRecvBuffer parser).currPos = bytes.length := holds.cursor
      omega
    rw [CopiesMeet, same, or_iff_right above]
    by_cases fits : (bytes ++ event.chunk).length ≤ size
    · obtain ⟨filled, filledHolds, world, auth⟩ :=
        holds.fills_auth (packetDeserializer .plCommon) event sizeFits fits
      have worldSession : Copy.worldPlayer.dataParsing (.ofRecvBuffer parser) event =
          toSession (filled.parseFront (packetDeserializer .plCommon)) := congrArg toSession world
      have authSession : Copy.authPlayer.dataParsing (.ofRecvBuffer parser) event =
          toSession (filled.parseFrontAuth (packetDeserializer .plCommon)) := congrArg toSession auth
      rw [worldSession, authSession, filledHolds.fronts_agree_iff, or_iff_right (by omega)]
    · have equal : Copy.authPlayer.dataParsing (.ofRecvBuffer parser) event =
          Copy.worldPlayer.dataParsing (.ofRecvBuffer parser) event :=
        congrArg toSession (holds.overfull_auth _ event sizeFits (by omega))
      rw [equal]
      exact iff_of_true (.refl _) (Or.inl (by omega))
  · rw [negative.stuck event sizeFits, negative.stuck event sizeFits]
    exact iff_of_true (.refl _) (Or.inl negative.2.1)

end Events

theorem new_settled (size : Nat) : Settled size (.new size) :=
  ⟨_, rfl, Or.inl ⟨[], RecvBuffer.new_holds size⟩⟩

/-- In a state that some copy reaches, all four do the same on an event exactly where the event is
thrown back before any comparison or meets both of them alike. -/
theorem copies_agree_iff (copy : Copy) (size : Nat) (sizeFits : size < 0x80000000)
    (events : List (RecvEvent size)) (event : RecvEvent size) :
    let session := (Run.run copy.dataParsing (.new size) events).1
    (∀ one other : Copy, Agree (one.dataParsing session event) (other.dataParsing session event)) ↔
      CopiesMeet size session event :=
  copies_agree_of_settled sizeFits (settled_run copy sizeFits events (new_settled size)) event

/-- Ten bytes of a frame of 28: all four wait. -/
theorem copies_agree_ten :
    let event := RecvEvent.ofChunk PacketParser.maxBufferSize (zeroFrame.take 10) (by decide)
    ∀ one other : Copy,
      Agree (one.dataParsing (.new PacketParser.maxBufferSize) event)
        (other.dataParsing (.new PacketParser.maxBufferSize) event) := by
  intro event
  refine (copies_agree_iff .worldPlayer PacketParser.maxBufferSize (by decide) [] event).mpr ?_
  have chunk : event.chunk = zeroFrame.take 10 := chunk_ofChunk _
  refine Or.inr (Or.inr ?_)
  rw [chunk]
  exact Or.inr ⟨by decide, by decide⟩

/-- A whole frame: the authentication server does not enqueue it, the others do. -/
theorem copies_differ_on_frame :
    ¬∀ (copy : Copy) (events : List (RecvEvent PacketParser.maxBufferSize))
      (event : RecvEvent PacketParser.maxBufferSize) (one other : Copy),
      let session := (Run.run copy.dataParsing (.new PacketParser.maxBufferSize) events).1
      Agree (one.dataParsing session event) (other.dataParsing session event) := by
  intro agree
  have meets := (copies_agree_of_settled (by decide) (new_settled PacketParser.maxBufferSize)
    (.ofChunk _ zeroFrame (by decide))).mp (agree .worldPlayer [] _)
  rw [CopiesMeet, chunk_ofChunk] at meets
  rcases meets with below | full | eight | longer
  · exact absurd below (by decide)
  · exact absurd full (by decide)
  · exact absurd eight.1 (by decide)
  · exact absurd longer.2 (by decide)

end ProjectPl.Sharp
