import ProjectPl.Protocol
import ProjectPl.SendOrder
import ProjectPl.WireCore

/-!
What arrives over a connection. At every moment of a run the packets handled at one end are the
first ones sent at the other, in order, once each and with the values they were sent with. What
has not been handled is still on its way, as long as neither end has closed.
-/

namespace ProjectPl

open Ring LittleEndian Connector

/-! Frames. -/

theorem framed_wellFormed {payload : List UInt8} {packetSeq packetTime : Nat}
    (fits : sizeofPacketHead + payload.length + sizeofPacketTail ≤ maxPacketBufferSize) :
    WellFormed (framed payload packetSeq packetTime) := by
  have length := framed_length payload packetSeq packetTime
  have whole : sizeofPacketHead ≤ (framed payload packetSeq packetTime).length := by omega
  obtain ⟨check, size⟩ := uint32At_head whole []
  rw [List.append_nil] at check size
  refine ⟨?_, ?_, by omega, by omega⟩
  · rw [check, framed_checkHead]
  · rw [size, framed_headLength payload _ _ fits, length]

theorem frontFrame_short {frame short : List UInt8} (wellFormed : WellFormed frame)
    (front : short <+: frame) (shorter : short.length < frame.length) :
    frontFrame short = none := by
  cases found : frontFrame short with
  | none => rfl
  | some length =>
      obtain ⟨whole, -, size, -, inside⟩ := frontFrame_some found
      obtain ⟨rest, split⟩ := front
      have head := (uint32At_head whole rest).2
      rw [split, wellFormed.size, size] at head
      omega

/-- The tail word of a framed packet is right wherever it is read from. -/
theorem checkTail_framed (self : Nat) (heap : Int → UInt8) {payload : List UInt8}
    (packetSeq packetTime : Nat)
    (fits : sizeofPacketHead + payload.length + sizeofPacketTail ≤ maxPacketBufferSize) :
    ProcessThread.checkTail (PacketStruct.ofRead self (framed payload packetSeq packetTime).length
      heap (framed payload packetSeq packetTime)) = packetCheckTailKey := by
  have length := framed_length payload packetSeq packetTime
  have eight : sizeofPacketHead = 8 := rfl
  have twelve : sizeofPacketTail = 12 := rfl
  have data := PacketStruct.ofRead_data self heap (framed payload packetSeq packetTime)
  generalize same : PacketStruct.ofRead self (framed payload packetSeq packetTime).length heap
    (framed payload packetSeq packetTime) = packet at data
  have dataSize : packet.nDataSize = (framed payload packetSeq packetTime).length := by
    rw [← same]
    rfl
  have declared : ProcessThread.wordAt packet 4 = 8 + payload.length + 12 := by
    have word := ProcessThread.wordAt_eq_uint32At packet 4 (by omega)
    rw [data, (framed_wellFormed fits).size, length] at word
    exact word
  have word := ProcessThread.wordAt_eq_uint32At packet (8 + payload.length) (by omega)
  have tail : uint32At (framed payload packetSeq packetTime) (8 + payload.length) =
      packetCheckTailKey := by
    have front : framed payload packetSeq packetTime =
        (encode 4 packetCheckHeadKey ++
          encode 4 (sizeofPacketHead + payload.length + sizeofPacketTail) ++ payload) ++
        (encode 4 packetCheckTailKey ++ (encode 4 packetSeq ++ encode 4 packetTime)) := by
      simp [framed]
    rw [uint32At, front, List.drop_left' (by simp; omega), List.take_left' (by simp)]
    exact decode_encode_of_lt (by decide)
  rw [data, tail] at word
  have offset : ((ProcessThread.wordAt packet 4 : Nat) : Int) - sizeofPacketTail =
      ((8 + payload.length : Nat) : Int) := by
    rw [declared, twelve]
    omega
  rw [ProcessThread.checkTail, offset]
  exact word

/-! A packet that arrives was framed by the sender: a zeroed buffer would parse as a packet of
no bytes. -/

section Arrives

variable {Q : Type} (table : PacketTable Q) (heap : Nat → UInt8) (ring : CircleBuffer)
  (capacity : ring.nBufferSize = maxPacketBufferSize) (empty : ring.contents = [])
include capacity empty

theorem deliver_written {frame : List UInt8} (small : frame.length ≤ maxPacketBufferSize)
    {code : EResultCode} {length : Nat}
    (parsed : parseNetworkData (ring.write frame).1 0 = (code, length)) :
    (ring.write frame).1.contents = frame ∧
      deliver table heap ring frame =
        if code = .succ then
          some (table.messageProcess
            (store heap 0 ((ring.write frame).1.read length).response.copied) length)
        else none := by
  have dataSize : ring.nDataSize = 0 := by
    rw [← ring.contents_length, empty]
    rfl
  have room : ¬ring.getEmptySize < frame.length := by
    simp only [BufferBase.getEmptySize]
    omega
  obtain ⟨written, -, -, -⟩ := ring.write_accepted frame
    (by rw [empty, List.length_nil]; omega)
  rw [empty, List.nil_append] at written
  refine ⟨written, ?_⟩
  rw [deliver, if_neg room]
  dsimp only
  rw [parsed]
  cases code <;> rfl

theorem deliver_large {frame : List UInt8} (large : maxPacketBufferSize < frame.length) :
    deliver table heap ring frame = none := by
  have dataSize : ring.nDataSize = 0 := by
    rw [← ring.contents_length, empty]
    rfl
  have full : ring.getEmptySize < frame.length := by
    simp only [BufferBase.getEmptySize]
    omega
  rw [deliver, if_pos full]

theorem deliver_zeros :
    deliver table heap ring (List.replicate maxPacketBufferSize 0) = some .returnedFalse := by
  have small : (List.replicate maxPacketBufferSize (0 : UInt8)).length ≤ maxPacketBufferSize := by
    rw [List.length_replicate]
  obtain ⟨contents, -⟩ := deliver_written table heap ring capacity empty small rfl
  have head : (List.replicate maxPacketBufferSize (0 : UInt8)).take sizeofPacketHead =
      List.replicate sizeofPacketHead 0 := by
    rw [List.take_replicate]
    rfl
  have parsed : parseNetworkData (ring.write (List.replicate maxPacketBufferSize 0)).1 0 =
      (.succ, 0) := by
    rw [parseNetworkData_eq, contents, head, List.length_replicate]
    rfl
  rw [(deliver_written table heap ring capacity empty small parsed).2]
  rfl

theorem deliver_frame {payload : List UInt8} {packetSeq packetTime : Nat}
    (fits : sizeofPacketHead + payload.length + sizeofPacketTail ≤ maxPacketBufferSize) :
    deliver table heap ring (framed payload packetSeq packetTime) =
      some (table.messageProcess (store heap 0 (framed payload packetSeq packetTime))
        (framed payload packetSeq packetTime).length) := by
  have small : (framed payload packetSeq packetTime).length ≤ maxPacketBufferSize := by
    rw [framed_length]
    exact fits
  obtain ⟨contents, -⟩ := deliver_written table heap ring capacity empty small rfl
  have parsed := parse_framed (ring.write (framed payload packetSeq packetTime)).1 payload
    packetSeq packetTime 0 fits contents
  have read := ((ring.write (framed payload packetSeq packetTime)).1.read_accepted
    (framed payload packetSeq packetTime).length (by rw [contents])).1
  rw [contents, List.take_length] at read
  rw [(deliver_written table heap ring capacity empty small parsed).2, read]
  rfl

end Arrives

theorem PacketClass.sendPacket_framed {P Q : Type} (cls : PacketClass P) (packet : P)
    (packetTime : Nat) {table : PacketTable Q} {sameAs : Q → Q → Prop} {sent : Q}
    (arrives : Arrives table sameAs sent (cls.sendPacket packet packetTime)) :
    ∃ payload, cls.sendPacket packet packetTime = framed payload 0 packetTime ∧
      sizeofPacketHead + payload.length + sizeofPacketTail ≤ maxPacketBufferSize := by
  have bound : maxPacketBufferSize = 10240 := rfl
  obtain ⟨received, delivered, -⟩ := arrives (fun _ => 0)
    (CircleBuffer.new maxPacketBufferSize fun _ => 0) rfl rfl
  have small : (cls.sendPacket packet packetTime).length ≤ maxPacketBufferSize := by
    by_contra large
    rw [deliver_large table _ _ rfl rfl (by omega)] at delivered
    cases delivered
  generalize payload_eq : Ring.load (cls.pack packet).pBuffer 0 (cls.pack packet).getDataSize =
    payload
  have sending : cls.sendPacket packet packetTime =
      (makeNetworkPacket payload maxPacketBufferSize 0 packetTime).getD
        (List.replicate maxPacketBufferSize 0) := by
    rw [PacketClass.sendPacket, payload_eq]
    cases makeNetworkPacket payload maxPacketBufferSize 0 packetTime <;> rfl
  refine ⟨payload, ?_⟩
  cases made : makeNetworkPacket payload maxPacketBufferSize 0 packetTime with
  | none =>
      rw [made, Option.getD_none] at sending
      rw [sending, deliver_zeros table _ _ rfl rfl] at delivered
      cases delivered
  | some frame =>
      rw [made, Option.getD_some] at sending
      have length : frame.length = sizeofPacketHead + payload.length + sizeofPacketTail := by
        simp only [makeNetworkPacket] at made
        split at made
        · cases made
        · rw [← Option.some.inj made]
          simp [sizeofPacketHead, sizeofPacketTail]
          omega
      have fits : sizeofPacketHead + payload.length + sizeofPacketTail ≤ maxPacketBufferSize := by
        rw [← length, ← sending]
        exact small
      rw [makeNetworkPacket_eq_framed payload 0 packetTime fits] at made
      exact ⟨sending.trans (Option.some.inj made).symm, fits⟩

theorem C2SCall.sendPacket_framed (packet : C2SCall) {packetTime : Nat}
    (arrives : Arrives serverTable SameAs packet (packet.sendPacket packetTime)) :
    ∃ payload, packet.sendPacket packetTime = framed payload 0 packetTime ∧
      sizeofPacketHead + payload.length + sizeofPacketTail ≤ maxPacketBufferSize := by
  cases packet with
  | auth packet => exact csPAuth.sendPacket_framed packet packetTime arrives
  | enter packet => exact csPEnter.sendPacket_framed packet packetTime arrives
  | leave packet => exact csPLeave.sendPacket_framed packet packetTime arrives
  | move packet => exact csPMove.sendPacket_framed packet packetTime arrives
  | interaction packet => exact csPInteraction.sendPacket_framed packet packetTime arrives
  | heartbeat packet => exact csPHeartbeat.sendPacket_framed packet packetTime arrives
  | echo packet => exact csPEcho.sendPacket_framed packet packetTime arrives

theorem S2CCall.sendPacket_framed (packet : S2CCall) {packetTime : Nat}
    (arrives : Arrives clientTable SameAs packet (packet.sendPacket packetTime)) :
    ∃ payload, packet.sendPacket packetTime = framed payload 0 packetTime ∧
      sizeofPacketHead + payload.length + sizeofPacketTail ≤ maxPacketBufferSize := by
  cases packet with
  | authResult packet => exact scPAuthResult.sendPacket_framed packet packetTime arrives
  | enter packet => exact scPEnter.sendPacket_framed packet packetTime arrives
  | enterCharacter packet => exact scPEnterCharacterList.sendPacket_framed packet packetTime arrives
  | leave packet => exact scPLeave.sendPacket_framed packet packetTime arrives
  | move packet => exact scPMove.sendPacket_framed packet packetTime arrives
  | interaction packet => exact scPInteraction.sendPacket_framed packet packetTime arrives
  | heartbeat packet => exact scPHeartbeat.sendPacket_framed packet packetTime arrives
  | echo packet => exact scPEcho.sendPacket_framed packet packetTime arrives

/-! What an end says is understood at the other. -/

structure Speaks {Out : Type} (sendPacket : Nat → Out → List UInt8) (table : PacketTable Out)
    (sendable : Out → Prop) (sameAs : Out → Out → Prop) : Prop where
  framed : ∀ packet, sendable packet → ∀ packetTime, ∃ payload,
    sendPacket packetTime packet = framed payload 0 packetTime ∧
      sizeofPacketHead + payload.length + sizeofPacketTail ≤ maxPacketBufferSize
  arrives : ∀ packet, sendable packet → ∀ packetTime,
    Arrives table sameAs packet (sendPacket packetTime packet)

theorem client_speaks : Speaks clientSide.sendPacket serverSide.table C2SCall.Sendable
    C2SCall.SameAs where
  framed packet sendable packetTime :=
    packet.sendPacket_framed (packet.arrives sendable packetTime)
  arrives packet sendable packetTime := packet.arrives sendable packetTime

theorem server_speaks : Speaks serverSide.sendPacket clientSide.table S2CCall.Sendable
    S2CCall.SameAs where
  framed packet sendable packetTime :=
    packet.sendPacket_framed (packet.arrives sendable packetTime)
  arrives packet sendable packetTime := packet.arrives sendable packetTime

/-! Everything but a receive leaves the bytes received alone and starts no receive. Nothing that
was sent is taken back. -/

namespace Channel

structure KeepsRecvs (channel next : Channel) : Prop where
  contents : next.conn.recvContents = channel.conn.recvContents
  recvs : next.recvs ≤ channel.recvs
  sent : channel.sent <+: next.sent

theorem KeepsRecvs.trans {first second third : Channel} (before : KeepsRecvs first second)
    (after : KeepsRecvs second third) : KeepsRecvs first third :=
  ⟨after.contents.trans before.contents, after.recvs.trans before.recvs,
    before.sent.trans after.sent⟩

theorem KeepsRecvs.refl (channel : Channel) : KeepsRecvs channel channel :=
  ⟨rfl, le_refl _, List.prefix_rfl⟩

theorem addSendQueue_keeps (channel : Channel) (pSendData : List UInt8) :
    KeepsRecvs channel (channel.addSendQueue pSendData).1 := by
  simp only [addSendQueue, Connector.addSendQueue]
  split
  · exact ⟨rfl, le_refl _, List.prefix_rfl⟩
  · exact ⟨rfl, le_refl _, List.prefix_rfl⟩

theorem sendPrepare_keeps (channel : Channel) : KeepsRecvs channel channel.sendPrepare.1 := by
  simp only [sendPrepare, Connector.sendPrepare]
  split
  · exact ⟨rfl, le_refl _, List.prefix_rfl⟩
  · split
    · exact ⟨rfl, le_refl _, List.prefix_rfl⟩
    · exact ⟨rfl, le_refl _, List.prefix_rfl⟩

theorem sendComplete_keeps (channel : Channel) (dwSendSize : Nat) :
    KeepsRecvs channel (channel.sendComplete dwSendSize).1 := by
  simp only [sendComplete, Connector.sendComplete]
  split
  · exact ⟨rfl, le_refl _, List.prefix_rfl⟩
  · split
    · exact ⟨rfl, le_refl _, List.prefix_rfl⟩
    · exact ⟨rfl, le_refl _, List.prefix_rfl⟩

theorem wsaSend_keeps (channel : Channel) (accepts : Bool) :
    KeepsRecvs channel (channel.wsaSend accepts) := by
  simp only [wsaSend]
  split
  · exact ⟨rfl, le_refl _, List.prefix_rfl⟩
  · split
    · exact ⟨rfl, le_refl _, List.prefix_rfl⟩
    · exact ⟨rfl, le_refl _, List.prefix_rfl⟩

theorem sendOn_keeps (channel : Channel) (accepts : Bool) :
    KeepsRecvs channel (channel.sendOn accepts) := by
  have sent := wsaSend_keeps channel accepts
  rw [sendOn]
  split
  · exact sent
  · exact ⟨sent.contents, sent.recvs, sent.sent⟩

theorem write_keeps (channel : Channel) (pSendData : List UInt8) (accepts : Bool) :
    KeepsRecvs channel (channel.write pSendData accepts).1 := by
  have queued := addSendQueue_keeps channel pSendData
  have prepared := queued.trans (sendPrepare_keeps _)
  simp only [write]
  split
  · split
    · exact queued
    · split
      · split
        · exact prepared
        · exact prepared.trans (wsaSend_keeps _ accepts)
      · exact queued
  · exact KeepsRecvs.refl channel

theorem doSend_keeps (channel : Channel) (dwSendCompleteSize : Nat) (accepts : Bool) :
    KeepsRecvs channel (channel.doSend dwSendCompleteSize accepts) := by
  have completed := sendComplete_keeps channel dwSendCompleteSize
  have prepared := completed.trans (sendPrepare_keeps _)
  simp only [doSend]
  split
  · exact completed.trans (sendOn_keeps _ accepts)
  · split
    · exact prepared.trans (sendOn_keeps _ accepts)
    · exact prepared

theorem tryRelease_keeps (channel : Channel) : KeepsRecvs channel channel.tryRelease := by
  simp only [tryRelease, Connector.tryRelease]
  split
  · exact ⟨rfl, le_refl _, List.prefix_rfl⟩
  · exact ⟨rfl, le_refl _, List.prefix_rfl⟩

theorem noBytes_keeps (channel : Channel) (netOp : NetworkOperator) :
    KeepsRecvs channel (channel.noBytes netOp) := by
  have counted : KeepsRecvs channel { channel with
      conn := if channel.conn.dwSendRef ≠ 0 ∨ channel.conn.dwRecvRef ≠ 0 then
        decRef channel.conn netOp else channel.conn } := by
    split
    · cases netOp with
      | opSend => exact ⟨rfl, le_refl _, List.prefix_rfl⟩
      | opRecv => exact ⟨rfl, le_refl _, List.prefix_rfl⟩
    · exact KeepsRecvs.refl channel
  simp only [noBytes]
  generalize (if channel.conn.dwSendRef ≠ 0 ∨ channel.conn.dwRecvRef ≠ 0 then
    decRef channel.conn netOp else channel.conn) = closed at counted ⊢
  split
  · exact counted.trans (tryRelease_keeps _)
  · exact counted

def IsRecv : Event → Prop
  | .recvDone _ _ => True
  | _ => False

theorem step_keeps (self : Nat) (channel : Channel) {event : Event} (other : ¬IsRecv event) :
    KeepsRecvs channel (channel.step self event) := by
  cases event with
  | write pSendData accepts => exact write_keeps channel pSendData accepts
  | sendDone dwIOSize accepts =>
      simp only [step, dequeueSend]
      split
      · exact KeepsRecvs.refl channel
      · split
        · refine KeepsRecvs.trans ?_ (noBytes_keeps _ _)
          exact ⟨rfl, le_refl _, List.prefix_append _ _⟩
        · refine KeepsRecvs.trans ?_ (doSend_keeps _ _ _)
          exact ⟨rfl, le_refl _, List.prefix_append _ _⟩
  | recvDone completion accepts => exact absurd trivial other
  | postedDone =>
      simp only [step, dequeuePosted]
      split
      · exact KeepsRecvs.refl channel
      · refine KeepsRecvs.trans ?_ (noBytes_keeps _ _)
        exact ⟨rfl, le_refl _, List.prefix_rfl⟩
  | sendFailed =>
      simp only [step, dequeueSend]
      split
      · exact KeepsRecvs.refl channel
      · exact ⟨rfl, le_refl _, List.prefix_append _ _⟩
  | recvFailed =>
      simp only [step, dequeueRecv]
      split
      · exact KeepsRecvs.refl channel
      · exact ⟨rfl, Nat.sub_le _ _, List.prefix_rfl⟩
  | disconnect => exact ⟨rfl, le_refl _, List.prefix_rfl⟩
  | setParam session => exact ⟨rfl, le_refl _, List.prefix_rfl⟩
  | tryRelease => exact tryRelease_keeps channel
  | release =>
      refine KeepsRecvs.trans ?_ (tryRelease_keeps _)
      exact ⟨rfl, le_refl _, List.prefix_rfl⟩

theorem recvDone_sent (self : Nat) (channel : Channel) (completion : Completion) (accepts : Bool) :
    channel.sent <+: (channel.step self (.recvDone completion accepts)).sent := by
  simp only [step, dequeueRecv]
  split
  · exact List.prefix_rfl
  · split
    · exact (noBytes_keeps { channel with recvs := channel.recvs - 1 } .opRecv).sent
    · simp only [doRecv, wsaRecv]
      split
      · exact List.prefix_rfl
      · split
        · split
          · exact List.prefix_rfl
          · exact List.prefix_rfl
        · exact List.prefix_rfl

/-- A receive completes: without bytes or with an error no receive is out afterwards. -/
theorem recvDone_cases (self : Nat) (channel : Channel) (completion : Completion) (accepts : Bool)
    (single : channel.recvs ≤ 1) :
    let next := channel.step self (.recvDone completion accepts)
    next.recvs ≤ 1 ∧
      (next.recvs ≠ 0 → completion.chunk ≠ [] ∧
        0 ≤ (channel.conn.recvComplete self completion).2.returned ∧
        next.conn.recvContents = (channel.conn.recvComplete self completion).1.recvContents) := by
  simp only [step, dequeueRecv]
  by_cases none : channel.recvs = 0
  · rw [if_pos none]
    exact ⟨single, fun some => absurd none some⟩
  · rw [if_neg none]
    have zero : channel.recvs - 1 = 0 := by omega
    by_cases empty : completion.chunk = []
    · rw [if_pos empty]
      have keeps := noBytes_keeps { channel with recvs := channel.recvs - 1 } .opRecv
      have recvs : (noBytes { channel with recvs := channel.recvs - 1 } .opRecv).recvs ≤ 0 :=
        zero ▸ keeps.recvs
      exact ⟨by omega, fun some => absurd (by omega) some⟩
    · rw [if_neg empty]
      simp only [doRecv, wsaRecv]
      split
      · exact ⟨by simp only [disconnect]; omega, fun some => absurd zero some⟩
      · rename_i accepted
        split
        · split
          · exact ⟨by dsimp only; omega, fun _ => ⟨empty, by omega, rfl⟩⟩
          · exact ⟨by simp only [disconnect]; omega, fun some => absurd zero some⟩
        · exact ⟨by dsimp only; omega, fun some => absurd zero some⟩

end Channel

/-! What one receive does to the frames that follow each other in the stream. -/

section RecvComplete

variable (self : Nat) {conn : Connector} {completion : Completion} {rest : List UInt8}

/-- The packet that a completion makes whole, when the bytes buffered and the ones received are
the start of these frames. -/
theorem recvComplete_frames {frames : List (List UInt8)}
    (wellFormed : ∀ frame ∈ frames, WellFormed frame) (some : completion.chunk ≠ [])
    (stream : conn.recvContents ++ completion.chunk ++ rest = frames.flatten) :
    ((conn.recvComplete self completion).2.returned < 0 ∧
        (conn.recvComplete self completion).2.pushed = none) ∨
      ∃ frame later, frames = frame :: later ∧
        0 ≤ (conn.recvComplete self completion).2.returned ∧
        (conn.recvComplete self completion).2.pushed =
          Option.some (PacketStruct.ofRead self frame.length completion.heap frame) ∧
        frame ++ (conn.recvComplete self completion).1.recvContents =
          conn.recvContents ++ completion.chunk := by
  by_cases fits : (conn.recvContents ++ completion.chunk).length ≤ maxPacketBufferSize
  swap
  · rw [(recvComplete_overflows self conn completion (by omega)).2]
    exact Or.inl ⟨by decide, rfl⟩
  cases frames with
  | nil =>
      rw [List.flatten_nil, List.append_assoc, List.append_eq_nil_iff,
        List.append_eq_nil_iff] at stream
      exact absurd stream.2.1 some
  | cons frame later =>
      rw [List.flatten_cons] at stream
      have sound := wellFormed frame (by simp)
      by_cases inside : frame.length ≤ (conn.recvContents ++ completion.chunk).length
      · obtain ⟨follows, -, accepts, pushes⟩ :=
          recvComplete_frame self conn completion sound fits inside stream
        refine Or.inr ⟨frame, later, rfl, accepts, pushes, ?_⟩
        refine (List.append_left_inj rest).mp ?_
        rw [stream, List.append_assoc, follows]
      · have front : conn.recvContents ++ completion.chunk <+: frame :=
          List.prefix_of_prefix_length_le ⟨rest, stream⟩ (List.prefix_append frame _) (by omega)
        rw [(recvComplete_waits self conn completion fits
          (frontFrame_short sound front (by omega))).2]
        exact Or.inl ⟨by decide, rfl⟩

end RecvComplete

/-! The receiving end against the packets sent. -/

section Follows

variable {In Out : Type} {sendPacket : Nat → Out → List UInt8} {table : PacketTable Out}
  {sendable : Out → Prop} {sameAs : Out → Out → Prop} {side : Side In Out}

def frameOf (sendPacket : Nat → Out → List UInt8) (call : Nat × Out) : List UInt8 :=
  sendPacket call.1 call.2

/-- A packet was processed as the one that was sent: its tail was right, and it reached the
handler with the sender's values. -/
def Handled (sameAs : Out → Out → Prop) (call : Nat × Out) (outcome : Bool × Dispatch Out) :
    Prop :=
  outcome.1 = true ∧ ∃ received, outcome.2 = .invoked received ∧ sameAs call.2 received

def Waits (sendPacket : Nat → Out → List UInt8) (self : Nat) (call : Nat × Out)
    (packet : PacketStruct) : Prop :=
  ∃ heap, packet = PacketStruct.ofRead self (frameOf sendPacket call).length heap
    (frameOf sendPacket call)

/-- The calls handled and the ones in the queue. While a receive is out, the bytes in the ring
continue their frames. -/
structure Follows (sendPacket : Nat → Out → List UInt8) (sameAs : Out → Out → Prop) (conn : Nat)
    (done waiting : List (Nat × Out)) (stream : List UInt8) (receiver : Endpoint In Out) :
    Prop where
  handled : List.Forall₂ (Handled sameAs) done receiver.handled
  queued : List.Forall₂ (Waits sendPacket conn) waiting receiver.recvQueue
  arrived : receiver.arrived ≤ stream.length
  single : receiver.channel.recvs ≤ 1
  listening : receiver.channel.recvs ≠ 0 →
    ((done ++ waiting).map (frameOf sendPacket)).flatten ++ receiver.channel.conn.recvContents =
      stream.take receiver.arrived

section Steps

variable {self : Nat} {done waiting later : List (Nat × Out)} {stream : List UInt8}
  {receiver next : Endpoint In Out}

theorem Follows.extends (follows : Follows sendPacket sameAs self done waiting stream receiver)
    {longer : List UInt8} (front : stream <+: longer) :
    Follows sendPacket sameAs self done waiting longer receiver := by
  obtain ⟨rest, rfl⟩ := front
  refine ⟨follows.handled, follows.queued, ?_, follows.single, ?_⟩
  · rw [List.length_append]
    exact Nat.le_add_right_of_le follows.arrived
  · intro some
    rw [follows.listening some, List.take_append_of_le_length follows.arrived]

/-- A step of the receiving end that receives nothing. -/
theorem Follows.keeps (follows : Follows sendPacket sameAs self done waiting stream receiver)
    (keeps : Channel.KeepsRecvs receiver.channel next.channel)
    (handled : next.handled = receiver.handled) (recvQueue : next.recvQueue = receiver.recvQueue)
    (arrived : next.arrived = receiver.arrived) :
    Follows sendPacket sameAs self done waiting stream next := by
  have recvs := keeps.recvs
  have single := follows.single
  refine ⟨handled ▸ follows.handled, recvQueue ▸ follows.queued, arrived ▸ follows.arrived,
    by omega, ?_⟩
  intro some
  rw [keeps.contents, arrived]
  exact follows.listening (by omega)

/-- A receive appends at most the next call to the ones in the queue. -/
theorem Follows.recvDone
    (follows : Follows sendPacket sameAs self done waiting stream receiver)
    (wellFormed : ∀ call ∈ later, WellFormed (frameOf sendPacket call))
    (front : stream <+: ((done ++ waiting ++ later).map (frameOf sendPacket)).flatten)
    (dwIOSize : Nat) (heap : Int → UInt8) (accepts : Bool) :
    ∃ waiting' later', waiting' ++ later' = waiting ++ later ∧
      Follows sendPacket sameAs self done waiting' stream
        (receiver.recvDone self (receiver.completion stream dwIOSize heap) accepts) := by
  rw [Endpoint.recvDone]
  by_cases none : receiver.channel.recvs = 0
  · rw [if_pos none]
    exact ⟨waiting, later, rfl, follows⟩
  rw [if_neg none]
  generalize taken : receiver.completion stream dwIOSize heap = completion
  obtain ⟨single, received⟩ :=
    Channel.recvDone_cases self receiver.channel completion accepts follows.single
  have chunk : completion.chunk =
      (stream.drop receiver.arrived).take (min dwIOSize maxPacketBufferSize) := by
    rw [← taken]
    rfl
  have arrived : receiver.arrived + completion.chunk.length ≤ stream.length := by
    have bound := follows.arrived
    rw [chunk, List.length_take, List.length_drop]
    omega
  have further : stream.take receiver.arrived ++ completion.chunk =
      stream.take (receiver.arrived + completion.chunk.length) := by
    have cut := List.prefix_iff_eq_take.mp (chunk ▸ List.take_prefix _ _ :
      completion.chunk <+: stream.drop receiver.arrived)
    rw [List.take_add, ← cut]
  have listening := follows.listening none
  by_cases empty : completion.chunk = []
  · refine ⟨waiting, later, rfl, ⟨follows.handled, ?_, arrived, single, ?_⟩⟩
    · simpa [Endpoint.pushes, empty] using follows.queued
    · intro some
      exact absurd empty (received some).1
  obtain ⟨rest, whole⟩ := front
  have continues : receiver.channel.conn.recvContents ++ completion.chunk ++
      (stream.drop (receiver.arrived + completion.chunk.length) ++ rest) =
      (later.map (frameOf sendPacket)).flatten := by
    rw [List.map_append, List.flatten_append] at whole
    refine (List.append_right_inj ((done ++ waiting).map (frameOf sendPacket)).flatten).mp ?_
    rw [← whole, ← List.append_assoc, ← List.append_assoc,
      ← List.append_assoc _ _ completion.chunk, listening, further, List.take_append_drop]
  have pushes : receiver.pushes self completion =
      (receiver.channel.conn.recvComplete self completion).2.pushed.toList := if_neg empty
  rcases recvComplete_frames self (fun frame member => by
      obtain ⟨call, inside, rfl⟩ := List.mem_map.mp member
      exact wellFormed call inside) empty continues with
    ⟨failed, nothing⟩ | ⟨frame, frames, split, accepted, pushed, contents⟩
  · refine ⟨waiting, later, rfl, ⟨follows.handled, ?_, arrived, single, ?_⟩⟩
    · rw [pushes, nothing]
      simpa using follows.queued
    · intro some
      exact absurd (received some).2.1 (by omega)
  · cases later with
    | nil => cases split
    | cons call others =>
        rw [List.map_cons] at split
        obtain ⟨rfl, rfl⟩ := List.cons.inj split
        refine ⟨waiting ++ [call], others, by simp, ⟨follows.handled, ?_, arrived, single, ?_⟩⟩
        · rw [pushes, pushed]
          exact List.rel_append follows.queued
            (List.Forall₂.cons ⟨completion.heap, rfl⟩ List.Forall₂.nil)
        · intro some
          rw [(received some).2.2, ← further, ← listening, ← List.append_assoc done,
            List.map_append, List.flatten_append, List.append_assoc, List.append_assoc, ← contents]
          simp

theorem messageProcess_waits (speaks : Speaks sendPacket side.table sendable sameAs)
    {call : Nat × Out} (allowed : sendable call.2) {packet : PacketStruct}
    (waits : Waits sendPacket self call packet) :
    Handled sameAs call (decide (ProcessThread.checkTail packet = packetCheckTailKey),
      side.table.messageProcess (fun offset => packet.pBuffer offset) packet.nDataSize) := by
  obtain ⟨heap, rfl⟩ := waits
  obtain ⟨payload, frame, fits⟩ := speaks.framed call.2 allowed call.1
  have sent : frameOf sendPacket call = framed payload 0 call.1 := frame
  obtain ⟨received, delivered, same⟩ := speaks.arrives call.2 allowed call.1
    (fun inside => heap inside) (CircleBuffer.new maxPacketBufferSize fun _ => 0) rfl rfl
  rw [frame, deliver_frame side.table _ _ rfl rfl fits] at delivered
  have cells (copied : List UInt8) : (fun offset : Nat =>
      (PacketStruct.ofRead self copied.length heap copied).pBuffer offset) =
      store (fun inside : Nat => heap inside) 0 copied := by
    funext offset
    simp only [PacketStruct.ofRead, Int.toNat_natCast]
    rw [if_neg (by omega)]
  have reached := Option.some.inj delivered
  rw [← cells, ← sent] at reached
  have tail := checkTail_framed self heap 0 call.1 fits
  rw [← sent] at tail
  rw [Handled]
  dsimp only
  refine ⟨?_, received, ?_, same⟩
  · rw [tail]
    exact decide_eq_true rfl
  · exact reached

/-- `ProcessThread` handles the first call in the queue. -/
theorem Follows.process (speaks : Speaks sendPacket side.table sendable sameAs)
    (follows : Follows sendPacket sameAs self done waiting stream receiver)
    (allowed : ∀ call ∈ waiting, sendable call.2) :
    ∃ done' waiting', done' ++ waiting' = done ++ waiting ∧
      Follows sendPacket sameAs self done' waiting' stream (receiver.process side) := by
  cases front : receiver.recvQueue with
  | nil =>
      have idle : receiver.process side = receiver := by
        rw [Endpoint.process, front]
      rw [idle]
      exact ⟨done, waiting, rfl, follows⟩
  | cons packet rest =>
      have queued := follows.queued
      rw [front] at queued
      cases queued with
      | cons here later =>
          rename_i call others
          have handles := messageProcess_waits speaks (allowed call (by simp)) here
          refine ⟨done ++ [call], others, by simp, ?_⟩
          rw [Endpoint.process, front]
          refine ⟨?_, later, follows.arrived, follows.single, ?_⟩
          · exact List.rel_append follows.handled (List.Forall₂.cons handles List.Forall₂.nil)
          · intro some
            rw [List.append_assoc]
            exact follows.listening some

end Steps

/-! One direction of a connection, from a sending to a receiving end. -/

structure Joined (sendPacket : Nat → Out → List UInt8) (sendable : Out → Prop)
    (sameAs : Out → Out → Prop) (conn : Nat) (sender : Endpoint Out In)
    (receiver : Endpoint In Out) : Prop where
  ordered : sender.channel.Ordered
  accepted : sender.channel.accepted = (sender.sentCalls.map (frameOf sendPacket)).flatten
  allowed : ∀ call ∈ sender.sentCalls, sendable call.2
  follows : ∃ done waiting later, sender.sentCalls = done ++ waiting ++ later ∧
    Follows sendPacket sameAs conn done waiting sender.channel.sent receiver

def WireEvent.Sends (sendable : Out → Prop) : WireEvent Out → Prop
  | .sendPacket _ packet _ => sendable packet
  | _ => True

section Steps

variable {conn : Nat} {sender : Endpoint Out In} {receiver : Endpoint In Out}

/-- A step of the sending end that queues nothing. -/
theorem Joined.network (joined : Joined sendPacket sendable sameAs conn sender receiver)
    (event : Channel.Event) (quiet : ∀ pSendData accepts, event ≠ .write pSendData accepts)
    {next : Endpoint Out In} (channel : next.channel = sender.channel.step conn event)
    (sentCalls : next.sentCalls = sender.sentCalls) :
    Joined sendPacket sendable sameAs conn next receiver := by
  have writable : Channel.Writable event := by
    cases event with
    | write pSendData accepts => exact absurd rfl (quiet pSendData accepts)
    | _ => trivial
  obtain ⟨ordered, accepted⟩ := Channel.step_ordered joined.ordered conn writable
  have none : sender.channel.taken event = [] := by
    cases event with
    | write pSendData accepts => exact absurd rfl (quiet pSendData accepts)
    | _ => rfl
  rw [none, List.append_nil] at accepted
  have front : sender.channel.sent <+: (sender.channel.step conn event).sent := by
    cases event with
    | recvDone completion accepts =>
        exact Channel.recvDone_sent conn sender.channel completion accepts
    | _ => exact (Channel.step_keeps conn sender.channel id).sent
  obtain ⟨done, waiting, later, split, follows⟩ := joined.follows
  refine ⟨channel ▸ ordered, ?_, sentCalls ▸ joined.allowed, done, waiting, later,
    sentCalls.trans split, ?_⟩
  · rw [channel, accepted, sentCalls]
    exact joined.accepted
  · rw [channel]
    exact follows.extends front

theorem Joined.queues {near : Side Out In}
    (speaks : Speaks near.sendPacket table sendable sameAs)
    (joined : Joined near.sendPacket sendable sameAs conn sender receiver) {packetTime : Nat}
    {packet : Out} (allowed : sendable packet) (accepts : Bool) :
    Joined near.sendPacket sendable sameAs conn (sender.sendPacket near packetTime packet accepts)
      receiver := by
  obtain ⟨payload, frame, fits⟩ := speaks.framed packet allowed packetTime
  have length := framed_length payload 0 packetTime
  have eight : sizeofPacketHead = 8 := rfl
  obtain ⟨ordered, accepted⟩ := Channel.write_ordered joined.ordered
    (show 0 < (near.sendPacket packetTime packet).length by rw [frame]; omega)
    (show (near.sendPacket packetTime packet).length ≤ maxPacketBufferSize by rw [frame]; omega)
    accepts
  have front := (Channel.write_keeps sender.channel (near.sendPacket packetTime packet)
    accepts).sent
  obtain ⟨done, waiting, later, split, follows⟩ := joined.follows
  rw [Endpoint.sendPacket]
  by_cases active : sender.channel.conn.active = true
  · rw [if_pos active] at accepted ⊢
    refine ⟨ordered, ?_, ?_, done, waiting, later ++ [(packetTime, packet)], ?_,
      follows.extends front⟩
    · rw [accepted, joined.accepted]
      simp [frameOf]
    · intro call member
      rcases List.mem_append.mp member with old | new
      · exact joined.allowed call old
      · rw [List.mem_singleton.mp new]
        exact allowed
    · simp [split]
  · rw [if_neg active] at accepted ⊢
    exact ⟨ordered, accepted.trans joined.accepted, joined.allowed, done, waiting, later, split,
      follows.extends front⟩

theorem Joined.sender_step {near : Side Out In}
    (speaks : Speaks near.sendPacket table sendable sameAs)
    (joined : Joined near.sendPacket sendable sameAs conn sender receiver)
    {event : WireEvent Out} (sends : event.Sends sendable) (peerSent : List UInt8) :
    Joined near.sendPacket sendable sameAs conn (sender.step near conn peerSent event)
      receiver := by
  cases event with
  | sendPacket packetTime packet accepts => exact joined.queues speaks sends accepts
  | recvDone dwIOSize heap accepts =>
      rw [Endpoint.step, Endpoint.recvDone]
      split
      · exact joined
      · exact joined.network (.recvDone _ accepts) nofun rfl rfl
  | process =>
      rw [Endpoint.step, Endpoint.process]
      split
      · exact joined
      · exact ⟨joined.ordered, joined.accepted, joined.allowed, joined.follows⟩
  | sendDone dwIOSize accepts => exact joined.network (.sendDone dwIOSize accepts) nofun rfl rfl
  | postedDone => exact joined.network .postedDone nofun rfl rfl
  | sendFailed => exact joined.network .sendFailed nofun rfl rfl
  | recvFailed => exact joined.network .recvFailed nofun rfl rfl
  | disconnect => exact joined.network .disconnect nofun rfl rfl
  | setParam session => exact joined.network (.setParam session) nofun rfl rfl
  | tryRelease => exact joined.network .tryRelease nofun rfl rfl
  | release => exact joined.network .release nofun rfl rfl

/-- A step of the receiving end that receives nothing. -/
theorem Joined.keeps (joined : Joined sendPacket sendable sameAs conn sender receiver)
    {next : Endpoint In Out} (keeps : Channel.KeepsRecvs receiver.channel next.channel)
    (handled : next.handled = receiver.handled) (recvQueue : next.recvQueue = receiver.recvQueue)
    (arrived : next.arrived = receiver.arrived) :
    Joined sendPacket sendable sameAs conn sender next := by
  obtain ⟨done, waiting, later, split, follows⟩ := joined.follows
  exact ⟨joined.ordered, joined.accepted, joined.allowed, done, waiting, later, split,
    follows.keeps keeps handled recvQueue arrived⟩

theorem Joined.network_keeps (joined : Joined sendPacket sendable sameAs conn sender receiver)
    {event : Channel.Event} (other : ¬Channel.IsRecv event) :
    Joined sendPacket sendable sameAs conn sender (receiver.network conn event) :=
  joined.keeps (Channel.step_keeps conn receiver.channel other) rfl rfl rfl

theorem Joined.receiver_step {far : Side In Out}
    (speaks : Speaks sendPacket far.table sendable sameAs)
    (joined : Joined sendPacket sendable sameAs conn sender receiver) (event : WireEvent In) :
    Joined sendPacket sendable sameAs conn sender
      (receiver.step far conn sender.channel.sent event) := by
  cases event with
  | sendPacket packetTime packet accepts =>
      exact joined.keeps (Channel.write_keeps _ _ accepts) rfl rfl rfl
  | recvDone dwIOSize heap accepts =>
      obtain ⟨ordered, accepted, allowed, done, waiting, later, split, follows⟩ := joined
      have wellFormed (call : Nat × Out) (member : call ∈ later) :
          WellFormed (frameOf sendPacket call) := by
        obtain ⟨payload, frame, fits⟩ :=
          speaks.framed call.2 (allowed call (by simp [split, member])) call.1
        rw [frameOf, frame]
        exact framed_wellFormed fits
      have front : sender.channel.sent <+:
          ((done ++ waiting ++ later).map (frameOf sendPacket)).flatten := by
        rw [← split, ← accepted]
        exact ordered.sent_prefix
      obtain ⟨waiting', later', same, next⟩ :=
        follows.recvDone wellFormed front dwIOSize heap accepts
      refine ⟨ordered, accepted, allowed, done, waiting', later', ?_, next⟩
      rw [split, List.append_assoc, ← same, List.append_assoc]
  | process =>
      obtain ⟨ordered, accepted, allowed, done, waiting, later, split, follows⟩ := joined
      obtain ⟨done', waiting', same, next⟩ := follows.process speaks
        fun call member => allowed call (by simp [split, member])
      exact ⟨ordered, accepted, allowed, done', waiting', later, by rw [split, same], next⟩
  | sendDone dwIOSize accepts => exact joined.network_keeps id
  | postedDone => exact joined.network_keeps id
  | sendFailed => exact joined.network_keeps id
  | recvFailed => exact joined.network_keeps id
  | disconnect => exact joined.network_keeps id
  | setParam session => exact joined.network_keeps id
  | tryRelease => exact joined.network_keeps id
  | release => exact joined.network_keeps id

/-- Each of the packets `calls` has been handled as sent, or waits in the queue as sent, or its
bytes are in the receiver's ring, on the way, or still queued. -/
def Accounts (sendPacket : Nat → Out → List UInt8) (sameAs : Out → Out → Prop) (conn : Nat)
    (calls : List (Nat × Out)) (sender : Endpoint Out In) (receiver : Endpoint In Out) : Prop :=
  ∃ done waiting later, calls = done ++ waiting ++ later ∧
    List.Forall₂ (Handled sameAs) done receiver.handled ∧
    List.Forall₂ (Waits sendPacket conn) waiting receiver.recvQueue ∧
    (later.map (frameOf sendPacket)).flatten =
      receiver.channel.conn.recvContents ++ sender.channel.sent.drop receiver.arrived ++
        (sender.channel.conn.remaining ++ sender.channel.conn.waiting)

theorem Joined.accounts (joined : Joined sendPacket sendable sameAs conn sender receiver)
    (active : sender.channel.conn.active = true) (listening : receiver.channel.recvs ≠ 0) :
    Accounts sendPacket sameAs conn sender.sentCalls sender receiver := by
  obtain ⟨ordered, accepted, -, done, waiting, later, split, follows⟩ := joined
  refine ⟨done, waiting, later, split, follows.handled, follows.queued, ?_⟩
  have streams : sender.channel.Streams := by
    rcases ordered.state with moving | halted
    · exact moving.streams
    · rw [halted.closed] at active
      cases active
  refine (List.append_right_inj ((done ++ waiting).map (frameOf sendPacket)).flatten).mp ?_
  calc
    _ = sender.channel.accepted := by
      rw [accepted, split, List.map_append, List.map_append, List.flatten_append,
        List.flatten_append, List.map_append, List.flatten_append]
    _ = sender.channel.sent.take receiver.arrived ++ sender.channel.sent.drop receiver.arrived ++
          (sender.channel.conn.remaining ++ sender.channel.conn.waiting) := by
      rw [List.take_append_drop]
      exact streams.symm
    _ = _ := by
      rw [← follows.listening listening]
      simp only [List.append_assoc]

end Steps

end Follows

/-! An end records the packets of its events until it closes, and never opens again. -/

section Calls

variable {In Out : Type}

def WireEvent.calls : WireEvent Out → List (Nat × Out)
  | .sendPacket packetTime packet _ => [(packetTime, packet)]
  | _ => []

theorem Endpoint.step_sentCalls (side : Side Out In) (self : Nat) (peerSent : List UInt8)
    (endpoint : Endpoint Out In) (event : WireEvent Out) :
    (endpoint.step side self peerSent event).sentCalls =
      endpoint.sentCalls ++ if endpoint.channel.conn.active then event.calls else [] := by
  have quiet : endpoint.sentCalls =
      endpoint.sentCalls ++ if endpoint.channel.conn.active then [] else [] := by
    rw [ite_self, List.append_nil]
  cases event with
  | sendPacket packetTime packet accepts =>
      simp only [step, sendPacket, WireEvent.calls]
      split
      · rfl
      · exact (List.append_nil _).symm
  | recvDone dwIOSize heap accepts =>
      rw [step, recvDone]
      split
      · exact quiet
      · exact quiet
  | process =>
      rw [step, process]
      split
      · exact quiet
      · exact quiet
  | _ => exact quiet

theorem Endpoint.step_closed (side : Side Out In) (self : Nat) (peerSent : List UInt8)
    {endpoint : Endpoint Out In} (closed : endpoint.channel.conn.active = false)
    (event : WireEvent Out) :
    (endpoint.step side self peerSent event).channel.conn.active = false := by
  cases event with
  | sendPacket packetTime packet accepts =>
      exact Channel.step_closed closed self (.write (side.sendPacket packetTime packet) accepts)
  | recvDone dwIOSize heap accepts =>
      rw [step, recvDone]
      split
      · exact closed
      · exact Channel.step_closed closed self _
  | process =>
      rw [step, process]
      split
      · exact closed
      · exact closed
  | _ => exact Channel.step_closed closed self _

end Calls

namespace Wire

open Channel

/-! Both directions. -/

def Event.Sends : Event → Prop
  | .client event => event.Sends C2SCall.Sendable
  | .server event => event.Sends S2CCall.Sendable

def Event.toServer : Event → List (Nat × C2SCall)
  | .client event => event.calls
  | .server _ => []

def Event.toClient : Event → List (Nat × S2CCall)
  | .client _ => []
  | .server event => event.calls

structure Connected (self : Nat) (wire : Wire) : Prop where
  toServer : Joined clientSide.sendPacket C2SCall.Sendable C2SCall.SameAs self wire.client
    wire.server
  toClient : Joined serverSide.sendPacket S2CCall.Sendable S2CCall.SameAs self wire.server
    wire.client

theorem start_joined {In Out : Type} (sendPacket : Nat → Out → List UInt8)
    (sendable : Out → Prop) (sameAs : Out → Out → Prop) (self : Nat) (near far : Opening)
    (nearHeap farHeap : Nat → UInt8) :
    Joined sendPacket sendable sameAs self
      ({ channel := Channel.start near nearHeap } : Endpoint Out In)
      { channel := Channel.start far farHeap } := by
  have nothing : (Channel.start near nearHeap).accepted = [] := by
    cases near <;> rfl
  have single : (Channel.start far farHeap).recvs ≤ 1 := by
    cases far with
    | connect => exact le_refl _
    | acceptThread => exact le_refl _
    | accept => exact le_refl _
  have empty : (Channel.start far farHeap).conn.recvContents = [] := by
    cases far <;> rfl
  refine ⟨start_ordered near nearHeap, nothing, nofun, [], [], [], rfl,
    ⟨List.Forall₂.nil, List.Forall₂.nil, Nat.zero_le _, single, ?_⟩⟩
  intro _
  exact empty

theorem start_connected (self : Nat) (opening : Opening) (clientHeap serverHeap : Nat → UInt8) :
    Connected self (start opening clientHeap serverHeap) :=
  ⟨start_joined _ _ _ self .connect opening clientHeap serverHeap,
    start_joined _ _ _ self opening .connect serverHeap clientHeap⟩

theorem step_connected (self : Nat) {wire : Wire} (connected : Connected self wire)
    {event : Event} (sends : event.Sends) : Connected self (wire.step self event) := by
  obtain ⟨toServer, toClient⟩ := connected
  cases event with
  | client event =>
      exact ⟨toServer.sender_step client_speaks sends _,
        toClient.receiver_step server_speaks event⟩
  | server event =>
      exact ⟨toServer.receiver_step client_speaks event,
        toClient.sender_step server_speaks sends _⟩

theorem step_client (self : Nat) (wire : Wire) (event : Event) :
    (wire.step self event).client.sentCalls =
        wire.client.sentCalls ++ (if wire.client.channel.conn.active then event.toServer else []) ∧
      (wire.client.channel.conn.active = false →
        (wire.step self event).client.channel.conn.active = false) := by
  cases event with
  | client event =>
      exact ⟨Endpoint.step_sentCalls _ self _ _ event,
        fun closed => Endpoint.step_closed _ self _ closed event⟩
  | server event =>
      rw [Event.toServer, ite_self, List.append_nil]
      exact ⟨rfl, id⟩

theorem step_server (self : Nat) (wire : Wire) (event : Event) :
    (wire.step self event).server.sentCalls =
        wire.server.sentCalls ++ (if wire.server.channel.conn.active then event.toClient else []) ∧
      (wire.server.channel.conn.active = false →
        (wire.step self event).server.channel.conn.active = false) := by
  cases event with
  | client event =>
      rw [Event.toClient, ite_self, List.append_nil]
      exact ⟨rfl, id⟩
  | server event =>
      exact ⟨Endpoint.step_sentCalls _ self _ _ event,
        fun closed => Endpoint.step_closed _ self _ closed event⟩

theorem run_connected (self : Nat) {wire : Wire} (connected : Connected self wire)
    {events : List Event} (sends : ∀ event ∈ events, event.Sends) :
    Connected self (wire.run self events) ∧
      (wire.run self events).client.sentCalls <+:
        wire.client.sentCalls ++ events.flatMap Event.toServer ∧
      (wire.run self events).server.sentCalls <+:
        wire.server.sentCalls ++ events.flatMap Event.toClient := by
  have preserved (wire : Wire) (event : Event) (connected : Connected self wire)
      (sends : event.Sends) : Connected self (wire.step self event) :=
    step_connected self connected sends
  obtain ⟨next, client, -⟩ := Run.log_first (fun wire : Wire => wire.client.sentCalls)
    (fun wire => wire.client.channel.conn.active) Event.toServer preserved
    (fun wire event _ _ => (step_client self wire event).1)
    (fun wire event => (step_client self wire event).2) connected sends
  obtain ⟨-, server, -⟩ := Run.log_first (fun wire : Wire => wire.server.sentCalls)
    (fun wire => wire.server.channel.conn.active) Event.toClient preserved
    (fun wire event _ _ => (step_server self wire event).1)
    (fun wire event => (step_server self wire event).2) connected sends
  exact ⟨next, client, server⟩

/-- In every run the packets handled at each end are the first ones that the other end was asked
to send, in that order, each of them once and with the values it was sent with. -/
theorem handled_in_order (self : Nat) (opening : Opening) (clientHeap serverHeap : Nat → UInt8)
    (events : List Event) (sends : ∀ event ∈ events, event.Sends) :
    let wire := (start opening clientHeap serverHeap).run self events
    (∃ calls, calls <+: events.flatMap Event.toServer ∧
        List.Forall₂ (Handled C2SCall.SameAs) calls wire.server.handled) ∧
      ∃ calls, calls <+: events.flatMap Event.toClient ∧
        List.Forall₂ (Handled S2CCall.SameAs) calls wire.client.handled := by
  obtain ⟨⟨toServer, toClient⟩, client, server⟩ :=
    run_connected self (start_connected self opening clientHeap serverHeap) sends
  obtain ⟨done, waiting, later, split, follows⟩ := toServer.follows
  obtain ⟨done', waiting', later', split', follows'⟩ := toClient.follows
  refine ⟨⟨done, ?_, follows.handled⟩, done', ?_, follows'.handled⟩
  · rw [split, List.append_assoc] at client
    exact (List.prefix_append done _).trans client
  · rw [split', List.append_assoc] at server
    exact (List.prefix_append done' _).trans server

/-- As long as an end has not closed and the other one listens, every packet it was asked to send
is accounted for. -/
theorem open_loses_nothing (self : Nat) (opening : Opening) (clientHeap serverHeap : Nat → UInt8)
    (events : List Event) (sends : ∀ event ∈ events, event.Sends) :
    let wire := (start opening clientHeap serverHeap).run self events
    (wire.client.channel.conn.active = true → wire.server.channel.recvs ≠ 0 →
        Accounts clientSide.sendPacket C2SCall.SameAs self (events.flatMap Event.toServer)
          wire.client wire.server) ∧
      (wire.server.channel.conn.active = true → wire.client.channel.recvs ≠ 0 →
        Accounts serverSide.sendPacket S2CCall.SameAs self (events.flatMap Event.toClient)
          wire.server wire.client) := by
  intro wire
  obtain ⟨⟨toServer, toClient⟩, -, -⟩ :=
    run_connected self (start_connected self opening clientHeap serverHeap) sends
  refine ⟨fun active listening => ?_, fun active listening => ?_⟩
  · have calls : wire.client.sentCalls = events.flatMap Event.toServer :=
      (Run.log_full (fun wire : Wire => wire.client.sentCalls)
        (fun wire => wire.client.channel.conn.active) Event.toServer
        (fun wire event => (step_client self wire event).1)
        (fun wire event => (step_client self wire event).2) active).2
    exact calls ▸ toServer.accounts active listening
  · have calls : wire.server.sentCalls = events.flatMap Event.toClient :=
      (Run.log_full (fun wire : Wire => wire.server.sentCalls)
        (fun wire => wire.server.channel.conn.active) Event.toClient
        (fun wire event => (step_server self wire event).1)
        (fun wire event => (step_server self wire event).2) active).2
    exact calls ▸ toClient.accounts active listening

def answered : List Event :=
  [.client (.sendPacket 1 (.leave ⟨7⟩) true), .client (.sendDone 32 true),
    .server (.recvDone 32 (fun _ => 0) true), .server .process,
    .server (.sendPacket 2 (.leave ⟨7⟩) true)]

theorem answered_sends : ∀ event ∈ answered, event.Sends := by
  simp [answered, Event.Sends, WireEvent.Sends, C2SCall.Sendable, S2CCall.Sendable, FitsSigned]

theorem handled_in_order_answered :
    (∀ event ∈ answered, event.Sends) ∧
      (∃ calls, calls <+: [(1, .leave ⟨7⟩)] ∧ List.Forall₂ (Handled C2SCall.SameAs) calls
        ((start .acceptThread (fun _ => 0) fun _ => 0).run 3 answered).server.handled) :=
  ⟨answered_sends, (handled_in_order 3 .acceptThread _ _ answered answered_sends).1⟩

theorem open_loses_nothing_answered :
    let wire := (start .acceptThread (fun _ => 0) fun _ => 0).run 3 answered
    wire.server.channel.conn.active = true ∧ wire.client.channel.recvs ≠ 0 ∧
      Accounts serverSide.sendPacket S2CCall.SameAs 3 [(2, .leave ⟨7⟩)] wire.server wire.client := by
  intro wire
  have active : wire.server.channel.conn.active = true := rfl
  have listening : wire.client.channel.recvs ≠ 0 := by decide
  exact ⟨active, listening,
    (open_loses_nothing 3 .acceptThread _ _ answered answered_sends).2 active listening⟩

end Wire

end ProjectPl
