import ProjectPl.ConnectorCore
import ProjectPl.Lib.Framing
import ProjectPl.Lib.Run
import ProjectPl.Packet

/-!
The receive path of a connection. One lemma for each way `RecvComplete` ends says what it
does to the bytes waiting in the ring. From them come what every run keeps, and when a run
delivers every frame.
-/

namespace ProjectPl

open Ring LittleEndian Framing

theorem toInt32_of_small {value : Nat} (small : value ≤ maxPacketBufferSize) :
    toInt32 value = value := by
  have bound : maxPacketBufferSize = 10240 := rfl
  have word : value % 2 ^ 32 = value := Nat.mod_eq_of_lt (by omega)
  simp only [toInt32, word]
  rw [if_pos (by omega)]

theorem PacketStruct.ofRead_data (pConnector : Nat) (heap : Int → UInt8) (copied : List UInt8) :
    (ofRead pConnector copied.length heap copied).data = copied := by
  have whole := load_store (fun inside : Nat => heap inside) 0 copied
  have cells : (fun offset : Nat => (ofRead pConnector copied.length heap copied).pBuffer offset) =
      store (fun inside : Nat => heap inside) 0 copied := by
    funext offset
    simp only [ofRead, Int.toNat_natCast]
    rw [if_neg (by omega)]
  rw [data, cells]
  exact whole

/-! The length of the frame at the front of a stream, when all of it is there. -/

def frontFrame (stream : List UInt8) : Option Nat :=
  let head := stream.take sizeofPacketHead
  if sizeofPacketHead ≤ stream.length ∧ checkHead head = packetCheckHeadKey ∧
      0 < headLength head ∧ headLength head ≤ stream.length then
    some (headLength head)
  else none

theorem frontFrame_some {stream : List UInt8} {length : Nat}
    (ready : frontFrame stream = some length) :
    sizeofPacketHead ≤ stream.length ∧
      checkHead (stream.take sizeofPacketHead) = packetCheckHeadKey ∧
      headLength (stream.take sizeofPacketHead) = length ∧ 0 < length ∧
      length ≤ stream.length := by
  simp only [frontFrame] at ready
  split at ready
  next found =>
    obtain ⟨whole, check, positive, inside⟩ := found
    cases ready
    exact ⟨whole, check, rfl, positive, inside⟩
  next => cases ready

namespace Connector

theorem dataParser_ready {buffer : CircleBuffer} {length : Nat}
    (capacity : buffer.nBufferSize = maxPacketBufferSize)
    (ready : frontFrame buffer.contents = some length) : dataParser buffer = length := by
  obtain ⟨whole, check, found, positive, inside⟩ := frontFrame_some ready
  have fits := buffer.contents_fits
  have parsed : parseNetworkData buffer 0 = (.succ, length) := by
    rw [parseNetworkData_eq, if_neg (by omega), if_neg (by rw [check]; simp), found,
      if_neg (by omega)]
  simp only [dataParser, parsed]
  exact toInt32_of_small (by omega)

theorem dataParser_waits {buffer : CircleBuffer} (waits : frontFrame buffer.contents = none) :
    ¬0 < dataParser buffer := by
  unfold dataParser
  rw [parseNetworkData_eq]
  split
  next => omega
  next code length _ parsed =>
    have zero : length = 0 := by
      split at parsed
      · simp_all
      · split at parsed
        · simp_all
        · split at parsed
          · simp_all
          · simp only [Prod.mk.injEq] at parsed
            simp only [frontFrame] at waits
            rw [← parsed.2]
            by_contra positive
            rw [if_pos ⟨by omega, by omega, by omega, by omega⟩] at waits
            cases waits
    subst zero
    decide

section RecvComplete

variable (self : Nat) (conn : Connector) (completion : Completion)

theorem filled_contents
    (fits : (conn.recvContents ++ completion.chunk).length ≤ maxPacketBufferSize) :
    ¬conn.recvDataBuffer.getEmptySize < completion.chunk.length ∧
      (conn.recvDataBuffer.write completion.chunk).1.contents =
        conn.recvContents ++ completion.chunk ∧
      (conn.recvDataBuffer.write completion.chunk).1.nBufferSize = maxPacketBufferSize := by
  have capacity := conn.recvCapacity
  rw [List.length_append, recvContents] at fits
  obtain ⟨written, size, -, -⟩ := conn.recvDataBuffer.write_accepted completion.chunk (by omega)
  rw [CircleBuffer.contents_length] at fits
  refine ⟨?_, written, size.trans capacity⟩
  rw [BufferBase.getEmptySize, capacity]
  omega

theorem recvComplete_overflows
    (full : maxPacketBufferSize < (conn.recvContents ++ completion.chunk).length) :
    (recvComplete self conn completion).1.recvContents = conn.recvContents ∧
      (recvComplete self conn completion).2 = { returned := -1, pushed := none } := by
  have capacity := conn.recvCapacity
  have refused : conn.recvDataBuffer.getEmptySize < completion.chunk.length := by
    rw [List.length_append, recvContents, CircleBuffer.contents_length] at full
    have fits := conn.recvDataBuffer.aligned.dataFits
    rw [BufferBase.getEmptySize, capacity]
    omega
  simp only [recvComplete, refused, ↓reduceIte, recvContents, and_self]

theorem recvComplete_waits
    (fits : (conn.recvContents ++ completion.chunk).length ≤ maxPacketBufferSize)
    (waits : frontFrame (conn.recvContents ++ completion.chunk) = none) :
    (recvComplete self conn completion).1.recvContents =
        conn.recvContents ++ completion.chunk ∧
      (recvComplete self conn completion).2 = { returned := -1, pushed := none } := by
  obtain ⟨accepted, written, -⟩ := filled_contents conn completion fits
  rw [← written] at waits ⊢
  simp only [recvComplete, accepted, dataParser_waits waits, ↓reduceIte, recvContents, and_self]

theorem recvComplete_pushes {length : Nat}
    (fits : (conn.recvContents ++ completion.chunk).length ≤ maxPacketBufferSize)
    (ready : frontFrame (conn.recvContents ++ completion.chunk) = some length) :
    (recvComplete self conn completion).1.recvContents =
        (conn.recvContents ++ completion.chunk).drop length ∧
      (recvComplete self conn completion).2 =
        { returned := ((conn.recvContents ++ completion.chunk).length - length : Nat)
          pushed := some (PacketStruct.ofRead self length completion.heap
            ((conn.recvContents ++ completion.chunk).take length)) } := by
  obtain ⟨accepted, written, capacity⟩ := filled_contents conn completion fits
  obtain ⟨-, -, -, positive, inside⟩ := frontFrame_some ready
  rw [← written] at ready inside fits ⊢
  have parsed := dataParser_ready capacity ready
  obtain ⟨read, -⟩ :=
    (conn.recvDataBuffer.write completion.chunk).1.read_accepted length inside
  obtain ⟨erased, -, -⟩ :=
    (conn.recvDataBuffer.write completion.chunk).1.erase_accepted length inside
  have dataSize :
      ((conn.recvDataBuffer.write completion.chunk).1.erase length).1.getDataSize =
        (conn.recvDataBuffer.write completion.chunk).1.contents.length - length := by
    rw [BufferBase.getDataSize, ← CircleBuffer.contents_length, erased, List.length_drop]
  have small : toInt32 ((conn.recvDataBuffer.write completion.chunk).1.erase
      length).1.getDataSize =
        ((conn.recvDataBuffer.write completion.chunk).1.contents.length - length : Nat) := by
    rw [dataSize]
    exact toInt32_of_small (by omega)
  have some : (0 : Int) < length := by omega
  simp only [recvComplete, accepted, parsed, some, ↓reduceIte, recvContents, Int.toNat_natCast,
    read, erased, small, Option.getD_some, and_self]

/-! A call that reports no error has pushed the frame at the front. -/

theorem recvComplete_accepted (accepted : 0 ≤ (recvComplete self conn completion).2.returned) :
    (conn.recvContents ++ completion.chunk).length ≤ maxPacketBufferSize ∧
      ∃ length, frontFrame (conn.recvContents ++ completion.chunk) = some length := by
  by_cases fits : (conn.recvContents ++ completion.chunk).length ≤ maxPacketBufferSize
  · cases found : frontFrame (conn.recvContents ++ completion.chunk) with
    | none =>
        rw [(recvComplete_waits self conn completion fits found).2] at accepted
        simp at accepted
    | some length => exact ⟨fits, length, rfl⟩
  · rw [(recvComplete_overflows self conn completion (by omega)).2] at accepted
    simp at accepted

end RecvComplete

/-! Runs. The packets pushed start one after the other in the stream received. -/

def received (completions : List Completion) : List UInt8 :=
  completions.flatMap Completion.chunk

def pushed (replies : List RecvReply) : List PacketStruct :=
  replies.filterMap RecvReply.pushed

def uint32At (stream : List UInt8) (offset : Nat) : Nat :=
  decode ((stream.drop offset).take 4)

def StartInOrder (self : Nat) : List UInt8 → List PacketStruct → Prop
  | _, [] => True
  | stream, packet :: rest =>
      packet.pConnector = self ∧ sizeofPacketHead ≤ stream.length ∧
        uint32At stream 0 = packetCheckHeadKey ∧ packet.nDataSize = uint32At stream 4 ∧
        StartInOrder self (stream.drop packet.nDataSize) rest

theorem uint32At_head {stream : List UInt8} (whole : sizeofPacketHead ≤ stream.length)
    (later : List UInt8) :
    uint32At (stream ++ later) 0 = checkHead (stream.take sizeofPacketHead) ∧
      uint32At (stream ++ later) 4 = headLength (stream.take sizeofPacketHead) := by
  have eight : sizeofPacketHead = 8 := rfl
  rw [eight] at whole ⊢
  refine ⟨?_, ?_⟩
  · rw [uint32At, checkHead, List.drop_zero, List.take_append_of_le_length (by omega),
      List.take_take]
    rfl
  · rw [uint32At, headLength, List.drop_append_of_le_length (by omega),
      List.take_append_of_le_length (by rw [List.length_drop]; omega), List.drop_take,
      List.take_take]
    rfl

theorem run_keeps_stream (self : Nat) (conn : Connector) (completions : List Completion)
    (accepted : ∀ reply ∈ (Run.run (recvComplete self) conn completions).2, 0 ≤ reply.returned) :
    (pushed (Run.run (recvComplete self) conn completions).2).flatMap PacketStruct.data ++
        (Run.run (recvComplete self) conn completions).1.recvContents =
      conn.recvContents ++ received completions ∧
    StartInOrder self (conn.recvContents ++ received completions)
      (pushed (Run.run (recvComplete self) conn completions).2) := by
  induction completions generalizing conn with
  | nil => simp [pushed, received, StartInOrder]
  | cons completion rest ih =>
      rw [Run.run_cons] at accepted
      obtain ⟨fits, length, ready⟩ :=
        recvComplete_accepted self conn completion (accepted _ (by simp))
      obtain ⟨whole, check, found, -, inside⟩ := frontFrame_some ready
      obtain ⟨contents, reply⟩ := recvComplete_pushes self conn completion fits ready
      obtain ⟨stream, order⟩ := ih (recvComplete self conn completion).1
        (fun later member => accepted later (by simp [member]))
      have taken : ((conn.recvContents ++ completion.chunk).take length).length = length :=
        List.length_take_of_le inside
      have copied := PacketStruct.ofRead_data self completion.heap
        ((conn.recvContents ++ completion.chunk).take length)
      rw [taken] at copied
      obtain ⟨head, size⟩ := uint32At_head whole (received rest)
      have cons : received (completion :: rest) = completion.chunk ++ received rest := rfl
      rw [contents] at stream order
      rw [Run.run_cons, pushed, List.filterMap_cons, reply, cons, ← List.append_assoc]
      refine ⟨?_, ?_⟩
      · rw [List.flatMap_cons, copied, List.append_assoc, ← pushed, stream, ← List.append_assoc,
          List.take_append_drop]
      · refine ⟨rfl, ?_, head.trans check, (size.trans found).symm, ?_⟩
        · rw [List.length_append]
          omega
        · rw [← List.drop_append_of_le_length inside] at order
          exact order

/-- As long as no call reports an error, the packets pushed and the bytes still in the ring
are the stream received. Each packet carries its connection and starts with a head of its
own size. -/
theorem recv_keeps_every_byte (self : Nat) (heap : Nat → UInt8) (completions : List Completion)
    (accepted : ∀ reply ∈ (Run.run (recvComplete self) (new heap) completions).2,
      0 ≤ reply.returned) :
    (pushed (Run.run (recvComplete self) (new heap) completions).2).flatMap PacketStruct.data ++
        (Run.run (recvComplete self) (new heap) completions).1.recvContents =
      received completions ∧
    StartInOrder self (received completions)
      (pushed (Run.run (recvComplete self) (new heap) completions).2) :=
  run_keeps_stream self (new heap) completions accepted

def emptyFrame : List UInt8 := framed [] 0 0

def completionOf (chunk : List UInt8) : Completion := { chunk := chunk, heap := fun _ => 0 }

theorem recv_keeps_every_byte_of_two_frames :
    let completions := [completionOf (emptyFrame ++ emptyFrame.take 2),
      completionOf (emptyFrame.drop 2)]
    (∀ reply ∈ (Run.run (recvComplete 3) (new fun _ => 0) completions).2, 0 ≤ reply.returned) ∧
      (pushed (Run.run (recvComplete 3) (new fun _ => 0) completions).2).flatMap
          PacketStruct.data ++
        (Run.run (recvComplete 3) (new fun _ => 0) completions).1.recvContents =
      received completions := by
  intro completions
  have accepted : ∀ reply ∈ (Run.run (recvComplete 3) (new fun _ => 0) completions).2,
      0 ≤ reply.returned := by decide
  exact ⟨accepted, (recv_keeps_every_byte 3 (fun _ => 0) completions accepted).1⟩

/-! When every frame is delivered as soon as it is complete. -/

structure WellFormed (frame : List UInt8) : Prop where
  check : uint32At frame 0 = packetCheckHeadKey
  size : uint32At frame 4 = frame.length
  lower : sizeofPacketHead + sizeofPacketTail ≤ frame.length
  upper : frame.length ≤ maxPacketBufferSize

structure Cut (frames : List (List UInt8)) (completions : List Completion) : Prop where
  wellFormed : ∀ frame ∈ frames, WellFormed frame
  sized : ∀ completion ∈ completions,
    0 < completion.chunk.length ∧ completion.chunk.length ≤ maxPacketBufferSize
  whole : received completions = frames.flatten
  room : ∀ k (inside : k < completions.length),
    undelivered frames (received (completions.take k)).length + completions[k].chunk.length ≤
      maxPacketBufferSize

def DeliversEveryFrame (self : Nat) (conn : Connector) (frames : List (List UInt8))
    (completions : List Completion) : Prop :=
  ∀ k ≤ completions.length,
    (∀ reply ∈ (Run.run (recvComplete self) conn (completions.take k)).2, 0 ≤ reply.returned) ∧
      (pushed (Run.run (recvComplete self) conn (completions.take k)).2).map PacketStruct.data =
        within frames (conn.recvContents.length + (received (completions.take k)).length)

theorem WellFormed.frontFrame {frame : List UInt8} (wellFormed : WellFormed frame)
    (later : List UInt8) : ProjectPl.frontFrame (frame ++ later) = some frame.length := by
  obtain ⟨check, size, lower, -⟩ := wellFormed
  have whole : sizeofPacketHead ≤ frame.length := by omega
  obtain ⟨headCheck, headSize⟩ := uint32At_head whole []
  rw [List.append_nil, check] at headCheck
  rw [List.append_nil, size] at headSize
  have head : (frame ++ later).take sizeofPacketHead = frame.take sizeofPacketHead :=
    List.take_append_of_le_length whole
  have some : 0 < frame.length := by
    have eight : sizeofPacketHead = 8 := rfl
    omega
  simp only [ProjectPl.frontFrame, head, ← headSize, ← headCheck, List.length_append]
  rw [if_pos ⟨by omega, trivial, some, by omega⟩]

theorem pushed_length_of_accepted (self : Nat) (conn : Connector) (completions : List Completion)
    (accepted : ∀ reply ∈ (Run.run (recvComplete self) conn completions).2, 0 ≤ reply.returned) :
    (pushed (Run.run (recvComplete self) conn completions).2).length = completions.length := by
  induction completions generalizing conn with
  | nil => rfl
  | cons completion rest ih =>
      rw [Run.run_cons] at accepted
      obtain ⟨fits, length, ready⟩ :=
        recvComplete_accepted self conn completion (accepted _ (by simp))
      have reply := (recvComplete_pushes self conn completion fits ready).2
      have later := ih (recvComplete self conn completion).1
        (fun other member => accepted other (by simp [member]))
      rw [Run.run_cons, pushed, List.filterMap_cons, reply, List.length_cons, List.length_cons]
      rw [pushed] at later
      omega

theorem recvComplete_frame (self : Nat) (conn : Connector) (completion : Completion)
    {frame later rest : List UInt8} (wellFormed : WellFormed frame)
    (fits : (conn.recvContents ++ completion.chunk).length ≤ maxPacketBufferSize)
    (inside : frame.length ≤ (conn.recvContents ++ completion.chunk).length)
    (whole : conn.recvContents ++ completion.chunk ++ later = frame ++ rest) :
    (recvComplete self conn completion).1.recvContents ++ later = rest ∧
      (recvComplete self conn completion).1.recvContents.length =
        conn.recvContents.length + completion.chunk.length - frame.length ∧
      0 ≤ (recvComplete self conn completion).2.returned ∧
      (recvComplete self conn completion).2.pushed =
        some (PacketStruct.ofRead self frame.length completion.heap frame) := by
  obtain ⟨more, split⟩ : ∃ more, conn.recvContents ++ completion.chunk = frame ++ more := by
    have taken := congrArg (List.take frame.length) whole
    rw [List.take_append_of_le_length inside, List.take_left' rfl] at taken
    refine ⟨(conn.recvContents ++ completion.chunk).drop frame.length, ?_⟩
    conv_lhs => rw [← List.take_append_drop frame.length (_ ++ _), taken]
  have ready := wellFormed.frontFrame more
  rw [← split] at ready
  obtain ⟨contents, reply⟩ := recvComplete_pushes self conn completion fits ready
  rw [split, List.drop_left' rfl] at contents
  rw [split, List.append_assoc] at whole
  refine ⟨?_, ?_, ?_, ?_⟩
  · rw [contents]
    exact List.append_cancel_left whole
  · have lengths := congrArg List.length split
    simp only [List.length_append] at lengths
    rw [contents]
    omega
  · rw [reply]
    exact Int.natCast_nonneg _
  · rw [reply, split, List.take_left' rfl]

theorem delivers_of_one_each (self : Nat) (conn : Connector) (frames : List (List UInt8))
    (completions : List Completion) (wellFormed : ∀ frame ∈ frames, WellFormed frame)
    (whole : conn.recvContents ++ received completions = frames.flatten)
    (pending : within frames conn.recvContents.length = [])
    (room : ∀ k (inside : k < completions.length),
      undelivered frames (conn.recvContents.length + (received (completions.take k)).length) +
        completions[k].chunk.length ≤ maxPacketBufferSize)
    (oneEach : ∀ k ≤ completions.length,
      (within frames (conn.recvContents.length +
        (received (completions.take k)).length)).length = k) :
    DeliversEveryFrame self conn frames completions := by
  induction completions generalizing conn frames with
  | nil =>
      intro k inside
      simp only [List.length_nil, Nat.le_zero] at inside
      subst inside
      simp [pushed, received, pending]
  | cons completion rest ih =>
      have first := oneEach 1 (by simp)
      have fits := room 0 (by simp)
      simp only [List.take_succ_cons, List.take_zero, received, List.flatMap_cons,
        List.flatMap_nil, List.append_nil, List.getElem_cons_zero, List.length_nil,
        Nat.add_zero] at first fits
      cases frames with
      | nil => simp [within] at first
      | cons frame others =>
          have here : frame.length ≤ conn.recvContents.length + completion.chunk.length := by
            by_contra short
            rw [within_of_short (by omega)] at first
            simp at first
          rw [within_of_fits here, List.length_cons] at first
          rw [undelivered, pending] at fits
          have cons : received (completion :: rest) = completion.chunk ++ received rest := rfl
          rw [cons, ← List.append_assoc, List.flatten_cons] at whole
          obtain ⟨laterWhole, moreLength, accepts, pushes⟩ := recvComplete_frame self conn
            completion (wellFormed frame (by simp))
            (by rw [List.length_append]; simpa using fits)
            (by rw [List.length_append]; exact here) whole
          have advance (k : Nat) : conn.recvContents.length +
              (received ((completion :: rest).take (k + 1))).length - frame.length =
                (recvComplete self conn completion).1.recvContents.length +
                  (received (rest.take k)).length := by
            rw [List.take_succ_cons, received, List.flatMap_cons, List.length_append, ← received]
            omega
          have enough (k : Nat) : frame.length ≤ conn.recvContents.length +
              (received ((completion :: rest).take (k + 1))).length := by
            rw [List.take_succ_cons, received, List.flatMap_cons, List.length_append]
            omega
          have later := ih (recvComplete self conn completion).1 others
            (fun other member => wellFormed other (by simp [member]))
            laterWhole
            (by
              rw [moreLength]
              exact List.length_eq_zero_iff.mp (by omega))
            (by
              intro k below
              have roomHere := room (k + 1) (by simpa using below)
              rw [undelivered_of_fits (enough k), advance k] at roomHere
              exact roomHere)
            (by
              intro k below
              have countHere := oneEach (k + 1) (by simpa using below)
              rw [within_of_fits (enough k), advance k, List.length_cons] at countHere
              omega)
          intro k below
          cases k with
          | zero => simp [pushed, received, pending]
          | succ k =>
              obtain ⟨accepted, delivered⟩ := later k (by simpa using below)
              rw [within_of_fits (enough k), advance k, List.take_succ_cons, Run.run_cons]
              refine ⟨?_, ?_⟩
              · intro other member
                rcases List.mem_cons.mp member with rfl | member
                · exact accepts
                · exact accepted other member
              · rw [pushed, List.filterMap_cons, pushes, List.map_cons, ← pushed, delivered,
                  PacketStruct.ofRead_data]

/-- Every frame is pushed by the call that completes it, and no call fails, exactly when
each completion completes one frame. -/
theorem delivers_every_frame_iff (self : Nat) (heap : Nat → UInt8)
    (frames : List (List UInt8)) (completions : List Completion) (cut : Cut frames completions) :
    DeliversEveryFrame self (new heap) frames completions ↔
      ∀ k ≤ completions.length,
        (within frames (received (completions.take k)).length).length = k := by
  have empty : (new heap).recvContents = [] := rfl
  constructor
  · intro delivers k inside
    obtain ⟨accepted, delivered⟩ := delivers k inside
    rw [empty, List.length_nil, Nat.zero_add] at delivered
    rw [← delivered, List.length_map, pushed_length_of_accepted self (new heap) _ accepted,
      List.length_take]
    omega
  · intro oneEach
    apply delivers_of_one_each self (new heap) frames completions cut.wellFormed
    · rw [empty]
      exact cut.whole
    · have none := oneEach 0 (Nat.zero_le _)
      exact List.length_eq_zero_iff.mp none
    · intro k inside
      rw [empty, List.length_nil, Nat.zero_add]
      exact cut.room k inside
    · intro k inside
      rw [empty, List.length_nil, Nat.zero_add]
      exact oneEach k inside

theorem emptyFrame_cut : Cut [emptyFrame] [completionOf emptyFrame] :=
  ⟨by
    intro frame member
    rw [List.mem_singleton.mp member]
    exact ⟨by decide, by decide, by decide, by decide⟩, by decide, by decide, by decide⟩

theorem delivers_every_frame_of_one :
    Cut [emptyFrame] [completionOf emptyFrame] ∧
      DeliversEveryFrame 3 (new fun _ => 0) [emptyFrame] [completionOf emptyFrame] := by
  refine ⟨emptyFrame_cut, ?_⟩
  apply (delivers_every_frame_iff 3 (fun _ => 0) _ _ emptyFrame_cut).mpr
  decide

/-- A frame that arrives in two halves: the first completion fails. -/
theorem half_frame_fails :
    Cut [emptyFrame] [completionOf (emptyFrame.take 10), completionOf (emptyFrame.drop 10)] ∧
      ¬DeliversEveryFrame 3 (new fun _ => 0) [emptyFrame]
        [completionOf (emptyFrame.take 10), completionOf (emptyFrame.drop 10)] := by
  refine ⟨⟨emptyFrame_cut.wellFormed, by decide, by decide, by decide⟩, ?_⟩
  intro delivers
  have accepted := (delivers 1 (by decide)).1
  revert accepted
  decide

end Connector

end ProjectPl
