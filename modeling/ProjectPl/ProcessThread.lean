import ProjectPl.RecvPath
import ProjectPl.ServerCore

/-!
The loop of `App::ProcessThread`. The check of the tail word stands before the assignment of
`pConnector`, so what a bad packet disconnects is the connection of the packet before it, and
the packet itself goes on to `MessageProcess`. Neither checks that a packet is long enough for
its head and tail.
-/

namespace ProjectPl

open LittleEndian

structure ProcessThread where
  server : Server := {}
  pConnector : Option Nat := none

namespace ProcessThread

inductive Effect
  | disconnect (conn : Nat)
  | messageProcess (slot : Nat)
  deriving DecidableEq, Repr

def wordAt (packet : PacketStruct) (offset : Int) : Nat :=
  decode [packet.pBuffer offset, packet.pBuffer (offset + 1), packet.pBuffer (offset + 2),
    packet.pBuffer (offset + 3)]

def checkTail (packet : PacketStruct) : Nat :=
  wordAt packet (wordAt packet 4 - sizeofPacketTail)

/-! `Network::Disconnect` on a null pointer only logs. -/

def disconnect (server : Server) : Option Nat → Server × List Effect
  | none => (server, [])
  | some conn => (server.closeLink conn, [.disconnect conn])

def dispatched (packet : PacketStruct) : Option C2SCall :=
  match serverTable.messageProcess (fun offset => packet.pBuffer offset) packet.nDataSize with
  | .invoked call => some call
  | _ => none

/-! One turn of the loop, for a packet popped from `RecvPacketQueue`. Every such packet
carries a connector, and `GetFreeObject` always hands out a session. -/

def turn (thread : ProcessThread) (popped : PacketStruct × Server.Env) :
    ProcessThread × List Effect :=
  let checked :=
    if checkTail popped.1 ≠ packetCheckTailKey then disconnect thread.server thread.pConnector
    else (thread.server, [])
  ({ server := checked.1.packet popped.1.pConnector (dispatched popped.1) popped.2
     pConnector := some popped.1.pConnector },
    checked.2 ++ [.messageProcess (checked.1.attach popped.1.pConnector).2])

def Isolated (popped : PacketStruct × Server.Env) (effects : List Effect) : Prop :=
  (checkTail popped.1 ≠ packetCheckTailKey →
    .disconnect popped.1.pConnector ∈ effects ∧ ∀ slot, .messageProcess slot ∉ effects) ∧
  ∀ conn, .disconnect conn ∈ effects → conn = popped.1.pConnector

theorem turn_isolated_iff (thread : ProcessThread) (popped : PacketStruct × Server.Env) :
    Isolated popped (thread.turn popped).2 ↔ checkTail popped.1 = packetCheckTailKey := by
  constructor
  · intro isolated
    by_contra bad
    exact (isolated.1 bad).2 _ (List.mem_append_right _ (List.mem_singleton_self _))
  · intro good
    have effects : (thread.turn popped).2 =
        [.messageProcess (thread.server.attach popped.1.pConnector).2] := by
      simp [turn, good]
    rw [effects]
    refine ⟨fun bad => absurd good bad, ?_⟩
    intro conn member
    simp at member

/-- Over any packets popped one after the other, each packet keeps to its own connection
exactly when none of them has a wrong tail word. -/
theorem packets_isolated_iff (thread : ProcessThread)
    (packets : List (PacketStruct × Server.Env)) :
    List.Forall₂ Isolated packets (Run.run turn thread packets).2 ↔
      ∀ popped ∈ packets, checkTail popped.1 = packetCheckTailKey := by
  induction packets generalizing thread with
  | nil => simp
  | cons popped rest ih =>
      rw [Run.run_cons, List.forall₂_cons, turn_isolated_iff, ih]
      simp

def packetFrom (conn : Nat) (frame : List UInt8) : PacketStruct × Server.Env :=
  (PacketStruct.ofRead conn frame.length (fun _ => 0) frame, {})

/-- A sound packet of the first connection, then a packet with a wrong tail word of the
second: the first connection is disconnected. -/
theorem bad_tail_disconnects_other :
    let packets := [packetFrom 1 Connector.emptyFrame,
      packetFrom 2 (Connector.emptyFrame.take 8 ++ List.replicate 12 0)]
    ¬List.Forall₂ Isolated packets (Run.run turn {} packets).2 := by
  intro packets isolated
  simp only [packets, Run.run_cons, List.forall₂_cons] at isolated
  obtain ⟨-, second, -⟩ := isolated
  have wrong := second.2 1 (by decide)
  revert wrong
  decide

/-! What the thread takes for granted of a packet: that its length word is its size, and that
its head and tail are inside it. Framing compares the length word with the bytes buffered
only, so a peer can have a packet pushed that is too short for both. -/

structure Structural (packet : PacketStruct) : Prop where
  size : packet.nDataSize = wordAt packet 4
  lower : sizeofPacketHead + sizeofPacketTail ≤ packet.nDataSize
  tailStarts : (0 : Int) ≤ wordAt packet 4 - sizeofPacketTail
  tailEnds : (wordAt packet 4 - sizeofPacketTail : Int) + sizeofPacketTail ≤ packet.nDataSize
  bodyLength : (wordAt packet 4 + 2 ^ 32 - sizeofPacketHead - sizeofPacketTail) % 2 ^ 32 =
    wordAt packet 4 - (sizeofPacketHead + sizeofPacketTail)

theorem wordAt_eq_uint32At (packet : PacketStruct) (offset : Nat)
    (inside : offset + 4 ≤ packet.nDataSize) :
    wordAt packet offset = Connector.uint32At packet.data offset := by
  obtain ⟨rest, size⟩ : ∃ rest, packet.nDataSize = offset + (4 + rest) :=
    ⟨packet.nDataSize - offset - 4, by omega⟩
  have word : (packet.data.drop offset).take 4 =
      Ring.load (fun address => packet.pBuffer address) offset 4 := by
    rw [PacketStruct.data, size, Ring.load_add, Ring.load_add, Nat.zero_add,
      List.drop_left' (Ring.load_length _ _ _), List.take_left' (Ring.load_length _ _ _)]
  rw [Connector.uint32At, word, wordAt]
  simp [Ring.load, List.range_succ]

theorem structural_of_lower {packet : PacketStruct} (size : packet.nDataSize = wordAt packet 4)
    (lower : sizeofPacketHead + sizeofPacketTail ≤ packet.nDataSize)
    (small : packet.nDataSize ≤ maxPacketBufferSize) : Structural packet := by
  have bound : maxPacketBufferSize = 10240 := rfl
  have head : sizeofPacketHead = 8 := rfl
  have tail : sizeofPacketTail = 12 := rfl
  exact ⟨size, lower, by omega, by omega, by omega⟩

/-! The frame at the front of the bytes buffered has room for head and tail. -/

def DeclaresRoom (conn : Connector) (completion : Connector.Completion) : Prop :=
  (conn.recvContents ++ completion.chunk).length ≤ maxPacketBufferSize →
    ∀ length, frontFrame (conn.recvContents ++ completion.chunk) = some length →
      sizeofPacketHead + sizeofPacketTail ≤ length

theorem recvComplete_structural_iff (self : Nat) (conn : Connector)
    (completion : Connector.Completion) :
    (∀ packet, (conn.recvComplete self completion).2.pushed = some packet → Structural packet) ↔
      DeclaresRoom conn completion := by
  constructor
  · intro structural fits length ready
    have reply := (conn.recvComplete_pushes self completion fits ready).2
    exact (structural _ (by rw [reply])).lower
  · intro room packet pushes
    by_cases fits : (conn.recvContents ++ completion.chunk).length ≤ maxPacketBufferSize
    · cases ready : frontFrame (conn.recvContents ++ completion.chunk) with
      | none =>
          rw [(conn.recvComplete_waits self completion fits ready).2] at pushes
          cases pushes
      | some length =>
          have lower := room fits length ready
          obtain ⟨whole, -, found, -, inside⟩ := frontFrame_some ready
          rw [(conn.recvComplete_pushes self completion fits ready).2] at pushes
          cases pushes
          have taken : ((conn.recvContents ++ completion.chunk).take length).length = length :=
            List.length_take_of_le inside
          have copied := PacketStruct.ofRead_data self completion.heap
            ((conn.recvContents ++ completion.chunk).take length)
          rw [taken] at copied
          have headed : sizeofPacketHead ≤
              ((conn.recvContents ++ completion.chunk).take length).length := by omega
          have word := (Connector.uint32At_head headed []).2
          rw [List.append_nil, List.take_take, Nat.min_eq_left (by omega), found] at word
          apply structural_of_lower
          · have read := wordAt_eq_uint32At (PacketStruct.ofRead self length completion.heap
              ((conn.recvContents ++ completion.chunk).take length)) 4
              (Nat.le_trans (by decide) lower)
            rw [copied, word] at read
            exact read.symm
          · exact lower
          · exact Nat.le_trans inside fits
    · rw [(conn.recvComplete_overflows self completion (by omega)).2] at pushes
      cases pushes

/-- Over any completions, every packet pushed is structurally sound exactly when the frame at
the front of the bytes buffered never declares less than its head and tail. -/
theorem pushed_structural_iff (self : Nat) (heap : Nat → UInt8)
    (completions : List Connector.Completion) :
    (∀ packet ∈ Connector.pushed (Run.run (Connector.recvComplete self) (Connector.new heap)
        completions).2, Structural packet) ↔
      Run.Along (fun conn completion => (Connector.recvComplete self conn completion).1)
        DeclaresRoom (Connector.new heap) completions := by
  generalize Connector.new heap = conn
  induction completions generalizing conn with
  | nil => simp [Connector.pushed, Run.Along]
  | cons completion rest ih =>
      rw [Run.Along, ← ih, ← recvComplete_structural_iff self, Run.run_cons, Connector.pushed,
        List.filterMap_cons]
      cases pushes : (Connector.recvComplete self conn completion).2.pushed with
      | none => simp [Connector.pushed]
      | some packet => simp [Connector.pushed]

/-- Eight bytes that declare eight: the packet pushed is a bare head. -/
theorem bare_head_is_pushed :
    ¬∀ packet ∈ Connector.pushed (Run.run (Connector.recvComplete 3) (Connector.new fun _ => 0)
        [Connector.completionOf [0, 0, 0, 0, 8, 0, 0, 0]]).2, Structural packet := by
  intro structural
  have replies : Connector.pushed (Run.run (Connector.recvComplete 3) (Connector.new fun _ => 0)
      [Connector.completionOf [0, 0, 0, 0, 8, 0, 0, 0]]).2 =
        [PacketStruct.ofRead 3 8 (fun _ => 0) [0, 0, 0, 0, 8, 0, 0, 0]] := rfl
  rw [replies] at structural
  have lower := (structural _ (List.mem_singleton_self _)).lower
  revert lower
  decide

end ProcessThread

end ProjectPl
