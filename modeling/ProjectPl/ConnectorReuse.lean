import ProjectPl.RecvPath

/-!
A `Connector` on its second connection. `TryRelease` gives the object back to its pool,
which moves the pointer between its lists and hands the same object out again as it is. Of
what the first connection left behind, only the send request is cleared.
-/

namespace ProjectPl

open Ring LittleEndian Framing

namespace Connector

inductive Call
  | setParam (param : Option Nat)
  | recvPrepare
  | recvComplete (completion : Completion)
  | addSendQueue (pSendData : List UInt8)
  | sendPrepare
  | sendComplete (dwSendSize : Nat)

/-! What leaves a connection: the packets pushed, and the bytes of the buffer that the callers
of `SendPrepare` and `SendComplete` hand to `WSASend` when these report data to send. -/

structure Outcome where
  packet : Option PacketStruct := none
  wsaSend : Option (List UInt8) := none

def handed (result : Connector × Int) : Connector × Outcome :=
  (result.1, { wsaSend :=
    if 0 < result.2 then result.1.sendRequest.map NetworkBuffer.wsaBytes else none })

def call (self : Nat) (conn : Connector) : Call → Connector × Outcome
  | .setParam param => ({ conn with param := param }, {})
  | .recvPrepare => (conn.recvPrepare.1, {})
  | .recvComplete completion =>
      let result := conn.recvComplete self completion
      (result.1, { packet := result.2.pushed })
  | .addSendQueue pSendData => ((conn.addSendQueue pSendData).1, {})
  | .sendPrepare => handed conn.sendPrepare
  | .sendComplete dwSendSize => handed (conn.sendComplete dwSendSize)

structure SameBuffers (conn other : Connector) : Prop where
  received : conn.recvContents = other.recvContents
  queued : conn.sendQueue = other.sendQueue
  requested : conn.sendRequest = other.sendRequest
  sendRef : conn.dwSendRef = other.dwSendRef

theorem recvComplete_sendSide (self : Nat) (conn : Connector) (completion : Completion) :
    (conn.recvComplete self completion).1.sendQueue = conn.sendQueue ∧
      (conn.recvComplete self completion).1.sendRequest = conn.sendRequest ∧
      (conn.recvComplete self completion).1.dwSendRef = conn.dwSendRef := by
  simp only [recvComplete]
  split
  · exact ⟨rfl, rfl, rfl⟩
  · split
    · exact ⟨rfl, rfl, rfl⟩
    · exact ⟨rfl, rfl, rfl⟩

theorem recvComplete_congr (self : Nat) {conn other : Connector} (completion : Completion)
    (same : conn.recvContents = other.recvContents) :
    (conn.recvComplete self completion).1.recvContents =
        (other.recvComplete self completion).1.recvContents ∧
      (conn.recvComplete self completion).2 = (other.recvComplete self completion).2 := by
  by_cases fits : (conn.recvContents ++ completion.chunk).length ≤ maxPacketBufferSize
  · cases found : frontFrame (conn.recvContents ++ completion.chunk) with
    | none =>
        obtain ⟨contents, reply⟩ := recvComplete_waits self conn completion fits found
        rw [same] at fits found
        obtain ⟨otherContents, otherReply⟩ := recvComplete_waits self other completion fits found
        rw [contents, reply, otherContents, otherReply, same]
        exact ⟨rfl, rfl⟩
    | some length =>
        obtain ⟨contents, reply⟩ := recvComplete_pushes self conn completion fits found
        rw [same] at fits found
        obtain ⟨otherContents, otherReply⟩ := recvComplete_pushes self other completion fits found
        rw [contents, reply, otherContents, otherReply, same]
        exact ⟨rfl, rfl⟩
  · obtain ⟨contents, reply⟩ := recvComplete_overflows self conn completion (by omega)
    rw [same] at fits
    obtain ⟨otherContents, otherReply⟩ :=
      recvComplete_overflows self other completion (by omega)
    rw [contents, reply, otherContents, otherReply, same]
    exact ⟨rfl, rfl⟩

theorem sendPrepare_same {conn other : Connector} (same : SameBuffers conn other) :
    SameBuffers (handed conn.sendPrepare).1 (handed other.sendPrepare).1 ∧
      (handed conn.sendPrepare).2 = (handed other.sendPrepare).2 := by
  obtain ⟨received, queued, requested, sendRef⟩ := same
  by_cases busy : 0 < conn.dwSendRef
  · have otherBusy : 0 < other.dwSendRef := sendRef ▸ busy
    simp only [sendPrepare_busy busy, sendPrepare_busy otherBusy, handed]
    exact ⟨⟨received, queued, requested, sendRef⟩, rfl⟩
  · have otherIdle : ¬0 < other.dwSendRef := sendRef ▸ busy
    cases waiting : conn.sendQueue with
    | nil =>
        have otherEmpty : other.sendQueue = [] := queued ▸ waiting
        simp only [sendPrepare_empty waiting, sendPrepare_empty otherEmpty, handed]
        exact ⟨⟨received, queued, requested, sendRef⟩, rfl⟩
    | cons front rest =>
        have otherWaiting : other.sendQueue = front :: rest := queued ▸ waiting
        simp only [sendPrepare_pops waiting busy, sendPrepare_pops otherWaiting otherIdle, handed]
        refine ⟨⟨received, rfl, rfl, ?_⟩, trivial⟩
        simp only [sendRef]

theorem sendComplete_same {conn other : Connector} (same : SameBuffers conn other)
    (dwSendSize : Nat) :
    SameBuffers (handed (conn.sendComplete dwSendSize)).1
        (handed (other.sendComplete dwSendSize)).1 ∧
      (handed (conn.sendComplete dwSendSize)).2 = (handed (other.sendComplete dwSendSize)).2 := by
  obtain ⟨received, queued, requested, sendRef⟩ := same
  cases flying : conn.sendRequest with
  | none =>
      have otherFlying : other.sendRequest = none := requested ▸ flying
      simp only [sendComplete_spurious flying, sendComplete_spurious otherFlying, handed]
      exact ⟨⟨received, queued, requested, sendRef⟩, rfl⟩
  | some buffer =>
      have otherFlying : other.sendRequest = some buffer := requested ▸ flying
      by_cases partly : dwSendSize < buffer.nDataSize
      · simp only [sendComplete_partly flying partly, sendComplete_partly otherFlying partly,
          handed]
        exact ⟨⟨received, queued, rfl, sendRef⟩, trivial⟩
      · simp only [sendComplete_wholly flying partly, sendComplete_wholly otherFlying partly,
          handed]
        refine ⟨⟨received, queued, rfl, ?_⟩, trivial⟩
        simp only [sendRef]

theorem call_same (self : Nat) (conn other : Connector) (op : Call)
    (same : SameBuffers conn other) :
    SameBuffers (conn.call self op).1 (other.call self op).1 ∧
      (conn.call self op).2 = (other.call self op).2 := by
  obtain ⟨received, queued, requested, sendRef⟩ := id same
  cases op with
  | setParam param => exact ⟨⟨received, queued, requested, sendRef⟩, rfl⟩
  | recvPrepare => exact ⟨⟨received, queued, requested, sendRef⟩, rfl⟩
  | recvComplete completion =>
      obtain ⟨contents, reply⟩ := recvComplete_congr self completion received
      obtain ⟨queue, request, ref⟩ := recvComplete_sendSide self conn completion
      obtain ⟨otherQueue, otherRequest, otherRef⟩ := recvComplete_sendSide self other completion
      refine ⟨⟨contents, ?_, ?_, ?_⟩, ?_⟩
      · exact queue.trans (queued.trans otherQueue.symm)
      · exact request.trans (requested.trans otherRequest.symm)
      · exact ref.trans (sendRef.trans otherRef.symm)
      · simp only [call, reply]
  | addSendQueue pSendData =>
      refine ⟨?_, rfl⟩
      simp only [call, addSendQueue]
      split
      · exact ⟨received, queued, requested, sendRef⟩
      · refine ⟨received, ?_, requested, sendRef⟩
        simp only [queued]
  | sendPrepare => exact sendPrepare_same same
  | sendComplete dwSendSize => exact sendComplete_same same dwSendSize

def outcomes (self : Nat) (conn : Connector) (calls : List Call) : List Outcome :=
  (Run.run (call self) conn calls).2

theorem outcomes_same (self : Nat) {conn other : Connector} (same : SameBuffers conn other)
    (calls : List Call) : outcomes self conn calls = outcomes self other calls := by
  have lockstep := (Run.run_simulation (call_same self) conn other same calls).2
  rw [List.forall₂_eq_eq_eq] at lockstep
  exact lockstep

/-! Two frames that differ in their last byte tell a ring with leftover bytes from an empty
one: the leftover shifts the frame, so at most one of them can come out unchanged. -/

def probe (last : UInt8) : List UInt8 :=
  encode 4 packetCheckHeadKey ++ encode 4 20 ++ List.replicate 11 0 ++ [last]

theorem probe_arrives (self : Nat) (heap : Nat → UInt8) (last : UInt8) :
    outcomes self (new heap) [.recvComplete (completionOf (probe last))] =
      [{ packet := some (PacketStruct.ofRead self 20 (fun _ => 0) (probe last)) }] := by
  have empty : (new heap).recvContents = [] := rfl
  have length : (probe last).length = 20 := rfl
  have ready : frontFrame ((new heap).recvContents ++ (completionOf (probe last)).chunk) =
      some 20 := rfl
  have reply := (recvComplete_pushes self (new heap) (completionOf (probe last))
    (by rw [empty, completionOf, List.nil_append, length]; decide) ready).2
  simp only [outcomes, Run.run_cons, Run.run_nil, call, reply]
  rfl

theorem leftover_shifts_probe (leftover : List UInt8) (some : leftover ≠ [])
    (kept : ∀ last : UInt8, (leftover ++ probe last).take 20 = probe last) : False := by
  have positive : 0 < leftover.length := List.length_pos_iff.mpr some
  have lastByte (last : UInt8) : (leftover ++ probe last)[19]? = Option.some last := by
    have same := congrArg (fun bytes : List UInt8 => bytes[19]?) (kept last)
    simp only [List.getElem?_take] at same
    exact same
  have sameByte : (leftover ++ probe 0)[19]? = (leftover ++ probe 1)[19]? := by
    by_cases inside : 19 < leftover.length
    · rw [List.getElem?_append_left inside, List.getElem?_append_left inside]
    · rw [List.getElem?_append_right (by omega), List.getElem?_append_right (by omega)]
      have before : 19 - leftover.length < 19 := by omega
      have agree : ∀ idx < 19, (probe 0)[idx]? = (probe 1)[idx]? := by decide
      exact agree _ before
  rw [lastByte, lastByte] at sameByte
  simp at sameByte

theorem recvContents_empty_of_outcomes (self : Nat) (conn : Connector)
    (same : ∀ last : UInt8, outcomes self conn [.recvComplete (completionOf (probe last))] =
      [{ packet := some (PacketStruct.ofRead self 20 (fun _ => 0) (probe last)) }]) :
    conn.recvContents = [] := by
  by_contra some
  apply leftover_shifts_probe conn.recvContents some
  intro last
  have pushed := same last
  simp only [outcomes, Run.run_cons, Run.run_nil, call, List.cons.injEq, and_true,
    Outcome.mk.injEq] at pushed
  by_cases fits : (conn.recvContents ++ probe last).length ≤ maxPacketBufferSize
  · cases found : frontFrame (conn.recvContents ++ probe last) with
    | none =>
        rw [(recvComplete_waits self conn (completionOf (probe last)) fits found).2] at pushed
        cases pushed
    | some length =>
        obtain ⟨-, -, -, -, inside⟩ := frontFrame_some found
        rw [(recvComplete_pushes self conn (completionOf (probe last)) fits found).2] at pushed
        have packet := Option.some.inj pushed
        have size : length = 20 := congrArg PacketStruct.nDataSize packet
        subst size
        have copied := PacketStruct.ofRead_data self (fun _ => 0)
          ((conn.recvContents ++ probe last).take 20)
        rw [List.length_take_of_le inside] at copied
        rw [← copied, ← PacketStruct.ofRead_data self (fun _ => 0) (probe last)]
        exact congrArg PacketStruct.data packet
  · rw [(recvComplete_overflows self conn (completionOf (probe last)) (by
      simpa [completionOf] using fits)).2] at pushed
    cases pushed

/-! One byte queued and sent tells a send side with leftovers from an idle one. -/

theorem byte_is_sent (self : Nat) (heap : Nat → UInt8) (byte : UInt8) :
    outcomes self (new heap) [.addSendQueue [byte], .sendPrepare] =
      [{}, { wsaSend := some [byte] }] := rfl

theorem sendSide_empty_of_outcomes (self : Nat) (conn : Connector)
    (same : ∀ byte : UInt8, outcomes self conn [.addSendQueue [byte], .sendPrepare] =
      [{}, { wsaSend := some [byte] }]) :
    conn.sendQueue = [] ∧ conn.dwSendRef = 0 := by
  have sent (byte : UInt8) : (handed (conn.addSendQueue [byte]).1.sendPrepare).2 =
      { wsaSend := some [byte] } := by
    have second := same byte
    simp only [outcomes, Run.run_cons, Run.run_nil, call, List.cons.injEq, and_true,
      true_and] at second
    exact second
  have idle : ¬0 < conn.dwSendRef := by
    intro busy
    have stillBusy : 0 < (conn.addSendQueue [0]).1.dwSendRef := busy
    have none := sent 0
    rw [sendPrepare_busy stillBusy] at none
    cases none
  refine ⟨?_, by simpa using idle⟩
  cases waiting : conn.sendQueue with
  | nil => rfl
  | cons front rest =>
      have bytes (byte : UInt8) : front.wsaBytes = [byte] := by
        have added : (conn.addSendQueue [byte]).1.sendQueue =
            conn.sendQueue ++ [⟨[byte], 1, 0, 1⟩] := rfl
        rw [waiting, List.cons_append] at added
        have stillIdle : ¬0 < (conn.addSendQueue [byte]).1.dwSendRef := idle
        have popped := sent byte
        rw [sendPrepare_pops added stillIdle] at popped
        simp only [handed, Outcome.mk.injEq, true_and, Option.map_some] at popped
        split at popped
        · exact Option.some.inj popped
        · cases popped
      have clash := (bytes 0).symm.trans (bytes 1)
      simp at clash

theorem tryRelease_returned {conn : Connector} (returned : conn.tryRelease.2 = true) :
    conn.tryRelease.1 = { conn with active := false, sendRequest := none } := by
  unfold tryRelease at returned ⊢
  split
  · rfl
  · simp_all

/-- A connector given back to the pool behaves on its next connection as a new one exactly
when it was given back with nothing in its ring, nothing in its queue and no send counted. -/
theorem reuse_isolated_iff (self : Nat) (heap : Nat → UInt8) (history : List Call)
    (returned : (Run.run (call self) (new heap) history).1.tryRelease.2 = true) :
    (∀ (fresh : Nat → UInt8) (later : List Call),
      outcomes self (Run.run (call self) (new heap) history).1.tryRelease.1 later =
        outcomes self (new fresh) later) ↔
      (Run.run (call self) (new heap) history).1.recvContents = [] ∧
        (Run.run (call self) (new heap) history).1.sendQueue = [] ∧
        (Run.run (call self) (new heap) history).1.dwSendRef = 0 := by
  generalize (Run.run (call self) (new heap) history).1 = conn at returned ⊢
  rw [tryRelease_returned returned]
  constructor
  · intro isolated
    refine ⟨?_, ?_⟩
    · apply recvContents_empty_of_outcomes self { conn with active := false, sendRequest := none }
      intro last
      rw [isolated heap, probe_arrives]
    · apply sendSide_empty_of_outcomes self { conn with active := false, sendRequest := none }
      intro byte
      rw [isolated heap, byte_is_sent]
  · rintro ⟨received, queued, sendRef⟩ fresh later
    have same : SameBuffers { conn with active := false, sendRequest := none } (new fresh) :=
      ⟨received, queued, rfl, sendRef⟩
    exact outcomes_same self same later

theorem reuse_isolated_after_clean_close :
    let history : List Call := [.recvComplete (completionOf emptyFrame), .addSendQueue [1],
      .sendPrepare, .sendComplete 1]
    (Run.run (call 3) (new fun _ => 0) history).1.tryRelease.2 = true ∧
      ∀ (fresh : Nat → UInt8) (later : List Call),
        outcomes 3 (Run.run (call 3) (new fun _ => 0) history).1.tryRelease.1 later =
          outcomes 3 (new fresh) later := by
  intro history
  refine ⟨rfl, ?_⟩
  exact (reuse_isolated_iff 3 (fun _ => 0) history rfl).mpr ⟨by decide, by decide, by decide⟩

/-- Half a frame from the first peer is put in front of the first frame of the next one. -/
theorem half_frame_survives_reuse :
    let history : List Call := [.recvComplete (completionOf (emptyFrame.take 10))]
    (Run.run (call 3) (new fun _ => 0) history).1.tryRelease.2 = true ∧
      ¬∀ (fresh : Nat → UInt8) (later : List Call),
        outcomes 3 (Run.run (call 3) (new fun _ => 0) history).1.tryRelease.1 later =
          outcomes 3 (new fresh) later := by
  intro history
  refine ⟨rfl, ?_⟩
  intro isolated
  have same := isolated (fun _ => 0) [.recvComplete (completionOf emptyFrame)]
  have packets := congrArg
    (List.map fun outcome : Outcome => outcome.packet.map PacketStruct.data) same
  revert packets
  decide

end Connector

end ProjectPl
