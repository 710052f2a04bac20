import ProjectPl.Lib.Run
import ProjectPl.NetworkCore
import ProjectPl.RecvPath

/-!
The send path of a connection. What a `Connector` still has to send is the rest of its send
request, then its queue: a write appends to it, a completion takes from its front, and
`SendPrepare` moves nothing. From this come the stream of whole runs, and the same with the
calls of several threads interleaved.
-/

namespace ProjectPl

namespace NetworkBuffer

structure Sendable (buffer : NetworkBuffer) : Prop where
  size : buffer.nDataSize = buffer.wsaLen
  whole : buffer.wsaBuf + buffer.wsaLen = buffer.pBuffer.length
  some : 0 < buffer.nDataSize
  small : buffer.nDataSize ≤ maxPacketBufferSize

variable {buffer : NetworkBuffer}

theorem Sendable.wsaBytes_eq (sendable : buffer.Sendable) :
    buffer.wsaBytes = buffer.pBuffer.drop buffer.wsaBuf := by
  have whole := sendable.whole
  rw [wsaBytes]
  apply List.take_of_length_le
  rw [List.length_drop]
  omega

theorem Sendable.wsaBytes_length (sendable : buffer.Sendable) :
    buffer.wsaBytes.length = buffer.nDataSize := by
  have whole := sendable.whole
  rw [sendable.wsaBytes_eq, List.length_drop, sendable.size]
  omega

theorem setSendData_sendable {pData : List UInt8} (some : 0 < pData.length)
    (small : pData.length ≤ maxPacketBufferSize) :
    ∃ buffer, setSendData pData = Option.some buffer ∧ buffer.Sendable ∧
      buffer.wsaBytes = pData := by
  refine ⟨_, if_neg (by omega), ⟨rfl, ?_, some, small⟩, ?_⟩
  · exact Nat.zero_add _
  · exact List.take_length

theorem Sendable.advance (sendable : buffer.Sendable) {dwSendSize : Nat}
    (partly : dwSendSize < buffer.nDataSize) :
    Sendable { buffer with
        nDataSize := buffer.nDataSize - dwSendSize
        wsaBuf := buffer.wsaBuf + dwSendSize
        wsaLen := buffer.wsaLen - dwSendSize } ∧
      wsaBytes { buffer with
        nDataSize := buffer.nDataSize - dwSendSize
        wsaBuf := buffer.wsaBuf + dwSendSize
        wsaLen := buffer.wsaLen - dwSendSize } = buffer.wsaBytes.drop dwSendSize := by
  have size := sendable.size
  have whole := sendable.whole
  have small := sendable.small
  have rest : Sendable { buffer with
      nDataSize := buffer.nDataSize - dwSendSize
      wsaBuf := buffer.wsaBuf + dwSendSize
      wsaLen := buffer.wsaLen - dwSendSize } :=
    ⟨by dsimp only; omega, by dsimp only; omega, by dsimp only; omega, by dsimp only; omega⟩
  refine ⟨rest, ?_⟩
  rw [rest.wsaBytes_eq, sendable.wsaBytes_eq, List.drop_drop]

end NetworkBuffer

namespace Connector

/-! What is left to send. -/

def remaining (conn : Connector) : List UInt8 :=
  (conn.sendRequest.map NetworkBuffer.wsaBytes).getD []

def waiting (conn : Connector) : List UInt8 :=
  conn.sendQueue.flatMap NetworkBuffer.wsaBytes

structure Buffered (conn : Connector) : Prop where
  request : ∀ buffer, conn.sendRequest = some buffer → buffer.Sendable
  queue : ∀ buffer ∈ conn.sendQueue, buffer.Sendable

theorem toInt32_pos {value : Nat} (some : 0 < value) (small : value ≤ maxPacketBufferSize) :
    0 < toInt32 value := by
  rw [toInt32_of_small small]
  omega

theorem addSendQueue_takes {conn : Connector} (buffered : conn.Buffered) {pSendData : List UInt8}
    (some : 0 < pSendData.length) (small : pSendData.length ≤ maxPacketBufferSize) :
    ∃ buffer, conn.addSendQueue pSendData =
        ({ conn with sendQueue := conn.sendQueue ++ [buffer] },
          toInt32 (conn.sendQueue.length + 1)) ∧
      Buffered { conn with sendQueue := conn.sendQueue ++ [buffer] } ∧
      waiting { conn with sendQueue := conn.sendQueue ++ [buffer] } =
        conn.waiting ++ pSendData := by
  obtain ⟨buffer, taken, sendable, bytes⟩ := NetworkBuffer.setSendData_sendable some small
  refine ⟨buffer, ?_, ⟨buffered.request, ?_⟩, ?_⟩
  · rw [addSendQueue, taken]
  · intro other member
    rcases List.mem_append.mp member with old | new
    · exact buffered.queue other old
    · rw [List.mem_singleton.mp new]
      exact sendable
  · simp [waiting, bytes]

theorem sendPrepare_takes {conn : Connector} (buffered : conn.Buffered)
    {front : NetworkBuffer} {rest : List NetworkBuffer} (waits : conn.sendQueue = front :: rest)
    (idle : conn.dwSendRef = 0) (free : conn.sendRequest = none) :
    conn.sendPrepare.1.Buffered ∧ 0 < conn.sendPrepare.2 ∧
      conn.sendPrepare.1.sendRequest = some front ∧ conn.sendPrepare.1.dwSendRef = 1 ∧
      conn.sendPrepare.1.active = conn.active ∧
      conn.sendPrepare.1.remaining ++ conn.sendPrepare.1.waiting =
        conn.remaining ++ conn.waiting := by
  have sendable := buffered.queue front (by simp [waits])
  rw [sendPrepare_pops waits (by rw [idle]; decide)]
  refine ⟨⟨?_, ?_⟩, toInt32_pos sendable.some sendable.small, rfl, ?_, rfl, ?_⟩
  · intro buffer requested
    rw [← Option.some.inj requested]
    exact sendable
  · intro buffer member
    exact buffered.queue buffer (by rw [waits]; exact List.mem_cons_of_mem _ member)
  · dsimp only
    rw [idle]
    rfl
  · simp [remaining, waiting, waits, free]

/-! A completion of some of the bytes handed out either leaves a rest in the request or ends
it. -/

inductive Completed (conn next : Connector) (returned : Int) : Prop
  | partly (rest : NetworkBuffer) (request : next.sendRequest = some rest)
      (count : next.dwSendRef = conn.dwSendRef) (more : 0 < returned)
  | wholly (request : next.sendRequest = none) (count : next.dwSendRef = conn.dwSendRef - 1)
      (done : returned = 0)

theorem sendComplete_completes {conn : Connector} (buffered : conn.Buffered)
    {buffer : NetworkBuffer} (requested : conn.sendRequest = some buffer) (dwSendSize : Nat) :
    Completed conn (conn.sendComplete dwSendSize).1 (conn.sendComplete dwSendSize).2 ∧
      (conn.sendComplete dwSendSize).1.Buffered ∧
      (conn.sendComplete dwSendSize).1.sendQueue = conn.sendQueue ∧
      (conn.sendComplete dwSendSize).1.active = conn.active ∧
      buffer.wsaBytes.take dwSendSize ++ (conn.sendComplete dwSendSize).1.remaining =
        conn.remaining := by
  have sendable := buffered.request buffer requested
  have length := sendable.wsaBytes_length
  by_cases partly : dwSendSize < buffer.nDataSize
  · obtain ⟨rest, bytes⟩ := sendable.advance partly
    have small := rest.small
    rw [sendComplete_partly requested partly]
    refine ⟨.partly _ rfl rfl (toInt32_pos rest.some small), ⟨?_, buffered.queue⟩, rfl, rfl, ?_⟩
    · intro other same
      rw [← Option.some.inj same]
      exact rest
    · simp only [remaining, requested, Option.map_some, Option.getD_some, bytes,
        List.take_append_drop]
  · rw [sendComplete_wholly requested partly]
    refine ⟨.wholly rfl rfl rfl, ⟨?_, buffered.queue⟩, rfl, rfl, ?_⟩
    · intro other same
      cases same
    · have all : buffer.wsaBytes.take dwSendSize = buffer.wsaBytes :=
        List.take_of_length_le (by omega)
      simp [remaining, requested, all]

end Connector

namespace Channel

open Connector

/-! Runs of writes and send completions that the system accepts. -/

def SendsOnly (channel : Channel) : Event → Prop
  | .write pSendData accepts =>
      0 < pSendData.length ∧ pSendData.length ≤ maxPacketBufferSize ∧ accepts = true
  | .sendDone dwIOSize accepts =>
      0 < dwIOSize ∧ (∀ bytes ∈ channel.sends, dwIOSize ≤ bytes.length) ∧ accepts = true
  | _ => False

def payload : Event → List UInt8
  | .write pSendData _ => pSendData
  | _ => []

/-! The bytes reported as sent and the bytes left to send are the ones accepted. -/

def Streams (channel : Channel) : Prop :=
  channel.sent ++ (channel.conn.remaining ++ channel.conn.waiting) = channel.accepted

structure Enqueued (channel next : Channel) (pSendData : List UInt8) : Prop where
  buffered : next.conn.Buffered
  active : next.conn.active = channel.conn.active
  request : next.conn.sendRequest = channel.conn.sendRequest
  count : next.conn.dwSendRef = channel.conn.dwSendRef
  queue : ∃ buffer, next.conn.sendQueue = channel.conn.sendQueue ++ [buffer]
  sends : next.sends = channel.sends
  nullSends : next.nullSends = channel.nullSends
  streams : channel.Streams → next.Streams
  accepted : next.accepted = channel.accepted ++ pSendData

theorem addSendQueue_takes {channel : Channel} (buffered : channel.conn.Buffered)
    {pSendData : List UInt8} (some : 0 < pSendData.length)
    (small : pSendData.length ≤ maxPacketBufferSize) :
    Enqueued channel (channel.addSendQueue pSendData).1 pSendData ∧
      (channel.addSendQueue pSendData).2 = toInt32 (channel.conn.sendQueue.length + 1) := by
  obtain ⟨buffer, added, queued, waits⟩ := Connector.addSendQueue_takes buffered some small
  rw [addSendQueue, added, if_pos small]
  refine ⟨⟨queued, rfl, rfl, rfl, ⟨buffer, rfl⟩, rfl, rfl, ?_, rfl⟩, rfl⟩
  intro streams
  unfold Streams at streams ⊢
  rw [waits, ← streams]
  simp [remaining]

structure Prepared (channel next : Channel) : Prop where
  buffered : next.conn.Buffered
  active : next.conn.active = channel.conn.active
  request : ∃ buffer, next.conn.sendRequest = some buffer
  count : next.conn.dwSendRef = 1
  sends : next.sends = channel.sends
  nullSends : next.nullSends = channel.nullSends
  streams : channel.Streams → next.Streams
  accepted : next.accepted = channel.accepted

theorem sendPrepare_takes {channel : Channel} (buffered : channel.conn.Buffered)
    (waits : channel.conn.sendQueue ≠ []) (idle : channel.conn.dwSendRef = 0)
    (free : channel.conn.sendRequest = none) :
    Prepared channel channel.sendPrepare.1 ∧ 0 < channel.sendPrepare.2 := by
  obtain ⟨front, rest, queue⟩ := List.exists_cons_of_ne_nil waits
  obtain ⟨sound, more, taken, count, still, bytes⟩ :=
    Connector.sendPrepare_takes buffered queue idle free
  refine ⟨⟨sound, still, ⟨front, taken⟩, count, rfl, rfl, ?_, rfl⟩, more⟩
  intro streams
  exact (congrArg (channel.sent ++ ·) bytes).trans streams

/-! `sendComplete` after a completion was dequeued: the bytes it brings are already counted
as sent. -/

structure Advanced (channel next : Channel) : Prop where
  buffered : next.conn.Buffered
  active : next.conn.active = channel.conn.active
  queue : next.conn.sendQueue = channel.conn.sendQueue
  sends : next.sends = channel.sends
  nullSends : next.nullSends = channel.nullSends
  accepted : next.accepted = channel.accepted

theorem sendComplete_advances {channel : Channel} {buffer : NetworkBuffer}
    (buffered : channel.conn.Buffered) (requested : channel.conn.sendRequest = some buffer)
    (streams : channel.Streams) (rest : List (List UInt8)) (dwIOSize : Nat) :
    let taken := { channel with
      sends := rest, sent := channel.sent ++ buffer.wsaBytes.take dwIOSize }
    Advanced taken (taken.sendComplete dwIOSize).1 ∧
      Completed taken.conn (taken.sendComplete dwIOSize).1.conn
        (taken.sendComplete dwIOSize).2 ∧
      (taken.sendComplete dwIOSize).1.Streams := by
  intro taken
  obtain ⟨outcome, sound, queue, still, front⟩ :=
    sendComplete_completes buffered requested dwIOSize
  have later : (channel.conn.sendComplete dwIOSize).1.waiting = channel.conn.waiting := by
    rw [waiting, queue, ← waiting]
  refine ⟨⟨sound, still, queue, rfl, rfl, rfl⟩, outcome, ?_⟩
  unfold Streams at streams
  rw [← front, List.append_assoc, ← List.append_assoc channel.sent, ← later] at streams
  exact streams

theorem wsaSend_some {channel : Channel} {buffer : NetworkBuffer}
    (requested : channel.conn.sendRequest = some buffer) :
    channel.wsaSend true = { channel with sends := channel.sends ++ [buffer.wsaBytes] } := by
  rw [wsaSend, requested]
  rfl

/-- The send side between two steps: either nothing is left to send, or one request is out
and holds the rest of `_SendRequest`. -/
structure Flowing (channel : Channel) : Prop where
  active : channel.conn.active = true
  buffered : channel.conn.Buffered
  streams : channel.Streams
  flight : (channel.conn.dwSendRef = 0 ∧ channel.conn.sendRequest = none ∧ channel.sends = [] ∧
      channel.conn.sendQueue = []) ∨
    channel.conn.dwSendRef = 1 ∧ ∃ buffer, channel.conn.sendRequest = some buffer ∧
      channel.sends = [buffer.wsaBytes]

theorem start_buffered (opening : Opening) (heap : Nat → UInt8) :
    (start opening heap).conn.Buffered := by
  have request : (start opening heap).conn.sendRequest = none := by cases opening <;> rfl
  have queue : (start opening heap).conn.sendQueue = [] := by cases opening <;> rfl
  refine ⟨?_, ?_⟩
  · intro buffer requested
    rw [request] at requested
    cases requested
  · intro buffer member
    rw [queue] at member
    cases member

theorem start_flowing (opening : Opening) (heap : Nat → UInt8) : (start opening heap).Flowing := by
  have buffered := start_buffered opening heap
  cases opening with
  | connect => exact ⟨rfl, buffered, rfl, Or.inl ⟨rfl, rfl, rfl, rfl⟩⟩
  | acceptThread => exact ⟨rfl, buffered, rfl, Or.inl ⟨rfl, rfl, rfl, rfl⟩⟩
  | accept => exact ⟨rfl, buffered, rfl, Or.inl ⟨rfl, rfl, rfl, rfl⟩⟩

theorem wsaSend_flowing {channel : Channel} (active : channel.conn.active = true)
    (buffered : channel.conn.Buffered) (streams : channel.Streams)
    (count : channel.conn.dwSendRef = 1)
    (requested : ∃ buffer, channel.conn.sendRequest = some buffer) (none : channel.sends = []) :
    (channel.wsaSend true).Flowing ∧ (channel.wsaSend true).accepted = channel.accepted := by
  obtain ⟨buffer, requested⟩ := requested
  rw [wsaSend_some requested]
  refine ⟨⟨active, buffered, streams, Or.inr ⟨count, buffer, requested, ?_⟩⟩, rfl⟩
  dsimp only
  rw [none]
  rfl

theorem write_flowing {channel : Channel} (flowing : channel.Flowing) {pSendData : List UInt8}
    (some : 0 < pSendData.length) (small : pSendData.length ≤ maxPacketBufferSize) :
    (channel.write pSendData true).1.Flowing ∧
      (channel.write pSendData true).1.accepted = channel.accepted ++ pSendData := by
  obtain ⟨active, buffered, streams, flight⟩ := flowing
  obtain ⟨queued, code⟩ := addSendQueue_takes buffered some small
  rw [write, if_pos active]
  generalize channel.addSendQueue pSendData = result at queued code
  have still := queued.active.trans active
  have flows := queued.streams streams
  dsimp only
  rcases flight with ⟨idle, free, none, empty⟩ | ⟨busy, request, requested, out⟩
  · have zero := queued.count.trans idle
    obtain ⟨buffer, waits⟩ := queued.queue
    obtain ⟨ready, more⟩ := sendPrepare_takes queued.buffered (by simp [waits]) zero
      (queued.request.trans free)
    rw [if_neg (by rw [code, empty]; decide), if_pos (UInt32.le_of_eq zero),
      if_neg (by omega)]
    obtain ⟨next, taken⟩ := wsaSend_flowing (ready.active.trans still) ready.buffered
      (ready.streams flows) ready.count ready.request
      ((ready.sends.trans queued.sends).trans none)
    exact ⟨next, (taken.trans ready.accepted).trans queued.accepted⟩
  · have one := queued.count.trans busy
    have kept : result.1.Flowing := ⟨still, queued.buffered, flows,
      Or.inr ⟨one, request, queued.request.trans requested, queued.sends.trans out⟩⟩
    rw [if_neg (show ¬result.1.conn.dwSendRef ≤ 0 by rw [one]; decide)]
    -- a queue of 2 ^ 31 buffers is reported as a failure, with the new buffer in it
    split
    · exact ⟨kept, queued.accepted⟩
    · exact ⟨kept, queued.accepted⟩

theorem sendPrepare_empty {channel : Channel} (empty : channel.conn.sendQueue = []) :
    channel.sendPrepare = (channel, 0) := by
  rw [sendPrepare, Connector.sendPrepare_empty empty]

theorem sendDone_flowing {channel : Channel} {buffer : NetworkBuffer}
    (active : channel.conn.active = true) (buffered : channel.conn.Buffered)
    (streams : channel.Streams) (busy : channel.conn.dwSendRef = 1)
    (requested : channel.conn.sendRequest = some buffer) (dwIOSize : Nat) :
    let taken := { channel with
      sends := [], sent := channel.sent ++ buffer.wsaBytes.take dwIOSize }
    (taken.doSend dwIOSize true).Flowing ∧
      (taken.doSend dwIOSize true).accepted = channel.accepted := by
  intro taken
  obtain ⟨advanced, outcome, flows⟩ :=
    sendComplete_advances buffered requested streams [] dwIOSize
  rw [doSend]
  generalize taken.sendComplete dwIOSize = result at advanced outcome flows
  have still := advanced.active.trans active
  dsimp only
  cases outcome with
  | partly rest request count more =>
      rw [if_pos more, sendOn, if_pos rfl]
      obtain ⟨next, same⟩ := wsaSend_flowing still advanced.buffered flows (count.trans busy)
        ⟨rest, request⟩ advanced.sends
      exact ⟨next, same.trans advanced.accepted⟩
  | wholly request count done =>
      have idle : result.1.conn.dwSendRef = 0 := by
        rw [count]
        exact congrArg (· - 1) busy
      rw [if_neg (by omega)]
      by_cases waits : result.1.conn.sendQueue = []
      · rw [sendPrepare_empty waits, if_neg (lt_irrefl _)]
        exact ⟨⟨still, advanced.buffered, flows,
          Or.inl ⟨idle, request, advanced.sends, waits⟩⟩, advanced.accepted⟩
      · obtain ⟨ready, more⟩ := sendPrepare_takes advanced.buffered waits idle request
        rw [if_pos more, sendOn, if_pos rfl]
        obtain ⟨next, same⟩ := wsaSend_flowing (ready.active.trans still) ready.buffered
          (ready.streams flows) ready.count ready.request (ready.sends.trans advanced.sends)
        exact ⟨next, (same.trans ready.accepted).trans advanced.accepted⟩

theorem step_flowing (self : Nat) {channel : Channel} (flowing : channel.Flowing) {event : Event}
    (allowed : channel.SendsOnly event) :
    (channel.step self event).Flowing ∧
      (channel.step self event).accepted = channel.accepted ++ payload event := by
  cases event with
  | write pSendData accepts =>
      obtain ⟨some, small, rfl⟩ := allowed
      exact write_flowing flowing some small
  | sendDone dwIOSize accepts =>
      obtain ⟨some, -, rfl⟩ := allowed
      simp only [payload, List.append_nil, step, dequeueSend]
      rcases flowing.flight with ⟨-, -, none, -⟩ | ⟨busy, buffer, requested, out⟩
      · rw [none]
        exact ⟨flowing, rfl⟩
      · rw [out]
        dsimp only
        rw [if_neg (by omega)]
        exact sendDone_flowing flowing.active flowing.buffered flowing.streams busy requested
          dwIOSize
  | _ => exact absurd allowed (by simp [SendsOnly])

theorem run_flowing (self : Nat) {channel : Channel} (flowing : channel.Flowing)
    {events : List Event} (allowed : Run.Along (step self) SendsOnly channel events) :
    (run self channel events).Flowing ∧
      (run self channel events).accepted = channel.accepted ++ events.flatMap payload := by
  induction events generalizing channel with
  | nil => exact ⟨flowing, (List.append_nil _).symm⟩
  | cons event rest ih =>
      obtain ⟨here, taken⟩ := step_flowing self flowing allowed.1
      obtain ⟨later, all⟩ := ih here allowed.2
      refine ⟨later, ?_⟩
      rw [taken, List.append_assoc] at all
      exact all

/-- Over any writes and send completions, the bytes reported as sent, the rest of the request
and the queue are the payloads written, in order. The count is one exactly while a request is
out, and nothing waits while it is zero. -/
theorem send_path_keeps_stream (self : Nat) (opening : Opening) (heap : Nat → UInt8)
    (events : List Event)
    (allowed : Run.Along (step self) SendsOnly (start opening heap) events) :
    let channel := run self (start opening heap) events
    channel.sent ++ (channel.conn.remaining ++ channel.conn.waiting) = events.flatMap payload ∧
      channel.conn.dwSendRef = (if channel.sends = [] then 0 else 1) ∧
      (channel.conn.dwSendRef = 0 → channel.conn.sendQueue = []) := by
  obtain ⟨flowing, taken⟩ := run_flowing self (start_flowing opening heap) allowed
  have empty : (start opening heap).accepted = [] := by
    cases opening <;> rfl
  rw [empty, List.nil_append] at taken
  refine ⟨flowing.streams.trans taken, ?_, ?_⟩
  · rcases flowing.flight with ⟨idle, -, none, -⟩ | ⟨busy, buffer, -, out⟩
    · rw [idle, if_pos none]
    · rw [busy, if_neg (by rw [out]; simp)]
  · intro zero
    rcases flowing.flight with ⟨-, -, -, waits⟩ | ⟨busy, -⟩
    · exact waits
    · rw [zero] at busy
      exact absurd busy (by decide)

theorem send_path_keeps_stream_of_two_writes :
    let events : List Event := [.write [1, 2, 3] true, .write [4] true, .sendDone 2 true]
    Run.Along (step 3) SendsOnly (start .accept fun _ => 0) events ∧
      let channel := run 3 (start .accept fun _ => 0) events
      channel.sent ++ (channel.conn.remaining ++ channel.conn.waiting) = [1, 2, 3, 4] := by
  intro events
  have allowed : Run.Along (step 3) SendsOnly (start .accept fun _ => 0) events := by
    refine ⟨?_, ?_, ?_, trivial⟩
    · exact ⟨by decide, by decide, rfl⟩
    · exact ⟨by decide, by decide, rfl⟩
    · exact ⟨by decide, by decide, rfl⟩
  exact ⟨allowed, (send_path_keeps_stream 3 .accept (fun _ => 0) events allowed).1⟩

end Channel

end ProjectPl
