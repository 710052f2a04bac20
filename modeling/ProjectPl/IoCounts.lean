import ProjectPl.ConnectorReuse
import ProjectPl.SendPath

/-!
The two reference counts of a `Connector` against the requests that are really outstanding. The
counts are taken before the system has accepted a request and given back in different places, so
they match only in runs where nothing is refused, nothing fails and nothing is posted over a
count that is still taken.
-/

namespace ProjectPl

open Connector

theorem Connector.recvComplete_counts (conn : Connector) (self : Nat) (completion : Completion) :
    (conn.recvComplete self completion).1.dwRecvRef = conn.dwRecvRef - 1 ∧
      (conn.recvComplete self completion).1.active = conn.active ∧
      (conn.recvComplete self completion).1.param = conn.param := by
  simp only [recvComplete]
  split
  · exact ⟨rfl, rfl, rfl⟩
  · split
    · exact ⟨rfl, rfl, rfl⟩
    · exact ⟨rfl, rfl, rfl⟩

theorem Connector.recvPrepare_ready (conn : Connector) : 0 < conn.recvPrepare.2 :=
  show (0 : Int) < maxPacketBufferSize by decide

namespace Channel

/-! Sending leaves the receiving side alone. -/

structure SameRecvSide (channel next : Channel) : Prop where
  count : next.conn.dwRecvRef = channel.conn.dwRecvRef
  recvs : next.recvs = channel.recvs
  param : next.conn.param = channel.conn.param
  inUse : next.inUse = channel.inUse

theorem SameRecvSide.trans {first second third : Channel} (before : SameRecvSide first second)
    (after : SameRecvSide second third) : SameRecvSide first third :=
  ⟨after.count.trans before.count, after.recvs.trans before.recvs,
    after.param.trans before.param, after.inUse.trans before.inUse⟩

theorem addSendQueue_recvSide (channel : Channel) (pSendData : List UInt8) :
    SameRecvSide channel (channel.addSendQueue pSendData).1 := by
  simp only [addSendQueue, Connector.addSendQueue]
  split
  · exact ⟨rfl, rfl, rfl, rfl⟩
  · exact ⟨rfl, rfl, rfl, rfl⟩

theorem sendPrepare_recvSide (channel : Channel) :
    SameRecvSide channel channel.sendPrepare.1 := by
  simp only [sendPrepare, Connector.sendPrepare]
  split
  · exact ⟨rfl, rfl, rfl, rfl⟩
  · split
    · exact ⟨rfl, rfl, rfl, rfl⟩
    · exact ⟨rfl, rfl, rfl, rfl⟩

theorem sendComplete_recvSide (channel : Channel) (dwSendSize : Nat) :
    SameRecvSide channel (channel.sendComplete dwSendSize).1 := by
  simp only [sendComplete, Connector.sendComplete]
  split
  · exact ⟨rfl, rfl, rfl, rfl⟩
  · split
    · exact ⟨rfl, rfl, rfl, rfl⟩
    · exact ⟨rfl, rfl, rfl, rfl⟩

theorem wsaSend_recvSide (channel : Channel) (accepts : Bool) :
    SameRecvSide channel (channel.wsaSend accepts) := by
  simp only [wsaSend]
  split
  · exact ⟨rfl, rfl, rfl, rfl⟩
  · split
    · exact ⟨rfl, rfl, rfl, rfl⟩
    · exact ⟨rfl, rfl, rfl, rfl⟩

theorem disconnect_recvSide (channel : Channel) : SameRecvSide channel channel.disconnect :=
  ⟨rfl, rfl, rfl, rfl⟩

theorem sendOn_recvSide (channel : Channel) (accepts : Bool) :
    SameRecvSide channel (channel.sendOn accepts) := by
  unfold sendOn
  split
  · exact wsaSend_recvSide channel accepts
  · exact (wsaSend_recvSide channel accepts).trans (disconnect_recvSide _)

theorem write_recvSide (channel : Channel) (pSendData : List UInt8) (accepts : Bool) :
    SameRecvSide channel (channel.write pSendData accepts).1 := by
  have queued := addSendQueue_recvSide channel pSendData
  have prepared := queued.trans (sendPrepare_recvSide _)
  simp only [write]
  split
  · split
    · exact queued
    · split
      · split
        · exact prepared
        · exact prepared.trans (wsaSend_recvSide _ accepts)
      · exact queued
  · exact ⟨rfl, rfl, rfl, rfl⟩

theorem doSend_recvSide (channel : Channel) (dwSendCompleteSize : Nat) (accepts : Bool) :
    SameRecvSide channel (channel.doSend dwSendCompleteSize accepts) := by
  have completed := sendComplete_recvSide channel dwSendCompleteSize
  have prepared := completed.trans (sendPrepare_recvSide _)
  simp only [doSend]
  split
  · exact completed.trans (sendOn_recvSide _ accepts)
  · split
    · exact prepared.trans (sendOn_recvSide _ accepts)
    · exact prepared

/-! Receiving leaves the sending side alone, and at most closes the socket. -/

structure SameSendSide (channel next : Channel) : Prop where
  queue : next.conn.sendQueue = channel.conn.sendQueue
  request : next.conn.sendRequest = channel.conn.sendRequest
  count : next.conn.dwSendRef = channel.conn.dwSendRef
  sends : next.sends = channel.sends
  param : next.conn.param = channel.conn.param
  inUse : next.inUse = channel.inUse
  active : next.conn.active = true → channel.conn.active = true

theorem disconnect_sendSide (channel : Channel) : SameSendSide channel channel.disconnect :=
  ⟨rfl, rfl, rfl, rfl, rfl, rfl, fun active => nomatch active⟩

theorem doRecv_sendSide (channel : Channel) (self : Nat) (completion : Completion)
    (accepts : Bool) : SameSendSide channel (channel.doRecv self completion accepts) := by
  obtain ⟨queue, request, count⟩ := recvComplete_sendSide self channel.conn completion
  obtain ⟨-, active, param⟩ := channel.conn.recvComplete_counts self completion
  simp only [doRecv, wsaRecv]
  split
  · exact ⟨queue, request, count, rfl, param, rfl, fun still => nomatch still⟩
  · split
    · split
      · exact ⟨queue, request, count, rfl, param, rfl, fun still => active.symm.trans still⟩
      · exact ⟨queue, request, count, rfl, param, rfl, fun still => nomatch still⟩
    · exact ⟨queue, request, count, rfl, param, rfl, fun still => active.symm.trans still⟩

/-! An object that was given back stays given back: nothing in this model opens it again. -/

theorem tryRelease_freed {channel : Channel} (freed : channel.inUse = false) :
    channel.tryRelease.inUse = false := by
  rw [tryRelease, freed]
  rfl

theorem noBytes_freed {channel : Channel} {netOp : NetworkOperator}
    (freed : channel.inUse = false) : (channel.noBytes netOp).inUse = false := by
  rw [noBytes]
  generalize (if channel.conn.dwSendRef ≠ 0 ∨ channel.conn.dwRecvRef ≠ 0 then
    decRef channel.conn netOp else channel.conn) = counted
  split
  · exact tryRelease_freed freed
  · exact freed

theorem step_freed {self : Nat} {channel : Channel} {event : Event}
    (freed : channel.inUse = false) : (channel.step self event).inUse = false := by
  cases event with
  | write pSendData accepts => exact (write_recvSide channel pSendData accepts).inUse.trans freed
  | sendDone dwIOSize accepts =>
      simp only [step, dequeueSend]
      split
      · exact freed
      · split
        · exact noBytes_freed freed
        · exact (doSend_recvSide _ dwIOSize accepts).inUse.trans freed
  | recvDone completion accepts =>
      simp only [step, dequeueRecv]
      split
      · exact freed
      · split
        · exact noBytes_freed freed
        · exact (doRecv_sendSide _ self completion accepts).inUse.trans freed
  | postedDone =>
      simp only [step, dequeuePosted]
      split
      · exact freed
      · exact noBytes_freed freed
  | sendFailed =>
      simp only [step, dequeueSend]
      split
      · exact freed
      · exact freed
  | recvFailed =>
      simp only [step, dequeueRecv]
      split
      · exact freed
      · exact freed
  | disconnect => exact freed
  | setParam session => exact freed
  | tryRelease => exact tryRelease_freed freed
  | release => exact tryRelease_freed freed

/-! Exact counts. -/

structure CountsExact (channel : Channel) : Prop where
  sends : channel.conn.dwSendRef.toNat = channel.sends.length
  recvs : channel.conn.dwRecvRef.toNat = channel.recvs
  oneSend : channel.sends.length ≤ 1
  oneRecv : channel.recvs ≤ 1

/-- No call is refused by the system, no request ends with an error, and a completion posted
by `Disconnect` is dequeued only when both counts are zero. -/
def Unrefused (channel : Channel) : Event → Prop
  | .write pSendData accepts => 0 < pSendData.length ∧ accepts = true
  | .sendDone _ accepts => accepts = true
  | .recvDone _ accepts => accepts = true
  | .postedDone =>
      channel.posted = 0 ∨ channel.conn.dwSendRef = 0 ∧ channel.conn.dwRecvRef = 0
  | .sendFailed => channel.sends = []
  | .recvFailed => channel.recvs = 0
  | _ => True

/-! The counts of a channel in use. A send that is out has its buffer in the request; with no
send out the request is free, unless the socket was closed over it. -/

structure SendsCounted (channel : Channel) : Prop where
  buffered : channel.conn.Buffered
  flight : channel.conn.dwSendRef = 0 ∧ channel.sends = [] ∧
      (channel.conn.active = true → channel.conn.sendRequest = none) ∨
    channel.conn.dwSendRef = 1 ∧ channel.sends.length = 1 ∧
      ∃ buffer, channel.conn.sendRequest = some buffer

def RecvsCounted (channel : Channel) : Prop :=
  channel.conn.dwRecvRef = 0 ∧ channel.recvs = 0 ∨
    channel.conn.dwRecvRef = 1 ∧ channel.recvs = 1

structure Counted (channel : Channel) : Prop where
  sends : channel.SendsCounted
  recvs : channel.RecvsCounted

theorem Counted.exact {channel : Channel} (counted : channel.Counted) : channel.CountsExact := by
  obtain ⟨⟨-, sends⟩, recvs⟩ := counted
  constructor
  · rcases sends with ⟨zero, none, -⟩ | ⟨one, single, -⟩
    · rw [zero, none]
      rfl
    · rw [one, single]
      rfl
  · rcases recvs with ⟨zero, none⟩ | ⟨one, single⟩
    · rw [zero, none]
      rfl
    · rw [one, single]
      rfl
  · rcases sends with ⟨-, none, -⟩ | ⟨-, single, -⟩
    · rw [none]
      exact Nat.zero_le 1
    · exact single.le
  · unfold RecvsCounted at recvs
    omega

theorem start_counted {opening : Opening} (counted : opening ≠ .accept) (heap : Nat → UInt8) :
    (start opening heap).Counted := by
  have buffered := start_buffered opening heap
  cases opening with
  | connect => exact ⟨⟨buffered, Or.inl ⟨rfl, rfl, fun _ => rfl⟩⟩, Or.inr ⟨rfl, rfl⟩⟩
  | acceptThread => exact ⟨⟨buffered, Or.inl ⟨rfl, rfl, fun _ => rfl⟩⟩, Or.inr ⟨rfl, rfl⟩⟩
  | accept => exact absurd rfl counted

theorem SameRecvSide.recvsCounted {channel next : Channel} (side : SameRecvSide channel next)
    (counted : channel.RecvsCounted) : next.RecvsCounted := by
  unfold RecvsCounted at counted ⊢
  rw [side.count, side.recvs]
  exact counted

theorem addSendQueue_refuses (channel : Channel) {pSendData : List UInt8}
    (large : maxPacketBufferSize < pSendData.length) :
    channel.addSendQueue pSendData = (channel, -1) := by
  have refused : channel.conn.addSendQueue pSendData = (channel.conn, -1) := by
    rw [Connector.addSendQueue, NetworkBuffer.setSendData, if_pos large]
  rw [addSendQueue, refused, if_neg (by omega)]

theorem write_refuses {channel : Channel} {pSendData : List UInt8} (accepts : Bool)
    (large : maxPacketBufferSize < pSendData.length) :
    (channel.write pSendData accepts).1 = channel := by
  rw [write, addSendQueue_refuses channel large]
  split
  · rfl
  · rfl

theorem wsaSend_counted {channel : Channel} (buffered : channel.conn.Buffered)
    (count : channel.conn.dwSendRef = 1)
    (requested : ∃ buffer, channel.conn.sendRequest = some buffer) (none : channel.sends = []) :
    (channel.wsaSend true).SendsCounted := by
  obtain ⟨buffer, requested⟩ := requested
  rw [wsaSend_some requested]
  refine ⟨buffered, Or.inr ⟨count, ?_, buffer, requested⟩⟩
  dsimp only
  rw [none]
  rfl

theorem write_counted {channel : Channel} (counted : channel.SendsCounted)
    {pSendData : List UInt8} (some : 0 < pSendData.length) :
    (channel.write pSendData true).1.SendsCounted := by
  by_cases small : pSendData.length ≤ maxPacketBufferSize
  swap
  · rw [write_refuses true (by omega)]
    exact counted
  by_cases active : channel.conn.active = true
  swap
  · rw [write, if_neg active]
    exact counted
  obtain ⟨queued, -⟩ := addSendQueue_takes counted.buffered some small
  rw [write, if_pos active]
  generalize channel.addSendQueue pSendData = result at queued
  have kept : result.1.SendsCounted := by
    refine ⟨queued.buffered, ?_⟩
    rw [queued.count, queued.sends, queued.active, queued.request]
    exact counted.flight
  dsimp only
  split
  · exact kept
  · split
    · rename_i zero
      have idle : result.1.conn.dwSendRef = 0 := UInt32.le_antisymm zero (UInt32.zero_le)
      rcases kept.flight with ⟨-, none, free⟩ | ⟨one, -⟩
      swap
      · rw [idle] at one
        exact absurd one (by decide)
      obtain ⟨buffer, waits⟩ := queued.queue
      obtain ⟨ready, more⟩ := sendPrepare_takes queued.buffered (by simp [waits]) idle
        (free (queued.active.trans active))
      rw [if_neg (by omega)]
      exact wsaSend_counted ready.buffered ready.count ready.request (ready.sends.trans none)
    · exact kept

theorem doSend_counted {channel : Channel} {buffer : NetworkBuffer} {dwSendCompleteSize : Nat}
    (buffered : channel.conn.Buffered) (busy : channel.conn.dwSendRef = 1)
    (requested : channel.conn.sendRequest = some buffer) (none : channel.sends = []) :
    (channel.doSend dwSendCompleteSize true).SendsCounted := by
  obtain ⟨outcome, sound, -, still, -⟩ :=
    sendComplete_completes buffered requested dwSendCompleteSize
  have sends : (channel.sendComplete dwSendCompleteSize).1.sends = [] := none
  rw [doSend]
  rw [show channel.conn.sendComplete dwSendCompleteSize =
    ((channel.sendComplete dwSendCompleteSize).1.conn, (channel.sendComplete dwSendCompleteSize).2)
    from rfl] at outcome sound still
  generalize channel.sendComplete dwSendCompleteSize = result at outcome sound still sends
  dsimp only at outcome sound still ⊢
  cases outcome with
  | partly rest request count more =>
      rw [if_pos more, sendOn, if_pos rfl]
      exact wsaSend_counted sound (count.trans busy) ⟨rest, request⟩ sends
  | wholly request count done =>
      have idle : result.1.conn.dwSendRef = 0 := by
        rw [count]
        exact congrArg (· - 1) busy
      rw [if_neg (by omega)]
      by_cases waits : result.1.conn.sendQueue = []
      · rw [sendPrepare_empty waits, if_neg (lt_irrefl _)]
        exact ⟨sound, Or.inl ⟨idle, sends, fun _ => request⟩⟩
      · obtain ⟨ready, more⟩ := sendPrepare_takes sound waits idle request
        rw [if_pos more, sendOn, if_pos rfl]
        exact wsaSend_counted ready.buffered ready.count ready.request (ready.sends.trans sends)

theorem SameSendSide.sendsCounted {channel next : Channel} (side : SameSendSide channel next)
    (counted : channel.SendsCounted) : next.SendsCounted := by
  obtain ⟨⟨request, queue⟩, flight⟩ := counted
  refine ⟨⟨?_, ?_⟩, ?_⟩
  · rw [side.request]
    exact request
  · rw [side.queue]
    exact queue
  · rw [side.count, side.sends, side.request]
    rcases flight with ⟨zero, none, free⟩ | busy
    · exact Or.inl ⟨zero, none, fun active => free (side.active active)⟩
    · exact Or.inr busy

theorem doRecv_counted {channel : Channel} {self : Nat} {completion : Completion}
    (busy : channel.conn.dwRecvRef = 1) (none : channel.recvs = 0) :
    (channel.doRecv self completion true).RecvsCounted := by
  obtain ⟨count, -, -⟩ := channel.conn.recvComplete_counts self completion
  have zero : (channel.conn.recvComplete self completion).1.dwRecvRef = 0 := by
    rw [count]
    exact congrArg (· - 1) busy
  rw [doRecv]
  generalize channel.conn.recvComplete self completion = result at zero
  dsimp only
  split
  · exact Or.inl ⟨zero, none⟩
  · rw [if_pos (recvPrepare_ready _), wsaRecv, if_pos rfl]
    refine Or.inr ⟨?_, ?_⟩
    · exact congrArg (· + 1) zero
    · exact congrArg (· + 1) none

/-! A completion of no bytes that leaves a count of zero tries to release the object. Either it
is given back or a session still holds it, and then only the socket is closed. -/

theorem tryRelease_counted {channel : Channel} (buffered : channel.conn.Buffered)
    (flight : channel.conn.dwSendRef = 0 ∧ channel.sends = [] ∨
      channel.conn.dwSendRef = 1 ∧ channel.sends.length = 1 ∧
        ∃ buffer, channel.conn.sendRequest = some buffer)
    (recvs : channel.RecvsCounted) (held : channel.tryRelease.inUse = true) :
    channel.tryRelease.Counted := by
  cases session : channel.conn.param with
  | none =>
      rw [tryRelease, Connector.tryRelease, session] at held
      simp at held
  | some owner =>
      rw [tryRelease, Connector.tryRelease, session]
      refine ⟨⟨⟨buffered.request, buffered.queue⟩, ?_⟩, recvs⟩
      rcases flight with ⟨zero, none⟩ | busy
      · exact Or.inl ⟨zero, none, fun active => nomatch active⟩
      · exact Or.inr busy

theorem SendsCounted.open_or_idle {channel : Channel} (counted : channel.SendsCounted) :
    channel.conn.dwSendRef = 0 ∧ channel.sends = [] ∨
      channel.conn.dwSendRef = 1 ∧ channel.sends.length = 1 ∧
        ∃ buffer, channel.conn.sendRequest = some buffer := by
  rcases counted.flight with ⟨zero, none, -⟩ | busy
  · exact Or.inl ⟨zero, none⟩
  · exact Or.inr busy

theorem noBytes_closes {channel : Channel} {netOp : NetworkOperator} {counted : Connector}
    (taken : (if channel.conn.dwSendRef ≠ 0 ∨ channel.conn.dwRecvRef ≠ 0 then
      decRef channel.conn netOp else channel.conn) = counted)
    (zero : counted.dwSendRef = 0 ∨ counted.dwRecvRef = 0) :
    channel.noBytes netOp = tryRelease { channel with conn := counted } := by
  rw [noBytes, taken]
  apply if_pos
  rcases zero with zero | zero
  · exact Or.inl (UInt32.le_of_eq zero)
  · exact Or.inr (UInt32.le_of_eq zero)

theorem noBytes_send_counted {channel : Channel} (buffered : channel.conn.Buffered)
    (busy : channel.conn.dwSendRef = 1) (none : channel.sends = [])
    (recvs : channel.RecvsCounted) (held : (channel.noBytes .opSend).inUse = true) :
    (channel.noBytes .opSend).Counted := by
  have zero : (decRef channel.conn .opSend).dwSendRef = 0 := congrArg (· - 1) busy
  rw [noBytes_closes (if_pos (Or.inl (by rw [busy]; decide))) (Or.inl zero)] at held ⊢
  exact tryRelease_counted ⟨buffered.request, buffered.queue⟩ (Or.inl ⟨zero, none⟩) recvs held

theorem noBytes_recv_counted {channel : Channel} (sends : channel.SendsCounted)
    (busy : channel.conn.dwRecvRef = 1) (none : channel.recvs = 0)
    (held : (channel.noBytes .opRecv).inUse = true) : (channel.noBytes .opRecv).Counted := by
  have zero : (decRef channel.conn .opRecv).dwRecvRef = 0 := congrArg (· - 1) busy
  rw [noBytes_closes (if_pos (Or.inr (by rw [busy]; decide))) (Or.inr zero)] at held ⊢
  exact tryRelease_counted ⟨sends.buffered.request, sends.buffered.queue⟩ sends.open_or_idle
    (Or.inl ⟨zero, none⟩) held

theorem noBytes_idle_counted {channel : Channel} {netOp : NetworkOperator}
    (counted : channel.Counted) (noSend : channel.conn.dwSendRef = 0)
    (noRecv : channel.conn.dwRecvRef = 0) (held : (channel.noBytes netOp).inUse = true) :
    (channel.noBytes netOp).Counted := by
  rw [noBytes_closes (if_neg (by simp [noSend, noRecv])) (Or.inl noSend)] at held ⊢
  exact tryRelease_counted counted.sends.buffered counted.sends.open_or_idle counted.recvs held

theorem sendDone_counted {channel : Channel} (counted : channel.Counted) {self dwIOSize : Nat}
    (held : (channel.step self (.sendDone dwIOSize true)).inUse = true) :
    (channel.step self (.sendDone dwIOSize true)).Counted := by
  simp only [step, dequeueSend] at held ⊢
  rcases counted.sends.flight with ⟨-, none, -⟩ | ⟨busy, single, buffer, requested⟩
  · rw [none]
    exact counted
  · obtain ⟨bytes, out⟩ := List.length_eq_one_iff.mp single
    rw [out] at held ⊢
    dsimp only at held ⊢
    by_cases closed : dwIOSize = 0
    · rw [if_pos closed] at held ⊢
      exact noBytes_send_counted counted.sends.buffered busy rfl counted.recvs held
    · rw [if_neg closed]
      refine ⟨doSend_counted counted.sends.buffered busy requested rfl, ?_⟩
      exact (doSend_recvSide _ dwIOSize true).recvsCounted counted.recvs

theorem recvDone_counted {channel : Channel} (counted : channel.Counted) {self : Nat}
    {completion : Completion}
    (held : (channel.step self (.recvDone completion true)).inUse = true) :
    (channel.step self (.recvDone completion true)).Counted := by
  obtain ⟨sends, recvs⟩ := counted
  simp only [step, dequeueRecv] at held ⊢
  rcases recvs with ⟨zero, none⟩ | ⟨busy, single⟩
  · rw [if_pos none]
    exact ⟨sends, Or.inl ⟨zero, none⟩⟩
  · have taken : channel.recvs - 1 = 0 := by omega
    rw [if_neg (by omega)] at held ⊢
    by_cases closed : completion.chunk = []
    · rw [if_pos closed] at held ⊢
      exact noBytes_recv_counted ⟨sends.buffered, sends.flight⟩ busy taken held
    · rw [if_neg closed]
      refine ⟨?_, doRecv_counted busy taken⟩
      exact (doRecv_sendSide _ self completion true).sendsCounted ⟨sends.buffered, sends.flight⟩

theorem postedDone_counted {channel : Channel} (counted : channel.Counted) {self : Nat}
    (allowed : channel.Unrefused .postedDone)
    (held : (channel.step self .postedDone).inUse = true) :
    (channel.step self .postedDone).Counted := by
  simp only [step, dequeuePosted] at held ⊢
  by_cases none : channel.posted = 0
  · rw [if_pos none]
    exact counted
  · rw [if_neg none] at held ⊢
    obtain ⟨noSend, noRecv⟩ := allowed.resolve_left none
    have kept := counted.sends
    exact noBytes_idle_counted ⟨⟨kept.buffered, kept.flight⟩, counted.recvs⟩ noSend noRecv held

theorem step_counted (self : Nat) (channel : Channel) (event : Event)
    (invariant : channel.inUse = true → channel.Counted) (allowed : channel.Unrefused event)
    (held : (channel.step self event).inUse = true) : (channel.step self event).Counted := by
  cases used : channel.inUse with
  | false =>
      rw [step_freed used] at held
      cases held
  | true =>
      have counted := invariant used
      have sends := counted.sends
      have recvs := counted.recvs
      cases event with
      | write pSendData accepts =>
          obtain ⟨some, rfl⟩ := allowed
          exact ⟨write_counted sends some,
            (write_recvSide channel pSendData true).recvsCounted recvs⟩
      | sendDone dwIOSize accepts =>
          obtain rfl : accepts = true := allowed
          exact sendDone_counted counted held
      | recvDone completion accepts =>
          obtain rfl : accepts = true := allowed
          exact recvDone_counted counted held
      | postedDone => exact postedDone_counted counted allowed held
      | sendFailed =>
          have none : channel.sends = [] := allowed
          simp only [step, dequeueSend, none]
          exact counted
      | recvFailed =>
          have none : channel.recvs = 0 := allowed
          simp only [step, dequeueRecv, none, ↓reduceIte]
          exact counted
      | disconnect => exact ⟨(disconnect_sendSide channel).sendsCounted sends, recvs⟩
      | setParam session =>
          exact ⟨⟨⟨sends.buffered.request, sends.buffered.queue⟩, sends.flight⟩, recvs⟩
      | tryRelease => exact tryRelease_counted sends.buffered sends.open_or_idle recvs held
      | release =>
          exact tryRelease_counted ⟨sends.buffered.request, sends.buffered.queue⟩
            sends.open_or_idle recvs held

/-- On a connection opened by `Connect` or by `AcceptThread`, as long as nothing is refused, nothing
fails and no posted completion meets a count that is not zero, both counts are the numbers of
requests outstanding in every state in which the object is in use. -/
theorem counts_exact_of_unrefused (self : Nat) (opening : Opening) (counted : opening ≠ .accept)
    (heap : Nat → UInt8) (events : List Event)
    (along : Run.Along (step self) Unrefused (start opening heap) events)
    (used : (run self (start opening heap) events).inUse = true) :
    (run self (start opening heap) events).CountsExact :=
  Counted.exact
    (Run.Along.invariant (step_counted self) (fun _ => start_counted counted heap) along used)

theorem counts_exact_of_one_write :
    let events : List Event := [.setParam 1, .write [1] true, .disconnect, .sendDone 0 true]
    Run.Along (step 3) Unrefused (start .acceptThread fun _ => 0) events ∧
      (run 3 (start .acceptThread fun _ => 0) events).inUse = true ∧
      (run 3 (start .acceptThread fun _ => 0) events).CountsExact := by
  intro events
  have along : Run.Along (step 3) Unrefused (start .acceptThread fun _ => 0) events :=
    ⟨trivial, ⟨by decide, rfl⟩, trivial, rfl, trivial⟩
  have used : (run 3 (start .acceptThread fun _ => 0) events).inUse = true := by decide
  exact ⟨along, used,
    counts_exact_of_unrefused 3 .acceptThread (by decide) (fun _ => 0) events along used⟩

/-- Two calls of `Disconnect` post two completions for the one receive: the second takes the
count below zero. A write the system refuses leaves its send counted, and an accepted
connection starts with two receives counted. -/
theorem posted_completions_wrap_recvRef :
    let twice := run 3 (start .connect fun _ => 0)
      [.setParam 1, .write [1] true, .disconnect, .disconnect, .postedDone, .postedDone]
    let refused := run 3 (start .connect fun _ => 0) [.write [1] false]
    (twice.inUse = true ∧ twice.conn.dwRecvRef = 4294967295 ∧ ¬twice.CountsExact) ∧
      (refused.inUse = true ∧ refused.sends = [] ∧ ¬refused.CountsExact) ∧
      ¬(start .accept fun _ => 0).CountsExact := by
  refine ⟨⟨by decide, by decide, ?_⟩, ⟨by decide, by decide, ?_⟩, ?_⟩
  · intro exact
    exact absurd exact.recvs (by decide)
  · intro exact
    exact absurd exact.sends (by decide)
  · intro exact
    exact absurd exact.recvs (by decide)

end Channel

end ProjectPl
