import ProjectPl.Recycle

/-!
The send path when requests are refused, completions fail and the connection is closed or given
back at any point. Bytes may stay behind then, but the ones sent are still the first ones
queued: as soon as a request is lost, the connection is closed and nothing follows it.
-/

namespace ProjectPl

namespace Channel

open Connector

/-! A connection either still has all that it has not sent, or is closed with at most one
request out. -/

structure Moving (channel : Channel) : Prop where
  streams : channel.Streams
  flight : (channel.conn.dwSendRef = 0 ∧ channel.conn.sendRequest = none ∧ channel.sends = []) ∨
    channel.conn.dwSendRef = 1 ∧ ∃ buffer, channel.conn.sendRequest = some buffer ∧
      (channel.sends = [] ∨ channel.sends = [buffer.wsaBytes])

structure Halted (channel : Channel) : Prop where
  closed : channel.conn.active = false
  ahead : channel.sent ++ channel.sends.flatten <+: channel.accepted
  flight : channel.sends = [] ∨
    channel.conn.sendRequest = none ∧ channel.conn.dwSendRef = 1 ∧ ∃ bytes, channel.sends = [bytes]

structure Ordered (channel : Channel) : Prop where
  buffered : channel.conn.Buffered
  state : channel.Moving ∨ channel.Halted

theorem Moving.ahead {channel : Channel} (moving : channel.Moving) :
    channel.sent ++ channel.sends.flatten <+: channel.accepted := by
  have streams := moving.streams
  rw [Streams] at streams
  rcases moving.flight with ⟨-, -, none⟩ | ⟨-, buffer, requested, none | out⟩
  · rw [none, ← streams, List.flatten_nil, List.append_nil]
    exact List.prefix_append _ _
  · rw [none, ← streams, List.flatten_nil, List.append_nil]
    exact List.prefix_append _ _
  · rw [out, ← streams, remaining, requested]
    exact ⟨channel.conn.waiting, by simp⟩

theorem Ordered.ahead {channel : Channel} (ordered : channel.Ordered) :
    channel.sent ++ channel.sends.flatten <+: channel.accepted :=
  ordered.state.elim Moving.ahead Halted.ahead

theorem Ordered.sent_prefix {channel : Channel} (ordered : channel.Ordered) :
    channel.sent <+: channel.accepted :=
  (List.prefix_append _ _).trans ordered.ahead

theorem start_moving (opening : Opening) (heap : Nat → UInt8) : (start opening heap).Moving := by
  cases opening with
  | connect => exact ⟨rfl, Or.inl ⟨rfl, rfl, rfl⟩⟩
  | acceptThread => exact ⟨rfl, Or.inl ⟨rfl, rfl, rfl⟩⟩
  | accept => exact ⟨rfl, Or.inl ⟨rfl, rfl, rfl⟩⟩

theorem start_ordered (opening : Opening) (heap : Nat → UInt8) : (start opening heap).Ordered :=
  ⟨(start_flowing opening heap).buffered, Or.inl (start_moving opening heap)⟩

/-! A step that leaves the sending side alone, and does not open a closed connection. -/

structure KeepsSends (channel next : Channel) : Prop where
  queue : next.conn.sendQueue = channel.conn.sendQueue
  request : next.conn.sendRequest = channel.conn.sendRequest
  count : next.conn.dwSendRef = channel.conn.dwSendRef
  sends : next.sends = channel.sends
  sent : next.sent = channel.sent
  accepted : next.accepted = channel.accepted
  active : next.conn.active = true → channel.conn.active = true

theorem KeepsSends.moving {channel next : Channel} (keeps : KeepsSends channel next)
    (moving : channel.Moving) : next.Moving := by
  refine ⟨?_, ?_⟩
  · have streams := moving.streams
    unfold Streams remaining waiting at streams ⊢
    rw [keeps.sent, keeps.request, keeps.queue, keeps.accepted]
    exact streams
  · rw [keeps.count, keeps.request, keeps.sends]
    exact moving.flight

theorem KeepsSends.ordered {channel next : Channel} (keeps : KeepsSends channel next)
    (ordered : channel.Ordered) : next.Ordered := by
  refine ⟨⟨?_, ?_⟩, ?_⟩
  · rw [keeps.request]
    exact ordered.buffered.request
  · rw [keeps.queue]
    exact ordered.buffered.queue
  · rcases ordered.state with moving | halted
    · exact Or.inl (keeps.moving moving)
    · refine Or.inr ⟨?_, ?_, ?_⟩
      · by_contra open_
        have opened := keeps.active (by simpa using open_)
        rw [halted.closed] at opened
        cases opened
      · rw [keeps.sent, keeps.sends, keeps.accepted]
        exact halted.ahead
      · rw [keeps.sends, keeps.request, keeps.count]
        exact halted.flight

theorem disconnect_keeps (channel : Channel) : KeepsSends channel channel.disconnect :=
  ⟨rfl, rfl, rfl, rfl, rfl, rfl, fun active => absurd active Bool.false_ne_true⟩

/-! Sending. -/

theorem wsaSend_moving {channel : Channel} (streams : channel.Streams)
    (count : channel.conn.dwSendRef = 1)
    (requested : ∃ buffer, channel.conn.sendRequest = some buffer) (none : channel.sends = [])
    (accepts : Bool) :
    (channel.wsaSend accepts).Moving ∧ (channel.wsaSend accepts).conn = channel.conn ∧
      (channel.wsaSend accepts).accepted = channel.accepted := by
  obtain ⟨buffer, requested⟩ := requested
  cases accepts with
  | true =>
      rw [wsaSend_some requested]
      refine ⟨⟨streams, Or.inr ⟨count, buffer, requested, Or.inr ?_⟩⟩, rfl, rfl⟩
      dsimp only
      rw [none]
      rfl
  | false =>
      have refused : channel.wsaSend false = channel := by
        rw [wsaSend, requested]
        rfl
      rw [refused]
      exact ⟨⟨streams, Or.inr ⟨count, buffer, requested, Or.inl none⟩⟩, rfl, rfl⟩

theorem wsaSend_ordered {channel : Channel} (buffered : channel.conn.Buffered)
    (streams : channel.Streams) (count : channel.conn.dwSendRef = 1)
    (requested : ∃ buffer, channel.conn.sendRequest = some buffer) (none : channel.sends = [])
    (accepts : Bool) :
    (channel.wsaSend accepts).Ordered ∧
      (channel.wsaSend accepts).accepted = channel.accepted := by
  obtain ⟨moving, conn, accepted⟩ := wsaSend_moving streams count requested none accepts
  exact ⟨⟨by rw [conn]; exact buffered, Or.inl moving⟩, accepted⟩

theorem sendOn_ordered {channel : Channel} (buffered : channel.conn.Buffered)
    (streams : channel.Streams) (count : channel.conn.dwSendRef = 1)
    (requested : ∃ buffer, channel.conn.sendRequest = some buffer) (none : channel.sends = [])
    (accepts : Bool) :
    (channel.sendOn accepts).Ordered ∧ (channel.sendOn accepts).accepted = channel.accepted := by
  obtain ⟨ordered, accepted⟩ :=
    wsaSend_ordered buffered streams count requested none accepts
  rw [sendOn]
  split
  · exact ⟨ordered, accepted⟩
  · exact ⟨(disconnect_keeps _).ordered ordered, accepted⟩

theorem write_closed {channel : Channel} (closed : channel.conn.active = false)
    (pSendData : List UInt8) (accepts : Bool) :
    (channel.write pSendData accepts).1 = channel := by
  rw [write, closed]
  rfl

theorem write_ordered {channel : Channel} (ordered : channel.Ordered) {pSendData : List UInt8}
    (some : 0 < pSendData.length) (small : pSendData.length ≤ maxPacketBufferSize)
    (accepts : Bool) :
    (channel.write pSendData accepts).1.Ordered ∧
      (channel.write pSendData accepts).1.accepted =
        if channel.conn.active then channel.accepted ++ pSendData else channel.accepted := by
  by_cases active : channel.conn.active = true
  swap
  · rw [write_closed (by simpa using active), if_neg active]
    exact ⟨ordered, rfl⟩
  obtain ⟨buffered, moving | halted⟩ := ordered
  swap
  · rw [halted.closed] at active
    cases active
  obtain ⟨queued, -⟩ := addSendQueue_takes buffered some small
  rw [write, if_pos active, if_pos active]
  generalize channel.addSendQueue pSendData = result at queued
  have flows := queued.streams moving.streams
  have kept : result.1.Ordered := by
    refine ⟨queued.buffered, Or.inl ⟨flows, ?_⟩⟩
    rw [queued.count, queued.request, queued.sends]
    exact moving.flight
  dsimp only
  split
  · exact ⟨kept, queued.accepted⟩
  · rcases moving.flight with ⟨idle, free, none⟩ | ⟨busy, -⟩
    · have zero := queued.count.trans idle
      obtain ⟨buffer, waits⟩ := queued.queue
      obtain ⟨ready, more⟩ := sendPrepare_takes queued.buffered (by simp [waits]) zero
        (queued.request.trans free)
      rw [if_pos (UInt32.le_of_eq zero), if_neg (by omega)]
      obtain ⟨next, same⟩ := wsaSend_ordered ready.buffered (ready.streams flows) ready.count
        ready.request ((ready.sends.trans queued.sends).trans none) accepts
      exact ⟨next, (same.trans ready.accepted).trans queued.accepted⟩
    · have one := queued.count.trans busy
      rw [if_neg (show ¬result.1.conn.dwSendRef ≤ 0 by rw [one]; decide)]
      exact ⟨kept, queued.accepted⟩

/-- A completion of the request that is out. -/
theorem doSend_moving {channel : Channel} {buffer : NetworkBuffer}
    (buffered : channel.conn.Buffered) (streams : channel.Streams)
    (busy : channel.conn.dwSendRef = 1) (requested : channel.conn.sendRequest = some buffer)
    (dwIOSize : Nat) (accepts : Bool) :
    let taken := { channel with
      sends := [], sent := channel.sent ++ buffer.wsaBytes.take dwIOSize }
    (taken.doSend dwIOSize accepts).Ordered ∧
      (taken.doSend dwIOSize accepts).accepted = channel.accepted := by
  intro taken
  obtain ⟨advanced, outcome, flows⟩ :=
    sendComplete_advances buffered requested streams [] dwIOSize
  rw [doSend]
  generalize taken.sendComplete dwIOSize = result at advanced outcome flows
  dsimp only
  cases outcome with
  | partly rest request count more =>
      rw [if_pos more]
      obtain ⟨next, same⟩ := sendOn_ordered advanced.buffered flows (count.trans busy)
        ⟨rest, request⟩ advanced.sends accepts
      exact ⟨next, same.trans advanced.accepted⟩
  | wholly request count done =>
      have idle : result.1.conn.dwSendRef = 0 := by
        rw [count]
        exact congrArg (· - 1) busy
      rw [if_neg (by omega)]
      by_cases waits : result.1.conn.sendQueue = []
      · rw [sendPrepare_empty waits, if_neg (lt_irrefl _)]
        exact ⟨⟨advanced.buffered, Or.inl ⟨flows, Or.inl ⟨idle, request, advanced.sends⟩⟩⟩,
          advanced.accepted⟩
      · obtain ⟨ready, more⟩ := sendPrepare_takes advanced.buffered waits idle request
        rw [if_pos more]
        obtain ⟨next, same⟩ := sendOn_ordered ready.buffered (ready.streams flows) ready.count
          ready.request (ready.sends.trans advanced.sends) accepts
        exact ⟨next, (same.trans ready.accepted).trans advanced.accepted⟩

/-- A completion that finds no request left, since the object was given back. -/
theorem doSend_lost (channel : Channel) (lost : channel.conn.sendRequest = none)
    (busy : channel.conn.dwSendRef = 1) (dwIOSize : Nat) (accepts : Bool) :
    channel.doSend dwIOSize accepts = channel := by
  have spurious : channel.sendComplete dwIOSize = (channel, 0) := by
    rw [sendComplete, sendComplete_spurious lost]
  have waits : channel.sendPrepare = (channel, 0) := by
    rw [sendPrepare, sendPrepare_busy (by rw [busy]; decide)]
  rw [doSend, spurious]
  dsimp only
  rw [if_neg (lt_irrefl _), waits, if_neg (lt_irrefl _)]

/-! Giving the object back. -/

theorem tryRelease_ordered {channel : Channel} (ordered : channel.Ordered) :
    channel.tryRelease.Ordered ∧ channel.tryRelease.conn.active = false ∧
      channel.tryRelease.accepted = channel.accepted ∧ channel.tryRelease.sent = channel.sent ∧
      channel.tryRelease.sends = channel.sends := by
  cases attached : channel.conn.param with
  | some session =>
      have tried : channel.conn.tryRelease = ({ channel.conn with active := false }, false) := by
        simp only [Connector.tryRelease, attached]
      rw [tryRelease, tried]
      have keeps : KeepsSends channel { channel with
          conn := { channel.conn with active := false }
          inUse := channel.inUse && !false } :=
        ⟨rfl, rfl, rfl, rfl, rfl, rfl, fun active => absurd active Bool.false_ne_true⟩
      exact ⟨keeps.ordered ordered, rfl, rfl, rfl, rfl⟩
  | none =>
      have tried : channel.conn.tryRelease =
          ({ channel.conn with active := false, sendRequest := none }, true) := by
        simp only [Connector.tryRelease, attached, Connector.release]
      rw [tryRelease, tried]
      refine ⟨⟨⟨?_, ordered.buffered.queue⟩, Or.inr ⟨rfl, ordered.ahead, ?_⟩⟩, rfl, rfl, rfl, rfl⟩
      · intro buffer requested
        cases requested
      · rcases ordered.state with moving | halted
        · rcases moving.flight with ⟨-, -, none⟩ | ⟨busy, buffer, -, none | out⟩
          · exact Or.inl none
          · exact Or.inl none
          · exact Or.inr ⟨rfl, busy, _, out⟩
        · rcases halted.flight with none | ⟨-, busy, out⟩
          · exact Or.inl none
          · exact Or.inr ⟨rfl, busy, out⟩

theorem noBytes_recv_ordered {channel : Channel} (ordered : channel.Ordered) :
    (channel.noBytes .opRecv).Ordered ∧
      (channel.noBytes .opRecv).accepted = channel.accepted := by
  have counted : KeepsSends channel { channel with
      conn := if channel.conn.dwSendRef ≠ 0 ∨ channel.conn.dwRecvRef ≠ 0 then
        decRef channel.conn .opRecv else channel.conn } := by
    split
    · exact ⟨rfl, rfl, rfl, rfl, rfl, rfl, id⟩
    · exact ⟨rfl, rfl, rfl, rfl, rfl, rfl, id⟩
  have kept := counted.ordered ordered
  rw [noBytes]
  generalize (if channel.conn.dwSendRef ≠ 0 ∨ channel.conn.dwRecvRef ≠ 0 then
    decRef channel.conn .opRecv else channel.conn) = closed at kept ⊢
  split
  · obtain ⟨released, -, accepted, -⟩ := tryRelease_ordered kept
    exact ⟨released, accepted⟩
  · exact ⟨kept, rfl⟩

/-- A send completion of no bytes, with the request taken out: the count falls to zero, and the
connection is closed. -/
theorem noBytes_send_ordered {channel : Channel} (buffered : channel.conn.Buffered)
    (busy : channel.conn.dwSendRef = 1) (none : channel.sends = [])
    (ahead : channel.sent <+: channel.accepted) :
    (channel.noBytes .opSend).Ordered ∧
      (channel.noBytes .opSend).accepted = channel.accepted := by
  have zero : (decRef channel.conn .opSend).dwSendRef = 0 := by
    rw [decRef, busy]
    rfl
  have some : channel.conn.dwSendRef ≠ 0 ∨ channel.conn.dwRecvRef ≠ 0 :=
    Or.inl (by rw [busy]; decide)
  rw [noBytes, if_pos some, if_pos (Or.inl (UInt32.le_of_eq zero))]
  have still : ∀ param, Ordered { channel with
      conn := { decRef channel.conn .opSend with active := false, param := param } } := by
    intro param
    refine ⟨⟨buffered.request, buffered.queue⟩, Or.inr ⟨rfl, ?_, Or.inl none⟩⟩
    rw [none]
    simpa using ahead
  obtain ⟨released, -⟩ := tryRelease_ordered (still channel.conn.param)
  have same : tryRelease { channel with
      conn := { decRef channel.conn .opSend with active := false, param := channel.conn.param } } =
      tryRelease { channel with conn := decRef channel.conn .opSend } := by
    simp only [tryRelease, Connector.tryRelease, decRef]
  rw [same] at released
  exact ⟨released, rfl⟩

/-! The steps. -/

def Writable : Event → Prop
  | .write pSendData _ => 0 < pSendData.length ∧ pSendData.length ≤ maxPacketBufferSize
  | _ => True

/-- The payload that a step appends to what was accepted. -/
def taken (channel : Channel) : Event → List UInt8
  | .write pSendData _ => if channel.conn.active then pSendData else []
  | _ => []

theorem sendDone_ordered {channel : Channel} (ordered : channel.Ordered) (self dwIOSize : Nat)
    (accepts : Bool) :
    (channel.step self (.sendDone dwIOSize accepts)).Ordered ∧
      (channel.step self (.sendDone dwIOSize accepts)).accepted = channel.accepted := by
  simp only [step, dequeueSend]
  cases out : channel.sends with
  | nil => exact ⟨ordered, rfl⟩
  | cons bytes rest =>
      have single : rest = [] ∧ channel.conn.dwSendRef = 1 := by
        rcases ordered.state with moving | halted
        · rcases moving.flight with ⟨-, -, none⟩ | ⟨busy, buffer, -, none | one⟩
          · rw [none] at out
            cases out
          · rw [none] at out
            cases out
          · rw [one] at out
            cases out
            exact ⟨rfl, busy⟩
        · rcases halted.flight with none | ⟨-, busy, other, one⟩
          · rw [none] at out
            cases out
          · rw [one] at out
            cases out
            exact ⟨rfl, busy⟩
      obtain ⟨rfl, busy⟩ := single
      have ahead := ordered.ahead
      rw [out] at ahead
      have first : channel.sent ++ bytes.take dwIOSize <+: channel.accepted := by
        refine List.IsPrefix.trans ?_ ahead
        simpa using List.take_prefix dwIOSize bytes
      dsimp only
      by_cases empty : dwIOSize = 0
      · rw [if_pos empty]
        exact noBytes_send_ordered ordered.buffered busy rfl first
      · rw [if_neg empty]
        rcases ordered.state with moving | halted
        · rcases moving.flight with ⟨-, -, none⟩ | ⟨-, buffer, requested, none | one⟩
          · rw [none] at out
            cases out
          · rw [none] at out
            cases out
          · rw [one] at out
            cases out
            exact doSend_moving ordered.buffered moving.streams busy requested dwIOSize accepts
        · rcases halted.flight with none | ⟨lost, -⟩
          · rw [none] at out
            cases out
          · rw [doSend_lost { channel with
              sends := [], sent := channel.sent ++ bytes.take dwIOSize } lost busy]
            refine ⟨⟨ordered.buffered, Or.inr ⟨halted.closed, ?_, Or.inl rfl⟩⟩, rfl⟩
            simpa using first

theorem sendFailed_ordered {channel : Channel} (ordered : channel.Ordered) (self : Nat) :
    (channel.step self .sendFailed).Ordered ∧
      (channel.step self .sendFailed).accepted = channel.accepted := by
  simp only [step, dequeueSend]
  cases out : channel.sends with
  | nil => exact ⟨ordered, rfl⟩
  | cons bytes rest =>
      have lone : rest = [] := by
        rcases ordered.state with moving | halted
        · rcases moving.flight with ⟨-, -, none⟩ | ⟨-, buffer, -, none | one⟩
          · simp [none] at out
          · simp [none] at out
          · simp [one] at out
            exact out.2
        · rcases halted.flight with none | ⟨-, -, other, one⟩
          · simp [none] at out
          · simp [one] at out
            exact out.2
      subst lone
      have sent := ordered.sent_prefix
      dsimp only
      refine ⟨⟨⟨ordered.buffered.request, ordered.buffered.queue⟩,
        Or.inr ⟨rfl, ?_, Or.inl rfl⟩⟩, rfl⟩
      simpa [disconnect] using sent

theorem recvDone_ordered {channel : Channel} (ordered : channel.Ordered) (self : Nat)
    (completion : Completion) (accepts : Bool) :
    (channel.step self (.recvDone completion accepts)).Ordered ∧
      (channel.step self (.recvDone completion accepts)).accepted = channel.accepted := by
  simp only [step, dequeueRecv]
  split
  · exact ⟨ordered, rfl⟩
  · have counted : KeepsSends channel { channel with recvs := channel.recvs - 1 } :=
      ⟨rfl, rfl, rfl, rfl, rfl, rfl, id⟩
    split
    · exact noBytes_recv_ordered (counted.ordered ordered)
    · refine ⟨KeepsSends.ordered ?_ ordered, ?_⟩
      · obtain ⟨queue, request, count⟩ := recvComplete_sendSide self channel.conn completion
        have active := (channel.conn.recvComplete_counts self completion).2.1
        simp only [doRecv, wsaRecv]
        have closes : false = true → channel.conn.active = true :=
          fun still => absurd still Bool.false_ne_true
        split
        · exact ⟨queue, request, count, rfl, rfl, rfl, closes⟩
        · split
          · split
            · exact ⟨queue, request, count, rfl, rfl, rfl, fun still => active.symm.trans still⟩
            · exact ⟨queue, request, count, rfl, rfl, rfl, closes⟩
          · exact ⟨queue, request, count, rfl, rfl, rfl, fun still => active.symm.trans still⟩
      · simp only [doRecv, wsaRecv]
        split
        · rfl
        · split
          · split
            · rfl
            · rfl
          · rfl

theorem step_ordered {channel : Channel} (ordered : channel.Ordered) (self : Nat) {event : Event}
    (writable : Writable event) :
    (channel.step self event).Ordered ∧
      (channel.step self event).accepted = channel.accepted ++ channel.taken event := by
  have nothing (next : Channel) (same : next.Ordered ∧ next.accepted = channel.accepted) :
      next.Ordered ∧ next.accepted = channel.accepted ++ [] := by
    rw [List.append_nil]
    exact same
  cases event with
  | write pSendData accepts =>
      obtain ⟨next, accepted⟩ := write_ordered ordered writable.1 writable.2 accepts
      refine ⟨next, accepted.trans ?_⟩
      rw [taken]
      split
      · rfl
      · exact (List.append_nil _).symm
  | sendDone dwIOSize accepts => exact nothing _ (sendDone_ordered ordered self dwIOSize accepts)
  | recvDone completion accepts =>
      exact nothing _ (recvDone_ordered ordered self completion accepts)
  | postedDone =>
      apply nothing
      simp only [step, dequeuePosted]
      split
      · exact ⟨ordered, rfl⟩
      · have counted : KeepsSends channel { channel with posted := channel.posted - 1 } :=
          ⟨rfl, rfl, rfl, rfl, rfl, rfl, id⟩
        exact noBytes_recv_ordered (counted.ordered ordered)
  | sendFailed => exact nothing _ (sendFailed_ordered ordered self)
  | recvFailed =>
      apply nothing
      simp only [step, dequeueRecv]
      split
      · exact ⟨ordered, rfl⟩
      · have keeps : KeepsSends channel
            { channel with recvs := channel.recvs - 1 }.disconnect :=
          ⟨rfl, rfl, rfl, rfl, rfl, rfl, fun still => absurd still Bool.false_ne_true⟩
        exact ⟨keeps.ordered ordered, rfl⟩
  | disconnect => exact nothing _ ⟨(disconnect_keeps channel).ordered ordered, rfl⟩
  | setParam session =>
      have attached : KeepsSends channel
          { channel with conn := { channel.conn with param := some session } } :=
        ⟨rfl, rfl, rfl, rfl, rfl, rfl, id⟩
      exact nothing _ ⟨attached.ordered ordered, rfl⟩
  | tryRelease =>
      obtain ⟨next, -, accepted, -⟩ := tryRelease_ordered ordered
      exact nothing _ ⟨next, accepted⟩
  | release =>
      have detached : KeepsSends channel
          { channel with conn := { channel.conn with param := none } } :=
        ⟨rfl, rfl, rfl, rfl, rfl, rfl, id⟩
      obtain ⟨next, -, accepted, -⟩ := tryRelease_ordered (detached.ordered ordered)
      exact nothing _ ⟨next, accepted⟩

/-! Runs. -/

theorem doSend_closed {channel : Channel} (closed : channel.conn.active = false)
    (dwSendCompleteSize : Nat) (accepts : Bool) :
    (channel.doSend dwSendCompleteSize accepts).conn.active = false := by
  have completed : (channel.sendComplete dwSendCompleteSize).1.conn.active = false := by
    simp only [sendComplete, Connector.sendComplete]
    split
    · exact closed
    · split
      · exact closed
      · exact closed
  have prepared : (channel.sendComplete dwSendCompleteSize).1.sendPrepare.1.conn.active =
      false := by
    simp only [sendPrepare, Connector.sendPrepare]
    split
    · exact completed
    · split
      · exact completed
      · exact completed
  have sends (next : Channel) (shut : next.conn.active = false) :
      (next.sendOn accepts).conn.active = false := by
    simp only [sendOn, wsaSend]
    split
    · split
      · exact shut
      · exact shut
    · rfl
  simp only [doSend]
  split
  · exact sends _ completed
  · split
    · exact sends _ prepared
    · exact prepared

theorem noBytes_closed {channel : Channel} (closed : channel.conn.active = false)
    (netOp : NetworkOperator) : (channel.noBytes netOp).conn.active = false := by
  apply (noBytes_tried channel netOp rfl).1.closed
  dsimp only
  split
  · cases netOp with
    | opSend => exact closed
    | opRecv => exact closed
  · exact closed

theorem doRecv_closed {channel : Channel} (closed : channel.conn.active = false) (self : Nat)
    (completion : Completion) (accepts : Bool) :
    (channel.doRecv self completion accepts).conn.active = false := by
  by_contra opened
  have still := (doRecv_sendSide channel self completion accepts).active (by simpa using opened)
  rw [closed] at still
  cases still

theorem step_closed {channel : Channel} (closed : channel.conn.active = false) (self : Nat)
    (event : Event) : (channel.step self event).conn.active = false := by
  cases event with
  | write pSendData accepts =>
      simp only [step]
      rw [write_closed closed]
      exact closed
  | sendDone dwIOSize accepts =>
      simp only [step, dequeueSend]
      split
      · exact closed
      · split
        · apply noBytes_closed
          exact closed
        · apply doSend_closed
          exact closed
  | recvDone completion accepts =>
      simp only [step, dequeueRecv]
      split
      · exact closed
      · split
        · apply noBytes_closed
          exact closed
        · apply doRecv_closed
          exact closed
  | postedDone =>
      simp only [step, dequeuePosted]
      split
      · exact closed
      · apply noBytes_closed
        exact closed
  | sendFailed =>
      simp only [step, dequeueSend]
      split
      · exact closed
      · rfl
  | recvFailed =>
      simp only [step, dequeueRecv]
      split
      · exact closed
      · rfl
  | disconnect => rfl
  | setParam session => exact closed
  | tryRelease => exact (tryRelease_tried channel).closed closed
  | release => exact (tryRelease_tried _).closed closed

theorem taken_eq (channel : Channel) (event : Event) :
    channel.taken event = if channel.conn.active then payload event else [] := by
  cases event with
  | write pSendData accepts => rfl
  | _ => exact (ite_self _).symm

/-- Once the connection is closed nothing more is queued, so what was accepted is the first
payloads of the run. -/
theorem run_ordered (self : Nat) {channel : Channel} (ordered : channel.Ordered)
    {events : List Event} (writable : ∀ event ∈ events, Writable event) :
    (run self channel events).Ordered ∧
      (run self channel events).accepted <+: channel.accepted ++ events.flatMap payload ∧
      (channel.conn.active = false → (run self channel events).accepted = channel.accepted) := by
  have logs (channel : Channel) (event : Event) (ordered : channel.Ordered)
      (writable : Writable event) :
      (channel.step self event).accepted =
        channel.accepted ++ if channel.conn.active then payload event else [] := by
    rw [(step_ordered ordered self writable).2, taken_eq]
  exact Run.log_first accepted (fun channel => channel.conn.active) payload
    (fun channel event ordered writable => (step_ordered ordered self writable).1) logs
    (fun channel event closed => step_closed closed self event) ordered writable

/-- Whatever the system refuses, fails or closes, the bytes sent on a connection are the first
bytes of the payloads written to it, in order, and none of a payload written after the close is
among them. -/
theorem sent_prefix_of_payloads (self : Nat) (opening : Opening) (heap : Nat → UInt8)
    (events later : List Event) (writable : ∀ event ∈ events ++ later, Writable event) :
    let channel := run self (start opening heap) events
    channel.sent <+: events.flatMap payload ∧
      (channel.conn.active = false →
        (run self channel later).sent <+: events.flatMap payload) := by
  intro channel
  obtain ⟨ordered, first, -⟩ := run_ordered self (start_ordered opening heap)
    fun event member => writable event (List.mem_append_left later member)
  have empty : (start opening heap).accepted = [] := by
    cases opening <;> rfl
  rw [empty, List.nil_append] at first
  refine ⟨ordered.sent_prefix.trans first, fun closed => ?_⟩
  obtain ⟨after, -, same⟩ := run_ordered self ordered
    fun event member => writable event (List.mem_append_right events member)
  exact after.sent_prefix.trans (same closed ▸ first)

theorem sent_prefix_of_refused_write :
    let events : List Event := [.write [1, 2, 3] true, .write [4] true, .sendDone 2 true,
      .disconnect]
    let later : List Event := [.write [5] true, .sendDone 1 true]
    let channel := run 3 (start .acceptThread fun _ => 0) events
    (∀ event ∈ events ++ later, Writable event) ∧ channel.conn.active = false ∧
      channel.sent <+: [1, 2, 3, 4] ∧ (run 3 channel later).sent <+: [1, 2, 3, 4] := by
  intro events later channel
  have writable : ∀ event ∈ events ++ later, Writable event := by
    simp [events, later, Writable, maxPacketBufferSize]
  have closed : channel.conn.active = false := rfl
  obtain ⟨first, after⟩ :=
    sent_prefix_of_payloads 3 .acceptThread (fun _ => 0) events later writable
  exact ⟨writable, closed, first, after closed⟩

end Channel

end ProjectPl
