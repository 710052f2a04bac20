import ProjectPl.SendPath

/-!
The send path with several threads on one `Connector`. Each call that `Network::Write` and
`Network::DoSend` make is a step of its own, and a thread remembers only how far it is. A
`Write` that has seen no send under way goes on to `WSASend` whatever `SendPrepare` found.
-/

namespace ProjectPl

inductive SendCursor
  | idle
  | queued
  | sawIdle
  | prepared
  | completed
  | resend
  deriving DecidableEq, Repr

structure SendThreads where
  channel : Channel
  threads : Nat → SendCursor := fun _ => .idle

namespace SendThreads

open Connector Channel

inductive Call
  | addSendQueue (thread : Nat) (pSendData : List UInt8)
  | getSendRef (thread : Nat)
  | sendPrepare (thread : Nat)
  | wsaSend (thread : Nat) (accepts : Bool)
  | sendComplete (thread : Nat) (dwIOSize : Nat)

def move (state : SendThreads) (thread : Nat) (channel : Channel) (cursor : SendCursor) :
    SendThreads :=
  { channel := channel, threads := Function.update state.threads thread cursor }

/-! A call that is not the thread's next one does nothing. A completion is taken by a thread
that is idle, with some of the bytes of the request that is out. -/

def step (state : SendThreads) : Call → SendThreads
  | .addSendQueue thread pSendData =>
      if state.threads thread = .idle ∧ state.channel.conn.active then
        let added := state.channel.addSendQueue pSendData
        state.move thread added.1 (if added.2 < 0 then .idle else .queued)
      else state
  | .getSendRef thread =>
      if state.threads thread = .queued then
        state.move thread state.channel
          (if state.channel.conn.dwSendRef ≤ 0 then .sawIdle else .idle)
      else state
  | .sendPrepare thread =>
      let prepared := state.channel.sendPrepare
      match state.threads thread with
      | .sawIdle => state.move thread prepared.1 (if prepared.2 < 0 then .idle else .prepared)
      | .completed => state.move thread prepared.1 (if 0 < prepared.2 then .resend else .idle)
      | _ => state
  | .wsaSend thread accepts =>
      match state.threads thread with
      | .prepared => state.move thread (state.channel.wsaSend accepts) .idle
      | .resend => state.move thread (state.channel.sendOn accepts) .idle
      | _ => state
  | .sendComplete thread dwIOSize =>
      match state.channel.sends with
      | [] => state
      | bytes :: rest =>
          if state.threads thread = .idle ∧ 0 < dwIOSize ∧ dwIOSize ≤ bytes.length then
            let taken : Channel := { state.channel with
              sends := rest, sent := state.channel.sent ++ bytes.take dwIOSize }
            let completed := taken.sendComplete dwIOSize
            state.move thread completed.1 (if 0 < completed.2 then .resend else .completed)
          else state

def start (opening : Opening) (heap : Nat → UInt8) : SendThreads :=
  { channel := Channel.start opening heap }

def run (state : SendThreads) (calls : List Call) : SendThreads := calls.foldl step state

/-! What is wanted of the sends: one at a time, each with the bytes that follow the ones
already sent, none from a null buffer, and none left out when every call has ended. -/

structure InOrder (state : SendThreads) : Prop where
  single : state.channel.sends.length ≤ 1
  next : state.channel.sent ++ state.channel.sends.flatten <+: state.channel.accepted
  nonNull : state.channel.nullSends = 0
  none_left : (∀ thread, state.threads thread = .idle) → state.channel.sends = [] →
    state.channel.sent = state.channel.accepted

/-! The calls that keep it so: a `Write` that has seen no send under way still finds none, and
its buffer, when it comes to `SendPrepare`. -/

def Orderly (state : SendThreads) : Call → Prop
  | .addSendQueue _ pSendData => 0 < pSendData.length
  | .sendPrepare thread => state.threads thread = .sawIdle →
      state.channel.conn.dwSendRef = 0 ∧ state.channel.conn.sendQueue ≠ []
  | .wsaSend _ accepts => accepts = true
  | _ => True

end SendThreads

def SendCursor.sending : SendCursor → Bool
  | .prepared | .resend => true
  | _ => false

def SendCursor.pending : SendCursor → Bool
  | .queued | .sawIdle | .completed => true
  | _ => false

namespace SendThreads

open Connector Channel

/-- One thread at most is about to send, and only while nothing is out. -/
inductive Flight (state : SendThreads) : Prop
  | idle (count : state.channel.conn.dwSendRef = 0)
      (request : state.channel.conn.sendRequest = none) (none : state.channel.sends = [])
      (quiet : ∀ thread, (state.threads thread).sending = false)
  | out (buffer : NetworkBuffer) (count : state.channel.conn.dwSendRef = 1)
      (request : state.channel.conn.sendRequest = some buffer)
      (one : state.channel.sends = [buffer.wsaBytes])
      (quiet : ∀ thread, (state.threads thread).sending = false)
  | soon (sender : Nat) (buffer : NetworkBuffer) (count : state.channel.conn.dwSendRef = 1)
      (request : state.channel.conn.sendRequest = some buffer)
      (none : state.channel.sends = [])
      (sends : (state.threads sender).sending = true)
      (only : ∀ thread, (state.threads thread).sending = true → thread = sender)

structure Sequenced (state : SendThreads) : Prop where
  buffered : state.channel.conn.Buffered
  streams : state.channel.Streams
  nonNull : state.channel.nullSends = 0
  flight : Flight state
  attended : state.channel.conn.dwSendRef = 0 → state.channel.conn.sendQueue ≠ [] →
    ∃ thread, (state.threads thread).pending = true

theorem move_threads (state : SendThreads) (thread : Nat) (channel : Channel)
    (cursor : SendCursor) (other : Nat) :
    (state.move thread channel cursor).threads other =
      if other = thread then cursor else state.threads other := by
  simp [move, Function.update_apply]

theorem start_sequenced (opening : Opening) (heap : Nat → UInt8) :
    (start opening heap).Sequenced := by
  obtain ⟨-, buffered, streams, -⟩ := start_flowing opening heap
  cases opening with
  | connect =>
      exact ⟨buffered, streams, rfl, .idle rfl rfl rfl (fun _ => rfl),
        fun _ waits => absurd rfl waits⟩
  | acceptThread =>
      exact ⟨buffered, streams, rfl, .idle rfl rfl rfl (fun _ => rfl),
        fun _ waits => absurd rfl waits⟩
  | accept =>
      exact ⟨buffered, streams, rfl, .idle rfl rfl rfl (fun _ => rfl),
        fun _ waits => absurd rfl waits⟩

theorem Sequenced.inOrder {state : SendThreads} (sequenced : state.Sequenced) :
    state.InOrder := by
  obtain ⟨buffered, streams, nonNull, flight, attended⟩ := sequenced
  unfold Streams at streams
  cases flight with
  | idle count request none quiet =>
      refine ⟨by simp [none], ?_, nonNull, ?_⟩
      · rw [none, ← streams]
        simp
      · intro ended _
        have empty : state.channel.conn.sendQueue = [] := by
          by_contra waits
          obtain ⟨thread, pending⟩ := attended count waits
          rw [ended thread] at pending
          cases pending
        rw [← streams]
        simp [remaining, request, waiting, empty]
  | out buffer count request one quiet =>
      refine ⟨by simp [one], ?_, nonNull, ?_⟩
      · rw [one, ← streams]
        simp [remaining, request]
      · intro _ none
        simp [one] at none
  | soon sender buffer count request none sends only =>
      refine ⟨by simp [none], ?_, nonNull, ?_⟩
      · rw [none, ← streams]
        simp
      · intro ended _
        rw [ended sender] at sends
        cases sends

/-! One step. A thread that neither sends nor is about to leaves the flight as it is. -/

theorem Flight.move {state : SendThreads} (flight : Flight state) {thread : Nat}
    {channel : Channel} {cursor : SendCursor}
    (count : channel.conn.dwSendRef = state.channel.conn.dwSendRef)
    (request : channel.conn.sendRequest = state.channel.conn.sendRequest)
    (sends : channel.sends = state.channel.sends)
    (before : (state.threads thread).sending = false) (after : cursor.sending = false) :
    Flight (state.move thread channel cursor) := by
  have same : ∀ other, ((state.move thread channel cursor).threads other).sending =
      (state.threads other).sending := by
    intro other
    rw [move_threads]
    split
    next moved => rw [moved, before, after]
    next => rfl
  cases flight with
  | idle zero free none quiet =>
      exact .idle (count.trans zero) (request.trans free) (sends.trans none)
        (fun other => (same other).trans (quiet other))
  | out buffer one requested out quiet =>
      exact .out buffer (count.trans one) (request.trans requested) (sends.trans out)
        (fun other => (same other).trans (quiet other))
  | soon sender buffer one requested none sending only =>
      exact .soon sender buffer (count.trans one) (request.trans requested) (sends.trans none)
        ((same sender).trans sending) (fun other sends => only other ((same other).symm.trans sends))

theorem pending_moved {state : SendThreads} {thread : Nat} {channel : Channel}
    {cursor : SendCursor} (kept : (state.threads thread).pending = true → cursor.pending = true)
    (attended : ∃ other, (state.threads other).pending = true) :
    ∃ other, ((state.move thread channel cursor).threads other).pending = true := by
  obtain ⟨other, pending⟩ := attended
  refine ⟨other, ?_⟩
  rw [move_threads]
  split
  next moved => exact kept (moved ▸ pending)
  next => exact pending

theorem pending_self (state : SendThreads) (thread : Nat) (channel : Channel)
    {cursor : SendCursor} (pending : cursor.pending = true) :
    ∃ other, ((state.move thread channel cursor).threads other).pending = true := by
  refine ⟨thread, ?_⟩
  rw [move_threads, if_pos rfl]
  exact pending

theorem addSendQueue_sequenced {state : SendThreads} (sequenced : state.Sequenced) {thread : Nat}
    {pSendData : List UInt8} (idle : state.threads thread = .idle) (some : 0 < pSendData.length) :
    (state.move thread (state.channel.addSendQueue pSendData).1
      (if (state.channel.addSendQueue pSendData).2 < 0 then .idle else .queued)).Sequenced := by
  obtain ⟨buffered, streams, nonNull, flight, attended⟩ := sequenced
  have before : (state.threads thread).sending = false := by rw [idle]; rfl
  have quiet : (state.threads thread).pending = true → SendCursor.idle.pending = true := by
    rw [idle]
    exact id
  by_cases small : pSendData.length ≤ maxPacketBufferSize
  · obtain ⟨queued, code⟩ := Channel.addSendQueue_takes buffered some small
    generalize state.channel.addSendQueue pSendData = result at queued code
    refine ⟨queued.buffered, queued.streams streams, queued.nullSends.trans nonNull,
      flight.move queued.count queued.request queued.sends before (by split <;> rfl), ?_⟩
    intro zero _
    by_cases refused : result.2 < 0
    · have waits : state.channel.conn.sendQueue ≠ [] := by
        intro empty
        rw [code, empty] at refused
        exact absurd refused (by decide)
      rw [if_pos refused]
      exact pending_moved quiet (attended (queued.count.symm.trans zero) waits)
    · rw [if_neg refused]
      exact pending_self state thread result.1 rfl
  · have refused : state.channel.addSendQueue pSendData = (state.channel, -1) := by
      rw [Channel.addSendQueue, Connector.addSendQueue, NetworkBuffer.setSendData, if_pos (by omega),
        if_neg small]
    rw [refused]
    refine ⟨buffered, streams, nonNull, flight.move rfl rfl rfl before rfl, ?_⟩
    intro zero waits
    exact pending_moved quiet (attended zero waits)

theorem getSendRef_sequenced {state : SendThreads} (sequenced : state.Sequenced) {thread : Nat}
    (queued : state.threads thread = .queued) :
    (state.move thread state.channel
      (if state.channel.conn.dwSendRef ≤ 0 then .sawIdle else .idle)).Sequenced := by
  obtain ⟨buffered, streams, nonNull, flight, -⟩ := sequenced
  refine ⟨buffered, streams, nonNull,
    flight.move rfl rfl rfl (by rw [queued]; rfl) (by split <;> rfl), ?_⟩
  intro zero _
  have saw : state.channel.conn.dwSendRef ≤ 0 := UInt32.le_of_eq zero
  rw [if_pos saw]
  exact pending_self state thread state.channel rfl

/-! `SendPrepare` of an idle connection with a buffer waiting makes its thread the sender. -/

theorem prepared_sequenced {state : SendThreads} (sequenced : state.Sequenced) (thread : Nat)
    (cursor : SendCursor) (zero : state.channel.conn.dwSendRef = 0)
    (waits : state.channel.conn.sendQueue ≠ []) (sends : cursor.sending = true) :
    (state.move thread state.channel.sendPrepare.1 cursor).Sequenced ∧
      0 < state.channel.sendPrepare.2 := by
  obtain ⟨buffered, streams, nonNull, flight, -⟩ := sequenced
  cases flight with
  | idle _ free none quiet =>
      obtain ⟨ready, more⟩ := sendPrepare_takes buffered waits zero free
      obtain ⟨buffer, request⟩ := ready.request
      refine ⟨⟨ready.buffered, ready.streams streams, ready.nullSends.trans nonNull,
        .soon thread buffer ready.count request (ready.sends.trans none) ?_ ?_, ?_⟩, more⟩
      · rw [move_threads, if_pos rfl]
        exact sends
      · intro other sending
        rw [move_threads] at sending
        by_contra different
        rw [if_neg different, quiet other] at sending
        cases sending
      · intro again
        exact absurd (ready.count.symm.trans again) (by decide)
  | out _ one => exact absurd (zero.symm.trans one) (by decide)
  | soon _ _ one => exact absurd (zero.symm.trans one) (by decide)

/-! `SendPrepare` after a completion, which another thread may have come before. -/

theorem completed_sequenced {state : SendThreads} (sequenced : state.Sequenced) {thread : Nat}
    (completed : state.threads thread = .completed) :
    (state.move thread state.channel.sendPrepare.1
      (if 0 < state.channel.sendPrepare.2 then .resend else .idle)).Sequenced := by
  by_cases takes : state.channel.conn.dwSendRef = 0 ∧ state.channel.conn.sendQueue ≠ []
  · obtain ⟨next, more⟩ := prepared_sequenced sequenced thread .resend takes.1 takes.2 rfl
    rw [if_pos more]
    exact next
  · have unchanged : state.channel.sendPrepare = (state.channel, 0) := by
      rcases not_and_or.mp takes with busy | empty
      · rw [Channel.sendPrepare, Connector.sendPrepare_busy (UInt32.pos_iff_ne_zero.mpr busy)]
      · exact Channel.sendPrepare_empty (not_not.mp empty)
    obtain ⟨buffered, streams, nonNull, flight, -⟩ := sequenced
    rw [unchanged]
    refine ⟨buffered, streams, nonNull,
      flight.move rfl rfl rfl (by rw [completed]; rfl) rfl, ?_⟩
    intro zero waits
    exact absurd ⟨zero, waits⟩ takes

theorem wsaSend_sequenced {state : SendThreads} (sequenced : state.Sequenced) {thread : Nat}
    (sending : (state.threads thread).sending = true) :
    (state.move thread (state.channel.wsaSend true) .idle).Sequenced := by
  obtain ⟨buffered, streams, nonNull, flight, -⟩ := sequenced
  cases flight with
  | idle _ _ _ quiet => exact absurd (sending.symm.trans (quiet thread)) (by decide)
  | out _ _ _ _ quiet => exact absurd (sending.symm.trans (quiet thread)) (by decide)
  | soon sender buffer one request none _ only =>
      rw [wsaSend_some request]
      refine ⟨buffered, streams, nonNull, .out buffer one request ?_ ?_, ?_⟩
      · dsimp only [move]
        rw [none]
        rfl
      · intro other
        rw [move_threads]
        split
        next => rfl
        next different =>
          rw [only thread sending] at different
          cases still : (state.threads other).sending with
          | false => rfl
          | true => exact absurd (only other still) different
      · intro zero
        exact absurd (one.symm.trans zero) (by decide)

theorem sendComplete_sequenced {state : SendThreads} (sequenced : state.Sequenced) {thread : Nat}
    {bytes : List UInt8} {rest : List (List UInt8)} {dwIOSize : Nat}
    (out : state.channel.sends = bytes :: rest) :
    let taken : Channel := { state.channel with
      sends := rest, sent := state.channel.sent ++ bytes.take dwIOSize }
    (state.move thread (taken.sendComplete dwIOSize).1
      (if 0 < (taken.sendComplete dwIOSize).2 then .resend else .completed)).Sequenced := by
  intro taken
  obtain ⟨buffered, streams, nonNull, flight, -⟩ := sequenced
  cases flight with
  | idle _ _ none _ => rw [none] at out; cases out
  | soon _ _ _ _ none _ _ => rw [none] at out; cases out
  | out buffer one request single quiet =>
      rw [single] at out
      obtain ⟨rfl, rfl⟩ := List.cons.inj out
      obtain ⟨advanced, outcome, flows⟩ := sendComplete_advances buffered request streams [] dwIOSize
      generalize taken.sendComplete dwIOSize = result at advanced outcome flows
      have moved : ∀ other cursor, other ≠ thread →
          ((state.move thread result.1 cursor).threads other).sending = false := by
        intro other cursor different
        rw [move_threads, if_neg different]
        exact quiet other
      cases outcome with
      | partly next requested count more =>
          rw [if_pos more]
          refine ⟨advanced.buffered, flows, advanced.nullSends.trans nonNull,
            .soon thread next (count.trans one) requested advanced.sends ?_ ?_, ?_⟩
          · rw [move_threads, if_pos rfl]
            rfl
          · intro other sending
            by_contra different
            rw [moved other _ different] at sending
            cases sending
          · intro zero
            exact absurd ((count.trans one).symm.trans zero) (by decide)
      | wholly requested count done =>
          have zero : result.1.conn.dwSendRef = 0 := by
            rw [count]
            exact congrArg (· - 1) one
          rw [if_neg (by omega)]
          refine ⟨advanced.buffered, flows, advanced.nullSends.trans nonNull,
            .idle zero requested advanced.sends ?_, ?_⟩
          · intro other
            by_cases same : other = thread
            · rw [move_threads, if_pos same]
              rfl
            · exact moved other _ same
          · intro _ _
            exact pending_self state thread result.1 rfl

theorem step_sequenced (state : SendThreads) (call : Call) (sequenced : state.Sequenced)
    (orderly : state.Orderly call) : (state.step call).Sequenced := by
  cases call with
  | addSendQueue thread pSendData =>
      rw [step]
      split
      next enabled => exact addSendQueue_sequenced sequenced enabled.1 orderly
      next => exact sequenced
  | getSendRef thread =>
      rw [step]
      split
      next enabled => exact getSendRef_sequenced sequenced enabled
      next => exact sequenced
  | sendPrepare thread =>
      simp only [step]
      split
      next saw =>
        obtain ⟨zero, waits⟩ := orderly saw
        obtain ⟨next, more⟩ := prepared_sequenced sequenced thread .prepared zero waits rfl
        rw [if_neg (by omega)]
        exact next
      next completed => exact completed_sequenced sequenced completed
      next => exact sequenced
  | wsaSend thread accepts =>
      have accepted : accepts = true := orderly
      subst accepted
      simp only [step]
      split
      next prepared => exact wsaSend_sequenced sequenced (by rw [prepared]; rfl)
      next resend =>
        rw [sendOn, if_pos rfl]
        exact wsaSend_sequenced sequenced (by rw [resend]; rfl)
      next => exact sequenced
  | sendComplete thread dwIOSize =>
      simp only [step]
      split
      next => exact sequenced
      next bytes rest out =>
        split
        next => exact sendComplete_sequenced sequenced out
        next => exact sequenced

/-- In every interleaving of writes and completions in which no `Write` comes to `SendPrepare`
too late, the sends are in order in every state reached. -/
theorem sends_in_order_of_orderly (opening : Opening) (heap : Nat → UInt8) (calls : List Call)
    (orderly : Run.Along step Orderly (start opening heap) calls) :
    ((start opening heap).run calls).InOrder :=
  (Run.Along.invariant step_sequenced (start_sequenced opening heap) orderly).inOrder

theorem sends_in_order_of_one_write :
    let calls : List Call := [.addSendQueue 1 [7, 8], .getSendRef 1, .sendPrepare 1,
      .wsaSend 1 true, .sendComplete 2 1, .wsaSend 2 true]
    Run.Along step Orderly (start .accept fun _ => 0) calls ∧
      ((start .accept fun _ => 0).run calls).InOrder := by
  intro calls
  have orderly : Run.Along step Orderly (start .accept fun _ => 0) calls := by
    refine ⟨Nat.succ_pos 1, trivial, ?_, rfl, trivial, rfl, trivial⟩
    intro _
    exact ⟨by decide, by decide⟩
  exact ⟨orderly, sends_in_order_of_orderly .accept (fun _ => 0) calls orderly⟩

/-- Two writers that both see no send under way: the first buffer is out twice. -/
theorem two_writers_send_twice :
    ¬((start .accept fun _ => 0).run [.addSendQueue 1 [7], .addSendQueue 2 [8], .getSendRef 1,
      .getSendRef 2, .sendPrepare 1, .sendPrepare 2, .wsaSend 1 true, .wsaSend 2 true]).InOrder := by
  intro ordered
  have single := ordered.single
  revert single
  decide

end SendThreads

end ProjectPl
