import ProjectPl.SendQueueCore

/-!
The send queue of a session. Buffers move from the queue to the pending list to the wire and
never change their order, whatever the calls of `SendAsync` do. While the session is connected,
nothing waits in the queue unless a send is in flight, whose completion looks at the queue again.
-/

namespace ProjectPl.Sharp

@[simp] theorem SendNetwork.transmits_inFlight (network : SendNetwork)
    (bufferList : List (List UInt8)) :
    (network.transmits bufferList).inFlight = network.inFlight := by
  rw [transmits]
  split
  · rfl
  · rfl

namespace SendSession

/-- What follows the call of `SendAsync`. -/
def sendAsync : List SendOutcome → SendSession → SendSession
  | [], session => { session with network := session.network.goesOn session.sendPendingList }
  | .pending :: _, session =>
      { session with network := session.network.goesOn session.sendPendingList }
  | .success :: outcomes, session =>
      { session with
        network := session.network.transmits session.sendPendingList }.onSendCompletedWith
          (doSend outcomes) true (bytesTransferred session.sendPendingList)
  | .socketError :: outcomes, session => session.onSendCompletedWith (doSend outcomes) false 0

theorem doSend_eq (outcomes : List SendOutcome) (session : SendSession) :
    session.doSend outcomes =
      if ¬session.connected then session
      else if session.sendPendingList.length ≠ 0 then session
      else sendAsync outcomes
        { session with
          sendQueue := (fillPending 0 session.sendQueue session.sendPendingList).1
          sendPendingList := (fillPending 0 session.sendQueue session.sendPendingList).2 } := by
  cases outcomes with
  | nil => rfl
  | cons outcome outcomes =>
      cases outcome with
      | pending => rfl
      | success => rfl
      | socketError => rfl

theorem doSend_closed (outcomes : List SendOutcome) {session : SendSession}
    (closed : session.connected = false) : session.doSend outcomes = session := by
  rw [doSend_eq, if_pos (by simp [closed])]

theorem doSend_busy (outcomes : List SendOutcome) (session : SendSession)
    (connected : session.connected = true) (busy : session.sendPendingList ≠ []) :
    session.doSend outcomes = session := by
  have some : session.sendPendingList.length ≠ 0 := by simpa using busy
  rw [doSend_eq, if_neg (by simp [connected]), if_pos some]

def contents (session : SendSession) : List (List UInt8) :=
  session.network.transmitted ++ session.sendPendingList ++ session.sendQueue

theorem fillPending_contents (cnt : Nat) (queue pending : List (List UInt8)) :
    (fillPending cnt queue pending).2 ++ (fillPending cnt queue pending).1 = pending ++ queue := by
  induction queue generalizing cnt pending with
  | nil => rfl
  | cons buffer queue ih =>
      rw [fillPending]
      split
      · rw [ih, List.append_assoc, List.singleton_append]
      · rfl

theorem fillPending_length_le (cnt : Nat) (queue pending : List (List UInt8)) :
    pending.length ≤ (fillPending cnt queue pending).2.length := by
  induction queue generalizing cnt pending with
  | nil => exact Nat.le_refl _
  | cons buffer queue ih =>
      rw [fillPending]
      split
      · have longer := ih (cnt + 1) (pending ++ [buffer])
        rw [List.length_append] at longer
        omega
      · exact Nat.le_refl _

theorem fillPending_some {queue : List (List UInt8)} (some : queue ≠ []) :
    (fillPending 0 queue []).2 ≠ [] := by
  cases queue with
  | nil => exact absurd rfl some
  | cons buffer queue =>
      rw [fillPending, if_pos (by simp)]
      have longer := fillPending_length_le (0 + 1) queue ([] ++ [buffer])
      exact List.ne_nil_of_length_pos longer

/-! No step loses, doubles or reorders a buffer. -/

/-- A completion that says how much of the pending list was transmitted. -/
theorem landed_contents {doSend : SendSession → SendSession}
    (keeps : ∀ session, (doSend session).contents = session.contents) (session : SendSession) :
    ({ session with
        network := session.network.transmits session.sendPendingList }.onSendCompletedWith
          doSend true (bytesTransferred session.sendPendingList)).contents = session.contents := by
  rw [onSendCompletedWith, SendNetwork.transmits]
  by_cases bytes : 0 < bytesTransferred session.sendPendingList
  · rw [if_pos bytes, if_pos ⟨rfl, bytes⟩]
    have moved : ({ session with
        network := { session.network with
          transmitted := session.network.transmitted ++ session.sendPendingList }
        sendPendingList := [] } : SendSession).contents = session.contents := by
      simp only [contents, List.append_nil]
    dsimp only
    split
    · rw [keeps]
      exact moved
    · exact moved
  · rw [if_neg bytes, if_neg fun completed => bytes completed.2]
    rfl

theorem failed_contents (doSend : SendSession → SendSession) (session : SendSession) :
    (session.onSendCompletedWith doSend false 0).contents = session.contents := by
  rw [onSendCompletedWith, if_neg fun completed => Bool.false_ne_true completed.1]
  rfl

theorem doSend_contents (outcomes : List SendOutcome) (session : SendSession) :
    (session.doSend outcomes).contents = session.contents := by
  induction outcomes generalizing session with
  | nil =>
      rw [doSend_eq]
      split
      · rfl
      · split
        · rfl
        · simp only [sendAsync, SendNetwork.goesOn, contents, List.append_assoc,
            fillPending_contents]
  | cons outcome outcomes ih =>
      rw [doSend_eq]
      split
      · rfl
      · split
        · rfl
        · have filled : ({ session with
              sendQueue := (fillPending 0 session.sendQueue session.sendPendingList).1
              sendPendingList := (fillPending 0 session.sendQueue session.sendPendingList).2 } :
              SendSession).contents = session.contents := by
            simp only [contents, List.append_assoc, fillPending_contents]
          cases outcome with
          | pending => exact filled
          | success => exact (landed_contents ih _).trans filled
          | socketError => exact (failed_contents _ _).trans filled

/-! While a session is connected, it does not stall. -/

/-- What is in flight is the pending list. While the session is connected, a pending list is in
flight, and the queue has to wait only then. -/
structure Flows (session : SendSession) : Prop where
  flying : session.network.inFlight = none ∨
    session.network.inFlight = some session.sendPendingList ∧ session.sendPendingList ≠ []
  moving : session.connected = true → session.sendQueue ≠ [] → session.sendPendingList ≠ []
  sent : session.connected = true → session.sendPendingList ≠ [] → session.network.inFlight ≠ none

theorem onSendCompletedWith_flows {doSend : SendSession → SendSession}
    (sends : ∀ session, session.sendPendingList = [] → session.network.inFlight = none →
      session.sendQueue ≠ [] → (doSend session).Flows) (success : Bool) (transferred : Nat)
    {session : SendSession} (landed : session.network.inFlight = none) :
    (session.onSendCompletedWith doSend success transferred).Flows := by
  rw [onSendCompletedWith]
  split
  · dsimp only
    split
    · rename_i waiting
      exact sends _ rfl landed (List.ne_nil_of_length_pos waiting)
    · rename_i empty
      have none : session.sendQueue = [] := by simpa using empty
      exact ⟨Or.inl landed, fun _ some => absurd none some, fun _ some => absurd rfl some⟩
  · exact ⟨Or.inl landed, fun connected => absurd connected Bool.false_ne_true,
      fun connected => absurd connected Bool.false_ne_true⟩

theorem doSend_flows (outcomes : List SendOutcome) (session : SendSession)
    (free : session.sendPendingList = []) (landed : session.network.inFlight = none)
    (some : session.sendQueue ≠ []) : (session.doSend outcomes).Flows := by
  cases connected : session.connected with
  | false =>
      rw [doSend_closed outcomes connected]
      exact ⟨Or.inl landed, fun opened => absurd (connected.symm.trans opened) Bool.false_ne_true,
        fun opened => absurd (connected.symm.trans opened) Bool.false_ne_true⟩
  | true =>
      have taken := fillPending_some some
      induction outcomes generalizing session with
      | nil =>
          rw [doSend, if_neg (by simp [connected]), if_neg (by simp [free]), free]
          exact ⟨Or.inr ⟨rfl, taken⟩, fun _ _ => taken, fun _ _ => Option.some_ne_none _⟩
      | cons outcome outcomes ih =>
          have sends : ∀ session : SendSession, session.sendPendingList = [] →
              session.network.inFlight = none → session.sendQueue ≠ [] →
              (session.doSend outcomes).Flows := by
            intro session free landed some
            cases opened : session.connected with
            | false =>
                rw [doSend_closed outcomes opened]
                exact ⟨Or.inl landed,
                  fun still => absurd (opened.symm.trans still) Bool.false_ne_true,
                  fun still => absurd (opened.symm.trans still) Bool.false_ne_true⟩
            | true => exact ih session free landed some opened (fillPending_some some)
          rw [doSend, if_neg (by simp [connected]), if_neg (by simp [free]), free]
          cases outcome with
          | pending =>
              exact ⟨Or.inr ⟨rfl, taken⟩, fun _ _ => taken, fun _ _ => Option.some_ne_none _⟩
          | success =>
              exact onSendCompletedWith_flows sends true _
                ((SendNetwork.transmits_inFlight _ _).trans landed)
          | socketError => exact onSendCompletedWith_flows sends false 0 landed

theorem send_flows (outcomes : List SendOutcome) (sendBuffer : List UInt8) {session : SendSession}
    (flows : session.Flows) : (session.send outcomes sendBuffer).Flows := by
  obtain ⟨flying, -, sent⟩ := flows
  rw [send]
  cases connected : session.connected with
  | false =>
      rw [doSend_closed outcomes rfl]
      exact ⟨flying, fun opened => absurd opened Bool.false_ne_true,
        fun opened => absurd opened Bool.false_ne_true⟩
  | true =>
      by_cases busy : session.sendPendingList = []
      · refine doSend_flows outcomes _ busy ?_ (by simp)
        rcases flying with landed | ⟨-, some⟩
        · exact landed
        · exact absurd busy some
      · have kept := doSend_busy outcomes
          { session with sendQueue := session.sendQueue ++ [sendBuffer] } connected busy
        simp only [connected] at kept
        rw [kept]
        exact ⟨flying, fun _ _ => busy, fun _ => sent connected⟩

end SendSession

def SendEvent.passed : SendEvent → List (List UInt8)
  | .send sendBuffer _ => [sendBuffer]
  | .sendPacket packet _ =>
      match packetSerializer .plCommon packet with
      | .error _ => []
      | .ok ser => [ser.buffer]
  | .completed _ _ => []
  | .disconnect => []

namespace SendSession

theorem send_contents (outcomes : List SendOutcome) (sendBuffer : List UInt8)
    (session : SendSession) :
    (session.send outcomes sendBuffer).contents = session.contents ++ [sendBuffer] := by
  rw [send, doSend_contents, contents]
  exact (List.append_assoc _ _ _).symm

theorem step_contents {session : SendSession} (flows : session.Flows) (event : SendEvent) :
    (session.step event).contents = session.contents ++ event.passed := by
  cases event with
  | send sendBuffer outcomes => exact send_contents outcomes sendBuffer session
  | sendPacket packet outcomes =>
      -- The equations of `passed` are slow to derive, and the match alone is enough.
      delta step sendPacket SendEvent.passed
      dsimp only
      cases packetSerializer .plCommon packet with
      | error failure => exact (List.append_nil _).symm
      | ok ser => exact send_contents outcomes ser.buffer session
  | completed success outcomes =>
      refine Eq.trans ?_ (List.append_nil _).symm
      rw [step, completes]
      cases flight : session.network.inFlight with
      | none => rfl
      | some bufferList =>
          have pending : bufferList = session.sendPendingList := by
            rcases flows.flying with none | ⟨some, -⟩
            · rw [flight] at none
              cases none
            · exact Option.some.inj (flight.symm.trans some)
          subst pending
          cases success with
          | true =>
              exact landed_contents (doSend_contents outcomes)
                { session with network := { session.network with inFlight := none } }
          | false => exact failed_contents (doSend outcomes) _
  | disconnect => exact (List.append_nil _).symm

theorem step_flows {session : SendSession} (flows : session.Flows) (event : SendEvent) :
    (session.step event).Flows := by
  cases event with
  | send sendBuffer outcomes => exact send_flows outcomes sendBuffer flows
  | sendPacket packet outcomes =>
      delta step sendPacket
      dsimp only
      cases packetSerializer .plCommon packet with
      | error failure => exact flows
      | ok ser => exact send_flows outcomes ser.buffer flows
  | completed success outcomes =>
      rw [step, completes]
      cases session.network.inFlight with
      | none => exact flows
      | some bufferList =>
          cases success with
          | true =>
              exact onSendCompletedWith_flows (doSend_flows outcomes) true _
                (SendNetwork.transmits_inFlight _ _)
          | false => exact onSendCompletedWith_flows (doSend_flows outcomes) false 0 rfl
  | disconnect =>
      exact ⟨flows.flying, fun opened => absurd opened Bool.false_ne_true,
        fun opened => absurd opened Bool.false_ne_true⟩

theorem run_contents {session : SendSession} (flows : session.Flows) (events : List SendEvent) :
    (events.foldl step session).Flows ∧ (events.foldl step session).contents =
      session.contents ++ events.flatMap SendEvent.passed := by
  induction events generalizing session with
  | nil => exact ⟨flows, (List.append_nil _).symm⟩
  | cons event events ih =>
      obtain ⟨later, contents⟩ := ih (step_flows flows event)
      refine ⟨later, ?_⟩
      rw [List.foldl_cons, contents, step_contents flows, List.append_assoc, List.flatMap_cons]

theorem start_flows : Flows {} :=
  ⟨Or.inl rfl, fun _ some => absurd rfl some, fun _ some => absurd rfl some⟩

end SendSession

/-- In every state of a run, the buffers transmitted, pending and queued are those passed to
`Send`, in order. In a connected one, a buffer is queued only behind a send in flight, and the
pending list is what is in flight. -/
theorem send_queue_fifo (events : List SendEvent) :
    let session := events.foldl SendSession.step {}
    session.network.transmitted ++ session.sendPendingList ++ session.sendQueue =
        events.flatMap SendEvent.passed ∧
      (session.connected = true →
        (session.sendQueue ≠ [] → session.sendPendingList ≠ []) ∧
          (session.sendPendingList ≠ [] →
            session.network.inFlight = some session.sendPendingList)) := by
  intro session
  obtain ⟨flows, contents⟩ := SendSession.run_contents SendSession.start_flows events
  refine ⟨contents, ?_⟩
  intro connected
  refine ⟨flows.moving connected, ?_⟩
  intro some
  rcases flows.flying with none | ⟨flight, -⟩
  · exact absurd none (flows.sent connected some)
  · exact flight

/-- Three buffers behind one in flight. Its completion takes two of them, of which the send
completes at once, and the last follows in a send of its own. -/
example :
    [SendEvent.send [1] [], .send [2] [], .send [3] [], .send [4] [],
      .completed true [.success, .pending]].foldl SendSession.step {} =
      { sendPendingList := [[4]]
        network := { inFlight := some [[4]], transmitted := [[1], [2], [3]] } } := by
  decide

end ProjectPl.Sharp
