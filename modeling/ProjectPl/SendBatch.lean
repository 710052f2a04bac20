import ProjectPl.SendQueue

/-!
How many buffers one round of `DoSend` sends. The loop compares its counter with the count of the
queue that it takes them from, so it stops half way through a short queue. `PlayerSession.DoSend`
of `Server` has the same text.
-/

namespace ProjectPl.Sharp

namespace SendSession

/-- What the loop still takes from a queue of this length. -/
def batch (cnt length : Nat) : Nat := min ((length + 1 - cnt) / 2) (10 - cnt)

theorem batch_stop {cnt length : Nat} (stops : ¬(cnt < length ∧ cnt < 10)) :
    batch cnt length = 0 := by
  rw [batch]
  omega

theorem batch_next {cnt length : Nat} (goes : cnt < length + 1 ∧ cnt < 10) :
    batch cnt (length + 1) = batch (cnt + 1) length + 1 := by
  rw [batch, batch]
  omega

theorem fillPending_eq (cnt : Nat) (queue pending : List (List UInt8)) :
    fillPending cnt queue pending =
      (queue.drop (batch cnt queue.length), pending ++ queue.take (batch cnt queue.length)) := by
  induction queue generalizing cnt pending with
  | nil =>
      rw [fillPending, List.drop_nil, List.take_nil, List.append_nil]
  | cons buffer queue ih =>
      rw [fillPending]
      by_cases goes : cnt < (buffer :: queue).length ∧ cnt < 10
      · rw [if_pos goes, ih, List.length_cons, batch_next goes, List.drop_succ_cons,
          List.take_succ_cons, List.append_assoc, List.singleton_append]
      · rw [if_neg goes, batch_stop goes, List.drop_zero, List.take_zero, List.append_nil]

def sending (count : Nat) (session : SendSession) : SendSession :=
  { session with
    sendQueue := session.sendQueue.drop count
    sendPendingList := session.sendQueue.take count }

/-- A round of `DoSend` calls `SendAsync` with the first buffers of the queue, this many of them,
and leaves the others in the queue. -/
def Moves (session : SendSession) (count : Nat) : Prop :=
  ∀ outcomes, session.doSend outcomes = (session.sending count).sendAsync outcomes

variable {session : SendSession}

theorem moves_batch (connected : session.connected = true) (idle : session.sendPendingList = []) :
    session.Moves (batch 0 session.sendQueue.length) := by
  have filled : fillPending 0 session.sendQueue session.sendPendingList =
      (session.sendQueue.drop (batch 0 session.sendQueue.length),
        session.sendQueue.take (batch 0 session.sendQueue.length)) := by
    rw [fillPending_eq, idle, List.nil_append]
  have opened : ¬¬session.connected = true := not_not.mpr connected
  have free : ¬session.sendPendingList.length ≠ 0 := by
    rw [idle]
    exact not_not.mpr rfl
  intro outcomes
  rw [doSend_eq, if_neg opened, if_neg free, filled]
  rfl

theorem Moves.unique {count other : Nat} (one : session.Moves count) (two : session.Moves other) :
    min count session.sendQueue.length = min other session.sendQueue.length := by
  have same : (session.sending count).sendAsync [] = (session.sending other).sendAsync [] :=
    (one []).symm.trans (two [])
  have lists : session.sendQueue.take count = session.sendQueue.take other :=
    congrArg sendPendingList same
  have lengths := congrArg List.length lists
  rwa [List.length_take, List.length_take] at lengths

/-- A round sends up to ten buffers if the queue has one or at least nineteen. -/
theorem moves_ten_iff (connected : session.connected = true) (idle : session.sendPendingList = [])
    (some : 1 ≤ session.sendQueue.length) :
    session.Moves (min session.sendQueue.length 10) ↔
      session.sendQueue.length = 1 ∨ 19 ≤ session.sendQueue.length := by
  have moved := moves_batch connected idle
  constructor
  · intro ten
    have same := ten.unique moved
    rw [batch] at same
    omega
  · intro length
    have same : min session.sendQueue.length 10 = batch 0 session.sendQueue.length := by
      rw [batch]
      omega
    rw [same]
    exact moved

theorem nineteenBuffers_move :
    Moves { sendQueue := List.replicate 19 [7] } (min 19 10) ∧
      Moves { sendQueue := [[7]] } (min 1 10) := by
  have ten : Moves { sendQueue := List.replicate 19 [7] } (min 19 10) ↔ 19 = 1 ∨ 19 ≤ 19 :=
    moves_ten_iff rfl rfl (by decide)
  have one : Moves { sendQueue := [[7]] } (min 1 10) ↔ 1 = 1 ∨ 19 ≤ 1 :=
    moves_ten_iff rfl rfl le_rfl
  exact ⟨ten.mpr (Or.inr le_rfl), one.mpr (Or.inl rfl)⟩

/-- One of two buffers stays in the queue. -/
theorem twoBuffers_stay : ¬Moves { sendQueue := [[7], [8]] } (min 2 10) := by
  intro moves
  have lists := congrArg sendPendingList (moves [])
  exact absurd lists (by decide)

end SendSession

end ProjectPl.Sharp
