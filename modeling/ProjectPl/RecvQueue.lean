import ProjectPl.Lib.Run

/-!
The hand-over of received packets: `PacketDataQueue` and `RecvPacketQueue` of
`_framework/packet_data_queue.h`. The network threads push, `ProcessThread` alone pops. Each
phase has a list, a lock and an auto-reset event of its own, so the machine below is about the
one phase that its calls name. What happens under the lock is one step, and so are the emptiness
test, which is made without it, `SetEvent` and the end of a `WaitForSingleObject`.

`unsignalled` counts the calls of a producer that have appended and not set the event yet; a
thread has at most one, and nothing below needs that. `returned` is what the calls of `Pop` have
returned, a null pointer being `none`.
-/

namespace ProjectPl

def maxPacketQueuePhase : Int := 4

/-! Where the consumer stands in `RecvPacketQueue::Pop`. The call of `PacketDataQueue::Pop`
after the wait is the last one, so its answer is returned even when it is null. -/

inductive PopState
  | idle
  | test (waited : Bool)
  | remove
  | wait
  | undefined
  deriving DecidableEq, Repr

structure RecvPacketQueue (ι α : Type*) where
  lstPacketQueue : List α := []
  hQueueEvent : Bool := false
  unsignalled : ι → Nat := fun _ => 0
  consumer : PopState := .idle
  returned : List (Option α) := []

namespace RecvPacketQueue

variable {ι α : Type*}

inductive Event (ι α : Type*)
  | push (producer : ι) (packet : Option α)
  | setEvent (producer : ι)
  | forceActivateQueueEvent
  | consume

/-- `PacketDataQueue::Push`, the first half of `RecvPacketQueue::Push`. -/
def push [DecidableEq ι] (phase : Int) (queue : RecvPacketQueue ι α) (producer : ι)
    (packet : Option α) : RecvPacketQueue ι α :=
  match packet with
  | none => queue
  | some packet =>
      if phase < 0 ∨ maxPacketQueuePhase ≤ phase then queue
      else
        { queue with
          lstPacketQueue := queue.lstPacketQueue ++ [packet]
          unsignalled :=
            Function.update queue.unsignalled producer (queue.unsignalled producer + 1) }

def setEvent [DecidableEq ι] (queue : RecvPacketQueue ι α) (producer : ι) : RecvPacketQueue ι α :=
  if 0 < queue.unsignalled producer then
    { queue with
      hQueueEvent := true
      unsignalled := Function.update queue.unsignalled producer (queue.unsignalled producer - 1) }
  else queue

def returns (queue : RecvPacketQueue ι α) (packet : Option α) : RecvPacketQueue ι α :=
  { queue with consumer := .idle, returned := queue.returned ++ [packet] }

/-- The consumer's next step. Taking the front of an empty list is undefined, and a wait on an
event that is not signalled does not end. -/
def consume (phase : Int) (queue : RecvPacketQueue ι α) : RecvPacketQueue ι α :=
  match queue.consumer with
  | .idle =>
      if phase < 0 ∨ maxPacketQueuePhase ≤ phase then queue.returns none
      else { queue with consumer := .test false }
  | .test waited =>
      if queue.lstPacketQueue.isEmpty then
        if waited then queue.returns none else { queue with consumer := .wait }
      else { queue with consumer := .remove }
  | .remove =>
      match queue.lstPacketQueue with
      | [] => { queue with consumer := .undefined }
      | packet :: rest => { queue with lstPacketQueue := rest }.returns (some packet)
  | .wait =>
      if queue.hQueueEvent then { queue with hQueueEvent := false, consumer := .test true }
      else queue
  | .undefined => queue

def step [DecidableEq ι] (phase : Int) (queue : RecvPacketQueue ι α) :
    Event ι α → RecvPacketQueue ι α
  | .push producer packet => queue.push phase producer packet
  | .setEvent producer => queue.setEvent producer
  | .forceActivateQueueEvent => { queue with hQueueEvent := true }
  | .consume => queue.consume phase

/-! Only the consumer resets the event and takes packets out. Once its test has found the list
empty, whatever is in the list was pushed after the test, and the `SetEvent` behind that push
either is still to come or has left the event signalled. -/

/-- The packet that an event passes to `Push`, with phase 0. -/
def Event.pushed : Event ι α → Option α
  | .push _ packet => packet
  | _ => none

structure HandsOver (pushed : List α) (queue : RecvPacketQueue ι α) : Prop where
  order : queue.returned.reduceOption ++ queue.lstPacketQueue = pushed
  removes : queue.consumer = .remove → queue.lstPacketQueue ≠ []
  defined : queue.consumer ≠ .undefined
  awake : queue.consumer = .wait → queue.lstPacketQueue ≠ [] →
    queue.hQueueEvent = true ∨ ∃ producer, 0 < queue.unsignalled producer

variable {pushed : List α}

theorem initial_handsOver : ({} : RecvPacketQueue ι α).HandsOver [] :=
  ⟨rfl, nofun, nofun, nofun⟩

theorem returns_handsOver {queue : RecvPacketQueue ι α} {packet : Option α}
    (order : (queue.returned ++ [packet]).reduceOption ++ queue.lstPacketQueue = pushed) :
    (queue.returns packet).HandsOver pushed :=
  ⟨order, nofun, nofun, nofun⟩

theorem returnNull_handsOver {queue : RecvPacketQueue ι α} (hands : queue.HandsOver pushed) :
    (queue.returns none).HandsOver pushed := by
  apply returns_handsOver
  rw [List.reduceOption_append, List.reduceOption_singleton]
  simpa using hands.order

theorem test_handsOver {phase : Int} {queue : RecvPacketQueue ι α} {waited : Bool}
    (testing : queue.consumer = .test waited) (hands : queue.HandsOver pushed) :
    (queue.consume phase).HandsOver pushed := by
  simp only [consume, testing]
  split
  · rename_i empty
    rw [List.isEmpty_iff] at empty
    split
    · exact returnNull_handsOver hands
    · exact ⟨hands.order, nofun, nofun, fun _ filled => absurd empty filled⟩
  · rename_i filled
    exact ⟨hands.order, fun _ empty => filled (List.isEmpty_iff.mpr empty), nofun, nofun⟩

theorem remove_handsOver {phase : Int} {queue : RecvPacketQueue ι α}
    (removing : queue.consumer = .remove) (hands : queue.HandsOver pushed) :
    (queue.consume phase).HandsOver pushed := by
  obtain ⟨packet, rest, filled⟩ := List.exists_cons_of_ne_nil (hands.removes removing)
  have order := hands.order
  simp only [consume, removing, filled]
  apply returns_handsOver
  rw [filled] at order
  rw [← order, List.reduceOption_append, List.append_assoc]
  rfl

theorem consume_handsOver {phase : Int} {queue : RecvPacketQueue ι α}
    (hands : queue.HandsOver pushed) :
    (queue.consume phase).HandsOver pushed := by
  cases standing : queue.consumer with
  | idle =>
      simp only [consume, standing]
      split
      · exact returnNull_handsOver hands
      · exact ⟨hands.order, nofun, nofun, nofun⟩
  | test waited => exact test_handsOver standing hands
  | remove => exact remove_handsOver standing hands
  | wait =>
      simp only [consume, standing]
      split
      · exact ⟨hands.order, nofun, nofun, nofun⟩
      · exact hands
  | undefined => exact absurd standing hands.defined

variable [DecidableEq ι]

theorem push_handsOver {queue : RecvPacketQueue ι α} (producer : ι) (packet : Option α)
    (hands : queue.HandsOver pushed) :
    (queue.push 0 producer packet).HandsOver (pushed ++ packet.toList) := by
  cases packet with
  | none =>
      rw [Option.toList_none, List.append_nil]
      exact hands
  | some packet =>
      rw [push, if_neg (by decide)]
      refine ⟨?_, ?_, hands.defined, ?_⟩
      · dsimp only
        rw [← List.append_assoc, hands.order]
        rfl
      · simp
      · intro _ _
        refine Or.inr ⟨producer, ?_⟩
        dsimp only
        rw [Function.update_self]
        exact Nat.succ_pos _

theorem setEvent_handsOver {queue : RecvPacketQueue ι α} (producer : ι)
    (hands : queue.HandsOver pushed) : (queue.setEvent producer).HandsOver pushed := by
  rw [setEvent]
  split
  · exact ⟨hands.order, hands.removes, hands.defined, fun _ _ => Or.inl rfl⟩
  · exact hands

end RecvPacketQueue

end ProjectPl
