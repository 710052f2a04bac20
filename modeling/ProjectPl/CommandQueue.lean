import ProjectPl.CommandQueueCore
import ProjectPl.Pending

/-!
The command queue runs every command once and in order of the calls of `Add`, whatever is added
while a batch is fired, and a `Tick` runs just what was added before its swap. The queue inside
the server's model, where firing a command is one step, takes its steps from this one.
-/

namespace ProjectPl

namespace FireOps

variable {Command : Type}

/-- The command inside its `Operator`, if there is one. -/
def operating : FireOps Command → List Command
  | .running cmd _ => [cmd]
  | _ => []

/-- What the thread has swapped out and not called yet. -/
def waiting : FireOps Command → List Command
  | .outside => []
  | .firing firingCmds => firingCmds
  | .running _ firingCmds => firingCmds

/-- Steps that the thread is away from the end of its call. -/
def stepsLeft : FireOps Command → Nat
  | .outside => 0
  | .firing firingCmds => 2 * firingCmds.length + 1
  | .running _ firingCmds => 2 * firingCmds.length + 2

theorem outside_of_stepsLeft {thread : FireOps Command} (done : thread.stepsLeft = 0) :
    thread = .outside := by
  cases thread with
  | outside => rfl
  | firing firingCmds => cases done
  | running cmd firingCmds => cases done

end FireOps

namespace CommandUnitQueue

variable {Command : Type}

def addedBy : CommandEvent Command → Option Command
  | .add op => some op
  | _ => none

/-- Commands run in order and none gets lost: each is done, swapped out or still queued. -/
structure InOrder (added : List Command) (queue : CommandUnitQueue Command) : Prop where
  order : queue.executed ++ queue.thread.waiting ++ queue.cmds = added
  deletes : queue.deleted ++ queue.thread.operating = queue.executed

variable {added : List Command} {queue : CommandUnitQueue Command}

theorem initial_inOrder : InOrder [] ({} : CommandUnitQueue Command) := by
  constructor
  · rfl
  · rfl

theorem add_inOrder (inOrder : queue.InOrder added) (op : Command) :
    (queue.add op).InOrder (added ++ [op]) := by
  constructor
  · have order := inOrder.order
    simp only [add]
    rw [← List.append_assoc, order]
  · exact inOrder.deletes

theorem tick_inOrder (inOrder : queue.InOrder added) : queue.tick.InOrder added := by
  unfold tick
  split
  next outside =>
    obtain ⟨order, deletes⟩ := inOrder
    rw [outside] at order deletes
    constructor
    · simpa [FireOps.waiting] using order
    · exact deletes
  next => exact inOrder

theorem next_inOrder (inOrder : queue.InOrder added) : queue.next.InOrder added := by
  obtain ⟨order, deletes⟩ := inOrder
  unfold next
  split
  next outside =>
    exact ⟨order, deletes⟩
  next firing =>
    rw [firing] at order deletes
    exact ⟨order, deletes⟩
  next cmd rest firing =>
    rw [firing] at order deletes
    constructor
    · simpa [FireOps.waiting] using order
    · simpa [FireOps.operating] using deletes
  next cmd rest running =>
    rw [running] at order deletes
    constructor
    · exact order
    · simpa [FireOps.operating] using deletes

theorem foldl_inOrder (inOrder : queue.InOrder added) (events : List (CommandEvent Command)) :
    (events.foldl step queue).InOrder (added ++ events.filterMap addedBy) := by
  induction events generalizing queue added with
  | nil =>
      rw [List.filterMap_nil, List.append_nil]
      exact inOrder
  | cons event rest ih =>
      cases event with
      | add op =>
          have later := ih (add_inOrder inOrder op)
          rwa [List.append_assoc] at later
      | tick => exact ih (tick_inOrder inOrder)
      | next => exact ih (next_inOrder inOrder)

theorem run_inOrder (events : List (CommandEvent Command)) :
    (events.foldl step {}).InOrder (events.filterMap addedBy) :=
  foldl_inOrder initial_inOrder events

/-! One `Tick`, from its swap on: the batch is what was queued at the swap. -/

/-- Until the next swap, the thread works on `batch`, `executed` done and the rest waiting. -/
structure Fires (batch : List Command) (queue : CommandUnitQueue Command) : Prop where
  batch : queue.executed ++ queue.thread.waiting = batch
  deletes : queue.deleted ++ queue.thread.operating = queue.executed

theorem tick_fires (inOrder : queue.InOrder added) (outside : queue.thread = .outside) :
    queue.tick.Fires added := by
  obtain ⟨order, deletes⟩ := inOrder
  unfold tick
  rw [outside] at order deletes ⊢
  constructor
  · simpa [FireOps.waiting] using order
  · exact deletes

theorem next_fires {batch : List Command} (fires : queue.Fires batch) :
    queue.next.Fires batch := by
  obtain ⟨whole, deletes⟩ := fires
  unfold next
  split
  next outside => exact ⟨whole, deletes⟩
  next firing =>
    rw [firing] at whole deletes
    exact ⟨whole, deletes⟩
  next cmd rest firing =>
    rw [firing] at whole deletes
    constructor
    · simpa [FireOps.waiting] using whole
    · simpa [FireOps.operating] using deletes
  next cmd rest running =>
    rw [running] at whole deletes
    constructor
    · exact whole
    · simpa [FireOps.operating] using deletes

theorem next_stepsLeft (queue : CommandUnitQueue Command) :
    queue.next.thread.stepsLeft = queue.thread.stepsLeft - 1 := by
  unfold next
  split
  next outside => rw [outside]; rfl
  next firing => rw [firing]; rfl
  next cmd rest firing =>
    rw [firing]
    simp only [FireOps.stepsLeft, List.length_cons]
    omega
  next cmd rest running =>
    rw [running]
    rfl

theorem foldl_fires {batch : List Command} (fires : queue.Fires batch)
    {during : List (CommandEvent Command)} (noSwap : ∀ event ∈ during, event ≠ .tick) :
    (during.foldl step queue).Fires batch := by
  induction during generalizing queue with
  | nil => exact fires
  | cons event rest ih =>
      have restNoSwap : ∀ event ∈ rest, event ≠ .tick :=
        fun other member => noSwap other (List.mem_cons_of_mem _ member)
      cases event with
      | add op =>
          have added : (queue.add op).Fires batch := ⟨fires.batch, fires.deletes⟩
          exact ih added restNoSwap
      | tick => exact absurd rfl (noSwap .tick List.mem_cons_self)
      | next => exact ih (next_fires fires) restNoSwap

def isNext : CommandEvent Command → Bool
  | .next => true
  | _ => false

theorem foldl_stepsLeft (queue : CommandUnitQueue Command) {during : List (CommandEvent Command)}
    (noSwap : ∀ event ∈ during, event ≠ .tick) :
    (during.foldl step queue).thread.stepsLeft =
      queue.thread.stepsLeft - during.countP isNext := by
  induction during generalizing queue with
  | nil => rfl
  | cons event rest ih =>
      have later := ih (queue.step event) fun other member =>
        noSwap other (List.mem_cons_of_mem _ member)
      rw [List.foldl_cons, later]
      cases event with
      | add op => rfl
      | tick => exact absurd rfl (noSwap .tick List.mem_cons_self)
      | next =>
          rw [step, next_stepsLeft, List.countP_cons_of_pos rfl]
          omega

/-- Every command that was added is executed, swapped out or still queued, in the order of the
calls of `Add`, and deleted once executed. A `Tick` executes nothing but what was added before
its swap, and all of it once its own steps are done, which take two for each command and one. -/
theorem executes_once_in_order (events : List (CommandEvent Command)) :
    (events.foldl step {}).InOrder (events.filterMap addedBy) ∧
      (events.foldl step {}).executed <+: events.filterMap addedBy ∧
      ∀ before during, events = before ++ .tick :: during →
        (before.foldl step {}).thread = .outside → (∀ event ∈ during, event ≠ .tick) →
        (events.foldl step {}).executed <+: before.filterMap addedBy ∧
          (2 * (before.foldl step {}).cmds.length < during.countP isNext →
            (events.foldl step {}).thread = .outside) ∧
          ((events.foldl step {}).thread = .outside →
            (events.foldl step {}).executed = before.filterMap addedBy ∧
              (events.foldl step {}).deleted = before.filterMap addedBy) := by
  have inOrder := run_inOrder events
  refine ⟨inOrder, ?_, ?_⟩
  · refine ⟨(events.foldl step {}).thread.waiting ++ (events.foldl step {}).cmds, ?_⟩
    rw [← List.append_assoc]
    exact inOrder.order
  · rintro before during rfl outside noSwap
    have started := tick_fires (run_inOrder before) outside
    have fires := foldl_fires started noSwap
    have steps := foldl_stepsLeft (before.foldl step {}).tick noSwap
    rw [List.foldl_append, List.foldl_cons, step]
    refine ⟨⟨_, fires.batch⟩, ?_, ?_⟩
    · intro enough
      have batch : (before.foldl step {}).tick.thread.stepsLeft =
          2 * (before.foldl step {}).cmds.length + 1 := by
        rw [tick, outside]
        rfl
      exact FireOps.outside_of_stepsLeft (by omega)
    · intro done
      obtain ⟨batch, deletes⟩ := fires
      rw [done] at batch deletes
      have executed := (List.append_nil _).symm.trans batch
      exact ⟨executed, ((List.append_nil _).symm.trans deletes).trans executed⟩

theorem destruct_deletes_all (inOrder : queue.InOrder added) (outside : queue.thread = .outside) :
    queue.destruct.deleted = added := by
  obtain ⟨order, deletes⟩ := inOrder
  rw [outside] at order deletes
  rw [← order, ← deletes]
  simp [destruct, FireOps.waiting, FireOps.operating]

end CommandUnitQueue

/-! The queue of the server: an event of the server is a few steps of its command queue. -/

namespace Server

open CommandUnitQueue

/-- Between two events of the server, its thread is not inside an operator. -/
structure Mirrors (queue : CommandUnitQueue Queued) (server : Server) : Prop where
  cmds : queue.cmds = server.cmds
  waiting : queue.thread.waiting = server.firingCmds
  operating : queue.thread.operating = []

def eventFires (server : Server) : Event → List Queued
  | .fire => server.firingCmds.take 1
  | _ => []

def runFires : Server → List Event → List Queued
  | _, [] => []
  | server, event :: rest => server.eventFires event ++ runFires (server.step event) rest

theorem foldl_adds (queue : CommandUnitQueue Queued) (more : List Queued) :
    (more.map CommandEvent.add).foldl CommandUnitQueue.step queue =
      { queue with cmds := queue.cmds ++ more } := by
  induction more generalizing queue with
  | nil => simp
  | cons queued rest ih =>
      rw [List.map_cons, List.foldl_cons, ih]
      simp [CommandUnitQueue.step, CommandUnitQueue.add]

theorem mirrors_of_adds {queue : CommandUnitQueue Queued} {server next : Server}
    (mirrors : Mirrors queue server) (firing : next.firingCmds = server.firingCmds)
    (grown : server.cmds <+: next.cmds) :
    ∃ calls : List (CommandEvent Queued), Mirrors (calls.foldl CommandUnitQueue.step queue) next ∧
      (calls.foldl CommandUnitQueue.step queue).executed = queue.executed := by
  obtain ⟨more, added⟩ := grown
  refine ⟨more.map CommandEvent.add, ?_⟩
  rw [foldl_adds]
  refine ⟨⟨?_, ?_, mirrors.operating⟩, rfl⟩
  · change queue.cmds ++ more = next.cmds
    rw [mirrors.cmds, added]
  · exact mirrors.waiting.trans firing.symm

theorem packet_grows (server : Server) (conn : Nat) (call : Option C2SCall) (env : Env) :
    (server.packet conn call env).firingCmds = server.firingCmds ∧
      server.cmds <+: (server.packet conn call env).cmds := by
  have attached : (server.attach conn).1.firingCmds = server.firingCmds ∧
      (server.attach conn).1.cmds = server.cmds := by
    unfold attach
    split
    · exact ⟨rfl, rfl⟩
    · exact ⟨rfl, rfl⟩
  cases call with
  | none => exact ⟨attached.1, attached.2 ▸ List.prefix_rfl⟩
  | some call =>
      have queues := handle_queues (server.attach conn).1 (server.attach conn).2 env call
      exact ⟨queues.firingCmds.trans attached.1, attached.2 ▸ queues.cmds⟩

theorem doUpdate_grows (server : Server) (clock : Clock) :
    (server.doUpdate clock).firingCmds = server.firingCmds ∧
      server.cmds <+: (server.doUpdate clock).cmds := by
  obtain ⟨-, updatedCmds, -, updatedFiring⟩ :=
    updateSessions_keeps server clock server.mgr.usedList
  simp only [doUpdate, foldl_release]
  generalize (server.updateSessions clock server.mgr.usedList).2 = listed
  generalize (server.updateSessions clock server.mgr.usedList).1 = updated at *
  obtain ⟨-, freedCmds, -, freedFiring, -⟩ := foldl_free_keeps
    { updated with
      cmds := updated.cmds ++ listed.flatMap fun slot => releaseCommands (updated.sessions slot)
      links := fun conn =>
        if ∃ slot ∈ listed, (updated.sessions slot).pConnector = some conn then {}
        else updated.links conn } listed
  refine ⟨freedFiring.trans updatedFiring, ?_⟩
  rw [freedCmds, ← updatedCmds]
  exact List.prefix_append _ _

theorem tick_mirrors {queue : CommandUnitQueue Queued} {server : Server}
    (mirrors : Mirrors queue server) :
    ∃ calls : List (CommandEvent Queued),
      Mirrors (calls.foldl CommandUnitQueue.step queue) server.tick ∧
        (calls.foldl CommandUnitQueue.step queue).executed = queue.executed := by
  by_cases idle : server.firingCmds = []
  · have ticked : server.tick = { server with firingCmds := server.cmds, cmds := [] } := by
      rw [tick, if_pos idle]
    have left : queue.next.thread = .outside ∧ queue.next.cmds = queue.cmds ∧
        queue.next.executed = queue.executed := by
      obtain ⟨-, waiting, operating⟩ := mirrors
      unfold CommandUnitQueue.next
      split
      next outside => exact ⟨outside, rfl, rfl⟩
      next => exact ⟨rfl, rfl, rfl⟩
      next cmd rest firing =>
        rw [firing, idle] at waiting
        cases waiting
      next cmd rest running =>
        rw [running] at operating
        cases operating
    have swapped : queue.next.tick =
        { queue.next with cmds := [], thread := .firing queue.next.cmds } := by
      rw [CommandUnitQueue.tick, left.1]
    refine ⟨[.next, .tick], ?_⟩
    change Mirrors queue.next.tick _ ∧ queue.next.tick.executed = _
    rw [swapped, ticked]
    exact ⟨⟨rfl, left.2.1.trans mirrors.cmds, rfl⟩, left.2.2⟩
  · have kept : server.tick = server := by
      rw [tick, if_neg idle]
    rw [kept]
    exact ⟨[], mirrors, rfl⟩

theorem fire_mirrors {queue : CommandUnitQueue Queued} {server : Server}
    (mirrors : Mirrors queue server) :
    ∃ calls : List (CommandEvent Queued),
      Mirrors (calls.foldl CommandUnitQueue.step queue) server.fire ∧
        (calls.foldl CommandUnitQueue.step queue).executed =
          queue.executed ++ server.firingCmds.take 1 := by
  cases firing : server.firingCmds with
  | nil =>
      have kept : server.fire = server := by
        unfold fire
        rw [firing]
      rw [kept]
      exact ⟨[], mirrors, (List.append_nil _).symm⟩
  | cons queued rest =>
      obtain ⟨cmds, waiting, operating⟩ := mirrors
      have called : queue.next = { queue with
          thread := .running queued rest
          executed := queue.executed ++ [queued] } := by
        unfold CommandUnitQueue.next
        split
        next outside =>
          rw [outside, firing] at waiting
          cases waiting
        next empty =>
          rw [empty, firing] at waiting
          cases waiting
        next cmd others swapped =>
          rw [swapped, firing] at waiting
          cases waiting
          rfl
        next cmd others running =>
          rw [running] at operating
          cases operating
      obtain ⟨firingLater, more, added, -⟩ :=
        operator_queues { server with firingCmds := rest } queued.cause queued.command
      refine ⟨.next :: (more.map CommandEvent.add ++ [.next]), ?_⟩
      rw [List.foldl_cons, List.foldl_append, CommandUnitQueue.step, called, foldl_adds,
        fire_cons firing]
      refine ⟨⟨?_, firingLater.symm, rfl⟩, rfl⟩
      change queue.cmds ++ more = _
      rw [cmds]
      exact added

theorem step_mirrors {queue : CommandUnitQueue Queued} {server : Server}
    (mirrors : Mirrors queue server) (event : Event) :
    ∃ calls : List (CommandEvent Queued),
      Mirrors (calls.foldl CommandUnitQueue.step queue) (server.step event) ∧
        (calls.foldl CommandUnitQueue.step queue).executed =
          queue.executed ++ server.eventFires event := by
  cases event with
  | connect conn =>
      refine ⟨[], ?_, (List.append_nil _).symm⟩
      simp only [step]
      split
      · exact ⟨mirrors.cmds, mirrors.waiting, mirrors.operating⟩
      · exact mirrors
  | close conn =>
      exact ⟨[], ⟨mirrors.cmds, mirrors.waiting, mirrors.operating⟩, (List.append_nil _).symm⟩
  | packet conn call env =>
      obtain ⟨firing, grown⟩ := packet_grows server conn call env
      obtain ⟨calls, mirrored, executed⟩ := mirrors_of_adds mirrors firing grown
      exact ⟨calls, mirrored, executed.trans (List.append_nil _).symm⟩
  | doUpdate clock =>
      simp only [step]
      split
      · obtain ⟨firing, grown⟩ := doUpdate_grows server clock
        obtain ⟨calls, mirrored, executed⟩ := mirrors_of_adds mirrors firing grown
        exact ⟨calls, mirrored, executed.trans (List.append_nil _).symm⟩
      · exact ⟨[], mirrors, (List.append_nil _).symm⟩
  | tick =>
      obtain ⟨calls, mirrored, executed⟩ := tick_mirrors mirrors
      exact ⟨calls, mirrored, executed.trans (List.append_nil _).symm⟩
  | fire => exact fire_mirrors mirrors

/-- What a run of the server fires, its command queue executes. -/
theorem run_mirrors {queue : CommandUnitQueue Queued} {server : Server}
    (mirrors : Mirrors queue server) (events : List Event) :
    ∃ calls : List (CommandEvent Queued),
      Mirrors (calls.foldl CommandUnitQueue.step queue) (server.run events) ∧
        (calls.foldl CommandUnitQueue.step queue).executed =
          queue.executed ++ runFires server events := by
  induction events generalizing queue server with
  | nil => exact ⟨[], mirrors, (List.append_nil _).symm⟩
  | cons event rest ih =>
      obtain ⟨calls, mirrored, executed⟩ := step_mirrors mirrors event
      obtain ⟨later, laterMirrored, laterExecuted⟩ := ih mirrored
      refine ⟨calls ++ later, ?_⟩
      rw [List.foldl_append]
      refine ⟨laterMirrored, ?_⟩
      rw [laterExecuted, executed, List.append_assoc]
      rfl

end Server

end ProjectPl
