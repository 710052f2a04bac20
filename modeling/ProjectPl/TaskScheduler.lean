import ProjectPl.Lib.Run
import ProjectPl.TaskSchedulerCore

/-!
The scheduler runs its tasks in order as long as its counter is below the limit. The counter only
goes down, one for each task that returns, so it starts below and stays there until it leaves the
range of an `Int32`: from then on the tasks stay in the queue.
-/

namespace ProjectPl.Sharp

open DotNet

namespace IPacketHandler

variable {Task : Type} {queues : Task → List Task}

/-- The counter, which starts at zero and is counted down with every return, is below the limit. -/
def Counts (completed : Nat) : Prop :=
  completed % 0x100000000 ≤ 0x80000000 ∨ 0x100000000 - 4 < completed % 0x100000000

theorem counts_iff (completed : Nat) : Counts completed ↔ int32 (-completed) < maxParallelism := by
  rw [int32, Int.bmod_eq_emod, maxParallelism, Counts]
  split <;> omega

theorem int32_count (completed : Nat) :
    int32 (int32 (-completed) - 1) = int32 (-(completed + 1 : Nat)) := by
  have exact : (-(completed : Int)) - 1 = -(completed + 1 : Nat) := by omega
  rw [int32, int32, Int.bmod_sub_bmod, exact]
  rfl

/-- A task waits only between the call of `QueueTask` that brought it and the test of the loop in
that call. -/
structure Orderly (handler : IPacketHandler Task) : Prop where
  counter : handler.runningTasks = int32 (-handler.completed)
  order : handler.executed ++ handler.tasks = handler.queued
  waiting : handler.tasks = [] ∨
    ∃ task callers, handler.tasks = [task] ∧ handler.stack = .tryExecuteTasks :: callers ∧
      Counts handler.completed

/-- Every task is executed once, in the order of the calls of `QueueTask`, and no later than by the
next step. Where no call is open, none is left. -/
structure Prompt (queues : Task → List Task) (handler : IPacketHandler Task) : Prop where
  order : handler.executed ++ handler.tasks = handler.queued
  next : handler.tasks ≠ [] → (handler.advance queues).executed = handler.queued
  returned : handler.stack = [] → handler.tasks = []

/-- A call of `QueueTask` finds the counter below the limit. -/
def Timely (handler : IPacketHandler Task) : SchedulerInput Task → Prop
  | .queueTask _ => handler.stack = [] → Counts handler.completed
  | .advance => ∀ task left callers, handler.stack = .running (task :: left) :: callers →
      Counts handler.completed

theorem Orderly.new : Orderly ({} : IPacketHandler Task) := ⟨rfl, rfl, Or.inl rfl⟩

theorem Orderly.returned {handler : IPacketHandler Task} (orderly : handler.Orderly)
    (idle : handler.stack = []) : handler.tasks = [] := by
  obtain ⟨-, -, none | ⟨task, callers, -, stack, -⟩⟩ := orderly
  · exact none
  · rw [idle] at stack
    cases stack

theorem Orderly.prompt {handler : IPacketHandler Task} (orderly : handler.Orderly) :
    handler.Prompt queues := by
  refine ⟨orderly.order, ?_, orderly.returned⟩
  intro some
  obtain ⟨counter, order, none | ⟨task, callers, tasks, stack, counts⟩⟩ := orderly
  · exact absurd none some
  · rw [counts_iff, ← counter] at counts
    rw [advance, stack]
    dsimp only
    rw [tryExecuteTasks, tasks]
    dsimp only
    rw [if_pos counts, ← order, tasks]

/-! One step. -/

theorem Orderly.call {handler : IPacketHandler Task} (orderly : handler.Orderly)
    (none : handler.tasks = []) (packetTask : Task) (callers : List (Frame Task))
    (counts : Counts handler.completed) : (handler.call packetTask callers).Orderly := by
  obtain ⟨counter, order, -⟩ := orderly
  rw [none, List.append_nil] at order
  refine ⟨counter, ?_, Or.inr ⟨packetTask, callers, ?_, rfl, counts⟩⟩
  · rw [IPacketHandler.call, queueTask, none, order, List.nil_append]
  · rw [IPacketHandler.call, queueTask, none, List.nil_append]

theorem Orderly.tryExecuteTasks {handler : IPacketHandler Task} (orderly : handler.Orderly)
    (callers : List (Frame Task)) : (handler.tryExecuteTasks queues callers).Orderly := by
  obtain ⟨counter, order, none | ⟨task, others, tasks, -, counts⟩⟩ := orderly
  · rw [none] at order
    rw [IPacketHandler.tryExecuteTasks, none]
    exact ⟨counter, order, Or.inl rfl⟩
  · rw [counts_iff, ← counter] at counts
    rw [IPacketHandler.tryExecuteTasks, tasks]
    dsimp only
    rw [if_pos counts]
    refine ⟨counter, ?_, Or.inl rfl⟩
    rw [← order, tasks, List.append_nil]

theorem Orderly.taskCompleted {handler : IPacketHandler Task} (orderly : handler.Orderly)
    (none : handler.tasks = []) (callers : List (Frame Task)) :
    ({ handler with completed := handler.completed + 1 }.taskCompleted callers).Orderly := by
  obtain ⟨counter, order, -⟩ := orderly
  refine ⟨?_, order, Or.inl none⟩
  rw [IPacketHandler.taskCompleted]
  dsimp only
  rw [counter, int32_count]

theorem Orderly.none_waiting {handler : IPacketHandler Task} (orderly : handler.Orderly)
    {left : List Task} {callers : List (Frame Task)}
    (stack : handler.stack = .running left :: callers) : handler.tasks = [] := by
  obtain ⟨-, -, none | ⟨task, others, -, other, -⟩⟩ := orderly
  · exact none
  · rw [stack] at other
    cases other

theorem Orderly.step {handler : IPacketHandler Task} (orderly : handler.Orderly)
    {input : SchedulerInput Task} (timely : handler.Timely input) :
    (handler.step queues input).Orderly := by
  cases input with
  | advance =>
      rw [IPacketHandler.step, advance]
      split
      · exact orderly
      · exact orderly.tryExecuteTasks _
      · rename_i callers stack
        exact orderly.taskCompleted (orderly.none_waiting stack) callers
      · rename_i task left callers stack
        exact orderly.call (orderly.none_waiting stack) task _ (timely task left callers stack)
  | queueTask packetTask =>
      rw [IPacketHandler.step]
      split
      · rename_i idle
        exact orderly.call (orderly.returned idle) packetTask []
          (timely idle)
      · exact orderly

theorem Orderly.late {handler : IPacketHandler Task} (orderly : handler.Orderly)
    (none : handler.tasks = []) (packetTask : Task) (callers : List (Frame Task))
    (late : ¬Counts handler.completed) :
    ¬(handler.call packetTask callers).Prompt queues := by
  intro prompt
  obtain ⟨counter, order, -⟩ := orderly
  rw [none, List.append_nil] at order
  have executed := prompt.next (by simp [IPacketHandler.call, queueTask])
  rw [counts_iff, ← counter] at late
  rw [advance, IPacketHandler.call, queueTask] at executed
  dsimp only at executed
  rw [IPacketHandler.tryExecuteTasks, none] at executed
  dsimp only [List.nil_append] at executed
  rw [if_neg late] at executed
  have lengths := congrArg List.length executed
  simp only [order, List.length_append, List.length_singleton] at lengths
  omega

theorem Orderly.breaks {handler : IPacketHandler Task} (orderly : handler.Orderly)
    {input : SchedulerInput Task} (untimely : ¬handler.Timely input) :
    ¬(handler.step queues input).Prompt queues := by
  cases input with
  | advance =>
      simp only [Timely, not_forall] at untimely
      obtain ⟨task, left, callers, stack, late⟩ := untimely
      have called : handler.step queues .advance =
          handler.call task (.running left :: callers) := by
        rw [IPacketHandler.step, advance, stack]
      rw [called]
      exact orderly.late (orderly.none_waiting stack) task _ late
  | queueTask packetTask =>
      simp only [Timely, not_forall] at untimely
      obtain ⟨idle, late⟩ := untimely
      have called : handler.step queues (.queueTask packetTask) =
          handler.call packetTask [] := by
        rw [IPacketHandler.step, idle]
      rw [called]
      exact orderly.late (orderly.returned idle) packetTask [] late

/-! Calls return. Each step does a part of the work that the tasks inside stand for. -/

def Frame.cost (weight : Task → Nat) : Frame Task → Nat
  | .tryExecuteTasks => 1
  | .running left => 2 + (left.map fun task => 4 * weight task + 2).sum

def work (weight : Task → Nat) (handler : IPacketHandler Task) : Nat :=
  (handler.tasks.map fun task => 4 * weight task).sum +
    (handler.stack.map (Frame.cost weight)).sum

/-- Where tasks queue tasks only to a finite depth, a task can be given more weight than all that
it queues. -/
theorem exists_weight (deep : WellFounded fun child parent => child ∈ queues parent) :
    ∃ weight : Task → Nat, ∀ task,
      weight task = ((queues task).map fun child => weight child + 1).sum + 1 := by
  obtain ⟨weight, weighs⟩ : ∃ weight : Task → Nat, ∀ task,
      weight task = ((queues task).attach.map fun child => weight child.1 + 1).sum + 1 :=
    ⟨deep.fix fun task weight =>
      ((queues task).attach.map fun child => weight child.1 child.2 + 1).sum + 1,
      fun task => deep.fix_eq _ task⟩
  refine ⟨weight, ?_⟩
  intro task
  rw [weighs task, List.attach_map_val (f := fun child => weight child + 1)]

theorem advance_work {weight : Task → Nat}
    (heavier : ∀ task, weight task = ((queues task).map fun child => weight child + 1).sum + 1)
    {handler : IPacketHandler Task} (busy : handler.stack ≠ []) :
    (handler.advance queues).work weight < handler.work weight := by
  rw [advance]
  split
  · rename_i idle
    exact absurd idle busy
  · rename_i callers stack
    rw [tryExecuteTasks]
    split
    · rename_i none
      simp only [work, stack, none, List.map_cons, List.sum_cons, Frame.cost]
      omega
    · rename_i task tasks some
      split
      · have parts : ((queues task).map fun child => 4 * weight child + 2).sum ≤
            4 * ((queues task).map fun child => weight child + 1).sum := by
          induction queues task with
          | nil => exact Nat.le_refl _
          | cons child children ih =>
              simp only [List.map_cons, List.sum_cons]
              omega
        have whole := heavier task
        simp only [work, stack, some, List.map_cons, List.sum_cons, Frame.cost]
        omega
      · simp only [work, stack, List.map_cons, List.sum_cons, Frame.cost]
        omega
  · rename_i callers stack
    simp only [work, taskCompleted, stack, List.map_cons, List.map_nil, List.sum_cons,
      List.sum_nil, Frame.cost]
    omega
  · rename_i task left callers stack
    simp only [work, call, queueTask, stack, List.map_cons, List.map_append, List.map_nil,
      List.sum_cons, List.sum_append, List.sum_nil, Frame.cost]
    omega

theorem exists_return (deep : WellFounded fun child parent => child ∈ queues parent)
    (handler : IPacketHandler Task) :
    ∃ count, ((advance queues)^[count] handler).stack = [] := by
  obtain ⟨weight, heavier⟩ := exists_weight deep
  induction amount : handler.work weight using Nat.strong_induction_on generalizing handler with
  | _ amount ih =>
      by_cases idle : handler.stack = []
      · exact ⟨0, idle⟩
      · obtain ⟨count, returned⟩ := ih _ (amount ▸ advance_work heavier idle)
          (handler.advance queues) rfl
        exact ⟨count + 1, returned⟩

end IPacketHandler

open IPacketHandler

/-- Every task is executed once, in order and at once, and none is left behind by a call that
returns, exactly in the runs in which every call of `QueueTask` comes while the number of tasks
completed counts below the limit. Where tasks queue tasks only to a finite depth, every call
returns. -/
theorem packetHandler_prompt_iff {Task : Type} (queues : Task → List Task)
    (inputs : List (SchedulerInput Task)) :
    ((∀ before after, inputs = before ++ after →
        (before.foldl (IPacketHandler.step queues) {}).Prompt queues) ↔
      Run.Along (IPacketHandler.step queues) Timely {} inputs) ∧
    ((WellFounded fun child parent => child ∈ queues parent) →
      ∃ count, ((advance queues)^[count]
        (inputs.foldl (IPacketHandler.step queues) {})).stack = []) :=
  ⟨Run.always_iff_along (fun _ _ orderly timely => orderly.step timely)
    (fun _ orderly => orderly.prompt) (fun _ _ orderly untimely => orderly.breaks untimely)
    Orderly.new inputs, fun deep => exists_return deep _⟩

/-! A run beyond the range of the counter. -/

def oneTask : List (SchedulerInput Unit) :=
  [.queueTask (), .advance, .advance, .advance, .advance]

theorem oneTask_step {handler : IPacketHandler Unit} (idle : handler.stack = [])
    (none : handler.tasks = []) (below : handler.runningTasks < maxParallelism) :
    oneTask.foldl (IPacketHandler.step fun _ => []) handler =
      { handler with
        runningTasks := int32 (handler.runningTasks - 1)
        queued := handler.queued ++ [()]
        executed := handler.executed ++ [()]
        completed := handler.completed + 1 } := by
  obtain ⟨tasks, runningTasks, stack, queued, executed, completed⟩ := handler
  dsimp only at idle none below
  subst idle none
  simp only [oneTask, List.foldl_cons, List.foldl_nil, IPacketHandler.step, call, queueTask, advance,
    tryExecuteTasks, taskCompleted, List.nil_append, if_pos below]

theorem manyTasks_run (count : Nat) (inside : count ≤ 0x80000001) :
    let handler := (List.replicate count oneTask).flatten.foldl (IPacketHandler.step fun _ => []) {}
    handler.stack = [] ∧ handler.tasks = [] ∧ handler.runningTasks = int32 (-count) := by
  induction count with
  | zero => exact ⟨rfl, rfl, rfl⟩
  | succ count ih =>
      obtain ⟨idle, none, counter⟩ := ih (by omega)
      have below : int32 (-count) < maxParallelism :=
        (counts_iff count).mp (Or.inl (by omega))
      rw [← counter] at below
      rw [List.replicate_succ', List.flatten_append, List.foldl_append, List.flatten_singleton]
      dsimp only
      rw [oneTask_step idle none below]
      refine ⟨idle, none, ?_⟩
      dsimp only
      rw [counter, int32_count]

theorem oneTask_stuck {handler : IPacketHandler Unit} (idle : handler.stack = [])
    (none : handler.tasks = []) (above : ¬handler.runningTasks < maxParallelism) :
    [.queueTask (), .advance].foldl (IPacketHandler.step fun _ => []) handler =
      { handler with tasks := [()], queued := handler.queued ++ [()] } := by
  obtain ⟨tasks, runningTasks, stack, queued, executed, completed⟩ := handler
  dsimp only at idle none above
  subst idle none
  simp only [List.foldl_cons, List.foldl_nil, IPacketHandler.step, call, queueTask, advance,
    tryExecuteTasks, List.nil_append, if_neg above]

/-- After 2147483649 tasks the next one is not executed, and stays behind when its call returns. -/
theorem packetHandler_stops :
    ¬∀ (Task : Type) (queues : Task → List Task) (inputs : List (SchedulerInput Task)),
      let handler := inputs.foldl (IPacketHandler.step queues) {}
      handler.stack = [] → handler.tasks = [] := by
  intro always
  obtain ⟨count, countEq⟩ : ∃ count, count = 0x80000001 := ⟨_, rfl⟩
  obtain ⟨idle, none, counter⟩ := manyTasks_run count (by omega)
  have above : ¬int32 (-count) < maxParallelism := by
    rw [← counts_iff, Counts]
    omega
  rw [← counter] at above
  have emptied := always Unit (fun _ => [])
    ((List.replicate count oneTask).flatten ++ [.queueTask (), .advance])
  rw [List.foldl_append, oneTask_stuck idle none above] at emptied
  cases emptied idle

theorem packetHandler_prompt_tree :
    let inputs := [.queueTask 2, .advance, .advance, .advance, .advance, .advance]
    let handler := inputs.foldl (IPacketHandler.step List.range) {}
    handler.Prompt List.range ∧ ∃ count, ((advance List.range)^[count] handler).stack = [] := by
  intro inputs handler
  have deep : WellFounded fun child parent => child ∈ List.range parent := by
    refine Subrelation.wf ?_ Nat.lt_wfRel.wf
    intro child parent member
    exact List.mem_range.mp member
  obtain ⟨prompt_iff, returns⟩ := packetHandler_prompt_iff List.range inputs
  have timely : Run.Along (IPacketHandler.step List.range) Timely {} inputs := by
    exact ⟨fun _ => Or.inl (by decide), fun _ _ _ _ => Or.inl (by decide),
      fun _ _ _ _ => Or.inl (by decide), fun _ _ _ _ => Or.inl (by decide),
      fun _ _ _ _ => Or.inl (by decide), fun _ _ _ _ => Or.inl (by decide), trivial⟩
  exact ⟨prompt_iff.mpr timely inputs [] (List.append_nil _).symm, returns deep⟩

end ProjectPl.Sharp
