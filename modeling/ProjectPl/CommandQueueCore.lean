import ProjectPl.Lib.Run

/-!
The command queue of `_lib/command_unit_base.cpp`. Any thread adds, also from inside the
`Operator` of a command that is being fired. One thread ticks, and a step takes it to the swap,
the next `Operator`, the next `delete` or the end of the loop.
-/

namespace ProjectPl

/-- Where the ticking thread stands in `FireOps`, with what is left of its `firingCmds`. -/
inductive FireOps (Command : Type)
  | outside
  | firing (firingCmds : List Command)
  | running (cmd : Command) (firingCmds : List Command)

/-- `executed` and `deleted` are the calls of `Operator` and of `delete`, which no step reads. -/
structure CommandUnitQueue (Command : Type) where
  cmds : List Command := []
  thread : FireOps Command := .outside
  executed : List Command := []
  deleted : List Command := []

inductive CommandEvent (Command : Type)
  | add (op : Command)
  | tick
  | next

namespace CommandUnitQueue

variable {Command : Type}

def add (queue : CommandUnitQueue Command) (op : Command) : CommandUnitQueue Command :=
  { queue with cmds := queue.cmds ++ [op] }

-- `Tick`, up to and with `SwapOpList`. The thread is not in a call already.
def tick (queue : CommandUnitQueue Command) : CommandUnitQueue Command :=
  match queue.thread with
  | .outside => { queue with cmds := [], thread := .firing queue.cmds }
  | _ => queue

-- `ProcessAndDelete` is two steps, so that other threads and the operator itself can add
-- between its call and its return.
def next (queue : CommandUnitQueue Command) : CommandUnitQueue Command :=
  match queue.thread with
  | .outside => queue
  | .firing [] => { queue with thread := .outside }
  | .firing (cmd :: rest) =>
      { queue with thread := .running cmd rest, executed := queue.executed ++ [cmd] }
  | .running cmd rest =>
      { queue with thread := .firing rest, deleted := queue.deleted ++ [cmd] }

def step (queue : CommandUnitQueue Command) : CommandEvent Command → CommandUnitQueue Command
  | .add op => queue.add op
  | .tick => queue.tick
  | .next => queue.next

def destruct (queue : CommandUnitQueue Command) : CommandUnitQueue Command :=
  { queue with deleted := queue.deleted ++ queue.cmds }

end CommandUnitQueue

end ProjectPl
