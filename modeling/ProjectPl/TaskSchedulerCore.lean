import ProjectPl.Lib.DotNet

/-!
The task scheduler `IPacketHandler`, one text in `_Common/PacketHandler.cs` and
`_Network/PacketHandler.cs`. Tasks run inside the call that queues them, and may queue more. The
thread that holds the lock is a stack of the calls it is in, and a step takes it to the next test
of the loop, call of `QueueTask` or return. `queues` says what the delegate of a task queues.
-/

namespace ProjectPl.Sharp

open DotNet

/-- Where a call stands: at the test of the loop, or in a delegate with these tasks to queue. -/
inductive Frame (Task : Type)
  | tryExecuteTasks
  | running (left : List Task)

/-- `queued` are the calls of `QueueTask`, written by the callers, `executed` the tasks whose
delegate has been started, and `completed` counts the delegates that have returned. -/
structure IPacketHandler (Task : Type) where
  tasks : List Task := []
  runningTasks : Int := 0
  stack : List (Frame Task) := []
  queued : List Task := []
  executed : List Task := []
  completed : Nat := 0

namespace IPacketHandler

variable {Task : Type}

def maxParallelism : Int := 4

def queueTask (handler : IPacketHandler Task) (packetTask : Task) (callers : List (Frame Task)) :
    IPacketHandler Task :=
  { handler with
    tasks := handler.tasks ++ [packetTask]
    stack := .tryExecuteTasks :: callers }

def tryExecuteTasks (queues : Task → List Task) (handler : IPacketHandler Task)
    (callers : List (Frame Task)) : IPacketHandler Task :=
  match handler.tasks with
  | [] => { handler with stack := callers }
  | task :: tasks =>
      if handler.runningTasks < maxParallelism then
        { handler with
          tasks := tasks
          executed := handler.executed ++ [task]
          stack := .running (queues task) :: .tryExecuteTasks :: callers }
      else { handler with stack := callers }

def taskCompleted (handler : IPacketHandler Task) (callers : List (Frame Task)) :
    IPacketHandler Task :=
  { handler with
    runningTasks := int32 (handler.runningTasks - 1)
    stack := .tryExecuteTasks :: callers }

def call (handler : IPacketHandler Task) (packetTask : Task) (callers : List (Frame Task)) :
    IPacketHandler Task :=
  { handler with queued := handler.queued ++ [packetTask] }.queueTask packetTask callers

def advance (queues : Task → List Task) (handler : IPacketHandler Task) : IPacketHandler Task :=
  match handler.stack with
  | [] => handler
  | .tryExecuteTasks :: callers => handler.tryExecuteTasks queues callers
  | .running [] :: callers =>
      { handler with completed := handler.completed + 1 }.taskCompleted callers
  | .running (task :: left) :: callers => handler.call task (.running left :: callers)

end IPacketHandler

/-- The thread inside goes on, or a thread calls from outside. It gets in when the lock is free. -/
inductive SchedulerInput (Task : Type)
  | advance
  | queueTask (packetTask : Task)

def IPacketHandler.step {Task : Type} (queues : Task → List Task) (handler : IPacketHandler Task) :
    SchedulerInput Task → IPacketHandler Task
  | .advance => handler.advance queues
  | .queueTask packetTask =>
      match handler.stack with
      | [] => handler.call packetTask []
      | _ :: _ => handler

end ProjectPl.Sharp
