import ProjectPl.ConsoleCore
import ProjectPl.RecvQueue

/-!
The life of the two programs, from the end of `App::Init` to the end of `main`: what `main.cpp` and
`process.cpp` of `svr` and of `cli` and `_framework/network.cpp` do to start their threads, to stop
them and to wait for them. What the threads do between two looks at their stop token is one step,
but for `RecvPacketQueue`, on which `ProcessThread` waits. `_threadSuspended.wait(1)` and `join` are
steps that change nothing until they may return.

A second `join` on a thread throws, and two at once on one thread are undefined. An exception that
leaves a thread or `main` ends the process.
-/

namespace ProjectPl

namespace Lifetime

/-! The threads of `Network`. -/

inductive NetKind
  | worker
  | accept
  | update
  deriving DecidableEq

/-- `opening` is the part of `AcceptThread` in front of its loop, `waiting` the call that a thread
makes in its loop, and a worker has a completion to handle behind it. -/
inductive NetState
  | suspended
  | opening
  | looping
  | waiting
  | completing
  | signalling
  | ended
  deriving DecidableEq

structure NetThread where
  kind : NetKind
  state : NetState := .suspended
  joinable : Bool := true

structure NetworkConfig where
  workerThreadCount : Int
  doListen : Bool
  useAcceptEx : Bool

/-- `Network::_threads` as `Initialize` fills it. -/
def netThreads (config : NetworkConfig) : List NetThread :=
  List.replicate config.workerThreadCount.toNat { kind := .worker } ++
    (if config.doListen && !config.useAcceptEx then [{ kind := .accept }] else []) ++
    [{ kind := .update }]

/-! `Network::Stop`, in the hands of the thread that calls it. -/

inductive StopState
  | request
  | close
  | join (index : Nat)
  | wait (index : Nat)
  | finished
  deriving DecidableEq

inductive ProcessState
  | suspended
  | starting
  | looping
  | popping
  | stopping (stop : StopState)
  | ended
  deriving DecidableEq

/-- The other thread of `App`: `UpdateThread` in the server and `CommandThread` in the client. -/
inductive OtherState
  | suspended
  | looping
  | turning
  | requesting
  | stopping (stop : StopState)
  | forcing
  | ended
  deriving DecidableEq

/-- `joining` counts the threads of `App` that have been joined. -/
inductive MainState
  | starting
  | reading
  | requesting
  | stopping (stop : StopState)
  | forcing
  | joining (count : Nat)
  | returning
  deriving DecidableEq

inductive Outcome
  | running
  | returned
  | terminated
  | undefined
  deriving DecidableEq

end Lifetime

open Lifetime in
structure Lifetime (α : Type) where
  threads : List NetThread
  netSuspended : Bool := true
  netStop : Bool := false
  listening : Bool
  recvPacketQueue : RecvPacketQueue Nat α := {}
  appSuspended : Bool := true
  appStop : Bool := false
  process : ProcessState := .suspended
  other : OtherState := .suspended
  main : MainState := .starting
  outcome : Outcome := .running

namespace Lifetime

variable {α : Type}

/-- `listening` says whether `_ListenSock` holds a socket, which is open then. -/
def start (config : NetworkConfig) (listening : Bool) : Lifetime α :=
  { threads := netThreads config, listening }

def setState (life : Lifetime α) (index : Nat) (state : NetState) : Lifetime α :=
  { life with threads := life.threads.modify index fun thread => { thread with state := state } }

def detach (life : Lifetime α) (index : Nat) : Lifetime α :=
  { life with threads := life.threads.modify index fun thread => { thread with joinable := false } }

/-- A step of a thread of `Network`. A worker waits no longer than half a second, and `WSAAccept`
returns with a connection or when its socket is closed. `packet` is what a worker has found in its
completion: `RecvComplete` pushes one packet at most. -/
def netThread (life : Lifetime α) (index : Nat) (succeeds : Bool) (packet : Option α) :
    Lifetime α :=
  match life.threads[index]? with
  | none => life
  | some thread =>
      match thread.state with
      | .suspended =>
          if life.netSuspended then life
          else life.setState index (if thread.kind = .accept then .opening else .looping)
      | .opening =>
          if succeeds then { life with listening := true }.setState index .looping
          else life.setState index .ended
      | .looping => life.setState index (if life.netStop then .ended else .waiting)
      | .waiting =>
          match thread.kind with
          | .worker => life.setState index .completing
          | .accept =>
              if succeeds || !life.listening then life.setState index .looping else life
          | .update => life.setState index .looping
      | .completing =>
          match packet with
          | none => life.setState index .looping
          | some packet =>
              { life with
                recvPacketQueue := life.recvPacketQueue.push 0 index (some packet) }.setState
                index .signalling
      | .signalling =>
          { life with recvPacketQueue := life.recvPacketQueue.setEvent index }.setState index
            .looping
      | .ended => life

def stop (life : Lifetime α) : StopState → Lifetime α × StopState
  | .request => ({ life with netStop := true }, .close)
  | .close => ({ life with listening := false }, .join 0)
  | .join index =>
      match life.threads[index]? with
      | none => (life, .finished)
      | some thread =>
          if thread.joinable then (life, .wait index)
          else ({ life with outcome := .terminated }, .join index)
  | .wait index =>
      match life.threads[index]? with
      | none => (life, .finished)
      | some thread =>
          if thread.state = .ended then
            if thread.joinable then (life.detach index, .join (index + 1))
            else ({ life with outcome := .undefined }, .wait index)
          else (life, .wait index)
  | .finished => (life, .finished)

/-- `ProcessThread`. The two programs differ in what follows the loop. -/
def processThread (behind : ProcessState) (life : Lifetime α) : Lifetime α :=
  match life.process with
  | .suspended => if life.appSuspended then life else { life with process := .starting }
  | .starting => { life with netSuspended := false, process := .looping }
  | .looping => { life with process := if life.appStop then behind else .popping }
  | .popping =>
      let queue := life.recvPacketQueue.consume 0
      { life with
        recvPacketQueue := queue
        process := if queue.consumer = .idle then .looping else .popping }
  | .stopping .finished => { life with process := .ended }
  | .stopping now =>
      let stopped := life.stop now
      { stopped.1 with process := .stopping stopped.2 }
  | .ended => life

def force (life : Lifetime α) : Lifetime α :=
  { life with recvPacketQueue := { life.recvPacketQueue with hQueueEvent := true } }

/-- `join` on a thread of `App`, which only `main` calls. -/
def joined (life : Lifetime α) : Nat → Bool
  | 0 => life.process = .ended
  | _ => life.other = .ended

/-! The server. -/

namespace Svr

def processThread (life : Lifetime α) : Lifetime α :=
  Lifetime.processThread (.stopping .request) life

def updateThread (life : Lifetime α) : Lifetime α :=
  match life.other with
  | .suspended => if life.appSuspended then life else { life with other := .looping }
  | .looping => { life with other := if life.appStop then .ended else .turning }
  | .turning => { life with other := .looping }
  | _ => life

/-- `main` from `App::Start` on. -/
def main (life : Lifetime α) (cmd : String) : Lifetime α :=
  match life.main with
  | .starting => { life with appSuspended := false, main := .reading }
  | .reading => { life with main := if cmd = "/exit" then .requesting else .reading }
  | .requesting => { life with appStop := true, main := .stopping .request }
  | .stopping .finished => { life with main := .forcing }
  | .stopping now =>
      let stopped := life.stop now
      { stopped.1 with main := .stopping stopped.2 }
  | .forcing => { life.force with main := .joining 0 }
  | .joining count =>
      if life.joined count then
        { life with main := if count + 1 < 2 then .joining (count + 1) else .returning }
      else life
  | .returning => { life with outcome := .returned }

inductive Event (α : Type)
  | net (index : Nat) (succeeds : Bool) (packet : Option α)
  | process
  | update
  | main (cmd : String)

def step (life : Lifetime α) (event : Event α) : Lifetime α :=
  if life.outcome = .running then
    match event with
    | .net index succeeds packet => life.netThread index succeeds packet
    | .process => processThread life
    | .update => updateThread life
    | .main cmd => main life cmd
  else life

def run (life : Lifetime α) (events : List (Event α)) : Lifetime α := events.foldl step life

end Svr

/-! The client. -/

structure CliLifetime (α : Type) extends Lifetime α where
  console : Console := {}

namespace Cli

def start (config : NetworkConfig) (listening : Bool) : CliLifetime α :=
  { toLifetime := Lifetime.start config listening }

def processThread (life : Lifetime α) : Lifetime α := Lifetime.processThread .ended life

/-- `CommandThread`, whose `/exit` calls `App::Stop`. -/
def commandThread (client : CliLifetime α) (line : Console.Line) : CliLifetime α :=
  match client.other with
  | .suspended => if client.appSuspended then client else { client with other := .looping }
  | .looping => { client with other := if client.appStop then .ended else .turning }
  | .turning =>
      let console := (client.console.step line).1
      match console.state with
      | .reading => { client with console, other := .looping }
      | .stopped => { client with console, other := .requesting }
      | .crashed => { client with console, outcome := .undefined }
  | .requesting => { client with appStop := true, other := .stopping .request }
  | .stopping .finished => { client with other := .forcing }
  | .stopping now =>
      let stopped := client.toLifetime.stop now
      { client with toLifetime := { stopped.1 with other := .stopping stopped.2 } }
  | .forcing => { client with toLifetime := { client.toLifetime.force with other := .ended } }
  | .ended => client

/-- `main` from `App::Start` on, which joins the threads before `main` calls `App::Stop`. -/
def main (life : Lifetime α) : Lifetime α :=
  match life.main with
  | .starting => { life with appSuspended := false, main := .joining 0 }
  | .reading => life
  | .joining count =>
      if life.joined count then
        { life with main := if count + 1 < 2 then .joining (count + 1) else .requesting }
      else life
  | .requesting => { life with appStop := true, main := .stopping .request }
  | .stopping .finished => { life with main := .forcing }
  | .stopping now =>
      let stopped := life.stop now
      { stopped.1 with main := .stopping stopped.2 }
  | .forcing => { life.force with main := .returning }
  | .returning => { life with outcome := .returned }

inductive Event (α : Type)
  | net (index : Nat) (succeeds : Bool) (packet : Option α)
  | process
  | command (line : Console.Line)
  | main

def step (client : CliLifetime α) (event : Event α) : CliLifetime α :=
  if client.outcome = .running then
    match event with
    | .net index succeeds packet =>
        { client with toLifetime := client.netThread index succeeds packet }
    | .process => { client with toLifetime := processThread client.toLifetime }
    | .command line => commandThread client line
    | .main => { client with toLifetime := main client.toLifetime }
  else client

def run (client : CliLifetime α) (events : List (Event α)) : CliLifetime α :=
  events.foldl step client

end Cli

end Lifetime

end ProjectPl
