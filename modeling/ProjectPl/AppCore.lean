import ProjectPl.ServerCore

/-!
The server together with what its sessions hang on: the pool of `ConnectorMgr`, whose objects are
the connectors of `Server.links`, and `RecvPacketQueue`, where a packet waits with the address of
its `Connector`. `ProcessThread`, the worker threads and `UpdateThread` run against each other, so
`DoUpdate` is cut into its parts here: collecting the sessions to release, which it does under the
lock, then one `Release` after the other, then one `SetFreeObject` after the other.
-/

namespace ProjectPl

structure App where
  server : Server := {}
  connectorMgr : ObjectPoolMgr := ObjectPoolMgr.new 10
  recvPackets : List (Nat × Option C2SCall) := []
  releaseList : List Nat := []
  released : List Nat := []

namespace App

/-! `Connector::TryRelease`: the socket is closed, and an object without a session goes back. -/

def setFreeObject (app : App) (conn : Nat) : App :=
  { app with connectorMgr := app.connectorMgr.setFreeObject conn }

def tryRelease (app : App) (conn : Nat) : App :=
  let closed := { app with server := app.server.closeLink conn }
  if (app.server.links conn).param = none then closed.setFreeObject conn else closed

/-! `Network`. `AcceptPrepare` takes an object and, if the system gives a socket, sets it;
`DoAccept` gives the object back when the system refuses it. -/

def acceptPrepare (app : App) (opens : Bool) : App :=
  let issued := app.connectorMgr.getFreeObject
  let taken := { app with connectorMgr := issued.1 }
  match issued.2 with
  | none => taken
  | some conn =>
      if opens then
        { taken with
          server := app.server.setLink conn { app.server.links conn with active := true } }
      else taken

def push (app : App) (conn : Nat) (call : Option C2SCall) : App :=
  { app with recvPackets := app.recvPackets ++ [(conn, call)] }

/-! `App::ProcessThread`. -/

def pop (app : App) (env : Server.Env) : App :=
  match app.recvPackets with
  | [] => app
  | (conn, call) :: rest =>
      { app with recvPackets := rest, server := app.server.packet conn call env }

/-! `UserSessionMgr::DoUpdate`. -/

def updateSession (app : App) (clock : Server.Clock) (slot : Nat) : App :=
  match (app.server.sessions slot).pConnector with
  | none => app
  | some conn =>
      if clock.due slot ∧ (app.server.links conn).active ∧ clock.heartbeat slot then
        if clock.heartbeatOver slot then app.tryRelease conn
        else
          { app with
            server := app.server.sendPacket (app.server.sessions slot).uid slot (.heartbeat {}) }
      else app

def setReleaseObj (app : App) (slot : Nat) : App :=
  { app with releaseList := app.releaseList ++ [slot] }

def updateSessions (app : App) (clock : Server.Clock) : List Nat → App
  | [] => app
  | slot :: rest =>
      let listed := if clock.due slot && app.server.closed slot then app.setReleaseObj slot else app
      updateSessions (listed.updateSession clock slot) clock rest

def release (app : App) : App :=
  match app.releaseList with
  | [] => app
  | slot :: rest =>
      let leaving := { app with
        server := app.server.release slot
        releaseList := rest
        released := app.released ++ [slot] }
      match (app.server.sessions slot).pConnector with
      | none => leaving
      | some conn => leaving.setFreeObject conn

def free (app : App) : App :=
  match app.releaseList, app.released with
  | [], slot :: rest => { app with server := app.server.free slot, released := rest }
  | _, _ => app

/-! Runs of all threads. Any connector may get a packet, lose its connection or be disconnected
at any time; `DoUpdate` and `Tick` share a thread. -/

inductive Event
  | acceptPrepare (opens : Bool)
  | acceptFailed (conn : Nat)
  | push (conn : Nat) (call : Option C2SCall)
  | pop (env : Server.Env)
  | noBytes (conn : Nat)
  | disconnect (conn : Nat)
  | update (clock : Server.Clock)
  | release
  | free
  | tick
  | fire

def step (app : App) : Event → App
  | .acceptPrepare opens => app.acceptPrepare opens
  | .acceptFailed conn => app.setFreeObject conn
  | .push conn call => app.push conn call
  | .pop env => app.pop env
  | .noBytes conn => app.tryRelease conn
  | .disconnect conn => { app with server := app.server.closeLink conn }
  | .update clock =>
      if app.server.firingCmds = [] ∧ app.releaseList = [] ∧ app.released = [] then
        app.updateSessions clock app.server.mgr.usedList
      else app
  | .release => app.release
  | .free => app.free
  | .tick =>
      if app.releaseList = [] ∧ app.released = [] then { app with server := app.server.tick }
      else app
  | .fire => { app with server := app.server.fire }

def run (app : App) (events : List Event) : App := events.foldl step app

end App

end ProjectPl
