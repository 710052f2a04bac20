import ProjectPl.ClientCore
import ProjectPl.WireCore

/-!
The server program, the client programs and the connections between them. `ProcessThread` and
`UpdateThread` of the server are those of `ServerCore`; the packets they are given are the ones
that arrive over a `Wire`, and what they hand to a session goes out over the connection that the
session was made for. A client keeps its `CharacterMgr` by the packets that it processes, and
sends what its user asks for. A connection is numbered once and for all, and each client program
has one.
-/

namespace ProjectPl

def Dispatch.call {P : Type} : Dispatch P → Option P
  | .invoked call => some call
  | _ => none

namespace Endpoint

variable {Out In : Type}

/-- The call that the next turn of the process thread comes to, if there is a packet. -/
def nextCall (side : Side Out In) (endpoint : Endpoint Out In) : Option In :=
  endpoint.recvQueue.head?.bind fun packet =>
    (side.table.messageProcess (fun offset => packet.pBuffer offset) packet.nDataSize).call

def calls (endpoint : Endpoint Out In) : List In :=
  endpoint.handled.filterMap fun outcome => outcome.2.call

end Endpoint

/-- `connectors` holds, by the number of the session, the connection that it was made for: its
`_pConnector`. -/
structure Game where
  thread : ProcessThread := {}
  wires : Nat → Option Wire := fun _ => none
  clients : Nat → CharacterMgr := fun _ => .new
  connectors : Nat → Option Nat := fun _ => none

namespace Game

/-- The time in each packet that goes out, and whether `WSASend` accepts, by the connection and the
place of the packet among those of one step. -/
abbrev Sends := Nat → Nat → Nat × Bool

/-! What `WorkerThread` does at the server's end of a connection. -/

inductive NetworkEvent
  | sendDone (dwIOSize : Nat) (accepts : Bool)
  | recvDone (dwIOSize : Nat) (heap : Int → UInt8) (accepts : Bool)
  | postedDone
  | sendFailed
  | recvFailed

def NetworkEvent.toWire : NetworkEvent → WireEvent S2CCall
  | .sendDone dwIOSize accepts => .sendDone dwIOSize accepts
  | .recvDone dwIOSize heap accepts => .recvDone dwIOSize heap accepts
  | .postedDone => .postedDone
  | .sendFailed => .sendFailed
  | .recvFailed => .recvFailed

inductive Event
  | connect (conn : Nat) (opening : Channel.Opening) (clientHeap serverHeap : Nat → UInt8)
  | client (conn : Nat) (event : WireEvent C2SCall)
  | network (conn : Nat) (event : NetworkEvent)
  | process (conn : Nat) (env : Server.Env) (sends : Sends)
  | doUpdate (clock : Server.Clock) (sends : Sends)
  | tick
  | fire (sends : Sends)

def server (game : Game) : Server := game.thread.server

def connect (game : Game) (conn : Nat) (opening : Channel.Opening)
    (clientHeap serverHeap : Nat → UInt8) : Game :=
  match game.wires conn with
  | some _ => game
  | none =>
      { game with
        thread := { game.thread with server := game.server.step (.connect conn) }
        wires :=
          Function.update game.wires conn (some (Wire.start opening clientHeap serverHeap)) }

def client (game : Game) (conn : Nat) (event : WireEvent C2SCall) : Game :=
  match game.wires conn with
  | none => game
  | some wire =>
      { game with
        wires := Function.update game.wires conn (some (wire.step conn (.client event)))
        clients :=
          match event, wire.client.nextCall clientSide with
          | .process, some call =>
              Function.update game.clients conn ((game.clients conn).handle call)
          | _, _ => game.clients }

/-- A connection that the network closes is closed for its session too. -/
def network (game : Game) (conn : Nat) (event : NetworkEvent) : Game :=
  match game.wires conn with
  | none => game
  | some wire =>
      let next := wire.step conn (.server event.toWire)
      { game with
        thread :=
          if next.server.channel.conn.active then game.thread
          else { game.thread with server := game.server.closeLink conn }
        wires := Function.update game.wires conn (some next) }

/-! A step of the server: what it does to its connections, then the packets that it sends. -/

def deliveredOn (connectors : Nat → Option Nat) (conn : Nat) (delivered : List Delivery) :
    List S2CCall :=
  (delivered.filter fun delivery => connectors delivery.recipient = some conn).map Delivery.packet

def outgoing (sends : Nat → Nat × Bool) (packets : List S2CCall) : List (WireEvent S2CCall) :=
  packets.mapIdx fun index packet => .sendPacket (sends index).1 packet (sends index).2

def exchange (game : Game) (thread : ProcessThread) (connectors : Nat → Option Nat)
    (acts : Nat → List (WireEvent S2CCall)) (sends : Sends) : Game :=
  let sent := thread.server.delivered.drop game.server.delivered.length
  { game with
    thread, connectors
    wires := fun conn => (game.wires conn).map fun wire =>
      wire.run conn ((acts conn ++ outgoing (sends conn) (deliveredOn connectors conn sent)).map
        Wire.Event.server) }

/-- The connections of the sessions, when a packet of `conn` has found its session. -/
def attached (game : Game) (conn : Nat) : Nat → Option Nat :=
  if (game.server.links conn).param = none then
    Function.update game.connectors (game.server.uniqueUserSessionUid + 1) (some conn)
  else game.connectors

/-- What a turn of `ProcessThread` does to a connection besides sending. -/
def turnAct (game : Game) (from' conn : Nat) : ProcessThread.Effect → Option (WireEvent S2CCall)
  | .disconnect closed => if closed = conn then some .disconnect else none
  | .messageProcess slot =>
      if from' = conn ∧ (game.server.links conn).param = none then some (.setParam slot) else none

def process (game : Game) (conn : Nat) (env : Server.Env) (sends : Sends) : Game :=
  match (game.wires conn).map fun wire => wire.server.recvQueue with
  | some (packet :: _) =>
      let turned := game.thread.turn (packet, env)
      game.exchange turned.1 (game.attached packet.pConnector)
        (fun other => (if other = conn then [.process] else []) ++
          turned.2.filterMap (game.turnAct packet.pConnector other)) sends
  | _ => game

/-- `DoUpdate` closes the connections of sessions that stay silent, and releases the ones that are
closed. -/
def updateActs (server : Server) (clock : Server.Clock) (conn : Nat) : List (WireEvent S2CCall) :=
  let updated := server.updateSessions clock server.mgr.usedList
  (if (server.links conn).active ∧ ¬(updated.1.links conn).active then [.tryRelease] else []) ++
    (updated.2.filter fun slot => (server.sessions slot).pConnector = some conn).map
      fun _ => .release

def doUpdate (game : Game) (clock : Server.Clock) (sends : Sends) : Game :=
  if game.server.firingCmds = [] then
    game.exchange { game.thread with server := game.server.doUpdate clock } game.connectors
      (updateActs game.server clock) sends
  else game

def tick (game : Game) : Game :=
  { game with thread := { game.thread with server := game.server.tick } }

def fire (game : Game) (sends : Sends) : Game :=
  game.exchange { game.thread with server := game.server.fire } game.connectors (fun _ => []) sends

def step (game : Game) : Event → Game
  | .connect conn opening clientHeap serverHeap => game.connect conn opening clientHeap serverHeap
  | .client conn event => game.client conn event
  | .network conn event => game.network conn event
  | .process conn env sends => game.process conn env sends
  | .doUpdate clock sends => game.doUpdate clock sends
  | .tick => game.tick
  | .fire sends => game.fire sends

def run (game : Game) (events : List Event) : Game := events.foldl step game

end Game

end ProjectPl
