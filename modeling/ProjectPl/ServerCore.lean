import ProjectPl.ObjectPoolCore
import ProjectPl.ProtocolCore

/-!
The server above its connections: the user sessions and their pool, the token map, the
zones, and the command queue that the handlers of `svr/user_session.cpp` fill and `Tick`
empties. Sessions live in pooled memory and are named by their slot. A freed slot keeps its
old bytes until it is handed out again.

The timers and the heartbeat count of a session only decide when `DoUpdate` drops it. They
are left to `Clock`, which answers for each `DoUpdate` which sessions are due, whose
heartbeat is, and whose count is over. The clock reading and the random numbers of a handler
come with the packet. `cause` in a queued command and in a delivery is a record for proofs
that no step reads: the number of the session whose packet, update or release it goes back
to.
-/

namespace ProjectPl

structure Character where
  id : Int := 0
  token : Int := 0
  pos : Position := {}
  deriving DecidableEq, Repr

def Character.getDbData (character : Character) : CharacterDbData :=
  { token := character.token, pos := character.pos }

structure UserSession where
  uid : Nat := 0
  pConnector : Option Nat := none
  nub : Character := {}
  deriving DecidableEq, Repr

/-! What sessions see of a `Connector`: whether its socket is open, and its `_param`. -/

structure Link where
  active : Bool := false
  param : Option Nat := none
  deriving DecidableEq, Repr

inductive Command
  | sendBroadcastToAllUser (zoneId : Int) (packet : S2CCall)
  | sendPacketToUser (token : Int) (packet : S2CCall)
  | enterCharacter (token zoneId posX posY : Int)
  | leaveCharacter (token zoneId : Int)
  | sendCharacterList (exceptCharacterToken zoneId : Int)
  deriving DecidableEq, Repr

structure Queued where
  cause : Nat
  command : Command
  deriving DecidableEq, Repr

structure Delivery where
  cause : Nat
  recipient : Nat
  packet : S2CCall
  deriving DecidableEq, Repr

abbrev CharacterMap := Std.TreeMap Int Nat

structure Server where
  sessions : Nat → UserSession := fun _ => {}
  mgr : ObjectMgr := {}
  uniqueUserSessionUid : Nat := 0
  uniqueSerialId : Nat := 0
  userMap : Std.TreeMap Int Nat := {}
  zoneMap : Std.TreeMap Int CharacterMap := {}
  links : Nat → Link := fun _ => {}
  cmds : List Queued := []
  firingCmds : List Queued := []
  delivered : List Delivery := []

/-! `SetData` of the packets with arrays. `memcpy_s` clears the destination when the size
does not fit it. -/

def ScPEcho.setData (token : Int) (data : List UInt8) (size : Int) : ScPEcho :=
  { token := token
    echoDataSize := min maxEchoDataLength size
    echoData :=
      if 0 ≤ size ∧ size ≤ maxEchoDataLength then
        data.take size.toNat ++ List.replicate (maxEchoDataLength - size.toNat) 0
      else List.replicate maxEchoDataLength 0 }

def ScPEnterCharacterList.setData (packet : ScPEnterCharacterList) (data : CharacterDbData) :
    ScPEnterCharacterList × Bool :=
  ({ count := packet.count + 1, data := packet.data.set packet.count.toNat data },
    decide (packet.count + 1 ≤ maxSendCountCharacterDbData))

namespace Server

def add (server : Server) (cause : Nat) (command : Command) : Server :=
  { server with cmds := server.cmds ++ [⟨cause, command⟩] }

def addAll (server : Server) (cause : Nat) (commands : List Command) : Server :=
  commands.foldl (fun current command => current.add cause command) server

def setSession (server : Server) (slot : Nat) (session : UserSession) : Server :=
  { server with sessions := Function.update server.sessions slot session }

def setPos (server : Server) (slot : Nat) (pos : Position) : Server :=
  let session := server.sessions slot
  server.setSession slot { session with nub := { session.nub with pos := pos } }

def setLink (server : Server) (conn : Nat) (link : Link) : Server :=
  { server with links := Function.update server.links conn link }

def sendPacket (server : Server) (cause slot : Nat) (packet : S2CCall) : Server :=
  { server with
    delivered := server.delivered ++ [⟨cause, (server.sessions slot).uid, packet⟩] }

/-! The handlers. -/

structure Env where
  now : Nat := 0
  rand1 : Nat := 0
  rand2 : Nat := 0

def c2sAuth (server : Server) (slot : Nat) (env : Env) (packet : CsPAuth) : Server :=
  let session := server.sessions slot
  let token : Int := env.now * 10000 + (server.uniqueSerialId + 1 : Nat)
  let authed := { server.setSession slot
      { session with nub := { session.nub with id := packet.id, token := token } } with
    uniqueSerialId := server.uniqueSerialId + 1
    userMap := server.userMap.insertIfNew token slot }
  authed.sendPacket session.uid slot (.authResult { id := packet.id, token := token })

def c2sEnter (server : Server) (slot : Nat) (env : Env) (_packet : CsPEnter) : Server :=
  let session := server.sessions slot
  let posX : Int := (env.rand1 % 1000 : Nat)
  let posY : Int := (env.rand2 % 1000 : Nat)
  (server.setPos slot { zoneId := 1, posX := posX, posY := posY }).add session.uid
    (.enterCharacter session.nub.token 1 posX posY)

def c2sLeave (server : Server) (slot : Nat) (_packet : CsPLeave) : Server :=
  let session := server.sessions slot
  server.add session.uid (.leaveCharacter session.nub.token session.nub.pos.zoneId)

def c2sMove (server : Server) (slot : Nat) (packet : CsPMove) : Server :=
  let session := server.sessions slot
  (server.setPos slot { session.nub.pos with posX := packet.x, posY := packet.y }).add session.uid
    (.sendBroadcastToAllUser session.nub.pos.zoneId
      (.move { token := session.nub.token, x := packet.x, y := packet.y }))

def c2sInteraction (server : Server) (slot : Nat) (packet : CsPInteraction) : Server :=
  let session := server.sessions slot
  server.add session.uid (.sendBroadcastToAllUser session.nub.pos.zoneId
    (.interaction
      { token := session.nub.token
        targetToken := packet.targetToken
        interactionType := packet.interactionType }))

def c2sEcho (server : Server) (slot : Nat) (packet : CsPEcho) : Server :=
  let session := server.sessions slot
  server.add session.uid (.sendBroadcastToAllUser session.nub.pos.zoneId
    (.echo (ScPEcho.setData session.nub.token packet.echoData packet.echoDataSize)))

def handle (server : Server) (slot : Nat) (env : Env) : C2SCall → Server
  | .auth packet => server.c2sAuth slot env packet
  | .enter packet => server.c2sEnter slot env packet
  | .leave packet => server.c2sLeave slot packet
  | .move packet => server.c2sMove slot packet
  | .interaction packet => server.c2sInteraction slot packet
  | .heartbeat _ => server
  | .echo packet => server.c2sEcho slot packet

/-! A packet popped by `ProcessThread`: the session behind the connector's `_param`, or a
new one, gets the call that `MessageProcess` dispatches, if any. -/

/-- A new session has nothing of the one that had its slot before. -/
def attach (server : Server) (conn : Nat) : Server × Nat :=
  match (server.links conn).param with
  | some slot => (server, slot)
  | none =>
      let issued := server.mgr.getFreeObject
      let created := { server.setSession issued.2
          { uid := server.uniqueUserSessionUid + 1, pConnector := some conn } with
        mgr := issued.1
        uniqueUserSessionUid := server.uniqueUserSessionUid + 1 }
      (created.setLink conn { server.links conn with param := some issued.2 }, issued.2)

def sender (server : Server) (conn : Nat) : UserSession :=
  (server.attach conn).1.sessions (server.attach conn).2

def packet (server : Server) (conn : Nat) (call : Option C2SCall) (env : Env) : Server :=
  let attached := server.attach conn
  match call with
  | none => attached.1
  | some call => attached.1.handle attached.2 env call

/-! The operators of the commands. -/

def getUserSession (server : Server) (token : Int) : Option Nat := server.userMap[token]?

def characterMap (server : Server) (zoneId : Int) : CharacterMap := server.zoneMap.getD zoneId {}

def onRegistCharacter (server : Server) (zoneId : Int) (slot : Nat) : Server :=
  { server with
    zoneMap := server.zoneMap.insert zoneId
      ((server.characterMap zoneId).insertIfNew (server.sessions slot).nub.token slot) }

def onUnregistCharacter (server : Server) (zoneId token : Int) : Server :=
  match server.zoneMap[zoneId]? with
  | none => server
  | some zone => { server with zoneMap := server.zoneMap.insert zoneId (zone.erase token) }

def packetBroadcast (server : Server) (zone : CharacterMap) (packet : S2CCall) : List Command :=
  zone.toList.map fun entry =>
    .sendPacketToUser (server.sessions entry.2).nub.token packet

def getCharacterDbList (server : Server) (zone : CharacterMap) (exceptToken : Int) :
    List CharacterDbData :=
  (zone.toList.filter fun entry => entry.1 ≠ exceptToken).map fun entry =>
    (server.sessions entry.2).nub.getDbData

/-- The loop of `SendCharacterList`: a packet goes out when `SetData` says that it can take another
entry, and the last one if it has any. -/
def characterListPackets : List CharacterDbData → ScPEnterCharacterList →
    List ScPEnterCharacterList
  | [], packet => if 0 < packet.count then [packet] else []
  | data :: rest, packet =>
      let next := packet.setData data
      if next.2 then next.1 :: characterListPackets rest {}
      else characterListPackets rest next.1

def operator (server : Server) (cause : Nat) : Command → Server
  | .sendBroadcastToAllUser zoneId packet =>
      match server.zoneMap[zoneId]? with
      | none => server
      | some zone => server.addAll cause (server.packetBroadcast zone packet)
  | .sendPacketToUser token packet =>
      match server.getUserSession token with
      | none => server
      | some slot => server.sendPacket cause slot packet
  | .enterCharacter token zoneId posX posY =>
      match server.getUserSession token with
      | none => server
      | some slot =>
          ((server.onRegistCharacter zoneId slot).add cause
            (.sendBroadcastToAllUser zoneId (.enter { token := token, x := posX, y := posY }))).add
              cause (.sendCharacterList token zoneId)
  | .leaveCharacter token zoneId =>
      let reset := match server.getUserSession token with
        | none => server
        | some slot => server.setPos slot {}
      (reset.onUnregistCharacter zoneId token).add cause
        (.sendBroadcastToAllUser zoneId (.leave { token := token }))
  | .sendCharacterList exceptCharacterToken zoneId =>
      match server.getUserSession exceptCharacterToken, server.zoneMap[zoneId]? with
      | some _, some zone =>
          server.addAll cause
            ((characterListPackets (server.getCharacterDbList zone exceptCharacterToken) {}).map
              fun packet => .sendPacketToUser exceptCharacterToken (.enterCharacter packet))
      | _, _ => server

/-- `SwapOpList`. The commands are then fired one by one. -/
def tick (server : Server) : Server :=
  if server.firingCmds = [] then { server with firingCmds := server.cmds, cmds := [] } else server

def fire (server : Server) : Server :=
  match server.firingCmds with
  | [] => server
  | queued :: rest => operator { server with firingCmds := rest } queued.cause queued.command

/-! `UserSessionMgr::DoUpdate`. -/

structure Clock where
  due : Nat → Bool
  heartbeat : Nat → Bool
  heartbeatOver : Nat → Bool

def closed (server : Server) (slot : Nat) : Bool :=
  match (server.sessions slot).pConnector with
  | none => true
  | some conn => !(server.links conn).active

def closeLink (server : Server) (conn : Nat) : Server :=
  server.setLink conn { server.links conn with active := false }

def updateSession (server : Server) (clock : Clock) (slot : Nat) : Server :=
  match (server.sessions slot).pConnector with
  | none => server
  | some conn =>
      if clock.due slot ∧ (server.links conn).active ∧ clock.heartbeat slot then
        if clock.heartbeatOver slot then server.closeLink conn
        else server.sendPacket (server.sessions slot).uid slot (.heartbeat {})
      else server

/-- The walk over `_usedList`, with the sessions that go to `_releaseList`. -/
def updateSessions (server : Server) (clock : Clock) : List Nat → Server × List Nat
  | [] => (server, [])
  | slot :: rest =>
      let listed := clock.due slot && server.closed slot
      let later := updateSessions (server.updateSession clock slot) clock rest
      (later.1, if listed then slot :: later.2 else later.2)

def release (server : Server) (slot : Nat) : Server :=
  let session := server.sessions slot
  let leaving :=
    if session.nub.pos.zoneId ≠ 0 then
      server.add session.uid (.leaveCharacter session.nub.token session.nub.pos.zoneId)
    else server
  match session.pConnector with
  | none => leaving
  | some conn => leaving.setLink conn { active := false, param := none }

def free (server : Server) (slot : Nat) : Server :=
  { server with
    userMap := server.userMap.erase (server.sessions slot).nub.token
    mgr := server.mgr.setFreeObject slot }

def doUpdate (server : Server) (clock : Clock) : Server :=
  let updated := server.updateSessions clock server.mgr.usedList
  let released := updated.2.foldl release updated.1
  updated.2.foldl free released

/-! Runs of the two application threads over the events of the network. `DoUpdate` and
`Tick` share a thread, so no update falls between the commands of one tick. -/

inductive Event
  | connect (conn : Nat)
  | close (conn : Nat)
  | packet (conn : Nat) (call : Option C2SCall) (env : Env)
  | doUpdate (clock : Clock)
  | tick
  | fire

def step (server : Server) : Event → Server
  | .connect conn =>
      -- a connector that is handed out again with its `_param` still set is left out
      match (server.links conn).param with
      | none => server.setLink conn { active := true, param := none }
      | some _ => server
  | .close conn => server.closeLink conn
  | .packet conn call env => server.packet conn call env
  | .doUpdate clock => if server.firingCmds = [] then server.doUpdate clock else server
  | .tick => server.tick
  | .fire => server.fire

def run (server : Server) (events : List Event) : Server := events.foldl step server

/-! What was sent to one session, in order. -/

def packetsTo (recipient : Nat) (server : Server) : List S2CCall :=
  (server.delivered.filter (·.recipient = recipient)).map Delivery.packet

end Server

end ProjectPl
