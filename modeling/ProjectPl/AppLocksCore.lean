import ProjectPl.Lib.Locks
import ProjectPl.ServerCore

/-!
`App::ProcessThread` and `App::UpdateThread` of `svr/process.cpp`, step by step with the locks
they take: the lock of `UserSessionMgr`, the lock of each `UserSession`, of `ZoneMgr`, of each
`Zone`, and the lock of the `CommandUnitQueue`. A `SafeLock` is a `guarded` block, and every lock
counts as exclusive, also where the source takes a shared one.

A list that a loop walks is read when the lock that protects it is taken: `_usedList` changes
under the lock of `UserSessionMgr` only, and `_characterMap` under the lock of its zone.
-/

namespace ProjectPl

open Locks (Code)

inductive LockId
  | userSessionMgr
  | userSession (slot : Nat)
  | zoneMgr
  | zone (zoneId : Int)
  | commandUnitQueue
  deriving DecidableEq, Repr

structure Shared where
  server : Server := {}
  releaseList : List Nat := []

abbrev AppCode := Code LockId Shared

namespace AppCode

def modifyServer (change : Server → Server) : AppCode Unit :=
  Code.modify fun shared => { shared with server := change shared.server }

def readSession (slot : Nat) : AppCode UserSession :=
  Code.read fun shared => shared.server.sessions slot

/-! `CommandUnitQueue`. -/

def add (cause : Nat) (command : Command) : AppCode Unit :=
  Code.guarded .commandUnitQueue fun _ => modifyServer fun server => server.add cause command

def swapOpList : AppCode (List Queued) :=
  Code.guarded .commandUnitQueue fun _ =>
    .act (fun shared => { shared with server := { shared.server with cmds := [] } })
      fun shared => .ret shared.server.cmds

/-! `UserSessionMgr`. `SetReleaseObj` is the overload for a caller that holds the lock. -/

/-- It takes no lock of its own. -/
def setReleaseObj (slot : Nat) : AppCode Unit :=
  Code.modify fun shared => { shared with releaseList := shared.releaseList ++ [slot] }

def swapReleaseList : AppCode (List Nat) :=
  Code.guarded .userSessionMgr fun _ =>
    .act (fun shared => { shared with releaseList := [] }) fun shared => .ret shared.releaseList

def addUserSessionMap (slot : Nat) : AppCode Unit :=
  Code.guarded .userSessionMgr fun _ => modifyServer fun server =>
    { server with userMap := server.userMap.insertIfNew (server.sessions slot).nub.token slot }

def delUserSessionMap (slot : Nat) : AppCode Unit :=
  Code.guarded .userSessionMgr fun _ => modifyServer fun server =>
    { server with userMap := server.userMap.erase (server.sessions slot).nub.token }

def getUserSession (token : Int) : AppCode (Option Nat) :=
  Code.guarded .userSessionMgr fun shared => pure (shared.server.getUserSession token)

def getFreeObject : AppCode Nat :=
  Code.guarded .userSessionMgr fun _ =>
    .act (fun shared =>
        let server := shared.server
        let issued := server.mgr.getFreeObject
        { shared with
          server := { server.setSession issued.2 { uid := server.uniqueUserSessionUid + 1 } with
            mgr := issued.1
            uniqueUserSessionUid := server.uniqueUserSessionUid + 1 } })
      fun shared => .ret shared.server.mgr.getFreeObject.2

def setFreeObject (slot : Nat) : AppCode Unit :=
  Code.guarded .userSessionMgr fun _ => modifyServer fun server =>
    { server with mgr := server.mgr.setFreeObject slot }

/-! `ZoneMgr` and `Zone`. The first character of a zone puts the zone into `_zoneMap`. -/

def getZone (zoneId : Int) : AppCode Bool :=
  Code.guarded .zoneMgr fun shared => pure (shared.server.zoneMap.contains zoneId)

def onRegistCharacter (zoneId : Int) (slot : Nat) : AppCode Unit :=
  Code.guarded (.zone zoneId) fun _ =>
    modifyServer fun server => server.onRegistCharacter zoneId slot

def onUnregistCharacter (zoneId token : Int) : AppCode Unit :=
  Code.guarded (.zone zoneId) fun _ =>
    modifyServer fun server => server.onUnregistCharacter zoneId token

def zoneMgrEnterCharacter (zoneId : Int) (slot : Nat) : AppCode Unit :=
  Code.guarded .zoneMgr fun _ => onRegistCharacter zoneId slot

def zoneMgrLeaveCharacter (zoneId token : Int) : AppCode Unit :=
  Code.guarded .zoneMgr fun shared =>
    if shared.server.zoneMap.contains zoneId then onUnregistCharacter zoneId token else pure ()

/-- The zone's lock is held over the whole walk, and each command is added under it. -/
def packetBroadcast (cause : Nat) (zoneId : Int) (packet : S2CCall) : AppCode Unit :=
  Code.guarded (.zone zoneId) fun shared =>
    (shared.server.characterMap zoneId).toList.forM fun entry => do
      let session ← readSession entry.2
      add cause (.sendPacketToUser session.nub.token packet)

def readDbData : List (Int × Nat) → AppCode (List CharacterDbData)
  | [] => pure []
  | entry :: rest => do
      let session ← readSession entry.2
      let later ← readDbData rest
      pure (session.nub.getDbData :: later)

def getCharacterDbList (zoneId exceptToken : Int) : AppCode (List CharacterDbData) :=
  Code.guarded (.zone zoneId) fun shared =>
    readDbData ((shared.server.characterMap zoneId).toList.filter fun entry =>
      entry.1 ≠ exceptToken)

/-! The handlers. -/

def getUniqueSerialId : AppCode Nat :=
  .act (fun shared =>
      { shared with
        server := { shared.server with uniqueSerialId := shared.server.uniqueSerialId + 1 } })
    fun shared => .ret (shared.server.uniqueSerialId + 1)

def setIdToken (server : Server) (slot : Nat) (id token : Int) : Server :=
  let session := server.sessions slot
  server.setSession slot { session with nub := { session.nub with id := id, token := token } }

/-- The only handler that takes the lock of `UserSessionMgr` under that of a session. -/
def c2sAuth (slot : Nat) (env : Server.Env) (packet : CsPAuth) : AppCode Unit := do
  let serial ← getUniqueSerialId
  let token : Int := env.now * 10000 + serial
  Code.guarded (.userSession slot) fun _ => do
    modifyServer fun server => setIdToken server slot packet.id token
    addUserSessionMap slot
    let session ← readSession slot
    modifyServer fun server => server.sendPacket session.uid slot
      (.authResult { id := packet.id, token := token })

def c2sEnter (slot : Nat) (env : Server.Env) (_packet : CsPEnter) : AppCode Unit :=
  Code.guarded (.userSession slot) fun _ => do
    let session ← readSession slot
    let posX : Int := (env.rand1 % 1000 : Nat)
    let posY : Int := (env.rand2 % 1000 : Nat)
    modifyServer fun server => server.setPos slot { zoneId := 1, posX := posX, posY := posY }
    add session.uid (.enterCharacter session.nub.token 1 posX posY)

def c2sLeave (slot : Nat) (_packet : CsPLeave) : AppCode Unit :=
  Code.guarded (.userSession slot) fun _ => do
    let session ← readSession slot
    add session.uid (.leaveCharacter session.nub.token session.nub.pos.zoneId)

def c2sMove (slot : Nat) (packet : CsPMove) : AppCode Unit :=
  Code.guarded (.userSession slot) fun _ => do
    modifyServer fun server => server.setPos slot
      { (server.sessions slot).nub.pos with posX := packet.x, posY := packet.y }
    let session ← readSession slot
    add session.uid (.sendBroadcastToAllUser session.nub.pos.zoneId
      (.move { token := session.nub.token, x := packet.x, y := packet.y }))

def c2sHeartbeat (slot : Nat) (_packet : CsPHeartbeat) : AppCode Unit :=
  Code.guarded (.userSession slot) fun _ => pure ()

def c2sInteraction (slot : Nat) (packet : CsPInteraction) : AppCode Unit :=
  Code.guarded (.userSession slot) fun _ => do
    let session ← readSession slot
    add session.uid (.sendBroadcastToAllUser session.nub.pos.zoneId
      (.interaction
        { token := session.nub.token
          targetToken := packet.targetToken
          interactionType := packet.interactionType }))

def c2sEcho (slot : Nat) (packet : CsPEcho) : AppCode Unit :=
  Code.guarded (.userSession slot) fun _ => do
    let session ← readSession slot
    add session.uid (.sendBroadcastToAllUser session.nub.pos.zoneId
      (.echo (ScPEcho.setData session.nub.token packet.echoData packet.echoDataSize)))

def handle (slot : Nat) (env : Server.Env) : C2SCall → AppCode Unit
  | .auth packet => c2sAuth slot env packet
  | .enter packet => c2sEnter slot env packet
  | .leave packet => c2sLeave slot packet
  | .move packet => c2sMove slot packet
  | .interaction packet => c2sInteraction slot packet
  | .heartbeat packet => c2sHeartbeat slot packet
  | .echo packet => c2sEcho slot packet

/-! What `ProcessThread` does with a packet. -/

def setParam (server : Server) (conn slot : Nat) : Server :=
  server.setLink conn { server.links conn with param := some slot }

def setConnector (server : Server) (slot conn : Nat) : Server :=
  server.setSession slot { server.sessions slot with pConnector := some conn }

def attach (conn : Nat) : AppCode Nat := do
  let param ← Code.read fun shared => (shared.server.links conn).param
  match param with
  | some slot => pure slot
  | none => do
      let slot ← getFreeObject
      modifyServer fun server => setParam server conn slot
      modifyServer fun server => setConnector server slot conn
      pure slot

def processPacket (conn : Nat) (call : Option C2SCall) (env : Server.Env) : AppCode Unit := do
  let slot ← attach conn
  match call with
  | none => pure ()
  | some call => handle slot env call

/-! `UserSessionMgr::DoUpdate`. -/

def updateSession (clock : Server.Clock) (slot : Nat) : AppCode Unit :=
  Code.guarded (.userSession slot) fun _ => do
    let closed ← Code.read fun shared => shared.server.closed slot
    if clock.due slot && closed then setReleaseObj slot
    else modifyServer fun server => server.updateSession clock slot

/-- Each session is locked under the lock of `UserSessionMgr`. -/
def updateSessions (clock : Server.Clock) : AppCode Unit :=
  Code.guarded .userSessionMgr fun shared =>
    shared.server.mgr.usedList.forM (updateSession clock)

def dropConnector (server : Server) (slot : Nat) : Server :=
  match (server.sessions slot).pConnector with
  | none => server
  | some conn => server.setLink conn { active := false, param := none }

def leaveZone (slot : Nat) (zoneId : Int) : AppCode Unit :=
  if zoneId ≠ 0 then
    Code.guarded (.userSession slot) fun _ => do
      let session ← readSession slot
      add session.uid (.leaveCharacter session.nub.token session.nub.pos.zoneId)
  else pure ()

def release (slot : Nat) : AppCode Unit := do
  let session ← readSession slot
  leaveZone slot session.nub.pos.zoneId
  modifyServer fun server => dropConnector server slot

def free (slot : Nat) : AppCode Unit := do
  delUserSessionMap slot
  setFreeObject slot

def doUpdate (clock : Server.Clock) : AppCode Unit := do
  updateSessions clock
  let releaseList ← swapReleaseList
  releaseList.forM release
  releaseList.forM free

/-! The operators of the commands, and `CommandUnitQueue::Tick`. -/

def resetPos : Option Nat → AppCode Unit
  | none => pure ()
  | some slot => modifyServer fun server => server.setPos slot {}

def operator (cause : Nat) : Command → AppCode Unit
  | .sendBroadcastToAllUser zoneId packet => do
      let found ← getZone zoneId
      if found then packetBroadcast cause zoneId packet else pure ()
  | .sendPacketToUser token packet => do
      let user ← getUserSession token
      match user with
      | none => pure ()
      | some slot => modifyServer fun server => server.sendPacket cause slot packet
  | .enterCharacter token zoneId posX posY => do
      let user ← getUserSession token
      match user with
      | none => pure ()
      | some slot => do
          zoneMgrEnterCharacter zoneId slot
          add cause (.sendBroadcastToAllUser zoneId
            (.enter { token := token, x := posX, y := posY }))
          add cause (.sendCharacterList token zoneId)
  | .leaveCharacter token zoneId => do
      let user ← getUserSession token
      resetPos user
      zoneMgrLeaveCharacter zoneId token
      add cause (.sendBroadcastToAllUser zoneId (.leave { token := token }))
  | .sendCharacterList exceptCharacterToken zoneId => do
      let user ← getUserSession exceptCharacterToken
      match user with
      | none => pure ()
      | some _ => do
          let found ← getZone zoneId
          if found then do
            let characterDbList ← getCharacterDbList zoneId exceptCharacterToken
            (Server.characterListPackets characterDbList {}).forM fun packet =>
              add cause (.sendPacketToUser exceptCharacterToken (.enterCharacter packet))
          else pure ()

def tick : AppCode Unit := do
  let firingCmds ← swapOpList
  firingCmds.forM fun queued => operator queued.cause queued.command

end AppCode

/-! Runs: each thread takes its steps in program order, and they interleave with each other and
with the network in any order. -/

inductive AppThread
  | process
  | update
  deriving DecidableEq, Repr

abbrev AppMachine := Locks.Machine AppThread LockId Shared

namespace AppMachine

inductive Event
  | connect (conn : Nat)
  | close (conn : Nat)
  | packet (conn : Nat) (call : Option C2SCall) (env : Server.Env)
  | doUpdate (clock : Server.Clock)
  | tick
  | move (thread : AppThread)

def network (machine : AppMachine) (event : Server.Event) : AppMachine :=
  machine.outside fun shared => { shared with server := shared.server.step event }

def step (machine : AppMachine) : Event → AppMachine
  | .connect conn => machine.network (.connect conn)
  | .close conn => machine.network (.close conn)
  | .packet conn call env => machine.start .process (AppCode.processPacket conn call env)
  | .doUpdate clock => machine.start .update (AppCode.doUpdate clock)
  | .tick => machine.start .update AppCode.tick
  | .move thread => machine.move thread

end AppMachine

end ProjectPl
