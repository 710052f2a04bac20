import ProjectPl.CommonProtocolCore

/-!
How a world server joins the database server: `WorldServerApp.cs` and `DbSession.cs` of
`Server_v2_world`, `DbServerApp.cs` and `WorldSession.cs` of `Server_v2_Db`. A message in flight is
the object that was sent, and the receiver picks the handler by the number that its class gives it.
A world server has one session with the database server, which stands for it here.
-/

namespace ProjectPl.Sharp.Join

open Common

inductive WorldMessage
  | joinRequest (packet : PacketWDJoinRequest)
  | heartbeat (packet : PacketDWHeartbeat)

def WorldMessage.packetType : WorldMessage → Int
  | joinRequest _ => packetWDJoinRequest.packetType
  | heartbeat _ => packetDWHeartbeat.packetType

/-! The database server. -/

/-- A dictionary of the sessions by their world, and the id of `Config`. -/
structure DbServerApp where
  dbId : Int
  worldSessions : List (Int × Nat) := []

namespace DbServerApp

def getServerId (app : DbServerApp) : Int := app.dbId

def getWorldSession (app : DbServerApp) (id : Int) : Option Nat := app.worldSessions.lookup id

end DbServerApp

namespace WorldPacketHandler

inductive Function
  | joinRequest
  | heartbeat
  deriving DecidableEq, Repr

def functionMap : List (Int × Function) :=
  [(PacketTypeWD.joinRequest.toInt, .joinRequest), (PacketTypeWD.heartbeat.toInt, .heartbeat)]

def wdJoinRequest (app : DbServerApp) (packet : PacketWDJoinRequest) : PacketDWJoinResult :=
  { result := if (app.getWorldSession packet.worldId).isSome then 1 else 0
    dbId := app.getServerId }

/-- The answer to a message. A join request cannot be read from the empty body of a heartbeat. -/
def packetProcess (app : DbServerApp) (message : WorldMessage) : Option PacketDWJoinResult :=
  match functionMap.lookup message.packetType, message with
  | some .joinRequest, .joinRequest packet => some (wdJoinRequest app packet)
  | _, _ => none

end WorldPacketHandler

/-! The world server. -/

structure WorldServerApp where
  worldId : Int
  dbSessions : Int → Option Nat

namespace WorldServerApp

def setDbSession (app : WorldServerApp) (id : Int) (session : Nat) : WorldServerApp :=
  { app with dbSessions := Function.update app.dbSessions id (some session) }

end WorldServerApp

namespace DbPacketHandler

inductive Function
  | joinResult
  | heartbeat
  deriving DecidableEq, Repr

def functionMap : List (Int × Function) :=
  [(PacketTypeDW.joinResult.toInt, .joinResult), (PacketTypeDW.heartbeat.toInt, .heartbeat)]

def dwJoinResult (app : WorldServerApp) (session : Nat) (packet : PacketDWJoinResult) :
    WorldServerApp :=
  if packet.result ≠ 0 then app else app.setDbSession packet.dbId session

/-- `DW_Heartbeat` reads nothing and answers. -/
def dwHeartbeat : List WorldMessage := [.heartbeat {}]

end DbPacketHandler

/-- A session with the world server behind it: messages in flight both ways, and records of the
joins answered (the world and the result) and of the replies processed (by which function). -/
structure Link where
  app : WorldServerApp
  live : Bool := true
  toDb : List WorldMessage := []
  toWorld : List PacketDWJoinResult := []
  answered : List (Int × Int) := []
  processed : List (PacketDWJoinResult × Option DbPacketHandler.Function) := []

structure State where
  db : DbServerApp
  links : List Link := []

namespace State

def setLink (state : State) (session : Nat) (link : Link) : State :=
  { state with links := state.links.set session link }

end State

/-- `DbConnect`: the session is stored under the configured id before any reply. -/
def WorldServerApp.dbConnect (worldId dbServerId : Int) (session : Nat) : Link :=
  { app := { worldId := worldId
             dbSessions := Function.update (fun _ => none) dbServerId (some session) }
    toDb := [.joinRequest { worldId := worldId }] }

/-- The database server processes a session's next message. -/
def Link.handle (db : DbServerApp) (link : Link) : Link :=
  match link.toDb with
  | [] => link
  | message :: rest =>
      let left := { link with toDb := rest }
      match WorldPacketHandler.packetProcess db message, message with
      | some reply, .joinRequest packet =>
          { left with
            toWorld := left.toWorld ++ [reply]
            answered := left.answered ++ [(packet.worldId, reply.result)] }
      | _, _ => left

/-- The world server processes the next reply. -/
def Link.deliver (session : Nat) (link : Link) : Link :=
  match link.toWorld with
  | [] => link
  | reply :: rest =>
      let function := DbPacketHandler.functionMap.lookup packetDWJoinResult.packetType
      let left := { link with
                    toWorld := rest
                    processed := link.processed ++ [(reply, function)] }
      match function with
      | some .joinResult =>
          { left with app := DbPacketHandler.dwJoinResult left.app session reply }
      | some .heartbeat => { left with toDb := left.toDb ++ DbPacketHandler.dwHeartbeat }
      | none => left

inductive Event
  | connect (worldId dbServerId : Int)
  | handle (session : Nat)
  | deliver (session : Nat)
  | close (session : Nat)

def start (dbId : Int) : State := { db := { dbId := dbId } }

def step (state : State) : Event → State
  | .connect worldId dbServerId =>
      { state with
        links := state.links ++
          [WorldServerApp.dbConnect worldId dbServerId state.links.length] }
  | .handle session =>
      match state.links[session]? with
      | none => state
      | some link => state.setLink session (link.handle state.db)
  | .deliver session =>
      match state.links[session]? with
      | none => state
      | some link => state.setLink session (link.deliver session)
  | .close session =>
      match state.links[session]? with
      | none => state
      | some link => state.setLink session { link with live := false }

end ProjectPl.Sharp.Join
