import ProjectPl.ProtocolCore
import ProjectPl.SharpPacketCore

/-!
The packets of the C# library `PL_Network`: `PacketProtocol_CS.cs` and `PacketProtocol_SC.cs`,
without `PacketCS_Chat` and `PacketSC_EnterCharacter`, which have no counterpart of the same
layout in the C++ protocol. The numbers of both enumerations are their positions, so `chat`
counts although its class is not here.

A packet's `Serialize` runs on a writing and on a reading serializer. The straight-line part of
it is a list of integer members, as in the C++ protocol.
-/

namespace ProjectPl

open LittleEndian DotNet

namespace Member

variable {P : Type}

def sharpValue (member : Member P) (ser : Sharp.Serializer) (packet : P) :
    Result (Sharp.Serializer × P) := do
  let read ← ser.scalar member.width (encodeSigned member.width) decodeSigned (member.get packet)
  return (read.1, member.set packet read.2)

def sharpValues : List (Member P) → Sharp.Serializer → P → Result (Sharp.Serializer × P)
  | [], ser, packet => return (ser, packet)
  | member :: rest, ser, packet => do
      let first ← member.sharpValue ser packet
      sharpValues rest first.1 first.2

end Member

namespace Sharp

/-- What a subclass of `PacketBase` overrides. `getSize` is the sum before its truncation to
`int`. -/
structure Subclass (P : Type) where
  packetType : Nat
  getSize : P → Int
  serialize : Serializer → P → Result (Serializer × P)

namespace Subclass

variable {P : Type}

/-- An object of the subclass, as `PacketSerializer` sees it. -/
def base (sub : Subclass P) (packet : P) : PacketBase Nat where
  packetType := sub.packetType
  getSize := int32 (sub.getSize packet)
  serialize := fun ser => do
    let written ← sub.serialize ser packet
    return written.1
  getSize_isInt32 := int32_fitsSigned _

/-- `SerializeBody(new Serializer(Buffer, Buffer.Length))` on a new object. -/
def readBody (sub : Subclass P) (start : P) (data : List UInt8) : Result P := do
  let ser ← Serializer.ofBuffer data data.length
  let read ← sub.serialize ser start
  return read.2

end Subclass

/-! Client to server. -/

inductive PacketTypeCS
  | invalid | auth | enter | leave | move | interaction | chat | heartbeat | echo | max
  deriving DecidableEq, Repr

def PacketTypeCS.toNat : PacketTypeCS → Nat
  | invalid => 0
  | auth => 1
  | enter => 2
  | leave => 3
  | move => 4
  | interaction => 5
  | chat => 6
  | heartbeat => 7
  | echo => 8
  | max => 9

structure PacketCSAuth where
  id : Int := 0
  deriving DecidableEq, Repr

structure PacketCSEnter where
  token : Int := 0
  deriving DecidableEq, Repr

structure PacketCSLeave where
  token : Int := 0
  deriving DecidableEq, Repr

structure PacketCSMove where
  x : Int := 0
  y : Int := 0
  deriving DecidableEq, Repr

structure PacketCSInteraction where
  targetToken : Int := 0
  interactionType : Int := 0
  deriving DecidableEq, Repr

structure PacketCSHeaetbeat where
  deriving DecidableEq, Repr

structure PacketCSEcho where
  echoMsgLength : Int := 0
  echoMsg : List UInt16 := []
  deriving DecidableEq, Repr

def packetCSAuth : Subclass PacketCSAuth where
  packetType := PacketTypeCS.auth.toNat
  getSize := fun _ => 4 + 4
  serialize := Member.sharpValues [.int32 (·.id) fun p v => { p with id := v }]

def packetCSEnter : Subclass PacketCSEnter where
  packetType := PacketTypeCS.enter.toNat
  getSize := fun _ => 4 + 8
  serialize := Member.sharpValues [.int64 (·.token) fun p v => { p with token := v }]

def packetCSLeave : Subclass PacketCSLeave where
  packetType := PacketTypeCS.leave.toNat
  getSize := fun _ => 4 + 8
  serialize := Member.sharpValues [.int64 (·.token) fun p v => { p with token := v }]

def packetCSMove : Subclass PacketCSMove where
  packetType := PacketTypeCS.move.toNat
  getSize := fun _ => 4 + 4 * 2
  serialize := Member.sharpValues
    [.int32 (·.x) fun p v => { p with x := v }, .int32 (·.y) fun p v => { p with y := v }]

def packetCSInteraction : Subclass PacketCSInteraction where
  packetType := PacketTypeCS.interaction.toNat
  getSize := fun _ => 4 + 8 + 4
  serialize := Member.sharpValues
    [.int64 (·.targetToken) fun p v => { p with targetToken := v },
     .int32 (·.interactionType) fun p v => { p with interactionType := v }]

def packetCSHeaetbeat : Subclass PacketCSHeaetbeat where
  packetType := PacketTypeCS.heartbeat.toNat
  getSize := fun _ => 4
  serialize := Member.sharpValues []

def packetCSEcho : Subclass PacketCSEcho where
  packetType := PacketTypeCS.echo.toNat
  getSize := fun packet => 4 + 4 + packet.echoMsgLength
  serialize := fun ser packet => do
    let length ← ser.valueInt32 packet.echoMsgLength
    let msg ← length.1.valueString packet.echoMsg length.2
    return (msg.1, { echoMsgLength := length.2, echoMsg := msg.2 })

inductive PacketCS
  | auth (packet : PacketCSAuth)
  | enter (packet : PacketCSEnter)
  | leave (packet : PacketCSLeave)
  | move (packet : PacketCSMove)
  | interaction (packet : PacketCSInteraction)
  | heartbeat (packet : PacketCSHeaetbeat)
  | echo (packet : PacketCSEcho)
  deriving DecidableEq, Repr

def PacketCS.base : PacketCS → PacketBase Nat
  | auth packet => packetCSAuth.base packet
  | enter packet => packetCSEnter.base packet
  | leave packet => packetCSLeave.base packet
  | move packet => packetCSMove.base packet
  | interaction packet => packetCSInteraction.base packet
  | heartbeat packet => packetCSHeaetbeat.base packet
  | echo packet => packetCSEcho.base packet

/-! Server to client. -/

inductive PacketTypeSC
  | invalid | authResult | enter | enterPlayer | leave | move | interaction | heartbeat | echo | max
  deriving DecidableEq, Repr

def PacketTypeSC.toNat : PacketTypeSC → Nat
  | invalid => 0
  | authResult => 1
  | enter => 2
  | enterPlayer => 3
  | leave => 4
  | move => 5
  | interaction => 6
  | heartbeat => 7
  | echo => 8
  | max => 9

structure PacketSCAuthResult where
  id : Int := 0
  token : Int := 0
  deriving DecidableEq, Repr

structure PacketSCEnter where
  token : Int := 0
  x : Int := 0
  y : Int := 0
  deriving DecidableEq, Repr

structure PacketSCLeave where
  token : Int := 0
  deriving DecidableEq, Repr

structure PacketSCMove where
  token : Int := 0
  x : Int := 0
  y : Int := 0
  deriving DecidableEq, Repr

structure PacketSCInteraction where
  token : Int := 0
  targetToken : Int := 0
  interactionType : Int := 0
  deriving DecidableEq, Repr

structure PacketSCHeartBeat where
  deriving DecidableEq, Repr

structure PacketSCEcho where
  token : Int := 0
  echoMsgLength : Int := 0
  echoMsg : List UInt16 := []
  deriving DecidableEq, Repr

def packetSCAuthResult : Subclass PacketSCAuthResult where
  packetType := PacketTypeSC.authResult.toNat
  getSize := fun _ => 4 + 4 + 8
  serialize := Member.sharpValues
    [.int32 (·.id) fun p v => { p with id := v },
     .int64 (·.token) fun p v => { p with token := v }]

def packetSCEnter : Subclass PacketSCEnter where
  packetType := PacketTypeSC.enter.toNat
  getSize := fun _ => 4 + 8 + 4 * 2
  serialize := Member.sharpValues
    [.int64 (·.token) fun p v => { p with token := v },
     .int32 (·.x) fun p v => { p with x := v },
     .int32 (·.y) fun p v => { p with y := v }]

def packetSCLeave : Subclass PacketSCLeave where
  packetType := PacketTypeSC.leave.toNat
  getSize := fun _ => 4 + 8
  serialize := Member.sharpValues [.int64 (·.token) fun p v => { p with token := v }]

def packetSCMove : Subclass PacketSCMove where
  packetType := PacketTypeSC.move.toNat
  getSize := fun _ => 4 + 8 + 4 * 2
  serialize := Member.sharpValues
    [.int64 (·.token) fun p v => { p with token := v },
     .int32 (·.x) fun p v => { p with x := v },
     .int32 (·.y) fun p v => { p with y := v }]

def packetSCInteraction : Subclass PacketSCInteraction where
  packetType := PacketTypeSC.interaction.toNat
  getSize := fun _ => 4 + 8 * 2 + 4
  serialize := Member.sharpValues
    [.int64 (·.token) fun p v => { p with token := v },
     .int64 (·.targetToken) fun p v => { p with targetToken := v },
     .int32 (·.interactionType) fun p v => { p with interactionType := v }]

def packetSCHeartBeat : Subclass PacketSCHeartBeat where
  packetType := PacketTypeSC.heartbeat.toNat
  getSize := fun _ => 4
  serialize := Member.sharpValues []

def packetSCEcho : Subclass PacketSCEcho where
  packetType := PacketTypeSC.echo.toNat
  getSize := fun packet => 4 + 8 + 4 + packet.echoMsgLength
  serialize := fun ser packet => do
    let head ← Member.sharpValues
      [.int64 (·.token) fun p v => { p with token := v },
       .int32 (·.echoMsgLength) fun p v => { p with echoMsgLength := v }] ser packet
    let msg ← head.1.valueString head.2.echoMsg head.2.echoMsgLength
    return (msg.1, { head.2 with echoMsg := msg.2 })

inductive PacketSC
  | authResult (packet : PacketSCAuthResult)
  | enter (packet : PacketSCEnter)
  | leave (packet : PacketSCLeave)
  | move (packet : PacketSCMove)
  | interaction (packet : PacketSCInteraction)
  | heartbeat (packet : PacketSCHeartBeat)
  | echo (packet : PacketSCEcho)
  deriving DecidableEq, Repr

/-- The body data of a packet, read by the class of the given type. -/
def PacketSC.ofBody (data : List UInt8) : PacketTypeSC → Option (Result PacketSC)
  | .authResult => some (.authResult <$> packetSCAuthResult.readBody {} data)
  | .enter => some (.enter <$> packetSCEnter.readBody {} data)
  | .leave => some (.leave <$> packetSCLeave.readBody {} data)
  | .move => some (.move <$> packetSCMove.readBody {} data)
  | .interaction => some (.interaction <$> packetSCInteraction.readBody {} data)
  | .heartbeat => some (.heartbeat <$> packetSCHeartBeat.readBody {} data)
  | .echo => some (.echo <$> packetSCEcho.readBody {} data)
  | _ => none

end Sharp

end ProjectPl
