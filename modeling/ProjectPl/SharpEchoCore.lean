import ProjectPl.CommonProtocolCore
import ProjectPl.SharpParserCore

/-!
Version one of the C# programs: `Client/MainApp.cs`, which sends echoes and reads the answers, and
the handlers of `Server/PacketHandler.cs`. The client takes an answer apart by hand and does not
use the class `Packet` of the library.
-/

namespace ProjectPl.Sharp

open DotNet LittleEndian

/-- `PacketCS_Chat` of `PL_Network`, which the server only reads. -/
structure PacketCSChat where
  chatType : Int := 0
  chatMsgLength : Int := 0
  chatMsg : List UInt16 := []

def packetCSChat : Subclass PacketCSChat where
  packetType := PacketTypeCS.chat.toNat
  getSize := fun packet => 4 + 4 + packet.chatMsgLength
  serialize := fun ser packet => do
    let chatType ← ser.valueInt16 packet.chatType
    let length ← chatType.1.valueInt32 packet.chatMsgLength
    let msg ← length.1.valueString packet.chatMsg length.2
    return (msg.1, { chatType := chatType.2, chatMsgLength := length.2, chatMsg := msg.2 })

def PacketCSEcho.setEchoMsg (echoMsg : List UInt16) : PacketCSEcho :=
  { echoMsgLength := echoMsg.length, echoMsg := echoMsg }

def PacketSCEcho.setData (token : Int) (echoMsg : List UInt16) : PacketSCEcho :=
  { token := token, echoMsgLength := echoMsg.length, echoMsg := echoMsg }

namespace PacketHandler

/-- What a handler returns, and the packets that it passes to `Player.Send`. -/
abbrev Handler := List UInt8 → Result (Bool × List PacketSCEcho)

def csAuth : Handler := fun data => do
  let _ ← packetCSAuth.readBody {} data
  return (true, [])

def csEnter : Handler := fun data => do
  let _ ← packetCSEnter.readBody {} data
  return (true, [])

def csLeave : Handler := fun data => do
  let _ ← packetCSLeave.readBody {} data
  return (true, [])

def csMove : Handler := fun data => do
  let _ ← packetCSMove.readBody {} data
  return (true, [])

def csInteraction : Handler := fun data => do
  let _ ← packetCSInteraction.readBody {} data
  return (true, [])

def csChat : Handler := fun data => do
  let _ ← packetCSChat.readBody {} data
  return (true, [])

def csHeartbeat : Handler := fun _ => return (true, [])

def csEcho : Handler := fun data => do
  let packet ← packetCSEcho.readBody {} data
  return (true, [PacketSCEcho.setData 0 packet.echoMsg])

def functionMap : List (Nat × Handler) :=
  [(PacketTypeCS.auth.toNat, csAuth), (PacketTypeCS.enter.toNat, csEnter),
   (PacketTypeCS.leave.toNat, csLeave), (PacketTypeCS.move.toNat, csMove),
   (PacketTypeCS.interaction.toNat, csInteraction), (PacketTypeCS.chat.toNat, csChat),
   (PacketTypeCS.heartbeat.toNat, csHeartbeat), (PacketTypeCS.echo.toNat, csEcho)]

def packetProcess (packet : PacketBody Nat) : Result (Bool × List PacketSCEcho) :=
  match functionMap.lookup packet.packetType with
  | some packetFunction => packetFunction packet.packetData
  | none => .ok (false, [])

end PacketHandler

/-- The buffers that the packets of one call of a handler put into the send queue. -/
def PlayerSession.sendAll : List PacketSCEcho → Result (List (List UInt8))
  | [] => return []
  | packet :: rest => do
      let ser ← packetSerializer .plNetwork (packetSCEcho.base packet)
      let others ← sendAll rest
      return ser.buffer :: others

namespace MainApp

def send (echoMsg : List UInt16) : Result (List UInt8) := do
  let ser ← packetSerializer .plNetwork (packetCSEcho.base (PacketCSEcho.setEchoMsg echoMsg))
  return ser.buffer.take ser.offset

def recvBufferSize : Nat := 1024

/-- The half that reads: what `head`, `recvPacket` and `tail` hold at its end. -/
def receive (recvBuffer : List UInt8) (bytesRead : Int) :
    Result (PacketHead × PacketSCEcho × PacketTail) := do
  let ser ← Serializer.ofBuffer recvBuffer bytesRead
  let head ← PacketHead.serialize {} ser
  let recvPacket ← packetSCEcho.serialize head.1 {}
  let tail ← PacketTail.serialize {} recvPacket.1
  return (head.2, recvPacket.2, tail.2)

end MainApp

end ProjectPl.Sharp
