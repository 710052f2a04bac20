import ProjectPl.SharpEchoCore

/-!
All packet classes of `PL_Network`, as `PacketSerializer` sees them. `PacketSC_EnterCharacter`
sends its count only: the list next to it is private and its element type has no members.
-/

namespace ProjectPl.Sharp

structure PacketSCEnterCharacter where
  count : Int := 0
  deriving DecidableEq, Repr

def packetSCEnterCharacter : Subclass PacketSCEnterCharacter where
  packetType := PacketTypeSC.enterPlayer.toNat
  getSize := fun _ => 4 + 4
  serialize := Member.sharpValues [.int32 (·.count) fun p v => { p with count := v }]

def PacketSC.base : PacketSC → PacketBase Nat
  | authResult packet => packetSCAuthResult.base packet
  | enter packet => packetSCEnter.base packet
  | leave packet => packetSCLeave.base packet
  | move packet => packetSCMove.base packet
  | interaction packet => packetSCInteraction.base packet
  | heartbeat packet => packetSCHeartBeat.base packet
  | echo packet => packetSCEcho.base packet

inductive NetworkPacket
  | cs (packet : PacketCS)
  | csChat (packet : PacketCSChat)
  | sc (packet : PacketSC)
  | scEnterCharacter (packet : PacketSCEnterCharacter)

def NetworkPacket.base : NetworkPacket → PacketBase Nat
  | cs packet => packet.base
  | csChat packet => packetCSChat.base packet
  | sc packet => packet.base
  | scEnterCharacter packet => packetSCEnterCharacter.base packet

end ProjectPl.Sharp
