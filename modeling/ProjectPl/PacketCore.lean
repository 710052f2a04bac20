import ProjectPl.SerializerCore

/-!
Framing and dispatch: `_framework/packet.h` and `_framework/packet.cpp`. A frame is the
eight-byte head (check word, total length), the body and the twelve-byte tail (check word,
sequence number, time). All words are little-endian `UINT32`.
-/

namespace ProjectPl

open LittleEndian

inductive EResultCode
  | succ
  | fail
  | invalidPacket
  | socketDisconnected
  | pending
  deriving DecidableEq, Repr

def packetCheckHeadKey : Nat := 0x00000000
def packetCheckTailKey : Nat := 0x10000000

def sizeofPacketHead : Nat := 8
def sizeofPacketTail : Nat := 12

def checkHead (head : List UInt8) : Nat := decode (head.take 4)

def headLength (head : List UInt8) : Nat := decode ((head.drop 4).take 4)

def makeNetworkPacket (sendData : List UInt8) (sendBufferSize packetSeq packetTime : Nat) :
    Option (List UInt8) :=
  let length := (sizeofPacketHead + sendData.length + sizeofPacketTail) % 2 ^ 32
  if sendBufferSize < length then none
  else
    some (encode 4 packetCheckHeadKey ++ encode 4 length ++ sendData ++
      (encode 4 packetCheckTailKey ++ encode 4 packetSeq ++ encode 4 packetTime))

/-- `ParseNetworkData`: the result code and the packet length, which keeps the value it was
passed with unless a whole frame is there. -/
def parseNetworkData (buffer : CircleBuffer) (packetLength : Nat) : EResultCode × Nat :=
  let dataSize := buffer.getDataSize
  if dataSize < sizeofPacketHead then (.pending, packetLength)
  else
    let head := (buffer.read sizeofPacketHead).response.copied
    if packetCheckHeadKey ≠ checkHead head then (.invalidPacket, packetLength)
    else if dataSize < headLength head then (.pending, packetLength)
    else (.succ, headLength head)

/-- What a packet class contributes: its type number, a default-constructed packet and its
`Serialize`. -/
structure PacketClass (P : Type) where
  packetType : Nat
  default : P
  serialize : Serializer → P → Serializer × P

namespace PacketClass

variable {P : Type}

def pack (cls : PacketClass P) (packet : P) : Serializer :=
  (cls.serialize (Serializer.new.valueUInt32 cls.packetType).1 packet).1

/-- `SerializeHead` then `Serialize` of a default packet on a reading serializer. The head
may overwrite the type number, which no caller looks at again. -/
def unpack (cls : PacketClass P) (data : Nat → UInt8) (length : Nat) : Serializer × P :=
  cls.serialize ((Serializer.ofData data length).valueUInt32 cls.packetType).1 cls.default

/-- The bytes that `SendPacket` hands to the connection. The result of `MakeNetworkPacket`
is not looked at: on a failure the whole zeroed buffer goes out. -/
def sendPacket (cls : PacketClass P) (packet : P) (packetTime : Nat) : List UInt8 :=
  let packed := cls.pack packet
  match makeNetworkPacket (Ring.load packed.pBuffer 0 packed.getDataSize) maxPacketBufferSize 0
      packetTime with
  | some frame => frame
  | none => List.replicate maxPacketBufferSize 0

end PacketClass

/-- An entry of `_packetFunctors`: it decodes a payload and invokes its handler, which is
recorded as a call `Q`. -/
abbrev PacketFunctor (Q : Type) := (Nat → UInt8) → Nat → Q

inductive Dispatch (Q : Type)
  | returnedFalse
  | invoked (call : Q)
  | outsideTable (packetType : Nat)
  deriving DecidableEq, Repr

abbrev PacketTable (Q : Type) := List (Option (PacketFunctor Q))

namespace PacketTable

variable {P Q : Type}

def register (table : PacketTable Q) (cls : PacketClass P) (handler : P → Q) : PacketTable Q :=
  table.set cls.packetType (some fun data length => handler (cls.unpack data length).2)

/-- `PacketHandler::Execute`. The type number indexes the table unchecked, so a number at or
past its size leaves it. -/
def execute (table : PacketTable Q) (data : Nat → UInt8) (length : Nat) : Dispatch Q :=
  let packetType := ((Serializer.ofData data length).valueUInt32 0).2
  match table[packetType]? with
  | none => .outsideTable packetType
  | some none => .returnedFalse
  | some (some functor) => .invoked (functor data length)

/-- `UserSession::MessageProcess`, the same on the server and on the client. -/
def messageProcess (table : PacketTable Q) (pData : Nat → UInt8) (nLen : Nat) : Dispatch Q :=
  if nLen < sizeofPacketHead then .returnedFalse
  else
    let length := headLength (Ring.load pData 0 sizeofPacketHead)
    let packetLength := (length + 2 ^ 32 - sizeofPacketHead - sizeofPacketTail) % 2 ^ 32
    table.execute (fun offset => pData (sizeofPacketHead + offset)) packetLength

end PacketTable

end ProjectPl
