import ProjectPl.SharpPacketCore

/-!
The receive buffers of the C# servers: `Server/PacketParser.cs`, and `NetSession.cs` with the
`DataParsing` of `Server_v2_world/PlayerSession.cs`, `Server_v2_world/DbSession.cs` and
`Server_v2_Db/WorldSession.cs`. The four are one text up to the frame decoder and, in version two,
up to a test for a missing buffer. An exception leaves `DataParsing` with the fields as they are
at that point.
-/

namespace ProjectPl.Sharp

open DotNet LittleEndian

/-- One receive event: `transferred` bytes at `offset` of the event's buffer, which has the size
that the session gave it. -/
structure RecvEvent (size : Nat) where
  buffer : List UInt8
  offset : Nat
  transferred : Nat
  sized : buffer.length = size
  inside : offset + transferred ≤ size

def RecvEvent.chunk {size : Nat} (event : RecvEvent size) : List UInt8 :=
  (event.buffer.drop event.offset).take event.transferred

/-- What a call of `DataParsing` returns or throws, and the body that it hands to the packet
handler. -/
structure ParseReply (T : Type) where
  returned : Result Bool
  enqueued : Option (PacketBody T) := none
  deriving DecidableEq, Repr

abbrev FrameDecoder (T : Type) := List UInt8 → Int → Result (Packet T)

structure RecvBuffer where
  maxBufferSize : Int
  recvBuffer : List UInt8
  recvLength : Int
  currPos : Int
  readPos : Int
  head : PacketHead
  deriving DecidableEq, Repr

namespace RecvBuffer

def new (size : Nat) : RecvBuffer :=
  { maxBufferSize := size, recvBuffer := List.replicate size 0, recvLength := 0, currPos := 0,
    readPos := 0, head := {} }

def bufferTrim (parser : RecvBuffer) : Result RecvBuffer := do
  let recvBuffer ← arrayCopy parser.recvBuffer parser.readPos parser.recvBuffer 0
    (int32 (parser.recvBuffer.length - parser.readPos))
  return { parser with
    recvBuffer := recvBuffer
    recvLength := int32 (parser.recvLength - parser.readPos)
    currPos := int32 (parser.currPos - parser.readPos)
    readPos := 0 }

/-- `head.Serialize(new Serializer(recvBuffer, recvLength))`. -/
def readHead (parser : RecvBuffer) : Result PacketHead := do
  let ser ← Serializer.ofBuffer parser.recvBuffer parser.recvLength
  let read ← parser.head.serialize ser
  return read.2

/-- The part of `DataParsing` behind the copy into the buffer. -/
def parseFront {T : Type} (decoder : FrameDecoder T) (parser : RecvBuffer) :
    RecvBuffer × ParseReply T :=
  if parser.recvLength < PacketHead.length then (parser, { returned := .ok true })
  else
    match parser.readHead with
    | .error failure => (parser, { returned := .error failure })
    | .ok head =>
        let headed := { parser with head := head }
        if headed.recvLength < head.packetLength then (headed, { returned := .ok true })
        else
          match decoder headed.recvBuffer head.packetLength with
          | .error failure => (headed, { returned := .error failure })
          | .ok packet =>
              let taken := { headed with readPos := head.packetLength }
              match taken.bufferTrim with
              | .error failure => (taken, { returned := .error failure })
              | .ok trimmed => (trimmed, { returned := .ok true, enqueued := some packet.body })

def dataParsing {T : Type} (decoder : FrameDecoder T) (parser : RecvBuffer) (buffer : List UInt8)
    (offset transferred : Int) : RecvBuffer × ParseReply T :=
  if parser.maxBufferSize < int32 (parser.currPos + transferred) then
    (parser, { returned := .ok false })
  else
    match arrayCopy buffer offset parser.recvBuffer parser.currPos transferred with
    | .error failure => (parser, { returned := .error failure })
    | .ok recvBuffer =>
        { parser with
          recvBuffer := recvBuffer
          currPos := int32 (parser.currPos + transferred)
          recvLength := int32 (parser.recvLength + transferred) }.parseFront decoder

end RecvBuffer

/-! Version one. -/

namespace PacketParser

def maxBufferSize : Nat := 1024 * 10

def new : RecvBuffer := RecvBuffer.new maxBufferSize

def dataParsing (parser : RecvBuffer) (event : RecvEvent maxBufferSize) :
    RecvBuffer × ParseReply Nat :=
  parser.dataParsing (packetDeserializer .plNetwork) event.buffer event.offset event.transferred

end PacketParser

/-! Version two. The buffer is a nullable field there, set by the constructor. -/

structure NetSession where
  maxBufferSize : Int
  recvBuffer : Option (List UInt8)
  recvLength : Int
  currPos : Int
  readPos : Int
  head : PacketHead
  deriving DecidableEq, Repr

namespace NetSession

def ofRecvBuffer (parser : RecvBuffer) : NetSession :=
  { maxBufferSize := parser.maxBufferSize, recvBuffer := some parser.recvBuffer,
    recvLength := parser.recvLength, currPos := parser.currPos, readPos := parser.readPos,
    head := parser.head }

def new (recvBufferSize : Nat) : NetSession := ofRecvBuffer (RecvBuffer.new recvBufferSize)

def dataParsing {T : Type} (decoder : FrameDecoder T) (session : NetSession) (buffer : List UInt8)
    (offset transferred : Int) : NetSession × ParseReply T :=
  match session.recvBuffer with
  | none => (session, { returned := .ok false })
  | some recvBuffer =>
      let parser : RecvBuffer :=
        { maxBufferSize := session.maxBufferSize, recvBuffer := recvBuffer,
          recvLength := session.recvLength, currPos := session.currPos,
          readPos := session.readPos, head := session.head }
      let parsed := parser.dataParsing decoder buffer offset transferred
      (ofRecvBuffer parsed.1, parsed.2)

end NetSession

section Version2

variable {size : Nat} (decoder : FrameDecoder Int) (session : NetSession) (event : RecvEvent size)

def World.PlayerSession.dataParsing : NetSession × ParseReply Int :=
  session.dataParsing decoder event.buffer event.offset event.transferred

def World.DbSession.dataParsing : NetSession × ParseReply Int :=
  session.dataParsing decoder event.buffer event.offset event.transferred

def Db.WorldSession.dataParsing : NetSession × ParseReply Int :=
  session.dataParsing decoder event.buffer event.offset event.transferred

end Version2

end ProjectPl.Sharp
