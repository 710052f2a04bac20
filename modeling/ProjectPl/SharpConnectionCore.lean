import ProjectPl.SharpParserCore

/-!
The receiving half of a C# connection: `OnRecvCompleted`, `DoRecv` and `Disconnect`, one text in
`Server/PlayerSession.cs` and `_Network_v2/NetSession.cs` up to the parser that they feed. What
`DataParsing` returns is not looked at. An exception leaves `OnRecvCompleted` before the next
`DoRecv`, with the socket open and no receive outstanding.
-/

namespace ProjectPl.Sharp

open DotNet

/-- The event arguments of a receive: an error, or the bytes that came. -/
inductive RecvArgs (size : Nat)
  | socketError
  | success (event : RecvEvent size)

/-- `socket` says that the field is not null, `receiving` that a `ReceiveAsync` is outstanding. -/
structure Connection (σ : Type) where
  socket : Bool
  receiving : Bool
  parser : σ

namespace Connection

variable {σ T : Type} {size : Nat}

def doRecv (connection : Connection σ) : Connection σ :=
  { connection with receiving := connection.socket }

def new (parser : σ) : Connection σ :=
  { socket := true, receiving := false, parser := parser : Connection σ }.doRecv

def disconnect (connection : Connection σ) : Connection σ := { connection with socket := false }

def onRecvCompleted (dataParsing : σ → RecvEvent size → σ × ParseReply T)
    (connection : Connection σ) : RecvArgs size → Connection σ × Option (ParseReply T)
  | .socketError => (connection.disconnect.doRecv, none)
  | .success event =>
      if 0 < event.transferred then
        let parsed := dataParsing connection.parser event
        let next := { connection with parser := parsed.1 }
        match parsed.2.returned with
        | .error _ => ({ next with receiving := false }, some parsed.2)
        | .ok _ => (next.doRecv, some parsed.2)
      else (connection.disconnect.doRecv, none)

/-- An event completes the receive that is outstanding. Without one, nothing comes. -/
def onEvent (dataParsing : σ → RecvEvent size → σ × ParseReply T) (connection : Connection σ)
    (args : RecvArgs size) : Connection σ × Option (ParseReply T) :=
  if connection.receiving then connection.onRecvCompleted dataParsing args else (connection, none)

end Connection

/-! The receive parser of `Server_v2_auth/PlayerSession.cs`. Its two length comparisons point the
other way. -/

namespace RecvBuffer

def parseFrontAuth {T : Type} (decoder : FrameDecoder T) (parser : RecvBuffer) :
    RecvBuffer × ParseReply T :=
  if parser.recvLength > PacketHead.length then (parser, { returned := .ok true })
  else
    match parser.readHead with
    | .error failure => (parser, { returned := .error failure })
    | .ok head =>
        let headed := { parser with head := head }
        if headed.recvLength > head.packetLength then (headed, { returned := .ok true })
        else
          match decoder headed.recvBuffer head.packetLength with
          | .error failure => (headed, { returned := .error failure })
          | .ok packet =>
              let taken := { headed with readPos := head.packetLength }
              match taken.bufferTrim with
              | .error failure => (taken, { returned := .error failure })
              | .ok trimmed => (trimmed, { returned := .ok true, enqueued := some packet.body })

def dataParsingAuth {T : Type} (decoder : FrameDecoder T) (parser : RecvBuffer)
    (buffer : List UInt8) (offset transferred : Int) : RecvBuffer × ParseReply T :=
  if parser.maxBufferSize < int32 (parser.currPos + transferred) then
    (parser, { returned := .ok false })
  else
    match arrayCopy buffer offset parser.recvBuffer parser.currPos transferred with
    | .error failure => (parser, { returned := .error failure })
    | .ok recvBuffer =>
        { parser with
          recvBuffer := recvBuffer
          currPos := int32 (parser.currPos + transferred)
          recvLength := int32 (parser.recvLength + transferred) }.parseFrontAuth decoder

end RecvBuffer

def Auth.PlayerSession.dataParsing {size : Nat} (decoder : FrameDecoder Int) (session : NetSession)
    (event : RecvEvent size) : NetSession × ParseReply Int :=
  match session.recvBuffer with
  | none => (session, { returned := .ok false })
  | some recvBuffer =>
      let parser : RecvBuffer :=
        { maxBufferSize := session.maxBufferSize, recvBuffer := recvBuffer,
          recvLength := session.recvLength, currPos := session.currPos,
          readPos := session.readPos, head := session.head }
      let parsed := parser.dataParsingAuth decoder event.buffer event.offset event.transferred
      (NetSession.ofRecvBuffer parsed.1, parsed.2)

end ProjectPl.Sharp
