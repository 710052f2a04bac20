import ProjectPl.SharpPacketCore

/-!
The sending half of `_Network_v2/NetSession.cs`, with the `Send` of `Server_v2_world/PlayerSession`.
A step is one `Send` or one completion, with all completions that happen inside `SendAsync`. What
the calls of `SendAsync` in a step do is a list of outcomes. What the network does is written in
`SendNetwork`, by `SendAsync` and by the completion that it brings, and not by the session: a
send that completes without an error has transmitted its whole `BufferList`.
-/

namespace ProjectPl.Sharp

open DotNet

/-- A call of `SendAsync` goes on, or completes at once. -/
inductive SendOutcome
  | pending
  | success
  | socketError
  deriving DecidableEq

/-- `inFlight` is the `BufferList` of a `SendAsync` that has not completed. -/
structure SendNetwork where
  inFlight : Option (List (List UInt8)) := none
  transmitted : List (List UInt8) := []
  deriving DecidableEq

/-- `connected` is the test `null != _socket && _socket.Connected`. -/
structure SendSession where
  connected : Bool := true
  sendQueue : List (List UInt8) := []
  sendPendingList : List (List UInt8) := []
  network : SendNetwork := {}
  deriving DecidableEq

def bytesTransferred (bufferList : List (List UInt8)) : Nat := (bufferList.map List.length).sum

namespace SendNetwork

def goesOn (network : SendNetwork) (bufferList : List (List UInt8)) : SendNetwork :=
  { network with inFlight := some bufferList }

-- Buffers without a byte are not sent: their send completes with nothing transferred.
def transmits (network : SendNetwork) (bufferList : List (List UInt8)) : SendNetwork :=
  if 0 < bytesTransferred bufferList then
    { network with transmitted := network.transmitted ++ bufferList }
  else network

end SendNetwork

namespace SendSession

-- The loop of `DoSend`. The count of the queue is read anew each time around.
def fillPending (cnt : Nat) : List (List UInt8) → List (List UInt8) →
    List (List UInt8) × List (List UInt8)
  | [], pending => ([], pending)
  | buffer :: queue, pending =>
      if cnt < (buffer :: queue).length ∧ cnt < 10 then
        fillPending (cnt + 1) queue (pending ++ [buffer])
      else (buffer :: queue, pending)

def disconnect (session : SendSession) : SendSession := { session with connected := false }

def onSendCompletedWith (doSend : SendSession → SendSession) (success : Bool) (transferred : Nat)
    (session : SendSession) : SendSession :=
  if success ∧ 0 < transferred then
    let cleared := { session with sendPendingList := [] }
    if 0 < cleared.sendQueue.length then doSend cleared else cleared
  else session.disconnect

def doSend : List SendOutcome → SendSession → SendSession
  | outcomes, session =>
      if ¬session.connected then session
      else if session.sendPendingList.length ≠ 0 then session
      else
        let filled := fillPending 0 session.sendQueue session.sendPendingList
        let sending := { session with sendQueue := filled.1, sendPendingList := filled.2 }
        match outcomes with
        | [] => { sending with network := sending.network.goesOn filled.2 }
        | .pending :: _ => { sending with network := sending.network.goesOn filled.2 }
        | .success :: outcomes =>
            { sending with network := sending.network.transmits filled.2 }.onSendCompletedWith
              (doSend outcomes) true (bytesTransferred filled.2)
        | .socketError :: outcomes => sending.onSendCompletedWith (doSend outcomes) false 0

def onSendCompleted (outcomes : List SendOutcome) (success : Bool) (transferred : Nat)
    (session : SendSession) : SendSession :=
  session.onSendCompletedWith (doSend outcomes) success transferred

def send (outcomes : List SendOutcome) (sendBuffer : List UInt8) (session : SendSession) :
    SendSession :=
  { session with sendQueue := session.sendQueue ++ [sendBuffer] }.doSend outcomes

/-- `Send(PacketBase)`. An exception of the serializer leaves before the packet is enqueued. -/
def sendPacket (outcomes : List SendOutcome) (sendPacket : PacketBase Int)
    (session : SendSession) : SendSession :=
  match packetSerializer .plCommon sendPacket with
  | .error _ => session
  | .ok ser => session.send outcomes ser.buffer

def completes (outcomes : List SendOutcome) (success : Bool) (session : SendSession) :
    SendSession :=
  match session.network.inFlight with
  | none => session
  | some bufferList =>
      let landed := { session.network with inFlight := none }
      if success then
        { session with network := landed.transmits bufferList }.onSendCompleted outcomes true
          (bytesTransferred bufferList)
      else { session with network := landed }.onSendCompleted outcomes false 0

end SendSession

inductive SendEvent
  | send (sendBuffer : List UInt8) (outcomes : List SendOutcome)
  | sendPacket (sendPacket : PacketBase Int) (outcomes : List SendOutcome)
  | completed (success : Bool) (outcomes : List SendOutcome)
  | disconnect

def SendSession.step (session : SendSession) : SendEvent → SendSession
  | .send sendBuffer outcomes => session.send outcomes sendBuffer
  | .sendPacket sendPacket outcomes => session.sendPacket outcomes sendPacket
  | .completed success outcomes => session.completes outcomes success
  | .disconnect => session.disconnect

end ProjectPl.Sharp
