import ProjectPl.ConnectorCore

/-!
`Network` of `_framework/network.cpp` for one `Connector`: `Write`, `DoSend`, `DoRecv`,
`Disconnect` and what `WorkerThread` does with a completion. A channel is the `Connector`
together with the system's side of it: the requests it has accepted and not completed yet, and
the completions posted by hand. Whether the system accepts a request comes with each call.
-/

namespace ProjectPl

inductive NetworkOperator
  | opSend
  | opRecv
  deriving DecidableEq, Repr

/-- `accepted`, `sent` and `nullSends` are records for proofs that no step reads: the bytes put
into the send queue, the bytes reported as sent, and the number of `WSASend` calls made while
`_SendRequest.pBuffer` was null. -/
structure Channel where
  conn : Connector
  sends : List (List UInt8) := []
  recvs : Nat := 0
  posted : Nat := 0
  inUse : Bool := true
  accepted : List UInt8 := []
  sent : List UInt8 := []
  nullSends : Nat := 0

namespace Channel

/-! Opening a connection: by `Connect`, by `AcceptThread`, or by an `AcceptEx` that `DoAccept`
takes over. `AcceptPrepare` counts the accept as a receive, and `DoAccept` does not take that count
back before it counts the first receive. -/

inductive Opening
  | connect
  | acceptThread
  | accept
  deriving DecidableEq, Repr

def acceptPrepare (conn : Connector) : Connector :=
  { conn with dwRecvRef := conn.dwRecvRef + 1 }

def start (opening : Opening) (heap : Nat → UInt8) : Channel :=
  let opened := { Connector.new heap with active := true }
  match opening with
  | .connect | .acceptThread => { conn := opened.recvPrepare.1, recvs := 1 }
  | .accept => { conn := (acceptPrepare opened).recvPrepare.1, recvs := 1 }

/-! Sending. -/

def addSendQueue (channel : Channel) (pSendData : List UInt8) : Channel × Int :=
  let added := channel.conn.addSendQueue pSendData
  ({ channel with
      conn := added.1
      accepted :=
        if pSendData.length ≤ maxPacketBufferSize then channel.accepted ++ pSendData
        else channel.accepted }, added.2)

def sendPrepare (channel : Channel) : Channel × Int :=
  let prepared := channel.conn.sendPrepare
  ({ channel with conn := prepared.1 }, prepared.2)

def sendComplete (channel : Channel) (dwSendSize : Nat) : Channel × Int :=
  let completed := channel.conn.sendComplete dwSendSize
  ({ channel with conn := completed.1 }, completed.2)

def wsaSend (channel : Channel) (accepts : Bool) : Channel :=
  match channel.conn.sendRequest with
  | none => { channel with nullSends := channel.nullSends + 1 }
  | some buffer =>
      if accepts then { channel with sends := channel.sends ++ [buffer.wsaBytes] } else channel

def write (channel : Channel) (pSendData : List UInt8) (accepts : Bool) :
    Channel × EResultCode :=
  if channel.conn.active then
    let queued := channel.addSendQueue pSendData
    if queued.2 < 0 then (queued.1, .fail)
    else if queued.1.conn.dwSendRef ≤ 0 then
      let prepared := queued.1.sendPrepare
      if prepared.2 < 0 then (prepared.1, .fail)
      else (prepared.1.wsaSend accepts, if accepts then .succ else .fail)
    else (queued.1, .succ)
  else (channel, .socketDisconnected)

def disconnect (channel : Channel) : Channel :=
  { channel with
    conn := { channel.conn with active := false }
    posted := if channel.conn.dwRecvRef ≠ 0 then channel.posted + 1 else channel.posted }

def sendOn (channel : Channel) (accepts : Bool) : Channel :=
  if accepts then channel.wsaSend accepts else (channel.wsaSend accepts).disconnect

def doSend (channel : Channel) (dwSendCompleteSize : Nat) (accepts : Bool) : Channel :=
  let completed := channel.sendComplete dwSendCompleteSize
  if 0 < completed.2 then completed.1.sendOn accepts
  else
    let prepared := completed.1.sendPrepare
    if 0 < prepared.2 then prepared.1.sendOn accepts else prepared.1

/-! Receiving. -/

def wsaRecv (channel : Channel) (accepts : Bool) : Channel :=
  if accepts then { channel with recvs := channel.recvs + 1 } else channel.disconnect

def doRecv (channel : Channel) (self : Nat) (completion : Connector.Completion) (accepts : Bool) :
    Channel :=
  let result := channel.conn.recvComplete self completion
  let stored := { channel with conn := result.1 }
  if result.2.returned < 0 then stored.disconnect
  else
    let prepared := stored.conn.recvPrepare
    let waiting := { stored with conn := prepared.1 }
    if 0 < prepared.2 then waiting.wsaRecv accepts else waiting

/-! Closing. A completion of no bytes closes the socket handle, takes one count back and tries
to release the object when either count is zero. -/

def tryRelease (channel : Channel) : Channel :=
  let tried := channel.conn.tryRelease
  { channel with conn := tried.1, inUse := channel.inUse && !tried.2 }

def decRef (conn : Connector) : NetworkOperator → Connector
  | .opSend => { conn with dwSendRef := conn.dwSendRef - 1 }
  | .opRecv => { conn with dwRecvRef := conn.dwRecvRef - 1 }

def noBytes (channel : Channel) (netOp : NetworkOperator) : Channel :=
  let counted :=
    if channel.conn.dwSendRef ≠ 0 ∨ channel.conn.dwRecvRef ≠ 0 then decRef channel.conn netOp
    else channel.conn
  let closed := { channel with conn := counted }
  if counted.dwSendRef ≤ 0 ∨ counted.dwRecvRef ≤ 0 then closed.tryRelease else closed

/-! The steps of a channel. `sendDone`, `recvDone` and `postedDone` are completions dequeued by
`WorkerThread`, `sendFailed` and `recvFailed` the ones for which `GetQueuedCompletionStatus`
returns false. The last three are what a user session does with its `Connector`. -/

inductive Event
  | write (pSendData : List UInt8) (accepts : Bool)
  | sendDone (dwIOSize : Nat) (accepts : Bool)
  | recvDone (completion : Connector.Completion) (accepts : Bool)
  | postedDone
  | sendFailed
  | recvFailed
  | disconnect
  | setParam (session : Nat)
  | tryRelease
  | release

def dequeueSend (channel : Channel) (next : Channel → Channel) (dwIOSize : Nat) : Channel :=
  match channel.sends with
  | [] => channel
  | bytes :: rest =>
      next { channel with sends := rest, sent := channel.sent ++ bytes.take dwIOSize }

def dequeueRecv (channel : Channel) (next : Channel → Channel) : Channel :=
  if channel.recvs = 0 then channel else next { channel with recvs := channel.recvs - 1 }

def dequeuePosted (channel : Channel) (next : Channel → Channel) : Channel :=
  if channel.posted = 0 then channel else next { channel with posted := channel.posted - 1 }

def step (self : Nat) (channel : Channel) : Event → Channel
  | .write pSendData accepts => (channel.write pSendData accepts).1
  | .sendDone dwIOSize accepts =>
      channel.dequeueSend (fun taken =>
        if dwIOSize = 0 then taken.noBytes .opSend else taken.doSend dwIOSize accepts) dwIOSize
  | .recvDone completion accepts =>
      channel.dequeueRecv fun taken =>
        if completion.chunk = [] then taken.noBytes .opRecv
        else taken.doRecv self completion accepts
  | .postedDone => channel.dequeuePosted fun taken => taken.noBytes .opRecv
  | .sendFailed => channel.dequeueSend disconnect 0
  | .recvFailed => channel.dequeueRecv disconnect
  | .disconnect => channel.disconnect
  | .setParam session => { channel with conn := { channel.conn with param := some session } }
  | .tryRelease => channel.tryRelease
  | .release => tryRelease { channel with conn := { channel.conn with param := none } }

def run (self : Nat) (channel : Channel) (events : List Event) : Channel :=
  events.foldl (step self) channel

end Channel

end ProjectPl
