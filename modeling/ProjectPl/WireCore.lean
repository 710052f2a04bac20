import ProjectPl.NetworkCore
import ProjectPl.ProcessThread
import ProjectPl.Protocol

/-!
A connection with both of its ends. Each end is a `Channel` of `network.cpp` with the packets
that `RecvComplete` pushes and the loop of `App::ProcessThread` behind them, and what one end
has sent is the stream that the receives of the other end complete with: bytes of which a
`WorkerThread` has not yet taken the completion have not arrived. The steps are those of `Channel`,
at either end and in any order.
-/

namespace ProjectPl

/-- What an end puts into a frame, and the table its packets are dispatched with. -/
structure Side (Out In : Type) where
  sendPacket : Nat → Out → List UInt8
  table : PacketTable In

def clientSide : Side C2SCall S2CCall where
  sendPacket := fun packetTime packet => packet.sendPacket packetTime
  table := clientTable

def serverSide : Side S2CCall C2SCall where
  sendPacket := fun packetTime packet => packet.sendPacket packetTime
  table := serverTable

/-- `arrived` counts the bytes of the other end that receives have completed with. `sentCalls`
and `handled` are records that no step reads: the packets queued for sending with their times,
and for each packet processed whether its tail was right and what it was dispatched to. -/
structure Endpoint (Out In : Type) where
  channel : Channel
  arrived : Nat := 0
  recvQueue : List PacketStruct := []
  sentCalls : List (Nat × Out) := []
  handled : List (Bool × Dispatch In) := []

inductive WireEvent (Out : Type)
  | sendPacket (packetTime : Nat) (packet : Out) (accepts : Bool)
  | sendDone (dwIOSize : Nat) (accepts : Bool)
  | recvDone (dwIOSize : Nat) (heap : Int → UInt8) (accepts : Bool)
  | process
  | postedDone
  | sendFailed
  | recvFailed
  | disconnect
  | setParam (session : Nat)
  | tryRelease
  | release

namespace Endpoint

variable {Out In : Type}

/-- `UserSession::SendPacket`. A closed connection takes nothing into its queue. -/
def sendPacket (side : Side Out In) (endpoint : Endpoint Out In) (packetTime : Nat)
    (packet : Out) (accepts : Bool) : Endpoint Out In :=
  { endpoint with
    channel := (endpoint.channel.write (side.sendPacket packetTime packet) accepts).1
    sentCalls :=
      if endpoint.channel.conn.active then endpoint.sentCalls ++ [(packetTime, packet)]
      else endpoint.sentCalls }

/-- What a completion of `WSARecv` brings: at most the buffer's size of what is on the wire. -/
def completion (endpoint : Endpoint Out In) (peerSent : List UInt8) (dwIOSize : Nat)
    (heap : Int → UInt8) : Connector.Completion :=
  { chunk := (peerSent.drop endpoint.arrived).take (min dwIOSize maxPacketBufferSize)
    heap := heap }

def pushes (endpoint : Endpoint Out In) (self : Nat) (completion : Connector.Completion) :
    List PacketStruct :=
  if completion.chunk = [] then []
  else (endpoint.channel.conn.recvComplete self completion).2.pushed.toList

def recvDone (self : Nat) (endpoint : Endpoint Out In) (completion : Connector.Completion)
    (accepts : Bool) : Endpoint Out In :=
  if endpoint.channel.recvs = 0 then endpoint
  else
    { endpoint with
      channel := endpoint.channel.step self (.recvDone completion accepts)
      arrived := endpoint.arrived + completion.chunk.length
      recvQueue := endpoint.recvQueue ++ endpoint.pushes self completion }

/-- One turn of `App::ProcessThread`, as far as the packet decides it. -/
def process (side : Side Out In) (endpoint : Endpoint Out In) : Endpoint Out In :=
  match endpoint.recvQueue with
  | [] => endpoint
  | packet :: rest =>
      { endpoint with
        recvQueue := rest
        handled := endpoint.handled ++
          [(decide (ProcessThread.checkTail packet = packetCheckTailKey),
            side.table.messageProcess (fun offset => packet.pBuffer offset) packet.nDataSize)] }

def network (self : Nat) (endpoint : Endpoint Out In) (event : Channel.Event) :
    Endpoint Out In :=
  { endpoint with channel := endpoint.channel.step self event }

def step (side : Side Out In) (self : Nat) (peerSent : List UInt8) (endpoint : Endpoint Out In) :
    WireEvent Out → Endpoint Out In
  | .sendPacket packetTime packet accepts => endpoint.sendPacket side packetTime packet accepts
  | .sendDone dwIOSize accepts => endpoint.network self (.sendDone dwIOSize accepts)
  | .recvDone dwIOSize heap accepts =>
      endpoint.recvDone self (endpoint.completion peerSent dwIOSize heap) accepts
  | .process => endpoint.process side
  | .postedDone => endpoint.network self .postedDone
  | .sendFailed => endpoint.network self .sendFailed
  | .recvFailed => endpoint.network self .recvFailed
  | .disconnect => endpoint.network self .disconnect
  | .setParam session => endpoint.network self (.setParam session)
  | .tryRelease => endpoint.network self .tryRelease
  | .release => endpoint.network self .release

end Endpoint

/-- A client that connected to a server, which accepted it in one of its ways. -/
structure Wire where
  client : Endpoint C2SCall S2CCall
  server : Endpoint S2CCall C2SCall

namespace Wire

inductive Event
  | client (event : WireEvent C2SCall)
  | server (event : WireEvent S2CCall)

def start (opening : Channel.Opening) (clientHeap serverHeap : Nat → UInt8) : Wire :=
  { client := { channel := Channel.start .connect clientHeap }
    server := { channel := Channel.start opening serverHeap } }

/-- `self` is the index of the `Connector` on each side. -/
def step (self : Nat) (wire : Wire) : Event → Wire
  | .client event =>
      { wire with client := wire.client.step clientSide self wire.server.channel.sent event }
  | .server event =>
      { wire with server := wire.server.step serverSide self wire.client.channel.sent event }

def run (self : Nat) (wire : Wire) (events : List Event) : Wire := events.foldl (step self) wire

end Wire

end ProjectPl
