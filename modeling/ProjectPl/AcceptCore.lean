import Mathlib.Logic.Function.Basic
import ProjectPl.ObjectPoolsCore

/-!
The `Connector` objects of a `Network`: how `AcceptPrepare`, `DoAccept`, `AcceptThread` and the two
`Connect` of `network.cpp` take them from `ConnectorMgr`, and when they give them back. What the
system answers comes with each call. What happens on a connection is `Channel`'s; here it is only
released at some point.
-/

namespace ProjectPl

/-- `accepting` are the objects with an `AcceptEx` out, `posted` the ones with a completion of
their accept posted by `Disconnect`, `connected` the ones with a receive out. `dropped` and
`forgotten` record the objects that an accept or a `Connect` has left behind, and no call reads
them. -/
structure Network (Pointer : Type) where
  connectorMgr : ObjectPoolMgrBase Pointer
  dwRecvRef : Pointer → UInt32 := fun _ => 0
  accepting : List Pointer := []
  posted : List Pointer := []
  connected : List Pointer := []
  dropped : List Pointer := []
  forgotten : List Pointer := []

namespace Network

variable {Pointer : Type}

def start (heap : Heap Pointer) : Network Pointer :=
  { connectorMgr := ObjectPoolMgrBase.new heap 10 }

structure Prepared where
  socket : Bool
  acceptEx : Bool

structure Received where
  ioCompletionPort : Bool
  wsaRecv : Bool

/-- `Connect` for a `WCHAR` domain goes on without an address when the host is unknown. -/
inductive Overload
  | wide
  | narrow
  deriving DecidableEq

structure Connected where
  lookupHost : Bool
  socket : Bool
  connect : Bool
  received : Received

section

variable [DecidableEq Pointer]

def incRecvRef (network : Network Pointer) (obj : Pointer) : Network Pointer :=
  { network with
    dwRecvRef := Function.update network.dwRecvRef obj (network.dwRecvRef obj + 1) }

def setFreeObject (network : Network Pointer) (obj : Pointer) : Network Pointer :=
  { network with connectorMgr := network.connectorMgr.setFreeObject obj }

/-- `Disconnect` in `AcceptPrepare`: its post finds the overlapped of the accept. -/
def disconnect (network : Network Pointer) (obj : Pointer) : Network Pointer :=
  if network.dwRecvRef obj ≠ 0 then { network with posted := network.posted ++ [obj] }
  else { network with dropped := network.dropped ++ [obj] }

def acceptPrepare (heap : Heap Pointer) (network : Network Pointer) (prepared : Prepared) :
    Network Pointer :=
  let got := network.connectorMgr.getFreeObject heap
  let taken := { network with connectorMgr := got.1 }
  if prepared.socket then
    let counted := taken.incRecvRef got.2
    if prepared.acceptEx then { counted with accepting := counted.accepting ++ [got.2] }
    else counted.disconnect got.2
  else { taken with dropped := taken.dropped ++ [got.2] }

/-- `RecvPrepare` and `WSARecv` behind `CreateIoCompletionPort`. What fails gives the object
back, with its count as it is. -/
def receive (network : Network Pointer) (obj : Pointer) (received : Received) :
    Network Pointer :=
  if received.ioCompletionPort then
    let counted := network.incRecvRef obj
    if received.wsaRecv then { counted with connected := counted.connected ++ [obj] }
    else counted.setFreeObject obj
  else network.setFreeObject obj

def doAccept (network : Network Pointer) (obj : Pointer) (received : Received) :
    Network Pointer :=
  network.receive obj received

/-- What `AcceptThread` does with a socket that `WSAAccept` returned. -/
def acceptSocket (heap : Heap Pointer) (network : Network Pointer) (received : Received) :
    Network Pointer :=
  let got := network.connectorMgr.getFreeObject heap
  let taken := { network with connectorMgr := got.1 }
  if got.2 = heap.null then taken else taken.receive got.2 received

/-- `DoConnect`. A new `Connector` belongs to no session, so `TryRelease` gives it back. -/
def doConnect (network : Network Pointer) (obj : Pointer) (connected : Connected) :
    Network Pointer :=
  if connected.socket then
    if connected.connect then network.receive obj connected.received
    else network.setFreeObject obj
  else network.setFreeObject obj

def connect (heap : Heap Pointer) (network : Network Pointer) (overload : Overload)
    (connected : Connected) : Network Pointer :=
  let got := network.connectorMgr.getFreeObject heap
  let taken := { network with connectorMgr := got.1 }
  if got.2 = heap.null then taken
  else if connected.lookupHost ∨ overload = .wide then taken.doConnect got.2 connected
  else { taken with forgotten := taken.forgotten ++ [got.2] }

/-! The steps. `prepare` is one turn of `AcceptPrepare(nCount)` in `Initialize`. An accept that
fails is dequeued with the completion key of the listening socket, which is null. -/

inductive Event (Pointer : Type)
  | prepare (prepared : Prepared)
  | acceptDone (obj : Pointer) (received : Received) (prepared : Prepared)
  | postedDone (obj : Pointer) (received : Received) (prepared : Prepared)
  | acceptFailed (obj : Pointer)
  | acceptSocket (received : Received)
  | connect (overload : Overload) (connected : Connected)
  | release (obj : Pointer) (dwRecvRef : UInt32)

def step (heap : Heap Pointer) (network : Network Pointer) : Event Pointer → Network Pointer
  | .prepare prepared => network.acceptPrepare heap prepared
  | .acceptDone obj received prepared =>
      if obj ∈ network.accepting then
        let dequeued := { network with accepting := network.accepting.erase obj }
        (dequeued.doAccept obj received).acceptPrepare heap prepared
      else network
  | .postedDone obj received prepared =>
      if obj ∈ network.posted then
        let dequeued := { network with posted := network.posted.erase obj }
        (dequeued.doAccept obj received).acceptPrepare heap prepared
      else network
  | .acceptFailed obj =>
      if obj ∈ network.accepting then
        { network with
          accepting := network.accepting.erase obj, dropped := network.dropped ++ [obj] }
      else network
  | .acceptSocket received => network.acceptSocket heap received
  | .connect overload connected => network.connect heap overload connected
  | .release obj dwRecvRef =>
      if obj ∈ network.connected then
        { network with
          connectorMgr := network.connectorMgr.setFreeObject obj
          dwRecvRef := Function.update network.dwRecvRef obj dwRecvRef
          connected := network.connected.erase obj }
      else network

def run (heap : Heap Pointer) (network : Network Pointer) (events : List (Event Pointer)) :
    Network Pointer :=
  events.foldl (step heap) network

end

/-- The pool does not grow past the limit of its `int` count. -/
def Fits (network : Network Pointer) : Event Pointer → Prop
  | .acceptFailed _ | .release _ _ => True
  | _ => ObjectPoolMgrBase.Fits network.connectorMgr .getFreeObject

end Network

end ProjectPl
