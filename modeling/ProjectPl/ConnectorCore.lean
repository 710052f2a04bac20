import ProjectPl.PacketCore

/-!
`Connector` of `_framework/connector.h` with the `DataParser` of the server, the packets it
pushes to `RecvPacketQueue` and the buffers it hands to `WSASend`. The calls are the atomic
steps; locks and overlapped headers are left out.
-/

namespace ProjectPl

open Ring

def toInt32 (value : Nat) : Int :=
  let word : Nat := value % 2 ^ 32
  if word < 2 ^ 31 then (word : Int) else (word : Int) - 2 ^ 32

/-! `NetworkBuffer`, as far as sending uses it. `wsaBuf` is the offset of `_WSABuffer.buf`
from `_pBuffer`. -/

structure NetworkBuffer where
  pBuffer : List UInt8
  nDataSize : Nat
  wsaBuf : Nat
  wsaLen : Nat
  deriving DecidableEq, Repr

namespace NetworkBuffer

def setSendData (pData : List UInt8) : Option NetworkBuffer :=
  if maxPacketBufferSize < pData.length then none
  else some { pBuffer := pData, nDataSize := pData.length, wsaBuf := 0, wsaLen := pData.length }

def wsaBytes (buffer : NetworkBuffer) : List UInt8 :=
  (buffer.pBuffer.drop buffer.wsaBuf).take buffer.wsaLen

end NetworkBuffer

/-! `PacketStruct`. The memory is addressed relative to `_pBuffer`, on both sides of it. -/

structure PacketStruct where
  pConnector : Nat
  nDataSize : Nat
  pBuffer : Int → UInt8

namespace PacketStruct

def ofRead (pConnector nDataSize : Nat) (heap : Int → UInt8) (copied : List UInt8) :
    PacketStruct :=
  { pConnector := pConnector
    nDataSize := nDataSize
    pBuffer := fun offset =>
      if offset < 0 then heap offset
      else store (fun inside => heap inside) 0 copied offset.toNat }

def data (packet : PacketStruct) : List UInt8 :=
  load (fun offset => packet.pBuffer offset) 0 packet.nDataSize

end PacketStruct

structure Connector where
  active : Bool
  param : Option Nat
  sendRequest : Option NetworkBuffer
  sendQueue : List NetworkBuffer
  dwSendRef : UInt32
  recvDataBuffer : CircleBuffer
  dwRecvRef : UInt32
  recvCapacity : recvDataBuffer.nBufferSize = maxPacketBufferSize

namespace Connector

def new (heap : Nat → UInt8) : Connector :=
  { active := false
    param := none
    sendRequest := none
    sendQueue := []
    dwSendRef := 0
    recvDataBuffer := CircleBuffer.new maxPacketBufferSize heap
    dwRecvRef := 0
    recvCapacity := rfl }

/-! The receiving side. A completion brings the bytes received and the uninitialised memory
that a new `PacketStruct` starts from. -/

structure Completion where
  chunk : List UInt8
  heap : Int → UInt8

structure RecvReply where
  returned : Int
  pushed : Option PacketStruct

def dataParser (buffer : CircleBuffer) : Int :=
  match parseNetworkData buffer 0 with
  | (.invalidPacket, _) => -1
  | (_, length) => toInt32 length

def recvPrepare (conn : Connector) : Connector × Int :=
  ({ conn with dwRecvRef := conn.dwRecvRef + 1 }, maxPacketBufferSize)

def recvComplete (self : Nat) (conn : Connector) (completion : Completion) :
    Connector × RecvReply :=
  let released := { conn with dwRecvRef := conn.dwRecvRef - 1 }
  if conn.recvDataBuffer.getEmptySize < completion.chunk.length then
    (released, { returned := -1, pushed := none })
  else
    let filled := (conn.recvDataBuffer.write completion.chunk).1
    let nPacketLength := dataParser filled
    if 0 < nPacketLength then
      let result := (filled.read nPacketLength.toNat).response
      let packet := PacketStruct.ofRead self (result.returned.getD 0) completion.heap result.copied
      let erased := (filled.erase nPacketLength.toNat).1
      ({ released with
          recvDataBuffer := erased
          recvCapacity :=
            ((filled.circleErase_nBufferSize _).trans
              (conn.recvDataBuffer.circleWrite_nBufferSize _)).trans conn.recvCapacity },
        { returned := toInt32 erased.getDataSize, pushed := some packet })
    else
      ({ released with
          recvDataBuffer := filled
          recvCapacity :=
            (conn.recvDataBuffer.circleWrite_nBufferSize _).trans conn.recvCapacity },
        { returned := -1, pushed := none })

def recvContents (conn : Connector) : List UInt8 := conn.recvDataBuffer.contents

/-! The sending side. -/

def addSendQueue (conn : Connector) (pSendData : List UInt8) : Connector × Int :=
  match NetworkBuffer.setSendData pSendData with
  | none => (conn, -1)
  | some buffer =>
      ({ conn with sendQueue := conn.sendQueue ++ [buffer] },
        toInt32 (conn.sendQueue.length + 1))

def sendPrepare (conn : Connector) : Connector × Int :=
  match conn.sendQueue with
  | [] => (conn, 0)
  | front :: rest =>
      if 0 < conn.dwSendRef then (conn, 0)
      else
        ({ conn with
            sendQueue := rest
            sendRequest := some front
            dwSendRef := conn.dwSendRef + 1 },
          toInt32 front.nDataSize)

def sendComplete (conn : Connector) (dwSendSize : Nat) : Connector × Int :=
  match conn.sendRequest with
  | none => (conn, 0)
  | some buffer =>
      if dwSendSize < buffer.nDataSize then
        let remaining := { buffer with
          nDataSize := buffer.nDataSize - dwSendSize
          wsaBuf := buffer.wsaBuf + dwSendSize
          wsaLen := buffer.wsaLen - dwSendSize }
        ({ conn with sendRequest := some remaining }, toInt32 remaining.nDataSize)
      else ({ conn with sendRequest := none, dwSendRef := conn.dwSendRef - 1 }, 0)

theorem sendPrepare_empty {conn : Connector} (empty : conn.sendQueue = []) :
    conn.sendPrepare = (conn, 0) := by
  unfold sendPrepare
  rw [empty]

theorem sendPrepare_busy {conn : Connector} (busy : 0 < conn.dwSendRef) :
    conn.sendPrepare = (conn, 0) := by
  unfold sendPrepare
  split
  · rfl
  · rw [if_pos busy]

theorem sendPrepare_pops {conn : Connector} {front : NetworkBuffer} {rest : List NetworkBuffer}
    (waiting : conn.sendQueue = front :: rest) (idle : ¬0 < conn.dwSendRef) :
    conn.sendPrepare =
      ({ conn with
          sendQueue := rest
          sendRequest := some front
          dwSendRef := conn.dwSendRef + 1 },
        toInt32 front.nDataSize) := by
  unfold sendPrepare
  rw [waiting]
  simp only [idle, ↓reduceIte]

theorem sendComplete_spurious {conn : Connector} (none : conn.sendRequest = none)
    (dwSendSize : Nat) : conn.sendComplete dwSendSize = (conn, 0) := by
  unfold sendComplete
  rw [none]

theorem sendComplete_partly {conn : Connector} {buffer : NetworkBuffer} {dwSendSize : Nat}
    (requested : conn.sendRequest = some buffer) (partly : dwSendSize < buffer.nDataSize) :
    conn.sendComplete dwSendSize =
      ({ conn with
          sendRequest := some { buffer with
            nDataSize := buffer.nDataSize - dwSendSize
            wsaBuf := buffer.wsaBuf + dwSendSize
            wsaLen := buffer.wsaLen - dwSendSize } },
        toInt32 (buffer.nDataSize - dwSendSize)) := by
  unfold sendComplete
  rw [requested]
  simp only [partly, ↓reduceIte]

theorem sendComplete_wholly {conn : Connector} {buffer : NetworkBuffer} {dwSendSize : Nat}
    (requested : conn.sendRequest = some buffer) (wholly : ¬dwSendSize < buffer.nDataSize) :
    conn.sendComplete dwSendSize =
      ({ conn with sendRequest := none, dwSendRef := conn.dwSendRef - 1 }, 0) := by
  unfold sendComplete
  rw [requested]
  simp only [wholly, ↓reduceIte]

/-! Closing the socket and giving the object back. The Boolean of `tryRelease` says whether
`SetFreeObject` is called. -/

def release (conn : Connector) : Connector :=
  { conn with active := false, sendRequest := none }

def tryRelease (conn : Connector) : Connector × Bool :=
  let closed := { conn with active := false }
  match conn.param with
  | none => (closed.release, true)
  | some _ => (closed, false)

end Connector

end ProjectPl
