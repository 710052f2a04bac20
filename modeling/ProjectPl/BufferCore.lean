import ProjectPl.Lib.Fifo
import ProjectPl.Lib.Ring

/-!
The byte buffers of `_framework/buffer.h`. Pointers are offsets from `_pHead`, so `_pHead`
is offset `0` and `_pTail` is offset `_nBufferSize`. The memory behind `_pBuffer` is a
total function: `new char[]` leaves it uninitialised, and nothing below looks at a cell
that was not written first. `ULONG` results are naturals, with `-1` as `0xFFFFFFFF`.
-/

namespace ProjectPl

open Ring

def maxPacketBufferSize : Nat := 1024 * 10

def ulongMinusOne : Nat := 0xFFFFFFFF

structure BufferBase where
  pBuffer : Nat → UInt8
  nDataSize : Nat
  nBufferSize : Nat
  pRead : Nat
  pWrite : Nat

namespace BufferBase

def new (size : Nat) (heap : Nat → UInt8) : BufferBase :=
  { pBuffer := heap, nDataSize := 0, nBufferSize := size, pRead := 0, pWrite := 0 }

def reset (buffer : BufferBase) : BufferBase :=
  { buffer with
    pBuffer := store buffer.pBuffer 0 (List.replicate buffer.nBufferSize 0)
    nDataSize := 0
    pRead := 0
    pWrite := 0 }

def getDataSize (buffer : BufferBase) : Nat := buffer.nDataSize

def getEmptySize (buffer : BufferBase) : Nat := buffer.nBufferSize - buffer.nDataSize

/-- The straight `BufferBase::Write`: the write pointer only ever moves forward. -/
def write (buffer : BufferBase) (pSrc : List UInt8) : BufferBase × Nat :=
  if buffer.getEmptySize < pSrc.length then (buffer, ulongMinusOne)
  else
    let next := { buffer with
      pBuffer := store buffer.pBuffer buffer.pWrite pSrc
      pWrite := buffer.pWrite + pSrc.length
      nDataSize := buffer.nDataSize + pSrc.length }
    (next, next.getEmptySize)

/-- The straight `BufferBase::Read`: what is copied out is consumed, and a request for
more than the buffer holds copies nothing. -/
def read (buffer : BufferBase) (len : Nat) : BufferBase × Nat × Option (List UInt8) :=
  if buffer.getDataSize < len then (buffer, ulongMinusOne, none)
  else
    let next := { buffer with
      pRead := buffer.pRead + len
      nDataSize := buffer.nDataSize - len }
    (next, next.getDataSize, some (load buffer.pBuffer buffer.pRead len))

end BufferBase

/-! The wrap-around operations of `CircleBuffer`. Each answers with the returned `ULONG`,
the bytes copied to the caller and the offsets of `_pBuffer` it touched. -/

structure CircleResult where
  response : Fifo.Response UInt8
  touched : List Nat := []

def offsetsOf (start count : Nat) : List Nat :=
  (List.range count).map (start + ·)

namespace BufferBase

def circleWrite (buffer : BufferBase) (pSrc : List UInt8) : BufferBase × CircleResult :=
  let nLen := pSrc.length
  let empty := buffer.nBufferSize - buffer.nDataSize
  if buffer.nBufferSize < buffer.nDataSize ∨ empty < nLen then
    (buffer, { response := { returned := some ulongMinusOne } })
  else
    let gap := buffer.nBufferSize - buffer.pWrite
    if gap < nLen then
      ({ buffer with
          pBuffer := store (store buffer.pBuffer buffer.pWrite (pSrc.take gap)) 0 (pSrc.drop gap)
          pWrite := nLen - gap
          nDataSize := buffer.nDataSize + nLen },
        { response := { returned := some (buffer.nDataSize + nLen) }
          touched := offsetsOf buffer.pWrite gap ++ offsetsOf 0 (nLen - gap) })
    else
      ({ buffer with
          pBuffer := store buffer.pBuffer buffer.pWrite pSrc
          pWrite := buffer.pWrite + nLen
          nDataSize := buffer.nDataSize + nLen },
        { response := { returned := some (buffer.nDataSize + nLen) }
          touched := offsetsOf buffer.pWrite nLen })

def circleRead (buffer : BufferBase) (nReqSize : Nat) : CircleResult :=
  if buffer.nDataSize < nReqSize then { response := { returned := some ulongMinusOne } }
  else
    let gap := buffer.nBufferSize - buffer.pRead
    if gap < nReqSize then
      { response :=
          { returned := some nReqSize
            copied := load buffer.pBuffer buffer.pRead gap ++ load buffer.pBuffer 0 (nReqSize - gap) }
        touched := offsetsOf buffer.pRead gap ++ offsetsOf 0 (nReqSize - gap) }
    else
      { response :=
          { returned := some nReqSize, copied := load buffer.pBuffer buffer.pRead nReqSize }
        touched := offsetsOf buffer.pRead nReqSize }

def circleErase (buffer : BufferBase) (releaseSize : Nat) : BufferBase × CircleResult :=
  if buffer.nDataSize < releaseSize then
    (buffer, { response := { returned := some ulongMinusOne } })
  else
    let gap := buffer.nBufferSize - buffer.pRead
    let remaining := buffer.nDataSize - releaseSize
    if gap < releaseSize then
      ({ buffer with pRead := releaseSize - gap, nDataSize := remaining },
        { response := { returned := some remaining } })
    else
      ({ buffer with pRead := buffer.pRead + releaseSize, nDataSize := remaining },
        { response := { returned := some remaining } })

def circleReset (buffer : BufferBase) : BufferBase × CircleResult :=
  (buffer.reset, { response := { returned := none }, touched := offsetsOf 0 buffer.nBufferSize })

/-- The pointers of a ring: both stay inside, and the write pointer is the read pointer
advanced by the data size, with at most one turn. Either may rest on the tail. -/
structure Aligned (buffer : BufferBase) : Prop where
  readInside : buffer.pRead ≤ buffer.nBufferSize
  writeInside : buffer.pWrite ≤ buffer.nBufferSize
  dataFits : buffer.nDataSize ≤ buffer.nBufferSize
  chased : buffer.pWrite = buffer.pRead + buffer.nDataSize ∨
    buffer.pWrite + buffer.nBufferSize = buffer.pRead + buffer.nDataSize

theorem new_aligned (size : Nat) (heap : Nat → UInt8) : (new size heap).Aligned :=
  ⟨Nat.zero_le _, Nat.zero_le _, Nat.zero_le _, Or.inl rfl⟩

theorem reset_aligned (buffer : BufferBase) : buffer.reset.Aligned :=
  ⟨Nat.zero_le _, Nat.zero_le _, Nat.zero_le _, Or.inl rfl⟩

theorem circleWrite_aligned (buffer : BufferBase) (pSrc : List UInt8) (aligned : buffer.Aligned) :
    (buffer.circleWrite pSrc).1.Aligned := by
  obtain ⟨readInside, writeInside, dataFits, chased⟩ := aligned
  simp only [circleWrite]
  split
  · exact ⟨readInside, writeInside, dataFits, chased⟩
  · split
    · constructor <;> dsimp only <;> omega
    · constructor <;> dsimp only <;> omega

theorem circleErase_aligned (buffer : BufferBase) (releaseSize : Nat) (aligned : buffer.Aligned) :
    (buffer.circleErase releaseSize).1.Aligned := by
  obtain ⟨readInside, writeInside, dataFits, chased⟩ := aligned
  simp only [circleErase]
  split
  · exact ⟨readInside, writeInside, dataFits, chased⟩
  · split
    · constructor <;> dsimp only <;> omega
    · constructor <;> dsimp only <;> omega

theorem circleWrite_nBufferSize (buffer : BufferBase) (pSrc : List UInt8) :
    (buffer.circleWrite pSrc).1.nBufferSize = buffer.nBufferSize := by
  simp only [circleWrite]
  split
  · rfl
  · split <;> rfl

theorem circleErase_nBufferSize (buffer : BufferBase) (releaseSize : Nat) :
    (buffer.circleErase releaseSize).1.nBufferSize = buffer.nBufferSize := by
  simp only [circleErase]
  split
  · rfl
  · split <;> rfl

end BufferBase

structure CircleBuffer extends BufferBase where
  aligned : toBufferBase.Aligned

namespace CircleBuffer

def new (size : Nat) (heap : Nat → UInt8) : CircleBuffer :=
  ⟨BufferBase.new size heap, BufferBase.new_aligned size heap⟩

def write (buffer : CircleBuffer) (pSrc : List UInt8) : CircleBuffer × CircleResult :=
  (⟨(buffer.circleWrite pSrc).1, buffer.circleWrite_aligned pSrc buffer.aligned⟩,
    (buffer.circleWrite pSrc).2)

def read (buffer : CircleBuffer) (nReqSize : Nat) : CircleResult :=
  buffer.circleRead nReqSize

def erase (buffer : CircleBuffer) (releaseSize : Nat) : CircleBuffer × CircleResult :=
  (⟨(buffer.circleErase releaseSize).1, buffer.circleErase_aligned releaseSize buffer.aligned⟩,
    (buffer.circleErase releaseSize).2)

def reset (buffer : CircleBuffer) : CircleBuffer × CircleResult :=
  (⟨buffer.circleReset.1, buffer.reset_aligned⟩, buffer.circleReset.2)

def step (buffer : CircleBuffer) : Fifo.Op UInt8 → CircleBuffer × CircleResult
  | .write values => buffer.write values
  | .read count => (buffer, buffer.read count)
  | .erase count => buffer.erase count
  | .reset => buffer.reset

/-- The queue of bytes a ring holds, front first. -/
def contents (buffer : CircleBuffer) : List UInt8 :=
  window buffer.pBuffer buffer.nBufferSize buffer.pRead buffer.nDataSize

end CircleBuffer

end ProjectPl
