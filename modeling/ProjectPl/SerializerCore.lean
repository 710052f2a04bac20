import ProjectPl.BufferCore
import ProjectPl.Lib.LittleEndian

/-!
`Serializer` of `_framework/buffer.h`. The same calls run in both directions: on a sending
serializer `Value` appends the value, on a reading one it overwrites the value with the
next bytes, and leaves it as it is when too few bytes are left.
-/

namespace ProjectPl

/-- `stores` is a record for proofs, no call reads it: it holds the index of every element
of a fixed-size member array that a reading call has filled. -/
structure Serializer extends BufferBase where
  forSend : Bool
  stores : List Nat

namespace Serializer

def new : Serializer :=
  { BufferBase.new maxPacketBufferSize (fun _ => 0) with forSend := true, stores := [] }

/-- `Serializer(char* src, DWORD length)`. The result of the initial `Write` is not looked
at, so a source longer than the buffer leaves the serializer empty. -/
def ofData (src : Nat → UInt8) (length : Nat) : Serializer :=
  let buffer := BufferBase.new maxPacketBufferSize (fun _ => 0)
  let filled :=
    if buffer.getEmptySize < length then buffer else (buffer.write (Ring.load src 0 length)).1
  { filled with forSend := false, stores := [] }

def setBuffer (ser : Serializer) (buffer : BufferBase) : Serializer :=
  { ser with toBufferBase := buffer }

def scalar {V : Type} (width : Nat) (encode : V → List UInt8) (decode : List UInt8 → V)
    (ser : Serializer) (value : V) : Serializer × V :=
  if ser.forSend then
    (ser.setBuffer (ser.toBufferBase.write (encode value)).1, value)
  else
    match ser.toBufferBase.read width with
    | (buffer, _, some bytes) => (ser.setBuffer buffer, decode bytes)
    | (buffer, _, none) => (ser.setBuffer buffer, value)

def valueUInt32 : Serializer → Nat → Serializer × Nat :=
  scalar 4 (LittleEndian.encode 4) LittleEndian.decode

def valueInt32 : Serializer → Int → Serializer × Int :=
  scalar 4 (LittleEndian.encodeSigned 4) LittleEndian.decodeSigned

def valueInt64 : Serializer → Int → Serializer × Int :=
  scalar 8 (LittleEndian.encodeSigned 8) LittleEndian.decodeSigned

def sizeOfInt (len : Int) : Nat := (len % 2 ^ 64).toNat

/-- `Value(char* pData, int len)`. The only check is against the room or the bytes left in
the buffer, so a reading call may fill cells past the end of the member array, and a sending
call may send them. What they hold is not known: here it is zero. -/
def valueBytes (ser : Serializer) (pData : List UInt8) (len : Int) : Serializer × List UInt8 :=
  if ser.forSend then
    if ser.getEmptySize < sizeOfInt len then (ser, pData)
    else
      let sent := Ring.load (fun offset => pData.getD offset 0) 0 (sizeOfInt len)
      (ser.setBuffer (ser.toBufferBase.write sent).1, pData)
  else
    match ser.toBufferBase.read (sizeOfInt len) with
    | (buffer, _, some bytes) =>
        ({ ser.setBuffer buffer with stores := ser.stores ++ List.range bytes.length },
          bytes ++ pData.drop bytes.length)
    | (buffer, _, none) => (ser.setBuffer buffer, pData)

end Serializer

end ProjectPl
