import ProjectPl.Lib.DotNet
import ProjectPl.Lib.LittleEndian
import ProjectPl.Lib.Utf

/-!
The C# frame codecs: `PacketSerializer.cs` and `Packet.cs` of `PL_Network` and of `PL_Common`.
The two libraries are copies of each other up to the type of a packet's number and up to the
`byte[]` overload of `Value`, which in `PL_Common` has the length in front of the bytes. A
`Dialect` holds these two differences.

`UInt32` values are naturals, `Int32` and `Int64` values integers, and only the encoding
truncates them to their width.
-/

namespace ProjectPl.Sharp

open DotNet LittleEndian

theorem int32_fitsSigned (value : Int) : FitsSigned 4 (int32 value) := by
  have lower := @Int.le_bmod value 0x100000000 (by decide)
  have upper := @Int.bmod_lt value 0x100000000 (by decide)
  norm_num at lower upper
  rw [FitsSigned, int32]
  norm_num
  omega

structure Serializer where
  write : Bool
  offset : Nat
  buffer : List UInt8

namespace Serializer

def ofLength (length : Int) : Result Serializer := do
  let buffer ← newBytes length
  return { write := true, offset := 0, buffer := buffer }

def ofBuffer (source : List UInt8) (length : Int) : Result Serializer := do
  let blank ← newBytes length
  let buffer ← arrayCopy source 0 blank 0 length
  return { write := false, offset := 0, buffer := buffer }

/-- The `Value` overloads for numbers. -/
def scalar {V : Type} (width : Nat) (encode : V → List UInt8) (decode : List UInt8 → V)
    (ser : Serializer) (value : V) : Result (Serializer × V) :=
  if ser.write then do
    let buffer ← arrayCopy (encode value) 0 ser.buffer ser.offset width
    return ({ ser with buffer := buffer, offset := ser.offset + width }, value)
  else do
    let bytes ← bitConverter ser.buffer ser.offset width
    return ({ ser with offset := ser.offset + width }, decode bytes)

def valueUInt32 : Serializer → Nat → Result (Serializer × Nat) :=
  scalar 4 (encode 4) decode

def valueInt32 : Serializer → Int → Result (Serializer × Int) :=
  scalar 4 (encodeSigned 4) decodeSigned

/-- `Value(ref byte[], int)` of `PL_Network`. -/
def valueBytes (ser : Serializer) (data : List UInt8) (length : Int) :
    Result (Serializer × List UInt8) :=
  if ser.write then do
    let buffer ← arrayCopy data 0 ser.buffer ser.offset length
    return ({ ser with buffer := buffer, offset := ser.offset + length.toNat }, data)
  else do
    let copied ← arrayCopy ser.buffer ser.offset data 0 length
    return ({ ser with offset := ser.offset + length.toNat }, copied)

/-- `Value(ref byte[], Int32)` of `PL_Common`. The length read replaces the one passed. -/
def valueCountedBytes (ser : Serializer) (data : List UInt8) (length : Int) :
    Result (Serializer × List UInt8) := do
  let count ← ser.valueInt32 length
  count.1.valueBytes data count.2

/-- `Value(ref string, int)` of `PL_Network`. -/
def valueString (ser : Serializer) (data : List UInt16) (length : Int) :
    Result (Serializer × List UInt16) :=
  if ser.write then do
    let buffer ← arrayCopy (Utf.utf8Encode (Utf.utf16Decode data)) 0 ser.buffer ser.offset length
    return ({ ser with buffer := buffer, offset := ser.offset + length.toNat }, data)
  else if length < 0 then .error .argumentOutOfRange
  else if ser.buffer.length < ser.offset + length.toNat then .error .argumentOutOfRange
  else
    .ok ({ ser with offset := ser.offset + length.toNat },
      Utf.utf16Encode (Utf.utf8Decode ((ser.buffer.drop ser.offset).take length.toNat)))

end Serializer

/-! Where the two libraries differ. -/

structure Dialect (T : Type) where
  noType : T
  encodeType : T → List UInt8
  decodeType : List UInt8 → T
  valueData : Serializer → List UInt8 → Int → Result (Serializer × List UInt8)

namespace Dialect

def valueType {T : Type} (dialect : Dialect T) : Serializer → T → Result (Serializer × T) :=
  Serializer.scalar 4 dialect.encodeType dialect.decodeType

def plNetwork : Dialect Nat where
  noType := 0
  encodeType := encode 4
  decodeType := decode
  valueData := Serializer.valueBytes

def plCommon : Dialect Int where
  noType := 0
  encodeType := encodeSigned 4
  decodeType := decodeSigned
  valueData := Serializer.valueCountedBytes

end Dialect

/-! The parts of a frame. -/

structure PacketHead where
  checkHead : Nat := 0x00000000
  packetLength : Int := 0
  deriving DecidableEq, Repr

def PacketHead.length : Int := 4 + 4

def PacketHead.serialize (head : PacketHead) (ser : Serializer) :
    Result (Serializer × PacketHead) := do
  let check ← ser.valueUInt32 head.checkHead
  let length ← check.1.valueInt32 head.packetLength
  return (length.1, { checkHead := check.2, packetLength := length.2 })

structure PacketTail where
  checkTail : Nat := 0x10000000
  packetSeq : Nat := 0
  packetTime : Nat := 0
  deriving DecidableEq, Repr

def PacketTail.length : Int := 4 * 3

def PacketTail.serialize (tail : PacketTail) (ser : Serializer) :
    Result (Serializer × PacketTail) := do
  let check ← ser.valueUInt32 tail.checkTail
  let seq ← check.1.valueUInt32 tail.packetSeq
  let time ← seq.1.valueUInt32 tail.packetTime
  return (time.1, { checkTail := check.2, packetSeq := seq.2, packetTime := time.2 })

structure PacketBody (T : Type) where
  packetType : T
  packetData : List UInt8 := []
  deriving DecidableEq, Repr

def PacketBody.serialize {T : Type} (dialect : Dialect T) (body : PacketBody T) (ser : Serializer)
    (bodyLength : Int) : Result (Serializer × PacketBody T) := do
  let packetData ← newBytes (int32 (bodyLength - 4))
  let packetType ← dialect.valueType ser body.packetType
  let data ← dialect.valueData packetType.1 packetData packetData.length
  return (data.1, { packetType := packetType.2, packetData := data.2 })

structure Packet (T : Type) where
  head : PacketHead
  body : PacketBody T
  tail : PacketTail
  deriving DecidableEq, Repr

/-- The constructor `Packet(Serializer)`. -/
def Packet.ofSerializer {T : Type} (dialect : Dialect T) (ser : Serializer) :
    Result (Packet T) := do
  let head ← PacketHead.serialize {} ser
  let bodyLength := int32 (head.2.packetLength - PacketHead.length - PacketTail.length)
  let body ← PacketBody.serialize dialect { packetType := dialect.noType } head.1 bodyLength
  let tail ← PacketTail.serialize {} body.1
  return { head := head.2, body := body.2, tail := tail.2 }

/-- What a subclass of the abstract `PacketBase` contributes once its fields are set: the packet
number, `GetSize` and the writing side of `Serialize`. -/
structure PacketBase (T : Type) where
  packetType : T
  getSize : Int
  serialize : Serializer → Result Serializer
  getSize_isInt32 : FitsSigned 4 getSize

def packetSerializer {T : Type} (dialect : Dialect T) (body : PacketBase T) :
    Result Serializer := do
  let packetLength := int32 (PacketHead.length + body.getSize + PacketTail.length)
  let ser ← Serializer.ofLength packetLength
  let head ← PacketHead.serialize { packetLength := packetLength } ser
  let packetType ← dialect.valueType head.1 body.packetType
  let written ← body.serialize packetType.1
  let tail ← PacketTail.serialize {} written
  return tail.1

def packetDeserializer {T : Type} (dialect : Dialect T) (buffer : List UInt8)
    (bufferLength : Int) : Result (Packet T) := do
  let ser ← Serializer.ofBuffer buffer bufferLength
  Packet.ofSerializer dialect ser

end ProjectPl.Sharp
