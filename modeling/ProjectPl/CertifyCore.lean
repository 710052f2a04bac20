import ProjectPl.Lib.DotNet
import ProjectPl.Lib.LittleEndian

/-!
The challenge of `_framework/certifyData.cpp`. A `char` is a byte that counts as signed when it
is promoted to `int`. `_szString` is the last member of `CCertifyData`: behind its 81 bytes come the
padding of the object and then what belongs to others, so memory is a function of the offset from
its start, past the end as well.
-/

namespace ProjectPl

namespace Certify

def maxStringLen : Nat := 60

def maxConvertBufferLen : Nat := 80

def maxEncStringLen : Nat := 10

def chars (literal : String) : List UInt8 := literal.toUTF8.data.toList

def szConvertTable : List String :=
  ["AKSBC+Z3a69psMDgwyxoiXLHhtn7cuTImdEYObrFz58JGlWVUfk40eNPQvqRj/12",
   "Mv0oVS+PTjdzZEAr3eBf7lsOhIHGCgn4DFJkK/1LbtWNQmRy5xcqi9UuwYXap826",
   "8fnXUH+CyMvGQeAwxhcrBLSWDTk1aE47z3q2sIbF5NliJ6pPuKZOgjR/Vt0Ydom9",
   "Yq43A/PS7tDOedBJ0oVxZbunCFE+kGyrw5WIjpUHQhlTKgsviaL2cRM6z9fNXm18",
   "8qvxAb3VN07Ph2BdfsCDXoU1gTyu6jE/FpmKGRlHr4YeILZ+iW5atzJncSMOQkw9",
   "oWCUsSF2Zkqjz8Al7edBcLr6gxmvIQGHhyu9RKDE4MJbN+TfY0t1aOPXV/3inpw5",
   "c26aq0o4Mhfp1SAKknJizlH5BNGECDr3YvF+b7QIT8ULOxdyjZ9mtPR/VguWXesw",
   "8+KzAhxBPjNrLYCQ25HlRmwIgqpOJDvofbZ1dsWEFXeSGntay4kc60MUTi3Vu97/",
   "k5+qA/LrBuXQGxCJ1KyD6aYREgNFPnMV40Hzm72IOswUS9eitocpl3TvfbjWZdh8",
   "UtwSq/r6eFyKpxAav+5HQkcNBRfMoJI8h3XnLmCDZsgPEbT12z0dulGWjiYOV479"]

def gSzCertifyString : List String :=
  ["123456789012345678901234567890123456789012345678901234567890",
   "234567890123456789012345678901234567890123456789012345678901",
   "345678901234567890123456789012345678901234567890123456789012",
   "456789012345678901234567890123456789012345678901234567890123",
   "567890123456789012345678901234567890123456789012345678901234",
   "678901234567890123456789012345678901234567890123456789012345",
   "789012345678901234567890123456789012345678901234567890123456",
   "890123456789012345678901234567890123456789012345678901234567",
   "901234567890123456789012345678901234567890123456789012345678",
   "012345678901234567890123456789012345678901234567890123456789"]

def certifyString (index : Fin 10) : List UInt8 := chars (gSzCertifyString.getD index "")

abbrev VecConvertTable := List UInt8

/-- `g_VecBaseTable` once it is filled. -/
def certifyConvertTableInit (idx : Fin 10) : VecConvertTable :=
  (List.range 64).map fun offset => (chars (szConvertTable.getD idx "")).getD offset 0

/-! Arithmetic of `char`: promoted, computed in `int`, and cut to a byte again. -/

def promote (value : UInt8) : BitVec 32 := value.toBitVec.signExtend 32

def toChar (value : BitVec 32) : UInt8 := UInt8.ofBitVec (value.setWidth 8)

def encDigits (first second third : UInt8) : List UInt8 :=
  [toChar ((promote first &&& 0xFC).sshiftRight 2),
   toChar (((promote first &&& 0x03) <<< 4) ||| (promote second &&& 0xF0).sshiftRight 4),
   toChar (((promote second &&& 0x0F) <<< 2) ||| (promote third &&& 0xC0).sshiftRight 6),
   toChar (promote third &&& 0x3F)]

def decChars (first second third fourth : UInt8) : List UInt8 :=
  [toChar ((promote first <<< 2) ||| (promote second).sshiftRight 4),
   toChar ((promote second <<< 4) ||| (promote third).sshiftRight 2),
   toChar ((promote third <<< 6) ||| promote fourth)]

def tableAt (table : VecConvertTable) (enc : UInt8) : UInt8 := table.getD (promote enc).toNat 0

/-- The search for a char in the table. One that is not in it stays as it is. -/
def searchTable (table : VecConvertTable) (enc : UInt8) : UInt8 :=
  match (List.range 64).find? (fun nEncKey => enc = table.getD nEncKey 0) with
  | some nEncKey => UInt8.ofNat nEncKey
  | none => enc

/-- `szEncBuffer` of `Convert`, as far as it is filled. -/
def encBuffer (table : VecConvertTable) (szString : Nat → UInt8) : List UInt8 :=
  (List.range' 0 (maxStringLen / 3) 3).flatMap fun offset =>
    (encDigits (szString offset) (szString (offset + 1)) (szString (offset + 2))).map
      (tableAt table)

/-- `szDecBuffer` of the two functions that recover, as far as it is filled. -/
def decBuffer (table : VecConvertTable) (szEncBuffer : Nat → UInt8) : List UInt8 :=
  (List.range' 0 (maxConvertBufferLen / 4) 4).flatMap fun offset =>
    decChars (searchTable table (szEncBuffer offset)) (searchTable table (szEncBuffer (offset + 1)))
      (searchTable table (szEncBuffer (offset + 2))) (searchTable table (szEncBuffer (offset + 3)))

/-- The first 80 bytes of a local buffer that starts out zero. -/
def copied (buffer : List UInt8) : List UInt8 :=
  (buffer ++ List.replicate (maxConvertBufferLen + 1) 0).take maxConvertBufferLen

def certifyDataRecover (vecBaseTable : Fin 10 → VecConvertTable) (nConvertTable : Fin 10)
    (szData : List UInt8) : List UInt8 × Nat :=
  let dec := decBuffer (vecBaseTable nConvertTable) fun offset => szData.getD offset 0
  (copied dec, dec.length)

/-- `accessed` records the offsets that `memcpy` reads or writes, and nothing reads it. -/
structure Memory where
  bytes : Nat → UInt8
  accessed : List Nat := []

def Memory.store (memory : Memory) (offset : Nat) (data : List UInt8) : Memory :=
  { memory with
    bytes := fun place =>
      if offset ≤ place ∧ place < offset + data.length then data.getD (place - offset) 0
      else memory.bytes place }

def Memory.load (memory : Memory) (offset size : Nat) : List UInt8 :=
  (List.range size).map fun place => memory.bytes (offset + place)

/-- One turn of the loops of `Encrypt`: a block is copied out, changed, and copied back. -/
def Memory.change (memory : Memory) (change : List UInt8 → List UInt8) (size offset : Nat) :
    Memory :=
  { memory.store offset (change (memory.load offset size)) with
    accessed := memory.accessed ++ List.range' offset size ++ List.range' offset size }

def encryptLoop (stride : Nat) (change : List UInt8 → List UInt8) (memory : Memory) : Memory :=
  (List.range' 0 ((maxConvertBufferLen + stride - 1) / stride) stride).foldl
    (fun current offset => current.change change stride offset) memory

/-- A null-terminated string, without its end. -/
structure CString where
  chars : List UInt8
  terminated : ∀ char ∈ chars, char ≠ 0

def CString.intLength (string : CString) : Int := DotNet.int32 string.chars.length

/-- What the three overloads of `Encrypt` take. -/
inductive EncKey
  | int32 (nEncKey : BitVec 32)
  | int64 (ulEncKey : BitVec 64)
  | string (pszEncString : CString)

def xorInteger (size : Nat) (key : Nat) (buffer : List UInt8) : List UInt8 :=
  LittleEndian.encode size (LittleEndian.decode buffer ^^^ key)

def encrypt (memory : Memory) : EncKey → Memory
  | .int32 nEncKey => encryptLoop 4 (xorInteger 4 nEncKey.toNat) memory
  | .int64 ulEncKey => encryptLoop 8 (xorInteger 8 ulEncKey.toNat) memory
  | .string pszEncString =>
      let len := pszEncString.intLength
      if len ≤ 0 then memory
      else
        encryptLoop (min len maxEncStringLen).toNat
          (fun buffer => List.zipWith (· ^^^ ·) buffer pszEncString.chars) memory

def strncmp : Nat → List UInt8 → List UInt8 → Int
  | count + 1, first :: firstRest, second :: secondRest =>
      if first ≠ second then (first.toNat : Int) - second.toNat
      else if first = 0 then 0
      else strncmp count firstRest secondRest
  | _, _, _ => 0

end Certify

open Certify

/-- `int` and `INT32` members are words, and the indices stay inside the ten tables. -/
structure CCertifyData where
  nStringIndex : Fin 10 := 0
  nConvertTableID : Fin 10 := 0
  nCheckCount : BitVec 32 := 0
  nEncKey : BitVec 32 := 0
  szString : Memory := { bytes := fun _ => 0 }

namespace CCertifyData

/-- `rand` is what `rand()` returns. The limits on the index have no effect. -/
def setString (data : CCertifyData) (rand : Nat) : CCertifyData :=
  let nRand := Fin.ofNat 10 rand
  { data with
    szString := data.szString.store 0 (certifyString nRand ++ [0])
    nStringIndex := nRand }

def getString (data : CCertifyData) : List UInt8 := data.szString.load 0 maxConvertBufferLen

section

variable (vecBaseTable : Fin 10 → VecConvertTable)

def convert (data : CCertifyData) (nConvertTableID : Fin 10) : CCertifyData × Nat :=
  let enc := encBuffer (vecBaseTable nConvertTableID) data.szString.bytes
  ({ data with
      szString := data.szString.store 0 (copied enc)
      nConvertTableID := nConvertTableID }, enc.length)

def recover (data : CCertifyData) (nConvertTableID : Fin 10) : CCertifyData × Nat :=
  let dec := decBuffer (vecBaseTable nConvertTableID) data.szString.bytes
  ({ data with szString := data.szString.store 0 (copied dec) }, dec.length)

end

def encrypt (data : CCertifyData) (key : EncKey) : CCertifyData :=
  { data with szString := Certify.encrypt data.szString key }

/-- The calls of `rand()` that `MakeCertifyData` makes: two for a key of its own. -/
structure Rand where
  high : Nat := 0
  low : Nat := 0
  string : Nat := 0
  table : Nat := 0

def makeCertifyData (vecBaseTable : Fin 10 → VecConvertTable) (data : CCertifyData)
    (nEncKey : BitVec 32) (rand : Rand) : CCertifyData × Fin 10 :=
  let key :=
    if nEncKey = 0 then
      BitVec.ofNat 32 (rand.high % 10000) <<< 16 ||| BitVec.ofNat 32 (rand.low % 10000)
    else nEncKey
  let encrypted := { data.setString rand.string with nEncKey := key }.encrypt (.int32 key)
  let converted := (encrypted.convert vecBaseTable (Fin.ofNat 10 rand.table)).1
  ({ converted with nCheckCount := converted.nCheckCount + 1 }, converted.nConvertTableID)

def getCertifyData (data : CCertifyData) : List UInt8 × Fin 10 :=
  (data.szString.load 0 maxConvertBufferLen, data.nConvertTableID)

def checkCertifyData (data : CCertifyData) (szData : List UInt8) : CCertifyData × Bool :=
  let decrypted := { data with
    szString := data.szString.store 0 (szData.take maxConvertBufferLen) }.encrypt
      (.int32 data.nEncKey)
  let expected := certifyString data.nStringIndex
  if strncmp expected.length decrypted.getString expected ≠ 0 then (decrypted, false)
  else ({ decrypted with nCheckCount := decrypted.nCheckCount - 1 }, true)

end CCertifyData

end ProjectPl
