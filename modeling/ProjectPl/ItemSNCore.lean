import ProjectPl.Lib.DotNet
import ProjectPl.Lib.Run

/-!
Serial numbers of items, `GeneratorItemSN` of `_Common/Character.cs`. Its fields are static, so a
server process has one generator, and `Init` gives it the id of the server. The clock of a call is
its input.
-/

namespace ProjectPl.Sharp

open DotNet

structure GeneratorItemSN where
  lastTimeSec : Int := 0
  serverId : UInt8 := 0
  sequance : Int := 0

namespace GeneratorItemSN

def init (generator : GeneratorItemSN) (serverId : Int) : GeneratorItemSN :=
  { generator with serverId := UInt8.ofInt serverId }

/-- The value that `GenerateSN` returns. The operands are sign extended to `Int64` first. -/
def serialNumber (generator : GeneratorItemSN) : Int :=
  (BitVec.ofInt 64 generator.lastTimeSec <<< 32 |||
    BitVec.ofInt 64 generator.serverId.toNat <<< 24 |||
    (BitVec.ofInt 64 generator.sequance &&& 0xFFFFFF)).toInt

/-- The exception leaves the advanced counter behind. -/
def generateSN (generator : GeneratorItemSN) (utcNow : Int) : GeneratorItemSN × Result Int :=
  let currTimeSec := int32 utcNow
  if currTimeSec ≠ generator.lastTimeSec then
    let next := { generator with lastTimeSec := currTimeSec, sequance := 0 }
    (next, .ok next.serialNumber)
  else
    let next := { generator with sequance := int32 (generator.sequance + 1) }
    if 0xFFFFFF < next.sequance then (next, .error .argumentOutOfRange)
    else (next, .ok next.serialNumber)

end GeneratorItemSN

/-! The fields of a number, as the comment of the class lays them out. -/

namespace ItemSN

def utcTimeSec (sn : Int) : Nat := ((BitVec.ofInt 64 sn).extractLsb' 32 32).toNat

def serverId (sn : Int) : Nat := ((BitVec.ofInt 64 sn).extractLsb' 24 8).toNat

def sequanceId (sn : Int) : Nat := ((BitVec.ofInt 64 sn).extractLsb' 0 24).toNat

end ItemSN

/-! Calls on several servers, in the order in which they happen. -/

structure SerialCall (Server : Type) where
  server : Server
  utcNow : Int
  deriving DecidableEq

structure SerialAnswer (Server : Type) extends SerialCall Server where
  result : Result Int

namespace Generators

variable {Server : Type} [DecidableEq Server]

def start (ids : Server → Int) (server : Server) : GeneratorItemSN :=
  GeneratorItemSN.init {} (ids server)

def step (generators : Server → GeneratorItemSN) (call : SerialCall Server) :
    (Server → GeneratorItemSN) × SerialAnswer Server :=
  let generated := (generators call.server).generateSN call.utcNow
  (Function.update generators call.server generated.1, { call with result := generated.2 })

def answers (ids : Server → Int) (calls : List (SerialCall Server)) :
    List (SerialAnswer Server) :=
  (Run.run step (start ids) calls).2

/-- How many of the calls read this second on this server. -/
def sameSecond (server : Server) (utcNow : Int) (calls : List (SerialCall Server)) : Nat :=
  calls.countP fun call => call.server = server ∧ call.utcNow = utcNow

end Generators

end ProjectPl.Sharp
