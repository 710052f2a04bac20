import ProjectPl.CertifyCore
import ProjectPl.Lib.Run
import ProjectPl.Tokenize

/-!
`App::CommandThread` of `cli/process.cpp`, one line of input after the other. A connector and a
session are named by their slots. What is only printed is left out, and so are the pauses of
`/sendLoop`.
-/

namespace ProjectPl

namespace Console

open Certify (chars)

def cmdSize : Nat := 1024

inductive Command
  | connect
  | disconnect
  | auth
  | enter
  | leave
  | move
  | send
  | sendLoop
  | exit
  | unknown
  deriving DecidableEq

/-- The chain of comparisons, in its order. -/
def commands : List (String × Command) :=
  [("/connect", .connect), ("/disconnect", .disconnect), ("/auth", .auth), ("/enter", .enter),
    ("/leave", .leave), ("/move", .move), ("/send", .send), ("/sendLoop", .sendLoop),
    ("/exit", .exit)]

/-- Whether `strncmp` finds no difference. A string is the bytes before its null byte. -/
def strncmpEq : Nat → List UInt8 → List UInt8 → Bool
  | 0, _, _ => true
  | _ + 1, [], [] => true
  | _ + 1, [], _ :: _ => false
  | _ + 1, _ :: _, [] => false
  | count + 1, char :: one, other :: two => char = other && strncmpEq count one two

/-- The comparison stops at the length of the token, so its first letters are enough. -/
def command (token : List UInt8) : Command :=
  match commands.find? fun entry => strncmpEq token.length token (chars entry.1) with
  | some entry => entry.2
  | none => .unknown

def isSpace (char : UInt8) : Bool := char = 32 || (9 ≤ char && char ≤ 13)

def isDigit (char : UInt8) : Bool := 48 ≤ char && char ≤ 57

def digits (text : List UInt8) : Int :=
  (text.takeWhile isDigit).foldl (fun value digit => value * 10 + (digit.toNat - 48)) 0

/-- `atoi`, which stops at the ends of `int`. -/
def atoi (text : List UInt8) : Int :=
  let value :=
    match text.dropWhile isSpace with
    | 45 :: rest => -digits rest
    | 43 :: rest => digits rest
    | rest => digits rest
  max (-2 ^ 31) (min value (2 ^ 31 - 1))

/-- `TokenizeA(cmdStr, cmdTokens, " ")`. No more than a pass for each character is needed. -/
def tokenizeA (cmdStr : List UInt8) : Option (List (List UInt8)) :=
  (Loop.run (Tokenizing.pass cmdStr [32]) (cmdStr.length + 1)
    (Tokenizing.start cmdStr [] [32])).join

/-- A line of input, and what the calls made for it come to: the results of `net.Connect` and of
`GetFreeObject`, and where the player's character would move to. -/
structure Line where
  text : List UInt8
  connector : Option Nat := none
  session : Option Nat := none
  position : Int × Int := (0, 0)

def Line.cmdStr (line : Line) : List UInt8 := line.text.takeWhile (· ≠ 0)

inductive Request
  | auth
  | enter
  | move (position : Int × Int)
  | echo
  deriving DecidableEq

inductive Call
  | attach (connector session : Nat)
  | disconnect (connector : Nat)
  | request (session : Nat) (request : Request)
  | addCommandUnits
  | stop
  deriving DecidableEq

inductive State
  | reading
  | stopped
  | crashed
  deriving DecidableEq

end Console

structure Console where
  pConnector : Option Nat := none
  pSession : Option Nat := none
  state : Console.State := .reading

namespace Console

variable (console : Console) (line : Line)

def crash : Console × List Call := ({ console with state := .crashed }, [])

/-- The session of a new connector. Without one the connector is closed, and kept. -/
def attach (connector : Nat) : Console × List Call :=
  let connected := { console with pConnector := some connector, pSession := line.session }
  match line.session with
  | some session => (connected, [.attach connector session])
  | none => (connected, [.disconnect connector])

def ifSession (requests : List Request) : List Call :=
  match console.pSession with
  | some session => requests.map (.request session)
  | none => []

def onSession (request : Request) : Console × List Call :=
  match console.pSession with
  | some session => (console, [.request session request])
  | none => console.crash

def loopCount : List (List UInt8) → Int
  | [] => 5
  | count :: _ => atoi count

def perform (arguments : List (List UInt8)) : Command → Console × List Call
  | .connect =>
      match console.pConnector, line.connector with
      | none, some connector => console.attach line connector
      | none, none => (console, [])
      | some _, _ => (console, [])
  | .disconnect =>
      match console.pConnector with
      | some connector => ({ console with pConnector := none }, [.disconnect connector])
      | none => (console, [])
  | .auth => (console, console.ifSession [.auth])
  | .enter => console.onSession .enter
  | .leave => (console, [])
  | .move => console.onSession (.move line.position)
  | .send => (console, console.ifSession [.echo])
  | .sendLoop =>
      (console, console.ifSession (List.replicate (max 1 (loopCount arguments)).toNat .echo))
  | .exit => ({ console with state := .stopped }, [.stop])
  | .unknown => (console, [.addCommandUnits])

/-- One turn of the loop. `gets_s` does not return from a line that is too long for its buffer,
and the first token of a line that has none is not there. -/
def turn : Console × List Call :=
  if cmdSize ≤ line.text.length then console.crash
  else if line.cmdStr = [] then (console, [])
  else
    match tokenizeA line.cmdStr with
    | some (token :: arguments) => console.perform line arguments (command token)
    | some [] => console.crash
    | none => console.crash

def step : Console × List Call :=
  match console.state with
  | .reading => console.turn line
  | .stopped => (console, [])
  | .crashed => (console, [])

def run (lines : List Line) : Console × List (List Call) := Run.run step {} lines

end Console

end ProjectPl
