import ProjectPl.Lib.CppString
import ProjectPl.Lib.Loop

/-!
`json_parser_simple` of `_lib/_json.cpp`. A pointer to a node is its index in the order of creation,
`node_first` before all others; an `int` counter does not overflow. The loops of `parse` are one
machine whose phase says at the head of which of them it is.
-/

namespace ProjectPl.Json

open CppString

def delimiterFamilyStart : List Char := ['{']
def delimiterFamilyEnd : List Char := ['}']
def delimiterNode : List Char := [',']
def delimiterKey : List Char := [':']
def delimiterSpace : List Char := [' ']

structure Node where
  dept : Int := 0
  key : List Char := []
  value : List Char := []
  pParent : Option Nat := none
  nodeList : List Nat := []
  deriving DecidableEq

/-- An exception of `substr`, or a call on a null pointer. -/
inductive ParseError
  | outOfRange
  | nullPointer
  deriving DecidableEq

/-- A call of `substr` on a string of this length; `stop - start` is its count. -/
structure SubstrCall where
  start : Nat
  stop : Nat
  length : Nat
  deriving DecidableEq

def SubstrCall.Within (call : SubstrCall) : Prop :=
  call.start ≤ call.length ∧ call.start ≤ call.stop

namespace Node

/-- The `transform` at the head of `set`. -/
def plain (str : List Char) : List Char := str.map fun c => if c = '"' then ' ' else c.toLower

def set (node : Node) (str : List Char) (dept : Int) :
    Except ParseError (Node × List SubstrCall) :=
  let str := plain str
  let keyS := findFirstNotOf str delimiterSpace 0
  let keyE := findFirstOf str delimiterKey keyS
  let valS := findFirstNotOf str delimiterKey keyE
  let valE := findLastNotOf str delimiterSpace npos
  let keyE := findLastNotOf str delimiterKey keyE
  let keyE := findLastNotOf str delimiterSpace keyE
  if npos = keyS ∨ npos = keyE then .ok ({ node with dept }, [])
  else
    let keyCall := { start := keyS, stop := keyE + 1, length := str.length }
    match substr str keyS (sizeAdd (sizeSub keyE keyS) 1) with
    | none => .error .outOfRange
    | some key =>
        let valS := findFirstNotOf str delimiterSpace valS
        if npos = valS ∨ npos = valE then .ok ({ node with dept, key }, [keyCall])
        else
          let valueCall := { start := valS, stop := valE + 1, length := str.length }
          match substr str valS (sizeAdd (sizeSub valE valS) 1) with
          | none => .error .outOfRange
          | some value => .ok ({ node with dept, key, value }, [keyCall, valueCall])

def checkKey (node : Node) (key : List Char) : Bool := node.key = key

end Node

def find (nodes : List Node) (node : Nat) (findkey : List Char) : Option Nat :=
  let children := (nodes.getD node {}).nodeList
  if findkey.length = 0 then none
  else if children.length = 0 then none
  else children.find? fun child => (nodes.getD child {}).checkKey findkey

def addChild (nodes : List Node) (current : Nat) (pData : Node) : List Node :=
  nodes.modify current (fun node => { node with nodeList := node.nodeList ++ [nodes.length] }) ++
    [{ pData with pParent := some current }]

/-- The local variables of `parse` and the nodes. `substrs` records the calls of `substr`. -/
structure Parser where
  dept : Int
  pos : Nat
  nodeEnd : Nat
  familyStart : Nat
  familyEnd : Nat
  pCurrent : Option Nat
  nodes : List Node
  substrs : List SubstrCall := []

inductive Phase
  | counting (pos nodeCount : Nat)
  | parsing (parser : Parser)
  | closing (parser : Parser)

namespace Parser

variable (jsonData : List Char)

/-- Behind the first loop. -/
def start : Parser :=
  let pos := findFirstNotOf jsonData delimiterFamilyStart 0
  { dept := 1
    pos
    nodeEnd := findFirstOf jsonData delimiterNode pos
    familyStart := findFirstOf jsonData delimiterFamilyStart pos
    familyEnd := npos
    pCurrent := some 0
    nodes := [{}] }

def addNode (parser : Parser) (stop : Nat) : Except ParseError Parser :=
  match substr jsonData parser.pos (sizeSub stop parser.pos) with
  | none => .error .outOfRange
  | some str =>
      match Node.set {} str parser.dept with
      | .error error => .error error
      | .ok (pData, calls) =>
          match parser.pCurrent with
          | none => .error .nullPointer
          | some current => .ok
              { parser with
                nodes := addChild parser.nodes current pData
                substrs := parser.substrs ++ ⟨parser.pos, stop, jsonData.length⟩ :: calls }

def openFamily (parser : Parser) : Except ParseError Phase :=
  (parser.addNode jsonData parser.familyStart).map fun added =>
    let pos := findFirstNotOf jsonData delimiterFamilyStart parser.familyStart
    .parsing
      { added with
        dept := parser.dept + 1
        pCurrent := some parser.nodes.length
        pos
        nodeEnd := findFirstOf jsonData delimiterNode pos
        familyStart := findFirstOf jsonData delimiterFamilyStart pos
        familyEnd := findFirstOf jsonData delimiterFamilyEnd pos }

/-- The branch of the last node of a family, up to the loop over the closing braces. -/
def closeFamily (parser : Parser) : Except ParseError Phase :=
  (parser.addNode jsonData parser.familyEnd).map fun added =>
    .closing { added with nodeEnd := findFirstOf jsonData delimiterNode parser.familyEnd }

def closed (parser : Parser) : Parser :=
  let nodeEnd := findFirstOf jsonData delimiterNode parser.pos
  let pos := findFirstNotOf jsonData delimiterNode nodeEnd
  { parser with
    pos
    nodeEnd := findFirstOf jsonData delimiterNode pos
    familyStart := findFirstOf jsonData delimiterFamilyStart pos
    familyEnd := findFirstOf jsonData delimiterFamilyEnd pos }

def addMember (parser : Parser) : Except ParseError Phase :=
  (parser.addNode jsonData parser.nodeEnd).map fun added =>
    let pos := findFirstNotOf jsonData delimiterNode parser.nodeEnd
    .parsing { added with pos, nodeEnd := findFirstOf jsonData delimiterNode pos }

def getParent (parser : Parser) : Except ParseError (Option Nat) :=
  match parser.pCurrent with
  | none => .error .nullPointer
  | some current => .ok (parser.nodes.getD current {}).pParent

def closeOne (parser : Parser) : Except ParseError Phase :=
  parser.getParent.map fun pParent =>
    .closing
      { parser with
        dept := parser.dept - 1
        pCurrent := pParent
        familyEnd := findFirstOf jsonData delimiterFamilyEnd (parser.familyEnd + 1) }

end Parser

def pass (jsonData : List Char) : Phase → Phase ⊕ Except ParseError Parser
  | .counting pos nodeCount =>
      let pos := findFirstOf jsonData delimiterKey (pos + 1)
      if npos ≠ pos then .inl (.counting pos (nodeCount + 1))
      else .inl (.parsing (Parser.start jsonData))
  | .parsing parser =>
      if 0 ≤ parser.dept ∧ npos ≠ parser.pos then
        let next :=
          if parser.familyStart < parser.nodeEnd then parser.openFamily jsonData
          else if parser.familyEnd < parser.nodeEnd then parser.closeFamily jsonData
          else parser.addMember jsonData
        match next with
        | .error error => .inr (.error error)
        | .ok phase => .inl phase
      else .inr (.ok parser)
  | .closing parser =>
      if 1 ≤ parser.dept ∧ parser.familyEnd < parser.nodeEnd then
        match parser.closeOne jsonData with
        | .error error => .inr (.error error)
        | .ok phase => .inl phase
      else .inl (.parsing (parser.closed jsonData))

/-- `parse` of an object that was made with this text ends so. -/
def Parses (text : Text Char) : Except ParseError Parser → Prop :=
  Loop.Ends (pass text.chars) (.counting 0 0)

end ProjectPl.Json
