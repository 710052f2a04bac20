import ProjectPl.ObjectPoolCore
import ProjectPl.ServerCore

/-!
`CharacterMgr` of `cli/character.cpp` and the handlers of `cli/user_session.cpp` that change
it. Characters are pooled objects named by their slot. A character that leaves is taken out of
the map and keeps its slot.
-/

namespace ProjectPl

structure CharacterMgr where
  mgr : ObjectMgr
  characters : Nat → Character
  characterMap : Std.TreeMap Int Nat
  playerCharacter : Nat

namespace CharacterMgr

def new : CharacterMgr :=
  let issued := ({} : ObjectMgr).getFreeObject
  { mgr := issued.1
    characters := fun _ => {}
    characterMap := {}
    playerCharacter := issued.2 }

def playerToken (mgr : CharacterMgr) : Int := (mgr.characters mgr.playerCharacter).token

def getCharacter (mgr : CharacterMgr) (token : Int) : Option Nat :=
  if mgr.playerToken = token then some mgr.playerCharacter else mgr.characterMap[token]?

def setCharacter (mgr : CharacterMgr) (obj : Nat) (character : Character) : CharacterMgr :=
  { mgr with characters := Function.update mgr.characters obj character }

def enterCharacter (mgr : CharacterMgr) (token : Int) : CharacterMgr × Nat :=
  match mgr.getCharacter token with
  | some obj => (mgr, obj)
  | none =>
      let issued := mgr.mgr.getFreeObject
      ({ mgr.setCharacter issued.2 { token := token } with
          mgr := issued.1
          characterMap := mgr.characterMap.insertIfNew token issued.2 }, issued.2)

def leaveCharacter (mgr : CharacterMgr) (token : Int) : CharacterMgr :=
  { mgr with characterMap := mgr.characterMap.erase token }

def setPos (mgr : CharacterMgr) (obj : Nat) (x y : Int) : CharacterMgr :=
  let character := mgr.characters obj
  mgr.setCharacter obj { character with pos := { character.pos with posX := x, posY := y } }

/-! The handlers. The others print, and `S2C_Heartbeat` answers. -/

def s2cAuthResult (mgr : CharacterMgr) (packet : ScPAuthResult) : CharacterMgr :=
  let character := mgr.characters mgr.playerCharacter
  mgr.setCharacter mgr.playerCharacter { character with id := packet.id, token := packet.token }

def s2cEnter (mgr : CharacterMgr) (packet : ScPEnter) : CharacterMgr :=
  if mgr.playerToken = packet.token then mgr.setPos mgr.playerCharacter packet.x packet.y
  else
    let entered := mgr.enterCharacter packet.token
    entered.1.setPos entered.2 packet.x packet.y

def s2cEnterCharacterOne (mgr : CharacterMgr) (info : CharacterDbData) : CharacterMgr :=
  let entered := mgr.enterCharacter info.token
  entered.1.setCharacter entered.2 { entered.1.characters entered.2 with pos := info.pos }

def s2cEnterCharacter (mgr : CharacterMgr) (packet : ScPEnterCharacterList) : CharacterMgr :=
  (List.range packet.count.toNat).foldl
    (fun current idx => current.s2cEnterCharacterOne (packet.data[idx]?.getD {})) mgr

def s2cLeave (mgr : CharacterMgr) (packet : ScPLeave) : CharacterMgr :=
  match mgr.getCharacter packet.token with
  | none => mgr
  | some obj => if mgr.playerCharacter = obj then mgr else mgr.leaveCharacter packet.token

def s2cMove (mgr : CharacterMgr) (packet : ScPMove) : CharacterMgr :=
  match mgr.getCharacter packet.token with
  | none => mgr
  | some obj => mgr.setPos obj packet.x packet.y

def handle (mgr : CharacterMgr) : S2CCall → CharacterMgr
  | .authResult packet => mgr.s2cAuthResult packet
  | .enter packet => mgr.s2cEnter packet
  | .enterCharacter packet => mgr.s2cEnterCharacter packet
  | .leave packet => mgr.s2cLeave packet
  | .move packet => mgr.s2cMove packet
  | .interaction _ | .heartbeat _ | .echo _ => mgr

def run (packets : List S2CCall) : CharacterMgr := packets.foldl handle new

end CharacterMgr

end ProjectPl
