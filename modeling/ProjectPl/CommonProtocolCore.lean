import ProjectPl.SharpProtocolCore

/-!
The packets of the C# library `PL_Common`: `PacketProtocol_CS.cs`, `_SC.cs`, `_WD.cs`, `_DW.cs`,
`_AD.cs` and `_DA.cs`, with the records of `Character.cs` that they carry. As in `PL_Network`,
`Serialize` runs on a writing and on a reading serializer, and its straight-line part is a list of
fields. A string field has a length of its own in front, which the setter of the property takes
from the string. Setters that call themselves (`PacketCS_Move.X`, `Y`, `PacketSC_EnterWorld.Token`)
do not return and have no counterpart here.
-/

namespace ProjectPl

open LittleEndian DotNet

namespace Member

variable {P : Type}

def int16 (get : P → Int) (set : P → Int → P) : Member P := ⟨2, get, set⟩

end Member

namespace Sharp

namespace Serializer

def valueInt16 : Serializer → Int → Result (Serializer × Int) :=
  scalar 2 (encodeSigned 2) decodeSigned

def valueInt64 : Serializer → Int → Result (Serializer × Int) :=
  scalar 8 (encodeSigned 8) decodeSigned

/-- `Value(ref string, ref Int16)` of `PL_Common`. The length read replaces the one passed. -/
def valueCountedString (ser : Serializer) (data : List UInt16) (length : Int) :
    Result (Serializer × List UInt16 × Int) := do
  let count ← ser.valueInt16 length
  let text ← count.1.valueString data count.2
  return (text.1, text.2, count.2)

end Serializer

namespace Common

/-- The cast `(Int16)`. -/
def int16 (value : Int) : Int := Int.bmod value 0x10000

theorem int16_fitsSigned (value : Int) : FitsSigned 2 (int16 value) := by
  have lower := @Int.le_bmod value 0x10000 (by decide)
  have upper := @Int.bmod_lt value 0x10000 (by decide)
  norm_num at lower upper
  rw [FitsSigned, int16]
  norm_num
  omega

/-- A string field and its length field. -/
structure Text where
  length : Int := 0
  text : List UInt16 := []
  fits : FitsSigned 2 length := by decide

/-- The setter of the property. -/
def Text.set (value : List UInt16) : Text :=
  { length := int16 value.length, text := value, fits := int16_fitsSigned _ }

inductive Field (P : Type)
  | number (member : Member P)
  | text (get : P → Text) (set : P → Text → P)

namespace Field

variable {P Q : Type}

def value : Field P → Serializer → P → Result (Serializer × P)
  | number member, ser, packet => member.sharpValue ser packet
  | text get set, ser, packet => do
      let read ← ser.valueCountedString (get packet).text (get packet).length
      return (read.1, set packet
        { length := int16 read.2.2, text := read.2.1, fits := int16_fitsSigned _ })

def values : List (Field P) → Serializer → P → Result (Serializer × P)
  | [], ser, packet => return (ser, packet)
  | field :: rest, ser, packet => do
      let first ← field.value ser packet
      values rest first.1 first.2

/-- A field of a record inside an object. -/
def within (get : P → Q) (set : P → Q → P) : Field Q → Field P
  | number member =>
      number ⟨member.width, fun packet => member.get (get packet),
        fun packet value => set packet (member.set (get packet) value)⟩
  | text inner store =>
      text (fun packet => inner (get packet))
        fun packet value => set packet (store (get packet) value)

end Field

/-! Arrays, of which a count field says how much is used. -/

def valueEach {Q : Type} (value : Serializer → Q → Result (Serializer × Q)) :
    Nat → List Q → Serializer → Result (Serializer × List Q)
  | 0, array, ser => return (ser, array)
  | _ + 1, [], _ => .error .indexOutOfRange
  | count + 1, element :: rest, ser => do
      let first ← value ser element
      let others ← valueEach value count rest first.1
      return (others.1, first.2 :: others.2)

/-- `Serializer` of an array element that may be null. -/
def valueReference {Q : Type} (fields : List (Field Q)) (ser : Serializer) :
    Option Q → Result (Serializer × Option Q)
  | none => .error .nullReference
  | some record => do
      let read ← Field.values fields ser record
      return (read.1, some read.2)

/-- What a subclass of `PacketBase` overrides. Both can throw. -/
structure Class (P : Type) where
  packetType : Int
  getSize : P → Result Int
  serialize : Serializer → P → Result (Serializer × P)

namespace Class

variable {P : Type}

/-- An object of the subclass, as `PacketSerializer` sees it once `GetSize` has returned. -/
def base (cls : Class P) (packet : P) : Result (PacketBase Int) := do
  let size ← cls.getSize packet
  return {
    packetType := cls.packetType
    getSize := int32 size
    serialize := fun ser => do
      let written ← cls.serialize ser packet
      return written.1
    getSize_isInt32 := int32_fitsSigned _ }

/-- `SerializeBody(new Serializer(buffer, buffer.Length))` on a new object. -/
def readBody (cls : Class P) (start : P) (data : List UInt8) : Result P := do
  let ser ← Serializer.ofBuffer data data.length
  let read ← cls.serialize ser start
  return read.2

end Class

/-! Records. -/

structure Position where
  x : Int := 0
  y : Int := 0
  z : Int := 0
  zone : Int := 0

def Position.fields : List (Field Position) :=
  [.number (.int32 (·.x) fun p v => { p with x := v }),
   .number (.int32 (·.y) fun p v => { p with y := v }),
   .number (.int32 (·.z) fun p v => { p with z := v }),
   .number (.int32 (·.zone) fun p v => { p with zone := v })]

def Position.getSize (_ : Position) : Int := 4 * 4

structure CharacterDataSimple where
  order : Int := 0
  cid : Int := 0
  name : Text := {}

def CharacterDataSimple.fields : List (Field CharacterDataSimple) :=
  [.number (.int16 (·.order) fun p v => { p with order := v }),
   .number (.int64 (·.cid) fun p v => { p with cid := v }),
   .text (·.name) fun p v => { p with name := v }]

def CharacterDataSimple.getSize (data : CharacterDataSimple) : Int := 2 + 8 + 2 + data.name.length

/-- The fields are public, so the length of the name can be any. -/
structure CharacterInfo where
  cid : Int := 0
  name : Text := {}
  pos : Position := {}
  hp : Int := 0
  hpMax : Int := 0
  atk : Int := 0
  def_ : Int := 0
  moveSpeed : Int := 0

def CharacterInfo.fields : List (Field CharacterInfo) :=
  [.number (.int64 (·.cid) fun p v => { p with cid := v }),
   .text (·.name) fun p v => { p with name := v }] ++
  Position.fields.map (.within (·.pos) fun p v => { p with pos := v }) ++
  [.number (.int32 (·.hp) fun p v => { p with hp := v }),
   .number (.int32 (·.hpMax) fun p v => { p with hpMax := v }),
   .number (.int32 (·.atk) fun p v => { p with atk := v }),
   .number (.int32 (·.def_) fun p v => { p with def_ := v }),
   .number (.int32 (·.moveSpeed) fun p v => { p with moveSpeed := v })]

def CharacterInfo.getSize (info : CharacterInfo) : Int :=
  8 + 2 + info.name.length + info.pos.getSize + 4 * 5

/-! Client to server. -/

inductive PacketTypeCS
  | invalid | auth | characterCreate | characterDelete | enterWorld | leaveWorld | move
  | interaction | chat | heartbeat | echo | max
  deriving DecidableEq, Repr

def PacketTypeCS.toInt : PacketTypeCS → Int
  | invalid => 0
  | auth => 1
  | characterCreate => 2
  | characterDelete => 3
  | enterWorld => 4
  | leaveWorld => 5
  | move => 6
  | interaction => 7
  | chat => 8
  | heartbeat => 9
  | echo => 10
  | max => 11

structure PacketCSAuth where
  userId : Text := {}
  password : Text := {}

def PacketCSAuth.fields : List (Field PacketCSAuth) :=
  [.text (·.userId) fun p v => { p with userId := v },
   .text (·.password) fun p v => { p with password := v }]

def packetCSAuth : Class PacketCSAuth where
  packetType := PacketTypeCS.auth.toInt
  getSize := fun packet => .ok (4 + 2 * 2 + packet.userId.length + packet.password.length)
  serialize := Field.values PacketCSAuth.fields

structure PacketCSCharacterList where

def packetCSCharacterList : Class PacketCSCharacterList where
  packetType := PacketTypeCS.characterCreate.toInt
  getSize := fun _ => .ok 4
  serialize := Field.values []

structure PacketCSCharacterCreate where
  name : Text := {}

def PacketCSCharacterCreate.fields : List (Field PacketCSCharacterCreate) :=
  [.text (·.name) fun p v => { p with name := v }]

def packetCSCharacterCreate : Class PacketCSCharacterCreate where
  packetType := PacketTypeCS.characterCreate.toInt
  getSize := fun packet => .ok (4 + 2 + packet.name.length)
  serialize := Field.values PacketCSCharacterCreate.fields

structure PacketCSCharacterDelete where
  cid : Int := 0

def PacketCSCharacterDelete.fields : List (Field PacketCSCharacterDelete) :=
  [.number (.int64 (·.cid) fun p v => { p with cid := v })]

def packetCSCharacterDelete : Class PacketCSCharacterDelete where
  packetType := PacketTypeCS.characterDelete.toInt
  getSize := fun _ => .ok (4 + 8)
  serialize := Field.values PacketCSCharacterDelete.fields

structure PacketCSEnterWorld where
  token : Int := 0
  cid : Int := 0

def PacketCSEnterWorld.fields : List (Field PacketCSEnterWorld) :=
  [.number (.int64 (·.token) fun p v => { p with token := v }),
   .number (.int64 (·.cid) fun p v => { p with cid := v })]

def packetCSEnterWorld : Class PacketCSEnterWorld where
  packetType := PacketTypeCS.enterWorld.toInt
  getSize := fun _ => .ok (4 + 8 * 2)
  serialize := Field.values PacketCSEnterWorld.fields

structure PacketCSLeaveWorld where

def packetCSLeaveWorld : Class PacketCSLeaveWorld where
  packetType := PacketTypeCS.leaveWorld.toInt
  getSize := fun _ => .ok (4 + 8)
  serialize := Field.values []

structure PacketCSMove where
  x : Int := 0
  y : Int := 0

def PacketCSMove.fields : List (Field PacketCSMove) :=
  [.number (.int32 (·.x) fun p v => { p with x := v }),
   .number (.int32 (·.y) fun p v => { p with y := v })]

def packetCSMove : Class PacketCSMove where
  packetType := PacketTypeCS.move.toInt
  getSize := fun _ => .ok (4 + 4 * 2)
  serialize := Field.values PacketCSMove.fields

structure PacketCSInteraction where
  targetCid : Int := 0
  interactionType : Int := 0

def PacketCSInteraction.fields : List (Field PacketCSInteraction) :=
  [.number (.int64 (·.targetCid) fun p v => { p with targetCid := v }),
   .number (.int32 (·.interactionType) fun p v => { p with interactionType := v })]

def packetCSInteraction : Class PacketCSInteraction where
  packetType := PacketTypeCS.interaction.toInt
  getSize := fun _ => .ok (4 + 8 + 4)
  serialize := Field.values PacketCSInteraction.fields

structure PacketCSChat where
  chatType : Int := 0
  chatMsg : Text := {}

def PacketCSChat.fields : List (Field PacketCSChat) :=
  [.number (.int16 (·.chatType) fun p v => { p with chatType := v }),
   .text (·.chatMsg) fun p v => { p with chatMsg := v }]

def packetCSChat : Class PacketCSChat where
  packetType := PacketTypeCS.chat.toInt
  getSize := fun packet => .ok (4 + 2 * 2 + packet.chatMsg.length)
  serialize := Field.values PacketCSChat.fields

structure PacketCSHeaetbeat where

def packetCSHeaetbeat : Class PacketCSHeaetbeat where
  packetType := PacketTypeCS.heartbeat.toInt
  getSize := fun _ => .ok 4
  serialize := Field.values []

structure PacketCSEcho where
  msg : Text := {}

def PacketCSEcho.fields : List (Field PacketCSEcho) :=
  [.text (·.msg) fun p v => { p with msg := v }]

def packetCSEcho : Class PacketCSEcho where
  packetType := PacketTypeCS.echo.toInt
  getSize := fun packet => .ok (4 + 2 + packet.msg.length)
  serialize := Field.values PacketCSEcho.fields

/-! Server to client. -/

inductive PacketTypeSC
  | invalid | authResult | characterCreate | characterDelete | characterList | enterWorld
  | leaveWorld | enterOtherCharacter | leaveOtherCharacter | move | interaction | heartbeat
  | echo | max
  deriving DecidableEq, Repr

def PacketTypeSC.toInt : PacketTypeSC → Int
  | invalid => 0
  | authResult => 1
  | characterCreate => 2
  | characterDelete => 3
  | characterList => 4
  | enterWorld => 5
  | leaveWorld => 6
  | enterOtherCharacter => 7
  | leaveOtherCharacter => 8
  | move => 9
  | interaction => 10
  | heartbeat => 11
  | echo => 12
  | max => 13

structure PacketSCAuthResult where
  result : Int := 0
  token : Int := 0

def PacketSCAuthResult.fields : List (Field PacketSCAuthResult) :=
  [.number (.int32 (·.result) fun p v => { p with result := v }),
   .number (.int64 (·.token) fun p v => { p with token := v })]

def packetSCAuthResult : Class PacketSCAuthResult where
  packetType := PacketTypeSC.authResult.toInt
  getSize := fun _ => .ok (4 + 4 + 8)
  serialize := Field.values PacketSCAuthResult.fields

/-- The `MAX_CHARACTER_COUNT` records are null, and no code stores into the array. -/
structure PacketSCCharacterList where
  characterCount : Int := 0
  characterList : List (Option CharacterDataSimple) := List.replicate 4 none

/-- The dereference of an array element. -/
def notNull {Q : Type} : Option (Option Q) → Result Q
  | none => .error .indexOutOfRange
  | some none => .error .nullReference
  | some (some record) => .ok record

def packetSCCharacterList : Class PacketSCCharacterList where
  packetType := PacketTypeSC.characterList.toInt
  getSize := fun packet => do
    let first ← notNull packet.characterList[0]?
    return 4 + 2 + first.getSize * packet.characterCount
  serialize := fun ser packet => do
    let count ← ser.valueInt16 packet.characterCount
    let each ← valueEach (valueReference CharacterDataSimple.fields) count.2.toNat
      packet.characterList count.1
    return (each.1, { characterCount := count.2, characterList := each.2 })

structure PacketSCCharacterCreate where
  result : Int := 0
  cid : Int := 0
  name : Text := {}

def PacketSCCharacterCreate.fields : List (Field PacketSCCharacterCreate) :=
  [.number (.int32 (·.result) fun p v => { p with result := v }),
   .number (.int64 (·.cid) fun p v => { p with cid := v }),
   .text (·.name) fun p v => { p with name := v }]

def packetSCCharacterCreate : Class PacketSCCharacterCreate where
  packetType := PacketTypeSC.characterCreate.toInt
  getSize := fun packet => .ok (4 + 4 + 8 + 2 + packet.name.length)
  serialize := Field.values PacketSCCharacterCreate.fields

structure PacketSCCharacterDelete where
  result : Int := 0
  deletedCid : Int := 0

def PacketSCCharacterDelete.fields : List (Field PacketSCCharacterDelete) :=
  [.number (.int64 (·.result) fun p v => { p with result := v }),
   .number (.int64 (·.deletedCid) fun p v => { p with deletedCid := v })]

def packetSCCharacterDelete : Class PacketSCCharacterDelete where
  packetType := PacketTypeSC.characterDelete.toInt
  getSize := fun _ => .ok (4 + 4 + 8)
  serialize := Field.values PacketSCCharacterDelete.fields

structure PacketSCEnterWorld where
  token : Int := 0
  info : CharacterInfo := {}

def PacketSCEnterWorld.fields : List (Field PacketSCEnterWorld) :=
  .number (.int64 (·.token) fun p v => { p with token := v }) ::
    CharacterInfo.fields.map (.within (·.info) fun p v => { p with info := v })

def packetSCEnterWorld : Class PacketSCEnterWorld where
  packetType := PacketTypeSC.enterWorld.toInt
  getSize := fun _ => .ok (4 + 8 + 4 * 2)
  serialize := Field.values PacketSCEnterWorld.fields

structure PacketSCLeave where
  token : Int := 0

def PacketSCLeave.fields : List (Field PacketSCLeave) :=
  [.number (.int64 (·.token) fun p v => { p with token := v })]

def packetSCLeave : Class PacketSCLeave where
  packetType := PacketTypeSC.leaveWorld.toInt
  getSize := fun _ => .ok (4 + 8)
  serialize := Field.values PacketSCLeave.fields

/-- An array of `MaxCharacterCount` records, null at first. -/
structure PacketSCEnterOtherCharacter where
  count : Int := 0
  characters : List (Option CharacterInfo) := List.replicate 20 none

def PacketSCEnterOtherCharacter.setData (packet : PacketSCEnterOtherCharacter)
    (info : CharacterInfo) : Result PacketSCEnterOtherCharacter :=
  if packet.count < 20 then
    if packet.count < 0 then .error .indexOutOfRange
    else
      .ok { count := packet.count + 1
            characters := packet.characters.set packet.count.toNat (some info) }
  else .ok packet

def packetSCEnterOtherCharacter : Class PacketSCEnterOtherCharacter where
  packetType := PacketTypeSC.enterOtherCharacter.toInt
  getSize := fun packet => do
    let first ← notNull packet.characters[0]?
    return 4 + 2 + first.getSize * packet.count
  serialize := fun ser packet => do
    let count ← ser.valueInt32 packet.count
    let each ← valueEach (valueReference CharacterInfo.fields) count.2.toNat packet.characters
      count.1
    return (each.1, { count := count.2, characters := each.2 })

structure PacketSCLeaveOtherCharacter where
  count : Int := 0
  leaveCharacterCid : List Int := List.replicate 20 0

def PacketSCLeaveOtherCharacter.setData (packet : PacketSCLeaveOtherCharacter) (cid : Int) :
    Result PacketSCLeaveOtherCharacter :=
  if packet.count < 0 ∨ packet.leaveCharacterCid.length ≤ packet.count then
    .error .indexOutOfRange
  else
    .ok { count := packet.count + 1
          leaveCharacterCid := packet.leaveCharacterCid.set packet.count.toNat cid }

def packetSCLeaveOtherCharacter : Class PacketSCLeaveOtherCharacter where
  packetType := PacketTypeSC.enterOtherCharacter.toInt
  getSize := fun packet => .ok (4 + 4 + 8 * packet.count)
  serialize := fun ser packet => do
    let count ← ser.valueInt32 packet.count
    let each ← valueEach Serializer.valueInt64 count.2.toNat packet.leaveCharacterCid count.1
    return (each.1, { count := count.2, leaveCharacterCid := each.2 })

structure PacketSCMove where
  cid : Int := 0
  pos : Position := {}

def PacketSCMove.fields : List (Field PacketSCMove) :=
  .number (.int64 (·.cid) fun p v => { p with cid := v }) ::
    Position.fields.map (.within (·.pos) fun p v => { p with pos := v })

def packetSCMove : Class PacketSCMove where
  packetType := PacketTypeSC.move.toInt
  getSize := fun packet => .ok (4 + 8 + packet.pos.getSize)
  serialize := Field.values PacketSCMove.fields

structure PacketSCInteraction where
  cid : Int := 0
  targetCid : Int := 0
  interactionType : Int := 0

def PacketSCInteraction.fields : List (Field PacketSCInteraction) :=
  [.number (.int64 (·.cid) fun p v => { p with cid := v }),
   .number (.int64 (·.targetCid) fun p v => { p with targetCid := v }),
   .number (.int32 (·.interactionType) fun p v => { p with interactionType := v })]

def packetSCInteraction : Class PacketSCInteraction where
  packetType := PacketTypeSC.interaction.toInt
  getSize := fun _ => .ok (4 + 8 * 2 + 4)
  serialize := Field.values PacketSCInteraction.fields

structure PacketSCHeartbeat where

def packetSCHeartbeat : Class PacketSCHeartbeat where
  packetType := PacketTypeSC.heartbeat.toInt
  getSize := fun _ => .ok 4
  serialize := Field.values []

structure PacketSCEcho where
  cid : Int := 0
  msg : Text := {}

def PacketSCEcho.fields : List (Field PacketSCEcho) :=
  [.number (.int64 (·.cid) fun p v => { p with cid := v }),
   .text (·.msg) fun p v => { p with msg := v }]

def packetSCEcho : Class PacketSCEcho where
  packetType := PacketTypeSC.echo.toInt
  getSize := fun packet => .ok (4 + 8 + 2 + packet.msg.length)
  serialize := Field.values PacketSCEcho.fields

/-! World server to database server. -/

inductive PacketTypeWD
  | invalid | joinRequest | heartbeat | playerAuth | characterCreate | characterDelete
  | characterList | characterLoad | max
  deriving DecidableEq, Repr

def PacketTypeWD.toInt : PacketTypeWD → Int
  | invalid => 0
  | joinRequest => 1
  | heartbeat => 2
  | playerAuth => 3
  | characterCreate => 4
  | characterDelete => 5
  | characterList => 6
  | characterLoad => 7
  | max => 8

structure PacketWDJoinRequest where
  worldId : Int := 0

def PacketWDJoinRequest.fields : List (Field PacketWDJoinRequest) :=
  [.number (.int32 (·.worldId) fun p v => { p with worldId := v })]

def packetWDJoinRequest : Class PacketWDJoinRequest where
  packetType := PacketTypeWD.joinRequest.toInt
  getSize := fun _ => .ok (4 + 4)
  serialize := Field.values PacketWDJoinRequest.fields

structure PacketWDHeartbeat where

def packetWDHeartbeat : Class PacketWDHeartbeat where
  packetType := PacketTypeWD.heartbeat.toInt
  getSize := fun _ => .ok 4
  serialize := Field.values []

structure PacketWDAuthRequest where
  userId : Text := {}
  password : Text := {}

def PacketWDAuthRequest.fields : List (Field PacketWDAuthRequest) :=
  [.text (·.userId) fun p v => { p with userId := v },
   .text (·.password) fun p v => { p with password := v }]

def packetWDAuthRequest : Class PacketWDAuthRequest where
  packetType := PacketTypeWD.playerAuth.toInt
  getSize := fun packet => .ok (4 + 2 * 2 + packet.userId.length + packet.password.length)
  serialize := Field.values PacketWDAuthRequest.fields

structure PacketWDCharacterLoad where
  uid : Int := 0
  cid : Int := 0

def PacketWDCharacterLoad.fields : List (Field PacketWDCharacterLoad) :=
  [.number (.int64 (·.uid) fun p v => { p with uid := v }),
   .number (.int64 (·.cid) fun p v => { p with cid := v })]

def packetWDCharacterLoad : Class PacketWDCharacterLoad where
  packetType := PacketTypeWD.characterLoad.toInt
  getSize := fun _ => .ok (4 + 8 * 2)
  serialize := Field.values PacketWDCharacterLoad.fields

/-! Database server to world server. The result of a join has the number of a heartbeat. -/

inductive PacketTypeDW
  | invalid | joinResult | playerAuthResult | characterCreated | characterDeleted | characterList
  | characterData | heartbeat | max
  deriving DecidableEq, Repr

def PacketTypeDW.toInt : PacketTypeDW → Int
  | invalid => 0
  | joinResult => 1
  | playerAuthResult => 2
  | characterCreated => 3
  | characterDeleted => 4
  | characterList => 5
  | characterData => 6
  | heartbeat => 7
  | max => 8

structure PacketDWJoinResult where
  result : Int := 0
  dbId : Int := 0

def PacketDWJoinResult.fields : List (Field PacketDWJoinResult) :=
  [.number (.int32 (·.result) fun p v => { p with result := v }),
   .number (.int32 (·.dbId) fun p v => { p with dbId := v })]

def packetDWJoinResult : Class PacketDWJoinResult where
  packetType := PacketTypeDW.heartbeat.toInt
  getSize := fun _ => .ok (4 + 4 * 2)
  serialize := Field.values PacketDWJoinResult.fields

structure PacketDWHeartbeat where

def packetDWHeartbeat : Class PacketDWHeartbeat where
  packetType := PacketTypeDW.heartbeat.toInt
  getSize := fun _ => .ok 4
  serialize := Field.values []

/-! Authentication server and database server. These packets take their numbers from the two
enumerations above. -/

structure PacketADJoinRequest where
  authId : Int := 0

def PacketADJoinRequest.fields : List (Field PacketADJoinRequest) :=
  [.number (.int32 (·.authId) fun p v => { p with authId := v })]

def packetADJoinRequest : Class PacketADJoinRequest where
  packetType := PacketTypeWD.heartbeat.toInt
  getSize := fun _ => .ok (4 + 4)
  serialize := Field.values PacketADJoinRequest.fields

structure PacketADHeartbeat where

def packetADHeartbeat : Class PacketADHeartbeat where
  packetType := PacketTypeWD.heartbeat.toInt
  getSize := fun _ => .ok 4
  serialize := Field.values []

structure PacketDAJoinResult where
  result : Int := 0

def PacketDAJoinResult.fields : List (Field PacketDAJoinResult) :=
  [.number (.int32 (·.result) fun p v => { p with result := v })]

def packetDAJoinResult : Class PacketDAJoinResult where
  packetType := PacketTypeDW.heartbeat.toInt
  getSize := fun _ => .ok (4 + 4)
  serialize := Field.values PacketDAJoinResult.fields

structure PacketDAHeartbeat where

def packetDAHeartbeat : Class PacketDAHeartbeat where
  packetType := PacketTypeDW.heartbeat.toInt
  getSize := fun _ => .ok 4
  serialize := Field.values []

end Common

end Sharp

end ProjectPl
