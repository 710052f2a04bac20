import ProjectPl.WorldQueryCore

/-!
The remaining records of `Character.cs`, and the properties of `PacketSC_CharacterDelete`. The other
setters of these classes store into the field that they are named after.
-/

namespace ProjectPl.Sharp

open LittleEndian

def ItemDbInfo.fields : List (Common.Field ItemDbInfo) :=
  [.number (.int64 (·.itemSN) fun p v => { p with itemSN := v }),
   .number (.int32 (·.itemType) fun p v => { p with itemType := v }),
   .number (.int32 (·.count) fun p v => { p with count := v }),
   .number (.int16 (·.bind) fun p v => { p with bind := v }),
   .number (.int16 (·.locType) fun p v => { p with locType := v }),
   .number (.int16 (·.locIndex) fun p v => { p with locIndex := v })]

namespace Common

theorem Text.new_fits : FitsSigned 2 0 := by decide

/-- `new CharacterInfo()`. -/
def CharacterInfo.new : CharacterInfo := { name := { fits := Text.new_fits } }

namespace Position

def getPos (pos : Position) : Int × Int × Int := (pos.x, pos.y, pos.z)

def getZone (pos : Position) : Int := pos.zone

end Position

structure CharacterDbInfo where
  uid : Int := 0
  cid : Int := 0
  name : Text := {}
  pos : Position := {}

namespace CharacterDbInfo

def new : CharacterDbInfo := { name := { fits := Text.new_fits } }

/-- `Serializer` does not go on to the position, which `GetSize` adds. -/
def fields : List (Field CharacterDbInfo) :=
  [.number (.int64 (·.uid) fun p v => { p with uid := v }),
   .number (.int64 (·.cid) fun p v => { p with cid := v }),
   .text (·.name) fun p v => { p with name := v }]

def getSize (info : CharacterDbInfo) : Int := 8 * 2 + 2 + info.name.length + info.pos.getSize

end CharacterDbInfo

/-! Both properties are on the field `result`. -/

namespace PacketSCCharacterDelete

def getResult (packet : PacketSCCharacterDelete) : Int := packet.result

def setResult (packet : PacketSCCharacterDelete) (value : Int) : PacketSCCharacterDelete :=
  { packet with result := value }

def getDeleteCid (packet : PacketSCCharacterDelete) : Int := packet.result

def setDeleteCid (packet : PacketSCCharacterDelete) (value : Int) : PacketSCCharacterDelete :=
  { packet with result := value }

end PacketSCCharacterDelete

end Common

end ProjectPl.Sharp
