import ProjectPl.RecordsCore
import ProjectPl.WorldItems

/-!
The tables of `world_db.sql` under all the write operations, and the two loads, `CharacterLoad` and
`ItemLoad` of `WorldQuery.cs` with their queries. A statement is refused, or it has its effect and
every constraint holds behind it. The times of a row, which nothing reads, are left out.
-/

namespace ProjectPl.Sharp

open Utf LittleEndian

structure CharacterRow where
  userId : Option UInt64
  id : UInt64
  name : String
  zone : Int
  posX : Int
  posY : Int
  posZ : Int
  deriving DecidableEq

structure Characters where
  rows : List CharacterRow
  primaryKey : (rows.map CharacterRow.id).Nodup
  uniqueName : (rows.map CharacterRow.name).Nodup

structure PlWorld where
  characters : Characters
  items : Items
  foreignKey : ∀ row ∈ items.rows, row.ownerCharId ∈ characters.rows.map CharacterRow.id

/-! The statements. -/

inductive Statement
  | insertCharacter (uid cid : Int) (name : String)
  | insertItem (cid : Int) (item : ItemDbInfo)
  | deleteItem (itemSn : Int)

namespace Statement

def text : Statement → String
  | insertCharacter uid cid name => WorldDbConnection.insertCharacter uid cid name
  | insertItem cid item => WorldDbConnection.insertItem cid item
  | deleteItem itemSn => WorldDbConnection.deleteItem itemSn

/-- The name stands between its quotes as it is. -/
def Plain : Statement → Prop
  | insertCharacter _ _ name => ∀ char ∈ name.toList, char ≠ '"' ∧ char ≠ '\\'
  | insertItem _ _ => True
  | deleteItem _ => True

end Statement

/-- A value for a column that is `unsigned`. -/
def unsigned (value : Int) : Option UInt64 :=
  if 0 ≤ value ∧ value < 2 ^ 64 then some (UInt64.ofNat value.toNat) else none

namespace PlWorld

def insertCharacter (world : PlWorld) (row : CharacterRow) : Option PlWorld :=
  if fresh : row.id ∉ world.characters.rows.map CharacterRow.id ∧
      row.name ∉ world.characters.rows.map CharacterRow.name then
    some { world with
      characters := {
        rows := world.characters.rows ++ [row]
        primaryKey := by
          rw [List.map_append, List.map_singleton, ← List.concat_eq_append]
          exact world.characters.primaryKey.concat fresh.1
        uniqueName := by
          rw [List.map_append, List.map_singleton, ← List.concat_eq_append]
          exact world.characters.uniqueName.concat fresh.2 }
      foreignKey := by
        intro item member
        rw [List.map_append]
        exact List.mem_append_left _ (world.foreignKey item member) }
  else none

def insertItem (world : PlWorld) (row : ItemRow) : Option PlWorld :=
  if fresh : row.itemSn ∉ world.items.rows.map ItemRow.itemSn ∧
      row.ownerCharId ∈ world.characters.rows.map CharacterRow.id then
    some { world with
      items := {
        rows := world.items.rows ++ [row]
        primaryKey := by
          rw [List.map_append, List.map_singleton, ← List.concat_eq_append]
          exact world.items.primaryKey.concat fresh.1 }
      foreignKey := by
        intro item member
        rcases List.mem_append.mp member with old | new
        · exact world.foreignKey item old
        · rw [List.mem_singleton.mp new]
          exact fresh.2 }
  else none

def deleteItem (world : PlWorld) (itemSn : Int) : PlWorld :=
  { world with
    items := world.items.keep fun row => row.serial ≠ itemSn
    foreignKey := fun item member => world.foreignKey item (List.mem_of_mem_filter member) }

end PlWorld

def ItemDbInfo.row (cid : Int) (item : ItemDbInfo) : Option ItemRow := do
  let itemSn ← unsigned item.itemSN
  let ownerCharId ← unsigned cid
  if FitsSigned 4 item.itemType ∧ FitsSigned 4 item.count ∧ FitsSigned 2 item.bind ∧
      FitsSigned 2 item.locType ∧ FitsSigned 2 item.locIndex then
    some {
      itemSn, ownerCharId
      itemType := item.itemType
      itemCount := item.count
      bind := some item.bind
      locType := item.locType
      locIndex := item.locIndex }
  else none

def characterRow (uid cid : Int) (name : String) : Option CharacterRow := do
  let pos := CharacterCreateDefault.pos
  let userId ← unsigned uid
  let id ← unsigned cid
  some { userId, id, name, zone := pos.zone, posX := pos.x, posY := pos.y, posZ := pos.z }

/-- A statement that is accepted, with the number of rows that it affects. -/
def PlWorld.execute (world : PlWorld) : Statement → Option (PlWorld × Int)
  | .insertCharacter uid cid name => do
      let row ← characterRow uid cid name
      let next ← world.insertCharacter row
      some (next, 1)
  | .insertItem cid item => do
      let row ← item.row cid
      let next ← world.insertItem row
      some (next, 1)
  | .deleteItem itemSn =>
      some (world.deleteItem itemSn, world.items.rows.countP fun row => row.serial = itemSn)

/-! The loads. -/

namespace WorldDbConnection

/-- `CharacterLoad`, with what `Open` and `ExecuteReader` come to. -/
def characterLoad (opens : Bool) (reader : Option (List CharacterRow))
    (charData : Common.CharacterDbInfo) : Bool × Common.CharacterDbInfo :=
  match opens, reader with
  | true, some (row :: _) =>
      (true, { charData with
        name := Common.Text.set (utf16Encode row.name.toList)
        pos := charData.pos.setPos row.zone row.posX row.posY row.posZ })
  | true, some [] => (true, charData)
  | true, none => (false, charData)
  | false, _ => (false, charData)

def getInt64 (value : UInt64) : Option Int :=
  if value.toNat < 2 ^ 63 then some value.toNat else none

/-- The getters of one row. `GetInt16` throws where there is no value. -/
def readItem (row : ItemRow) : Option ItemDbInfo := do
  let itemSN ← getInt64 row.itemSn
  let bind ← row.bind
  some {
    itemSN, bind
    itemType := row.itemType
    count := row.itemCount
    locType := row.locType
    locIndex := row.locIndex }

def readItems : List ItemRow → List ItemDbInfo → Bool × List ItemDbInfo
  | [], items => (true, items)
  | row :: rest, items =>
      match readItem row with
      | some item => readItems rest (items ++ [item])
      | none => (false, items)

def itemLoad (opens : Bool) (reader : Option (List ItemRow)) (items : List ItemDbInfo) :
    Bool × List ItemDbInfo :=
  match opens, reader with
  | true, some rows => readItems rows items
  | true, none => (false, items)
  | false, _ => (false, items)

end WorldDbConnection

/-! The server, one write operation after the other. -/

structure WorldProcess where
  database : PlWorld
  generator : GeneratorItemSN := {}

structure WorldCall where
  env : Environment PlWorld
  operation : Operation

namespace WorldProcess

def perform (process : WorldProcess) (call : WorldCall) : Bool × Work PlWorld :=
  call.operation.perform call.env
    { database := process.database, generator := process.generator }

def step (process : WorldProcess) (call : WorldCall) : WorldProcess :=
  { database := (process.perform call).2.database
    generator := (process.perform call).2.generator }

def run (process : WorldProcess) (calls : List WorldCall) : WorldProcess := calls.foldl step process

end WorldProcess

end ProjectPl.Sharp
