import ProjectPl.CommonProtocolCore
import ProjectPl.ItemSNCore

/-!
`WorldDbConnection` of `Server_v2_Db`, from `WorldQuery.cs` with the queries that it calls. MySQL is
a transactional store: statements work on a copy, `Commit` makes the copy the database. What a call
to it comes to is the environment's. A rollback does not fail, and a `Commit` that throws has
committed nothing. Of a `Result`, the rest besides `Success` is only printed.
-/

namespace ProjectPl.Sharp

open DotNet

structure ItemDbInfo where
  itemSN : Int := 0
  itemType : Int := 0
  count : Int := 0
  bind : Int := 0
  locType : Int := 0
  locIndex : Int := 0

inductive ItemLocationType
  | equip
  | inventory
  | bank
  | restrict
  | max

def ItemLocationType.toInt : ItemLocationType → Int
  | equip => 0
  | inventory => 1
  | bank => 2
  | restrict => 250
  | max => 251

inductive ItemBindType
  | none
  | character
  | account
  | unbind
  | max

def ItemBindType.toInt : ItemBindType → Int
  | none => 0
  | character => 1
  | account => 2
  | unbind => 3
  | max => 4

/-- `SetPos`, which stores `z` over `x`. -/
def Common.Position.setPos (pos : Common.Position) (zone x y z : Int) : Common.Position :=
  let placed := { pos with x := x, y := y }
  { placed with x := z, zone := zone }

namespace CharacterCreateDefault

def pos : Common.Position := Common.Position.setPos {} 0 0 0 0

def items : List ItemDbInfo :=
  [{ itemSN := 0, itemType := 101, count := 1, bind := ItemBindType.none.toInt,
     locType := ItemLocationType.equip.toInt, locIndex := 0 },
   { itemSN := 0, itemType := 501, count := 10, bind := ItemBindType.none.toInt,
     locType := ItemLocationType.inventory.toInt, locIndex := 0 }]

end CharacterCreateDefault

/-! The store. -/

/-- What `ExecuteNonQuery` comes to. -/
inductive Reply
  | affected (rows : Int)
  | throws

def Reply.success : Reply → Bool
  | affected rows => 0 < rows
  | throws => false

/-- The outcomes of the calls of one operation: `replies` counts the statements that it sends, and
`utcNow` its calls of `GenerateSN`. -/
structure Environment (Db : Type) where
  effect : String → Db → Db
  opens : Bool
  begins : Bool
  commits : Bool
  replies : Nat → Reply
  utcNow : Nat → Int

/-- The connection of an operation, and the generator of the process. `committed` records what
happened, and no call reads it. -/
structure Work (Db : Type) where
  database : Db
  transaction : Option Db := none
  executed : Nat := 0
  generator : GeneratorItemSN
  committed : Bool := false

inductive DbException
  | mySql
  | other (exception : Exception)

/-- Code on a connection. What it did before it throws stays done. -/
def Session (Db α : Type) : Type := Work Db → Except DbException α × Work Db

namespace Session

variable {Db : Type}

instance : Monad (Session Db) where
  pure value := fun work => (.ok value, work)
  bind first next := fun work =>
    match first work with
    | (.ok value, later) => next value later
    | (.error failure, later) => (.error failure, later)

end Session

namespace WorldDbConnection

variable {Db : Type} (env : Environment Db)

def connOpen : Session Db Unit := fun work =>
  if env.opens then (.ok (), work) else (.error .mySql, work)

def beginTransaction : Session Db Unit := fun work =>
  if env.begins then (.ok (), { work with transaction := some work.database })
  else (.error .mySql, work)

def commit : Session Db Unit := fun work =>
  if env.commits then
    (.ok (), { work with
      database := work.transaction.getD work.database, transaction := none, committed := true })
  else (.error .mySql, work)

def rollback : Session Db Unit := fun work => (.ok (), { work with transaction := none })

def executeNonQuery (query : String) : Session Db Int := fun work =>
  let sent := { work with executed := work.executed + 1 }
  match env.replies work.executed with
  | .affected rows =>
      if 0 < rows then
        (.ok rows, { sent with transaction := sent.transaction.map (env.effect query) })
      else (.ok rows, sent)
  | .throws => (.error .mySql, sent)

/-- The `Success` of one statement, with the exception caught. -/
def success (query : String) : Session Db Bool := fun work =>
  match executeNonQuery env query work with
  | (.ok rows, later) => (.ok (0 < rows), later)
  | (.error _, later) => (.ok false, later)

def successEach : List String → Session Db Bool
  | [] => pure true
  | query :: rest => do
      if ← success env query then successEach rest else pure false

def insertCharacter (uid cid : Int) (name : String) : String :=
  let pos := CharacterCreateDefault.pos
  "INSERT INTO characters " ++
    "(user_id,id,name,zone,pos_x,pos_y,pos_z,inserted_at,last_update_at)" ++
    s!"VALUE ({uid},{cid},\"{name}\",{pos.zone},{pos.x},{pos.y},{pos.z},NOW(),NOW())"

def insertItem (cid : Int) (item : ItemDbInfo) : String :=
  "INSERT INTO items " ++ "(item_sn,item_type,item_count,owner_char_id,bind,loc_type,loc_index)" ++
    "VALUES " ++ s!"({item.itemSN},{item.itemType},{item.count},{cid},{item.bind}," ++
    s!"{item.locType},{item.locIndex})"

def deleteItem (itemSn : Int) : String := s!"DELETE FROM items WHERE item_sn = {itemSn}"

def queryCharacterCreate (uid cid : Int) (name : String) : Session Db Bool :=
  success env (insertCharacter uid cid name)

def queryItemCreate (cid : Int) (items : List ItemDbInfo) : Session Db Bool :=
  successEach env (items.map (insertItem cid))

def queryItemRemove (_cid : Int) (itemSNList : List Int) : Session Db Bool :=
  successEach env (itemSNList.map deleteItem)

/-- The `foreach` of `CharacterCreate`, which gives each default item a number. -/
def newItems : (Nat → Int) → GeneratorItemSN → List ItemDbInfo →
    Result (List ItemDbInfo) × GeneratorItemSN
  | _, generator, [] => (.ok [], generator)
  | utcNow, generator, item :: rest =>
      match generator.generateSN (utcNow 0) with
      | (next, .error failure) => (.error failure, next)
      | (next, .ok sn) =>
          let made := newItems (fun call => utcNow (call + 1)) next rest
          (made.1.map ({ item with itemSN := sn } :: ·), made.2)

def itemList : Session Db (List ItemDbInfo) := fun work =>
  let made := newItems env.utcNow work.generator CharacterCreateDefault.items
  (made.1.mapError .other, { work with generator := made.2 })

/-- The `catch` of the operations and the `return true` behind it. The block in front of it either
returns a value or is left at its end. -/
def finish (block : Session Db (Option Bool)) (work : Work Db) : Bool × Work Db :=
  match block work with
  | (.ok (some returned), later) => (returned, later)
  | (.ok none, later) => (true, later)
  | (.error _, later) => (true, { later with transaction := none })

/-- `CharacterCreate`. Where it tests `Success` again before `Commit`, the test cannot fail. -/
def characterCreate (uid cid : Int) (name : String) : Work Db → Bool × Work Db :=
  finish do
    connOpen env
    beginTransaction env
    if ← queryCharacterCreate env uid cid name then
      let items ← itemList env
      if ← queryItemCreate env cid items then
        commit env
        pure none
      else
        rollback
        pure (some false)
    else
      rollback
      pure (some false)

/-- `ItemCreate` and `ItemRemove` have one text but for the query. -/
def itemTransaction (query : Session Db Bool) : Work Db → Bool × Work Db :=
  finish do
    connOpen env
    beginTransaction env
    if ← query then
      commit env
      pure (some true)
    else
      rollback
      pure none

def itemCreate (cid : Int) (items : List ItemDbInfo) : Work Db → Bool × Work Db :=
  itemTransaction env (queryItemCreate env cid items)

def itemRemove (cid : Int) (itemSnList : List Int) : Work Db → Bool × Work Db :=
  itemTransaction env (queryItemRemove env cid itemSnList)

end WorldDbConnection

inductive Operation
  | characterCreate (uid cid : Int) (name : String)
  | itemCreate (cid : Int) (items : List ItemDbInfo)
  | itemRemove (cid : Int) (itemSnList : List Int)

def Operation.perform {Db : Type} (env : Environment Db) : Operation → Work Db → Bool × Work Db
  | characterCreate uid cid name => WorldDbConnection.characterCreate env uid cid name
  | itemCreate cid items => WorldDbConnection.itemCreate env cid items
  | itemRemove cid itemSnList => WorldDbConnection.itemRemove env cid itemSnList

end ProjectPl.Sharp
