import ProjectPl.WorldStoreCore

/-!
What the world database holds after any run of write operations, and that the loads return it.
A database is read as two maps, from the character ids and from the serial numbers; a statement
changes one entry of one map. The operations that committed, and no others, have changed them.
-/

namespace ProjectPl.Sharp

open Utf LittleEndian

/-! The two maps. -/

structure Profile where
  name : String
  zone : Int
  posX : Int
  posY : Int
  posZ : Int

structure Contents where
  characters : Int → Option Profile
  items : Int → Option (Int × ItemDbInfo)

/-- A new character stands at the default position. -/
def Profile.new (name : String) : Profile :=
  let pos := CharacterCreateDefault.pos
  { name, zone := pos.zone, posX := pos.x, posY := pos.y, posZ := pos.z }

def Contents.apply (contents : Contents) : Statement → Contents
  | .insertCharacter _ cid name =>
      { contents with
        characters := Function.update contents.characters cid (some (Profile.new name)) }
  | .insertItem cid item =>
      { contents with items := Function.update contents.items item.itemSN (some (cid, item)) }
  | .deleteItem itemSn => { contents with items := Function.update contents.items itemSn none }

def CharacterRow.profile (row : CharacterRow) : Profile :=
  { name := row.name, zone := row.zone, posX := row.posX, posY := row.posY, posZ := row.posZ }

def ItemRow.info (row : ItemRow) : ItemDbInfo where
  itemSN := row.serial
  itemType := row.itemType
  count := row.itemCount
  bind := row.bind.getD 0
  locType := row.locType
  locIndex := row.locIndex

def CharacterRow.key (row : CharacterRow) : Int := row.id.toNat

def ItemRow.owner (row : ItemRow) : Int := row.ownerCharId.toNat

def PlWorld.contents (world : PlWorld) : Contents where
  characters cid :=
    (world.characters.rows.find? fun row => row.key = cid).map CharacterRow.profile
  items itemSn :=
    (world.items.rows.find? fun row => row.serial = itemSn).map fun row => (row.owner, row.info)

/-! Keyed rows. -/

section Keyed

variable {Row : Type} {key : Row → Int} {rows : List Row}

theorem find?_concat {row : Row} (fresh : ∀ other ∈ rows, key other ≠ key row) (wanted : Int) :
    (rows ++ [row]).find? (fun other => key other = wanted) =
      if wanted = key row then some row else rows.find? fun other => key other = wanted := by
  rw [List.find?_append]
  by_cases here : wanted = key row
  · subst here
    have none : rows.find? (fun other => key other = key row) = none := by
      rw [List.find?_eq_none]
      intro other member same
      exact fresh other member (of_decide_eq_true same)
    rw [none, if_pos rfl]
    simp
  · rw [if_neg here]
    have notNew : [row].find? (fun other => key other = wanted) = none := by
      simpa using fun same => here same.symm
    rw [notNew, Option.or_none]

theorem find?_filter_key (gone wanted : Int) :
    (rows.filter fun row => key row ≠ gone).find? (fun row => key row = wanted) =
      if wanted = gone then none else rows.find? fun row => key row = wanted := by
  rw [List.find?_filter]
  split
  · rename_i same
    subst same
    rw [List.find?_eq_none]
    simp
  · rename_i other
    refine List.find?_congr fun row _ => ?_
    by_cases here : key row = wanted
    · simp [here, other]
    · simp [here]

theorem find?_key (distinct : (rows.map key).Nodup) {row : Row} {wanted : Int} :
    rows.find? (fun other => key other = wanted) = some row ↔
      row ∈ rows ∧ key row = wanted := by
  constructor
  · intro found
    exact ⟨List.mem_of_find?_eq_some found,
      by simpa using List.find?_some found⟩
  · rintro ⟨member, rfl⟩
    cases found : rows.find? (fun other => key other = key row) with
    | none =>
        have missing := List.find?_eq_none.mp found row member
        simp at missing
    | some other =>
        have same : key other = key row := by simpa using List.find?_some found
        have there := List.mem_of_find?_eq_some found
        rw [List.inj_on_of_nodup_map distinct there member same]

end Keyed

/-! The columns. -/

theorem unsigned_toNat {value : Int} {column : UInt64} (stored : unsigned value = some column) :
    (column.toNat : Int) = value := by
  rw [unsigned] at stored
  split at stored
  · rename_i range
    rw [Option.some_inj] at stored
    subst stored
    rw [UInt64.toNat_ofNat', Nat.mod_eq_of_lt (by omega)]
    exact Int.toNat_of_nonneg range.1
  · cases stored

theorem ItemDbInfo.row_spec {cid : Int} {item : ItemDbInfo} {row : ItemRow}
    (stored : item.row cid = some row) :
    row.serial = item.itemSN ∧ row.owner = cid ∧ row.info = item ∧ row.bind ≠ none := by
  rw [ItemDbInfo.row] at stored
  cases serial : unsigned item.itemSN with
  | none => simp [serial] at stored
  | some itemSn =>
      cases owner : unsigned cid with
      | none => simp [serial, owner] at stored
      | some ownerCharId =>
          simp only [serial, owner, Option.bind_eq_bind, Option.bind_some] at stored
          split at stored
          · rw [Option.some_inj] at stored
            subst stored
            refine ⟨unsigned_toNat serial, unsigned_toNat owner, ?_, Option.some_ne_none _⟩
            simp only [ItemRow.info, ItemRow.serial, unsigned_toNat serial, Option.getD_some]
          · cases stored

theorem characterRow_spec {uid cid : Int} {name : String} {row : CharacterRow}
    (stored : characterRow uid cid name = some row) :
    row.key = cid ∧ row.profile = Profile.new name := by
  rw [characterRow] at stored
  cases user : unsigned uid with
  | none => simp [user] at stored
  | some userId =>
      cases id : unsigned cid with
      | none => simp [user, id] at stored
      | some column =>
          simp only [user, id, Option.bind_eq_bind, Option.bind_some, Option.some_inj] at stored
          subst stored
          exact ⟨unsigned_toNat id, rfl⟩

/-! One statement. -/

theorem PlWorld.insertCharacter_contents {world next : PlWorld} {row : CharacterRow}
    (inserted : world.insertCharacter row = some next) :
    next.items = world.items ∧ next.contents = { world.contents with
      characters := Function.update world.contents.characters row.key (some row.profile) } := by
  rw [PlWorld.insertCharacter] at inserted
  split at inserted
  · rename_i fresh
    rw [Option.some_inj] at inserted
    subst inserted
    refine ⟨rfl, ?_⟩
    have apart : ∀ other ∈ world.characters.rows, other.key ≠ row.key := by
      intro other member same
      have equal : other.id = row.id := UInt64.toNat_inj.mp (Int.ofNat_inj.mp same)
      exact fresh.1 (equal ▸ List.mem_map_of_mem member)
    refine congrArg₂ Contents.mk (funext fun cid => ?_) rfl
    dsimp only
    rw [find?_concat apart, Function.update_apply]
    split
    · rfl
    · rfl
  · cases inserted

theorem PlWorld.insertItem_contents {world next : PlWorld} {row : ItemRow}
    (inserted : world.insertItem row = some next) :
    next.items.rows = world.items.rows ++ [row] ∧ next.contents = { world.contents with
      items := Function.update world.contents.items row.serial (some (row.owner, row.info)) } := by
  rw [PlWorld.insertItem] at inserted
  split at inserted
  · rename_i fresh
    rw [Option.some_inj] at inserted
    subst inserted
    refine ⟨rfl, ?_⟩
    have apart : ∀ other ∈ world.items.rows, other.serial ≠ row.serial := by
      intro other member same
      have equal : other.itemSn = row.itemSn := UInt64.toNat_inj.mp (Int.ofNat_inj.mp same)
      exact fresh.1 (equal ▸ List.mem_map_of_mem member)
    refine congrArg₂ Contents.mk rfl (funext fun itemSn => ?_)
    dsimp only
    rw [find?_concat apart, Function.update_apply]
    split
    · rfl
    · rfl
  · cases inserted

theorem PlWorld.deleteItem_contents (world : PlWorld) (itemSn : Int) :
    (world.deleteItem itemSn).contents =
      { world.contents with items := Function.update world.contents.items itemSn none } := by
  refine congrArg₂ Contents.mk rfl (funext fun wanted => ?_)
  have found : (world.deleteItem itemSn).items.rows.find? (fun row => row.serial = wanted) = _ :=
    find?_filter_key itemSn wanted
  rw [found, Function.update_apply]
  split
  · rfl
  · rfl

def PlWorld.Readable (world : PlWorld) : Prop :=
  ∀ row ∈ world.items.rows, row.serial < 2 ^ 63 ∧ row.bind ≠ none

/-- The serial number is an `Int64`. -/
def Statement.Int64 : Statement → Prop
  | insertItem _ item => item.itemSN < 2 ^ 63
  | insertCharacter _ _ _ => True
  | deleteItem _ => True

theorem PlWorld.execute_spec {world next : PlWorld} {statement : Statement} {rows : Int}
    (executed : world.execute statement = some (next, rows)) :
    next.contents = world.contents.apply statement ∧
      (statement.Int64 → world.Readable → next.Readable) := by
  cases statement with
  | insertCharacter uid cid name =>
      rw [PlWorld.execute] at executed
      cases stored : characterRow uid cid name with
      | none => simp [stored] at executed
      | some row =>
          cases inserted : world.insertCharacter row with
          | none => simp [stored, inserted] at executed
          | some after =>
              simp only [stored, inserted, Option.bind_eq_bind, Option.bind_some, Option.some_inj,
                Prod.mk.injEq] at executed
              obtain ⟨rfl, -⟩ := executed
              obtain ⟨key, profile⟩ := characterRow_spec stored
              obtain ⟨items, contents⟩ := PlWorld.insertCharacter_contents inserted
              refine ⟨?_, ?_⟩
              · rw [contents, key, profile]
                rfl
              · intro _ readable
                rw [Readable, items]
                exact readable
  | insertItem cid item =>
      rw [PlWorld.execute] at executed
      cases stored : item.row cid with
      | none => simp [stored] at executed
      | some row =>
          cases inserted : world.insertItem row with
          | none => simp [stored, inserted] at executed
          | some after =>
              simp only [stored, inserted, Option.bind_eq_bind, Option.bind_some, Option.some_inj,
                Prod.mk.injEq] at executed
              obtain ⟨rfl, -⟩ := executed
              obtain ⟨serial, owner, info, bound⟩ := ItemDbInfo.row_spec stored
              obtain ⟨items, contents⟩ := PlWorld.insertItem_contents inserted
              refine ⟨?_, ?_⟩
              · rw [contents, serial, owner, info]
                rfl
              · intro small readable other member
                rw [items] at member
                rcases List.mem_append.mp member with old | new
                · exact readable other old
                · rw [List.mem_singleton.mp new]
                  exact ⟨serial.symm ▸ small, bound⟩
  | deleteItem itemSn =>
      rw [PlWorld.execute, Option.some_inj, Prod.mk.injEq] at executed
      obtain ⟨rfl, -⟩ := executed
      refine ⟨world.deleteItem_contents itemSn, ?_⟩
      exact fun _ readable row member => readable row (List.mem_of_mem_filter member)

/-! One operation: all its statements or none of them. -/

open WorldDbConnection

/-- The statements of an operation; there are none where the numbers for its items run out. -/
def Operation.statementList (utcNow : Nat → Int) (generator : GeneratorItemSN) :
    Operation → Option (List Statement)
  | characterCreate uid cid name =>
      (newItems utcNow generator CharacterCreateDefault.items).1.toOption.map fun items =>
        .insertCharacter uid cid name :: items.map (.insertItem cid)
  | itemCreate cid items => some (items.map (.insertItem cid))
  | itemRemove _ itemSnList => some (itemSnList.map .deleteItem)

theorem Operation.statements_eq {Db : Type} (env : Environment Db) (generator : GeneratorItemSN)
    (operation : Operation) : operation.statements env generator =
      (operation.statementList env.utcNow generator).map (List.map Statement.text) := by
  cases operation with
  | characterCreate uid cid name =>
      rw [Operation.statements, Operation.statementList]
      cases (newItems env.utcNow generator CharacterCreateDefault.items).1.toOption with
      | none => rfl
      | some items =>
          simp only [Option.map_some, List.map_cons, List.map_map]
          rfl
  | itemCreate cid items =>
      rw [Operation.statements, Operation.statementList, Option.map_some, List.map_map]
      rfl
  | itemRemove cid itemSnList =>
      rw [Operation.statements, Operation.statementList, Option.map_some, List.map_map]
      rfl

/-- What has happened where an operation did not commit, and where it did. -/
structure AllOrNothing {Db : Type} (env : Environment Db) (queries : Option (List String))
    (before : Db) (after : Work Db) : Prop where
  kept : after.committed = false → after.database = before
  done : after.committed = true → ∃ list, queries = some list ∧ Succeed env 0 list.length ∧
    after.database = effects env list before

theorem AllOrNothing.of_kept {Db : Type} {env : Environment Db} {queries : Option (List String)}
    {before : Db} {after : Work Db} (uncommitted : after.committed = false)
    (same : after.database = before) : AllOrNothing env queries before after :=
  ⟨fun _ => same, fun committed => absurd (uncommitted.symm.trans committed) Bool.false_ne_true⟩

section Settle

variable {Db : Type} {env : Environment Db} (database : Db) (generator : GeneratorItemSN)

theorem itemTransaction_settled (queries : List String) :
    AllOrNothing env (some queries) database (itemTransaction env (successEach env queries)
      { database := database, generator := generator }).2 := by
  by_cases ready : env.opens = true ∧ env.begins = true
  · rw [itemTransaction, finish_of_begun ready.1 ready.2]
    by_cases succeed : Succeed env 0 queries.length
    · rw [finish_of_ok (successEach_of_succeed _ succeed), if_pos rfl, finish_commit rfl]
      by_cases commits : env.commits = true
      · rw [if_pos commits]
        exact ⟨fun kept => absurd kept.symm Bool.false_ne_true,
          fun _ => ⟨queries, rfl, succeed, rfl⟩⟩
      · rw [if_neg commits]
        exact .of_kept rfl rfl
    · obtain ⟨later, ran, same, uncommitted⟩ := successEach_of_failure
        { database := database, transaction := some database, generator := generator } succeed
      rw [finish_of_ok ran, if_neg Bool.false_ne_true]
      exact .of_kept uncommitted same
  · rw [itemTransaction, finish_of_closed ready]
    exact .of_kept rfl rfl

theorem characterItems_settled {work : Work Db} (uid cid : Int) (name : String)
    (fresh : work.database = database ∧ work.generator = generator ∧ work.executed = 1 ∧
      work.committed = false ∧
      work.transaction = some (env.effect (insertCharacter uid cid name) database))
    (inserted : (env.replies 0).success = true) :
    AllOrNothing env ((Operation.characterCreate uid cid name).statements env generator) database
      (finish (do
        let items ← itemList env
        if ← queryItemCreate env cid items then
          commit env
          pure none
        else
          rollback
          pure (some false)) work).2 := by
  obtain ⟨rfl, rfl, sent, uncommitted, copy⟩ := fresh
  cases made : (newItems env.utcNow work.generator CharacterCreateDefault.items).1 with
  | error failure =>
      obtain ⟨next, threw⟩ := itemList_of_error made
      rw [finish, Session.bind_of_error threw]
      exact .of_kept uncommitted rfl
  | ok items =>
      obtain ⟨next, drawn⟩ := itemList_of_ok made
      rw [finish_of_ok drawn]
      by_cases succeed : Succeed env work.executed (items.map (insertItem cid)).length
      · have ran := successEach_of_succeed { work with generator := next } succeed
        change queryItemCreate env cid items _ = _ at ran
        rw [finish_of_ok ran, if_pos rfl, finish_commit rfl]
        by_cases commits : env.commits = true
        · have all : (Operation.characterCreate uid cid name).statements env work.generator =
              some (insertCharacter uid cid name :: items.map (insertItem cid)) := by
            rw [Operation.statements, made]
            rfl
          rw [if_pos commits, all]
          refine ⟨fun kept => absurd kept.symm Bool.false_ne_true,
            fun _ => ⟨_, rfl, ?_, ?_⟩⟩
          · intro index bound
            cases index with
            | zero => exact inserted
            | succ index =>
                have there := succeed index (Nat.lt_of_succ_lt_succ bound)
                rw [sent, Nat.add_comm 1] at there
                rwa [Nat.zero_add]
          · rw [copy]
            rfl
        · rw [if_neg commits]
          exact .of_kept uncommitted rfl
      · obtain ⟨later, ran, same, still⟩ := successEach_of_failure { work with generator := next }
          succeed
        change queryItemCreate env cid items _ = _ at ran
        rw [finish_of_ok ran, if_neg Bool.false_ne_true]
        exact .of_kept (still.trans uncommitted) same

theorem characterCreate_settled (uid cid : Int) (name : String) :
    AllOrNothing env ((Operation.characterCreate uid cid name).statements env generator) database
      (characterCreate env uid cid name { database := database, generator := generator }).2 := by
  rw [characterCreate]
  by_cases ready : env.opens = true ∧ env.begins = true
  · have sent := success_eq env (insertCharacter uid cid name)
      { database := database, transaction := some database, generator := generator }
    change queryCharacterCreate env uid cid name _ = (.ok (env.replies 0).success, _) at sent
    rw [finish_of_begun ready.1 ready.2, finish_of_ok sent]
    by_cases inserted : (env.replies 0).success = true
    · rw [if_pos inserted]
      exact characterItems_settled database generator uid cid name
        ⟨rfl, rfl, rfl, rfl, if_pos inserted⟩ inserted
    · rw [if_neg inserted]
      exact .of_kept rfl rfl
  · rw [finish_of_closed ready]
    exact .of_kept rfl rfl

theorem perform_settled (operation : Operation) :
    AllOrNothing env (operation.statements env generator) database
      (operation.perform env { database := database, generator := generator }).2 := by
  cases operation with
  | characterCreate uid cid name => exact characterCreate_settled database generator uid cid name
  | itemCreate cid items => exact itemTransaction_settled database generator _
  | itemRemove cid itemSnList => exact itemTransaction_settled database generator _

end Settle

/-! MySQL, as far as these statements go. -/

/-- A statement throws, or it is executed and tells how many rows it has affected. -/
structure MySqlWorld (env : Environment PlWorld) (database : PlWorld) (list : List Statement) :
    Prop where
  effect : ∀ statement ∈ list, statement.Plain → ∀ (before next : PlWorld) (rows : Int),
    before.execute statement = some (next, rows) → env.effect statement.text before = next
  replies : ∀ (index : Nat) (inside : index < list.length), list[index].Plain →
    env.replies index = .throws ∨ ∃ next rows,
      (effects env ((list.take index).map Statement.text) database).execute list[index] =
        some (next, rows) ∧ env.replies index = .affected rows

theorem MySqlWorld.effects_spec {env : Environment PlWorld} {database : PlWorld}
    {list : List Statement} (mysql : MySqlWorld env database list)
    (plain : ∀ statement ∈ list, statement.Plain) (small : ∀ statement ∈ list, statement.Int64)
    (succeed : Succeed env 0 list.length) (count : Nat) (inside : count ≤ list.length) :
    (effects env ((list.take count).map Statement.text) database).contents =
        (list.take count).foldl Contents.apply database.contents ∧
      (database.Readable →
        (effects env ((list.take count).map Statement.text) database).Readable) := by
  induction count with
  | zero => exact ⟨rfl, id⟩
  | succ count ih =>
      have here : count < list.length := inside
      have member : list[count] ∈ list := List.getElem_mem here
      obtain ⟨contents, reads⟩ := ih (Nat.le_of_lt here)
      rcases mysql.replies count here (plain _ member) with thrown | ⟨next, rows, executed, -⟩
      · have sent := succeed count here
        rw [Nat.zero_add, thrown] at sent
        cases sent
      · have applied := mysql.effect _ member (plain _ member) _ next rows executed
        have spec := PlWorld.execute_spec executed
        have step : effects env ((list.take (count + 1)).map Statement.text) database = next := by
          rw [List.take_succ_eq_append_getElem here, List.map_append, effects, List.foldl_append]
          exact applied
        rw [step, List.take_succ_eq_append_getElem here, List.foldl_append, ← contents]
        exact ⟨spec.1, fun readable => spec.2 (small _ member) (reads readable)⟩

/-! A run. -/

/-- The names can be written into a statement, and the serial numbers are `Int64`. -/
def Operation.Plain : Operation → Prop
  | characterCreate uid cid name => (Statement.insertCharacter uid cid name).Plain
  | itemCreate _ items => ∀ item ∈ items, item.itemSN < 2 ^ 63
  | itemRemove _ _ => True

namespace WorldProcess

def statementList (process : WorldProcess) (call : WorldCall) : Option (List Statement) :=
  call.operation.statementList call.env.utcNow process.generator

/-- The statements that a call has committed. -/
def committed (process : WorldProcess) (call : WorldCall) : List Statement :=
  if (process.perform call).2.committed then (process.statementList call).getD [] else []

/-- All that a run has committed, in order. -/
def history : WorldProcess → List WorldCall → List Statement
  | _, [] => []
  | process, call :: rest => process.committed call ++ history (process.step call) rest

/-- The database of a call is MySQL. -/
def OnMySql (process : WorldProcess) (call : WorldCall) : Prop :=
  call.operation.Plain ∧
    ∀ list, process.statementList call = some list → MySqlWorld call.env process.database list

end WorldProcess

theorem GeneratorItemSN.generateSN_lt {generator : GeneratorItemSN} {utcNow sn : Int}
    (generated : (generator.generateSN utcNow).2 = .ok sn) : sn < 2 ^ 63 := by
  have small (filled : GeneratorItemSN) : filled.serialNumber < 2 ^ 63 := BitVec.toInt_lt
  rw [generateSN] at generated
  split at generated
  · rw [← Except.ok.inj generated]
    exact small _
  · dsimp only at generated
    split at generated
    · cases generated
    · rw [← Except.ok.inj generated]
      exact small _

theorem newItems_lt {utcNow : Nat → Int} {generator : GeneratorItemSN}
    {items list : List ItemDbInfo} (made : (newItems utcNow generator items).1 = .ok list) :
    ∀ item ∈ list, item.itemSN < 2 ^ 63 := by
  induction items generalizing utcNow generator list with
  | nil =>
      cases made
      exact fun _ member => absurd member List.not_mem_nil
  | cons item rest ih =>
      obtain ⟨sn, others, returned, later, rfl⟩ := newItems_cons.mp made
      intro other member
      rcases List.mem_cons.mp member with rfl | old
      · exact GeneratorItemSN.generateSN_lt returned
      · exact ih later other old

theorem Operation.Plain.statements {operation : Operation} (plain : operation.Plain)
    {utcNow : Nat → Int} {generator : GeneratorItemSN} {list : List Statement}
    (all : operation.statementList utcNow generator = some list) :
    ∀ statement ∈ list, statement.Plain ∧ statement.Int64 := by
  cases operation with
  | characterCreate uid cid name =>
      rw [Operation.statementList] at all
      cases made : (newItems utcNow generator CharacterCreateDefault.items).1 with
      | error failure => simp [made, Except.toOption] at all
      | ok items =>
          simp only [made, Except.toOption, Option.map_some, Option.some_inj] at all
          subst all
          intro statement member
          rcases List.mem_cons.mp member with rfl | listed
          · exact ⟨plain, trivial⟩
          · obtain ⟨item, there, rfl⟩ := List.mem_map.mp listed
            exact ⟨trivial, newItems_lt made item there⟩
  | itemCreate cid items =>
      rw [Operation.statementList, Option.some_inj] at all
      subst all
      intro statement member
      obtain ⟨item, there, rfl⟩ := List.mem_map.mp member
      exact ⟨trivial, plain item there⟩
  | itemRemove cid itemSnList =>
      rw [Operation.statementList, Option.some_inj] at all
      subst all
      intro statement member
      obtain ⟨itemSn, -, rfl⟩ := List.mem_map.mp member
      exact ⟨trivial, trivial⟩

namespace WorldProcess

theorem step_contents {process : WorldProcess} {call : WorldCall}
    (mysql : process.OnMySql call) :
    (process.step call).database.contents =
        (process.committed call).foldl Contents.apply process.database.contents ∧
      (process.database.Readable → (process.step call).database.Readable) := by
  have settled : AllOrNothing call.env _ process.database (process.perform call).2 :=
    perform_settled process.database process.generator call.operation
  rw [Operation.statements_eq] at settled
  cases done : (process.perform call).2.committed with
  | false =>
      have same : (process.step call).database = process.database := settled.kept done
      rw [committed, done, if_neg Bool.false_ne_true, same]
      exact ⟨rfl, id⟩
  | true =>
      obtain ⟨queries, texts, succeed, after⟩ := settled.done done
      obtain ⟨list, all, rfl⟩ := Option.map_eq_some_iff.mp texts
      have listed : process.statementList call = some list := all
      have plain := mysql.1.statements all
      rw [List.length_map] at succeed
      have spec := (mysql.2 list listed).effects_spec (fun statement member => (plain _ member).1)
        (fun statement member => (plain _ member).2) succeed list.length (Nat.le_refl _)
      rw [List.take_length, ← after] at spec
      rw [committed, done, if_pos rfl, listed]
      exact spec

theorem run_cons (process : WorldProcess) (call : WorldCall) (rest : List WorldCall) :
    process.run (call :: rest) = (process.step call).run rest := rfl

theorem run_database_readable {process : WorldProcess} {calls : List WorldCall}
    (mysql : Run.Along step OnMySql process calls) :
    (process.run calls).database.contents =
        (process.history calls).foldl Contents.apply process.database.contents ∧
      (process.database.Readable → (process.run calls).database.Readable) := by
  induction calls generalizing process with
  | nil => exact ⟨rfl, id⟩
  | cons call rest ih =>
      obtain ⟨contents, reads⟩ := step_contents mysql.1
      obtain ⟨later, still⟩ := ih mysql.2
      rw [run_cons, history, List.foldl_append, ← contents]
      exact ⟨later, still ∘ reads⟩

end WorldProcess

/-! What the loads find. -/

def PlWorld.SelectsItems (world : PlWorld) (cid : Int) (rows : List ItemRow) : Prop :=
  rows.Perm (world.items.rows.filter fun row => row.owner = cid)

def PlWorld.SelectsCharacter (world : PlWorld) (cid : Int) (rows : List CharacterRow) : Prop :=
  rows = (world.characters.rows.filter fun row => row.key = cid).take 1

/-- What `CharacterLoad` makes of a row. -/
def Profile.fill (charData : Common.CharacterDbInfo) (profile : Profile) :
    Common.CharacterDbInfo :=
  { charData with
    name := Common.Text.set (utf16Encode profile.name.toList)
    pos := charData.pos.setPos profile.zone profile.posX profile.posY profile.posZ }

theorem readItem_eq {row : ItemRow} (small : row.serial < 2 ^ 63) (bound : row.bind ≠ none) :
    readItem row = some row.info := by
  obtain ⟨value, bind⟩ := Option.ne_none_iff_exists'.mp bound
  have serial : getInt64 row.itemSn = some row.serial :=
    if_pos (by rw [ItemRow.serial] at small; omega)
  rw [readItem, serial, bind, ItemRow.info, bind]
  rfl

theorem readItems_eq {rows : List ItemRow} (items : List ItemDbInfo)
    (readable : ∀ row ∈ rows, row.serial < 2 ^ 63 ∧ row.bind ≠ none) :
    readItems rows items = (true, items ++ rows.map ItemRow.info) := by
  induction rows generalizing items with
  | nil => rw [readItems, List.map_nil, List.append_nil]
  | cons row rest ih =>
      obtain ⟨small, bound⟩ := readable row List.mem_cons_self
      rw [readItems, readItem_eq small bound]
      dsimp only
      rw [ih _ fun other member => readable other (List.mem_cons_of_mem _ member),
        List.append_assoc, List.map_cons, List.singleton_append]

theorem Items.serials_nodup (items : Items) : (items.rows.map ItemRow.serial).Nodup := by
  have injective : Function.Injective fun column : UInt64 => (column.toNat : Int) :=
    fun one two same => UInt64.toNat_inj.mp (Int.ofNat_inj.mp same)
  have mapped := items.primaryKey.map injective
  rwa [List.map_map] at mapped

theorem PlWorld.itemLoad_spec {world : PlWorld} (readable : world.Readable) {cid : Int}
    {rows : List ItemRow} (selected : world.SelectsItems cid rows) (items : List ItemDbInfo) :
    ∃ loaded, itemLoad true (some rows) items = (true, items ++ loaded) ∧
      (loaded.map ItemDbInfo.itemSN).Nodup ∧
      ∀ item, item ∈ loaded ↔ world.contents.items item.itemSN = some (cid, item) := by
  have inside (row : ItemRow) : row ∈ rows ↔ row ∈ world.items.rows ∧ row.owner = cid := by
    rw [selected.mem_iff, List.mem_filter, decide_eq_true_iff]
  refine ⟨rows.map ItemRow.info, ?_, ?_, ?_⟩
  · exact readItems_eq items fun row member => readable row ((inside row).mp member).1
  · rw [List.map_map]
    have sublist : ((world.items.rows.filter fun row => row.owner = cid).map
        ItemRow.serial).Nodup := world.items.serials_nodup.sublist (List.filter_sublist.map _)
    exact (selected.map ItemRow.serial).nodup_iff.mpr sublist
  · intro item
    rw [List.mem_map, PlWorld.contents]
    dsimp only
    rw [Option.map_eq_some_iff]
    constructor
    · rintro ⟨row, member, rfl⟩
      obtain ⟨there, owned⟩ := (inside row).mp member
      exact ⟨row, (find?_key world.items.serials_nodup).mpr ⟨there, rfl⟩, by rw [owned]⟩
    · rintro ⟨row, found, same⟩
      obtain ⟨owned, rfl⟩ := Prod.mk.inj same
      have there := ((find?_key world.items.serials_nodup).mp found).1
      exact ⟨row, (inside row).mpr ⟨there, owned⟩, rfl⟩

theorem PlWorld.characterLoad_spec {world : PlWorld} {cid : Int} {rows : List CharacterRow}
    (selected : world.SelectsCharacter cid rows) (charData : Common.CharacterDbInfo) :
    characterLoad true (some rows) charData =
      (true, (world.contents.characters cid).elim charData (Profile.fill charData)) := by
  have first : (world.characters.rows.filter fun row => row.key = cid).head? =
      world.characters.rows.find? fun row => row.key = cid := List.head?_filter
  rw [SelectsCharacter] at selected
  rw [PlWorld.contents]
  dsimp only
  rw [← first]
  cases matching : world.characters.rows.filter fun row => row.key = cid with
  | nil =>
      rw [matching] at selected
      subst selected
      rfl
  | cons row rest =>
      rw [matching] at selected
      subst selected
      rfl

namespace WorldProcess

/-- After any run the database holds what the calls that committed have written, and of the others
nothing. -/
theorem run_database (process : WorldProcess) (calls : List WorldCall)
    (mysql : Run.Along step OnMySql process calls) :
    (process.run calls).database.contents =
      (process.history calls).foldl Contents.apply process.database.contents :=
  (run_database_readable mysql).1

/-! A character without items is given one. Then it is to get another one, listed twice: the second
statement is refused, and the first one goes with it. -/

def hero : CharacterRow where
  userId := some 1
  id := 1
  name := "name01"
  zone := 0
  posX := 0
  posY := 0
  posZ := 0

def emptyHanded : WorldProcess where
  database := {
    characters := {
      rows := [hero]
      primaryKey := List.nodup_singleton _
      uniqueName := List.nodup_singleton _ }
    items := { rows := [], primaryKey := List.nodup_nil }
    foreignKey := fun _ member => absurd member List.not_mem_nil }

def gift : ItemDbInfo := { itemSN := 7, itemType := 501, count := 10 }

def give (item : ItemDbInfo) (items : List ItemDbInfo) (replies : Nat → Reply) : WorldCall where
  env := {
    effect := fun _ world => ((world.execute (.insertItem 1 item)).map Prod.fst).getD world
    opens := true
    begins := true
    commits := true
    replies
    utcNow := fun _ => 1 }
  operation := .itemCreate 1 items

def giving : WorldCall := give gift [gift] fun _ => .affected 1

def second : ItemDbInfo := { itemSN := 8, itemType := 501, count := 10 }

def givingTwice : WorldCall :=
  give second [second, second] fun index => if index = 0 then .affected 1 else .throws

theorem give_effect (item : ItemDbInfo) {items : List ItemDbInfo} {replies : Nat → Reply}
    (same : ∀ other ∈ items, other = item) {before next : PlWorld} {rows : Int}
    {statement : Statement} (member : statement ∈ items.map (Statement.insertItem 1))
    (executed : before.execute statement = some (next, rows)) :
    (give item items replies).env.effect statement.text before = next := by
  obtain ⟨other, listed, rfl⟩ := List.mem_map.mp member
  rw [same other listed] at executed
  exact congrArg (fun result => (result.map Prod.fst).getD before) executed

theorem giving_onMySql : Run.Along step OnMySql emptyHanded [giving, givingTwice] := by
  refine ⟨⟨?_, ?_⟩, ⟨?_, ?_⟩, trivial⟩
  · intro item member
    rw [List.mem_singleton.mp member]
    decide
  · rintro list ⟨⟩
    refine ⟨fun statement member _ before next rows executed =>
      give_effect gift (fun other => List.mem_singleton.mp) member executed, ?_⟩
    intro index inside _
    obtain rfl : index = 0 := Nat.lt_one_iff.mp inside
    exact Or.inr ⟨_, 1, rfl, rfl⟩
  · intro item member
    obtain rfl : item = second := by simpa using member
    decide
  · rintro list ⟨⟩
    refine ⟨fun statement member _ before next rows executed =>
      give_effect second (fun other listed => by simpa using listed) member executed, ?_⟩
    intro index inside _
    cases index with
    | zero => exact Or.inr ⟨_, 1, rfl, rfl⟩
    | succ index => exact Or.inl rfl

theorem run_database_gift :
    emptyHanded.history [giving, givingTwice] = [.insertItem 1 gift] ∧
      (emptyHanded.run [giving, givingTwice]).database.contents =
        [Statement.insertItem 1 gift].foldl Contents.apply emptyHanded.database.contents :=
  ⟨rfl, run_database emptyHanded [giving, givingTwice] giving_onMySql⟩

/-- What the loads return then, whichever order the rows come in. A character that is not there is
no failure to `CharacterLoad`, which leaves its result as it was. -/
theorem loads_committed (process : WorldProcess) (calls : List WorldCall)
    (mysql : Run.Along step OnMySql process calls) (readable : process.database.Readable)
    (cid : Int) :
    (∀ (rows : List ItemRow) (items : List ItemDbInfo),
      (process.run calls).database.SelectsItems cid rows →
        ∃ loaded, itemLoad true (some rows) items = (true, items ++ loaded) ∧
          (loaded.map ItemDbInfo.itemSN).Nodup ∧
          ∀ item, item ∈ loaded ↔
            ((process.history calls).foldl Contents.apply process.database.contents).items
              item.itemSN = some (cid, item)) ∧
    ∀ (rows : List CharacterRow) (charData : Common.CharacterDbInfo),
      (process.run calls).database.SelectsCharacter cid rows →
        characterLoad true (some rows) charData =
          (true, (((process.history calls).foldl Contents.apply
            process.database.contents).characters cid).elim charData
              (Profile.fill charData)) := by
  obtain ⟨contents, reads⟩ := run_database_readable mysql
  rw [← contents]
  exact ⟨fun rows items selected => PlWorld.itemLoad_spec (reads readable) selected items,
    fun rows charData selected => PlWorld.characterLoad_spec selected charData⟩

theorem emptyHanded_readable : emptyHanded.database.Readable :=
  fun _ member => absurd member List.not_mem_nil

theorem loads_committed_gift :
    ∃ loaded, itemLoad true (some ((emptyHanded.run [giving, givingTwice]).database.items.rows.filter
        fun row => row.owner = 1)) [] = (true, loaded) ∧
      (loaded.map ItemDbInfo.itemSN).Nodup ∧
      ∀ item, item ∈ loaded ↔
        ((emptyHanded.history [giving, givingTwice]).foldl Contents.apply
          emptyHanded.database.contents).items item.itemSN = some (1, item) :=
  (loads_committed emptyHanded [giving, givingTwice] giving_onMySql emptyHanded_readable 1).1 _ []
    (List.Perm.refl _)

end WorldProcess

end ProjectPl.Sharp
