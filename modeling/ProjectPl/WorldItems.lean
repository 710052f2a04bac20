import ProjectPl.WorldQuery

/-!
The table `items` of `world_db.sql` under `ItemRemove`, whose statement names a serial number and
no owner.
-/

namespace ProjectPl.Sharp

structure ItemRow where
  itemSn : UInt64
  itemType : Int
  itemCount : Int
  ownerCharId : UInt64
  bind : Option Int
  locType : Int
  locIndex : Int
  deriving DecidableEq

structure Items where
  rows : List ItemRow
  primaryKey : (rows.map ItemRow.itemSn).Nodup

namespace ItemRow

/-- The column as the server writes it into a statement. -/
def serial (row : ItemRow) : Int := row.itemSn.toNat

def OwnedBy (cid : Int) (row : ItemRow) : Prop := row.ownerCharId.toNat = cid

instance (cid : Int) : DecidablePred (OwnedBy cid) :=
  fun row => inferInstanceAs (Decidable ((row.ownerCharId.toNat : Int) = cid))

/-- The `WHERE` of the `DELETE` that this text is. -/
def Selected (query : String) (row : ItemRow) : Prop :=
  query = WorldDbConnection.deleteItem row.serial

instance (query : String) : DecidablePred (Selected query) :=
  fun row => inferInstanceAs (Decidable (query = WorldDbConnection.deleteItem row.serial))

end ItemRow

namespace Items

def keep (items : Items) (kept : ItemRow → Bool) : Items where
  rows := items.rows.filter kept
  primaryKey := items.primaryKey.sublist (List.filter_sublist.map _)

def execute (query : String) (items : Items) : Items :=
  items.keep fun row => ¬row.Selected query

def affected (query : String) (items : Items) : Int :=
  items.rows.countP fun row => row.Selected query

/-- The rows of everyone but this character. -/
def others (cid : Int) (items : Items) : List ItemRow :=
  items.rows.filter fun row => ¬row.OwnedBy cid

end Items

open WorldDbConnection

/-- MySQL with this table: a statement throws, or deletes and tells how many rows. -/
structure MySqlItems (env : Environment Items) (database : Items) (queries : List String) :
    Prop where
  effect : env.effect = Items.execute
  replies : ∀ (index : Nat) (inside : index < queries.length), env.replies index = .throws ∨
    env.replies index =
      .affected ((effects env (queries.take index) database).affected queries[index])

theorem deleteItem_inj {itemSn other : Int} :
    deleteItem itemSn = deleteItem other ↔ itemSn = other := by
  refine ⟨fun same => ?_, fun same => same ▸ rfl⟩
  exact Int.repr_injective ((String.append_right_inj _).mp same)

theorem selected_deleteItem {itemSn : Int} {row : ItemRow} :
    row.Selected (deleteItem itemSn) ↔ row.serial = itemSn := by
  rw [ItemRow.Selected, deleteItem_inj, eq_comm]

instance (env : Environment Items) (start count : Nat) : Decidable (Succeed env start count) :=
  inferInstanceAs (Decidable (∀ index < count, (env.replies (start + index)).success = true))

section Deleted

variable {env : Environment Items} (deletes : env.effect = Items.execute) {database : Items}
  {cid : Int} {itemSnList : List Int}
include deletes

theorem effects_rows : (effects env (itemSnList.map deleteItem) database).rows =
    database.rows.filter fun row => row.serial ∉ itemSnList := by
  induction itemSnList generalizing database with
  | nil => simp [effects]
  | cons itemSn rest ih =>
      have here : (database.execute (deleteItem itemSn)).rows =
          database.rows.filter fun row => row.serial ≠ itemSn := by
        refine List.filter_congr fun row _ => ?_
        exact decide_eq_decide.mpr (not_congr selected_deleteItem)
      have later : effects env ((itemSn :: rest).map deleteItem) database =
          effects env (rest.map deleteItem) (database.execute (deleteItem itemSn)) := by
        rw [effects, List.map_cons, List.foldl_cons, deletes, effects, deletes]
      rw [later, ih, here, List.filter_filter]
      refine List.filter_congr fun row _ => ?_
      simp only [List.mem_cons, not_or, Bool.decide_and, ne_eq, Bool.and_comm]

theorem affected_pos {itemSn : Int} :
    0 < (effects env (itemSnList.map deleteItem) database).affected (deleteItem itemSn) ↔
      itemSn ∉ itemSnList ∧ ∃ row ∈ database.rows, row.serial = itemSn := by
  rw [Items.affected, effects_rows deletes, Int.natCast_pos, List.countP_pos_iff]
  constructor
  · rintro ⟨row, inside, selected⟩
    obtain ⟨there, unlisted⟩ := List.mem_filter.mp inside
    have serial := selected_deleteItem.mp (of_decide_eq_true selected)
    exact ⟨serial ▸ of_decide_eq_true unlisted, row, there, serial⟩
  · rintro ⟨unlisted, row, there, serial⟩
    exact ⟨row, List.mem_filter.mpr ⟨there, decide_eq_true (serial ▸ unlisted)⟩,
      decide_eq_true (selected_deleteItem.mpr serial)⟩

theorem others_effects : (effects env (itemSnList.map deleteItem) database).others cid =
    (database.others cid).filter fun row => row.serial ∉ itemSnList := by
  rw [Items.others, Items.others, effects_rows deletes, List.filter_comm]

end Deleted

/-- The call commits: nothing throws, and each statement finds its row. -/
structure Commits (env : Environment Items) (database : Items) (itemSnList : List Int) :
    Prop where
  opens : env.opens = true
  begins : env.begins = true
  answered : ∀ index < itemSnList.length, env.replies index ≠ .throws
  present : ∀ itemSn ∈ itemSnList, ∃ row ∈ database.rows, row.serial = itemSn
  once : itemSnList.Nodup
  commits : env.commits = true

theorem nodup_iff_take {itemSnList : List Int} :
    itemSnList.Nodup ↔ ∀ (index : Nat) (inside : index < itemSnList.length),
      itemSnList[index] ∉ itemSnList.take index := by
  rw [List.Nodup, List.pairwise_iff_getElem]
  constructor
  · intro apart index inside member
    obtain ⟨first, bound, same⟩ := List.mem_take_iff_getElem.mp member
    exact apart first index (by omega) inside (by omega) same
  · intro apart first later within inside order same
    exact apart later inside (List.mem_take_iff_getElem.mpr ⟨first, by omega, same⟩)

section Remove

variable {env : Environment Items} {database : Items} {cid : Int} {itemSnList : List Int}

theorem succeed_iff (mysql : MySqlItems env database (itemSnList.map deleteItem)) :
    Succeed env 0 itemSnList.length ↔
      (∀ index < itemSnList.length, env.replies index ≠ .throws) ∧
        (∀ itemSn ∈ itemSnList, ∃ row ∈ database.rows, row.serial = itemSn) ∧
          itemSnList.Nodup := by
  have step (index : Nat) (inside : index < itemSnList.length) :
      (env.replies (0 + index)).success = true ↔ env.replies index ≠ .throws ∧
        itemSnList[index] ∉ itemSnList.take index ∧
          ∃ row ∈ database.rows, row.serial = itemSnList[index] := by
    rw [Nat.zero_add]
    rcases mysql.replies index (by rwa [List.length_map]) with thrown | counted
    · exact iff_of_false (by rw [thrown]; exact Bool.false_ne_true) fun both => both.1 thrown
    · rw [List.getElem_map, ← List.map_take] at counted
      rw [counted, Reply.success, decide_eq_true_iff, affected_pos mysql.effect]
      exact (and_iff_right (by rintro ⟨⟩)).symm
  rw [nodup_iff_take, List.forall_mem_iff_forall_getElem]
  constructor
  · intro succeed
    have each (index : Nat) (inside : index < itemSnList.length) :=
      (step index inside).mp (succeed index inside)
    exact ⟨fun index inside => (each index inside).1, fun index inside => (each index inside).2.2,
      fun index inside => (each index inside).2.1⟩
  · rintro ⟨answered, present, once⟩ index inside
    exact (step index inside).mpr ⟨answered index inside, once index inside, present index inside⟩

theorem itemRemove_database {work : Work Items} :
    (itemRemove env cid itemSnList work).2.database =
      if env.opens ∧ env.begins ∧ Succeed env work.executed itemSnList.length ∧ env.commits then
        effects env (itemSnList.map deleteItem) work.database
      else work.database := by
  rw [itemRemove, queryItemRemove, itemTransaction]
  by_cases ready : env.opens = true ∧ env.begins = true
  · rw [finish_of_begun ready.1 ready.2]
    by_cases succeed : Succeed env work.executed itemSnList.length
    · have all : Succeed env work.executed (itemSnList.map deleteItem).length := by
        rwa [List.length_map]
      rw [finish_of_ok (successEach_of_succeed { work with transaction := some work.database } all),
        if_pos rfl, finish_commit rfl]
      by_cases commits : env.commits = true
      · rw [if_pos commits, if_pos ⟨ready.1, ready.2, succeed, commits⟩]
        rfl
      · rw [if_neg commits, if_neg fun both => commits both.2.2.2]
    · have fails : ¬Succeed env work.executed (itemSnList.map deleteItem).length := by
        rwa [List.length_map]
      obtain ⟨later, ran, same, _⟩ := successEach_of_failure
        { work with transaction := some work.database } fails
      rw [finish_of_ok ran, if_neg Bool.false_ne_true, if_neg fun both => succeed both.2.2.1]
      exact same
  · rw [finish_of_closed ready, if_neg fun both => ready ⟨both.1, both.2.1⟩]

theorem others_kept_iff (mysql : MySqlItems env database (itemSnList.map deleteItem)) :
    (effects env (itemSnList.map deleteItem) database).others cid = database.others cid ↔
      ∀ itemSn ∈ itemSnList, ∀ row ∈ database.rows, row.serial = itemSn → row.OwnedBy cid := by
  rw [others_effects mysql.effect, List.filter_eq_self]
  constructor
  · intro unlisted itemSn listed row inside serial
    by_contra foreign
    have kept := unlisted row (List.mem_filter.mpr ⟨inside, decide_eq_true foreign⟩)
    exact of_decide_eq_true kept (serial ▸ listed)
  · intro owned row inside
    obtain ⟨there, foreign⟩ := List.mem_filter.mp inside
    refine decide_eq_true fun listed => ?_
    exact of_decide_eq_true foreign (owned row.serial listed row there rfl)

/-- `ItemRemove` leaves the rows of the other characters as they are exactly when it does not
commit or no listed serial number is on one of them. -/
theorem itemRemove_others_iff (env : Environment Items) (database : Items)
    (generator : GeneratorItemSN) (cid : Int) (itemSnList : List Int)
    (mysql : MySqlItems env database (itemSnList.map deleteItem)) :
    (itemRemove env cid itemSnList
          { database := database, generator := generator }).2.database.others cid =
        database.others cid ↔
      ¬Commits env database itemSnList ∨
        ∀ itemSn ∈ itemSnList, ∀ row ∈ database.rows, row.serial = itemSn → row.OwnedBy cid := by
  have commits_iff : Commits env database itemSnList ↔
      env.opens ∧ env.begins ∧ Succeed env 0 itemSnList.length ∧ env.commits := by
    rw [succeed_iff mysql]
    constructor
    · intro all
      exact ⟨all.opens, all.begins, ⟨all.answered, all.present, all.once⟩, all.commits⟩
    · rintro ⟨opens, begins, ⟨answered, present, once⟩, commits⟩
      exact ⟨opens, begins, answered, present, once, commits⟩
  rw [itemRemove_database]
  by_cases commits : Commits env database itemSnList
  · rw [if_pos (commits_iff.mp commits), others_kept_iff mysql]
    exact (or_iff_right (not_not.mpr commits)).symm
  · rw [if_neg fun all => commits (commits_iff.mpr all)]
    exact iff_of_true rfl (Or.inl commits)

end Remove

/-! One sword, of character 2. -/

def sword : ItemRow where
  itemSn := 7
  itemType := 101
  itemCount := 1
  ownerCharId := 2
  bind := some 0
  locType := 0
  locIndex := 0

theorem sword_primaryKey : ([sword].map ItemRow.itemSn).Nodup := List.nodup_singleton _

def oneItem : Items where
  rows := [sword]
  primaryKey := sword_primaryKey

def healthy : Environment Items where
  effect := Items.execute
  opens := true
  begins := true
  commits := true
  replies := fun _ => .affected 1
  utcNow := fun _ => 1

theorem healthy_mySql : MySqlItems healthy oneItem ([7].map deleteItem) where
  effect := rfl
  replies := by
    intro index inside
    obtain rfl : index = 0 := Nat.lt_one_iff.mp inside
    exact Or.inr rfl

theorem itemRemove_others_iff_owner :
    MySqlItems healthy oneItem ([7].map deleteItem) ∧
      ((itemRemove healthy 2 [7] { database := oneItem, generator := {} }).2.database.others 2 =
          oneItem.others 2 ↔
        ¬Commits healthy oneItem [7] ∨
          ∀ itemSn ∈ [(7 : Int)], ∀ row ∈ oneItem.rows, row.serial = itemSn → row.OwnedBy 2) :=
  ⟨healthy_mySql, itemRemove_others_iff healthy oneItem {} 2 [7] healthy_mySql⟩

/-- Character 1 removes it, and the row is gone. -/
theorem itemRemove_foreign :
    MySqlItems healthy oneItem ([7].map deleteItem) ∧
      (itemRemove healthy 1 [7] { database := oneItem, generator := {} }).2.database.others 1 ≠
        oneItem.others 1 := by
  refine ⟨healthy_mySql, ?_⟩
  have gone : (itemRemove healthy 1 [7]
      { database := oneItem, generator := {} }).2.database.others 1 = [] := rfl
  rw [gone]
  exact (List.cons_ne_nil sword []).symm

end ProjectPl.Sharp
