import ProjectPl.WorldQueryCore

/-!
What the write operations of the world database tell their callers. The block of an operation ends
in one of three ways: it has committed everything and says so, it has changed nothing and says so,
or it has changed nothing and says that it succeeded.
-/

namespace ProjectPl.Sharp

open DotNet

def GeneratorItemSN.Serves (generator : GeneratorItemSN) (readings : List Int) : Prop :=
  ∀ result ∈ (Run.run generateSN generator readings).2, ∃ sn, result = .ok sn

theorem GeneratorItemSN.serves_cons {generator : GeneratorItemSN} {reading : Int}
    {rest : List Int} : generator.Serves (reading :: rest) ↔
      (∃ sn, (generator.generateSN reading).2 = .ok sn) ∧
        (generator.generateSN reading).1.Serves rest := by
  rw [Serves, Run.run_cons, List.forall_mem_cons]
  rfl

namespace Session

variable {Db α β : Type} {first : Session Db α} {next : α → Session Db β} {work later : Work Db}

theorem bind_of_ok {value : α} (ran : first work = (.ok value, later)) :
    (first >>= next) work = next value later := by
  simp only [bind, ran]

theorem bind_of_error {failure : DbException} (threw : first work = (.error failure, later)) :
    (first >>= next) work = (.error failure, later) := by
  simp only [bind, threw]

end Session

namespace WorldDbConnection

variable {Db : Type} (env : Environment Db)

/-- The statements from this one on, as many as these, each affect a row. -/
def Succeed (start count : Nat) : Prop :=
  ∀ index < count, (env.replies (start + index)).success = true

def effects (queries : List String) (database : Db) : Db :=
  queries.foldl (fun before query => env.effect query before) database

theorem success_eq (query : String) (work : Work Db) :
    success env query work =
      (.ok (env.replies work.executed).success,
        { work with
          executed := work.executed + 1
          transaction :=
            if (env.replies work.executed).success then work.transaction.map (env.effect query)
            else work.transaction }) := by
  rw [success, executeNonQuery]
  cases env.replies work.executed with
  | throws => rfl
  | affected rows =>
      by_cases some : 0 < rows
      · simp only [some, Reply.success, if_true, decide_true]
      · simp only [some, Reply.success, if_false, decide_false, Bool.false_eq_true]

variable {env}

theorem successEach_of_succeed {queries : List String} (work : Work Db)
    (succeed : Succeed env work.executed queries.length) :
    successEach env queries work =
      (.ok true, { work with
        executed := work.executed + queries.length
        transaction := work.transaction.map (effects env queries) }) := by
  induction queries generalizing work with
  | nil =>
      have same : work.transaction.map (effects env []) = work.transaction := Option.map_id' ..
      rw [same]
      rfl
  | cons query rest ih =>
      have here := succeed 0 (Nat.succ_pos _)
      have sent := success_eq env query work
      rw [Nat.add_zero] at here
      rw [here, if_pos rfl] at sent
      rw [successEach, Session.bind_of_ok sent]
      refine (ih _ ?_).trans ?_
      · intro index bound
        have there := succeed (index + 1) (Nat.succ_lt_succ bound)
        rwa [Nat.add_comm index, ← Nat.add_assoc] at there
      · simp only [Option.map_map, List.length_cons, Nat.add_assoc, Nat.add_comm 1]
        rfl

theorem successEach_of_failure {queries : List String} (work : Work Db)
    (failure : ¬Succeed env work.executed queries.length) :
    ∃ later, successEach env queries work = (.ok false, later) ∧
      later.database = work.database ∧ later.committed = work.committed := by
  induction queries generalizing work with
  | nil => exact absurd (fun index bound => absurd bound (Nat.not_lt_zero index)) failure
  | cons query rest ih =>
      have sent := success_eq env query work
      rw [successEach, Session.bind_of_ok sent]
      by_cases here : (env.replies work.executed).success = true
      · rw [if_pos here]
        refine ih _ fun later => failure ?_
        intro index bound
        cases index with
        | zero => exact here
        | succ index =>
            have there := later index (Nat.lt_of_succ_lt_succ bound)
            rwa [Nat.add_assoc, Nat.add_comm 1] at there
      · rw [if_neg here]
        exact ⟨_, rfl, rfl, rfl⟩

section Block

variable {rest : Session Db (Option Bool)} {work : Work Db}

theorem finish_of_ok {α : Type} {first : Session Db α} {next : α → Session Db (Option Bool)}
    {later : Work Db} {value : α} (ran : first work = (.ok value, later)) :
    finish (first >>= next) work = finish (next value) later := by
  rw [finish, Session.bind_of_ok ran, finish]

theorem finish_of_closed (closed : ¬(env.opens = true ∧ env.begins = true)) :
    finish (connOpen env >>= fun _ => beginTransaction env >>= fun _ => rest) work =
      (true, { work with transaction := none }) := by
  by_cases opens : env.opens = true
  · have opened : connOpen env work = (.ok (), work) := if_pos opens
    have begun : beginTransaction env work = (.error .mySql, work) :=
      if_neg fun begins => closed ⟨opens, begins⟩
    rw [finish_of_ok opened, finish, Session.bind_of_error begun]
  · have opened : connOpen env work = (.error .mySql, work) := if_neg opens
    rw [finish, Session.bind_of_error opened]

theorem finish_of_begun (opens : env.opens = true) (begins : env.begins = true) :
    finish (connOpen env >>= fun _ => beginTransaction env >>= fun _ => rest) work =
      finish rest { work with transaction := some work.database } := by
  have opened : connOpen env work = (.ok (), work) := if_pos opens
  have begun : beginTransaction env work =
      (.ok (), { work with transaction := some work.database }) := if_pos begins
  rw [finish_of_ok opened, finish_of_ok begun]

theorem finish_commit {returned : Option Bool} (answer : returned.getD true = true) :
    finish (commit env >>= fun _ => pure returned) work =
      if env.commits then
        (true, { work with
          database := work.transaction.getD work.database, transaction := none, committed := true })
      else (true, { work with transaction := none }) := by
  by_cases commits : env.commits = true
  · have done : commit env work = (.ok (), { work with
        database := work.transaction.getD work.database, transaction := none,
        committed := true }) := if_pos commits
    rw [finish, Session.bind_of_ok done, if_pos commits]
    cases returned with
    | none => rfl
    | some value => exact congrArg (·, _) answer
  · have threw : commit env work = (.error .mySql, work) := if_neg commits
    rw [finish, Session.bind_of_error threw, if_neg commits]

end Block

/-! The numbers of the new items. -/

theorem newItems_cons {utcNow : Nat → Int} {generator : GeneratorItemSN} {item : ItemDbInfo}
    {rest list : List ItemDbInfo} :
    (newItems utcNow generator (item :: rest)).1 = .ok list ↔
      ∃ sn others, (generator.generateSN (utcNow 0)).2 = .ok sn ∧
        (newItems (fun call => utcNow (call + 1)) (generator.generateSN (utcNow 0)).1 rest).1 =
          .ok others ∧ list = { item with itemSN := sn } :: others := by
  rw [newItems]
  generalize generator.generateSN (utcNow 0) = generated
  obtain ⟨next, failure | sn⟩ := generated
  · constructor
    · intro made
      cases made
    · rintro ⟨sn, others, returned, -⟩
      cases returned
  · dsimp only
    generalize newItems (fun call => utcNow (call + 1)) next rest = made
    obtain ⟨failure | others, last⟩ := made
    · constructor
      · intro mapped
        cases mapped
      · rintro ⟨_, others, -, later, -⟩
        cases later
    · constructor
      · intro mapped
        cases mapped
        exact ⟨sn, others, rfl, rfl, rfl⟩
      · rintro ⟨_, _, returned, later, rfl⟩
        cases returned
        cases later
        rfl

theorem newItems_ok_iff (utcNow : Nat → Int) (generator : GeneratorItemSN)
    (items : List ItemDbInfo) :
    (∃ list, (newItems utcNow generator items).1 = .ok list) ↔
      generator.Serves ((List.range items.length).map utcNow) := by
  induction items generalizing utcNow generator with
  | nil => exact iff_of_true ⟨[], rfl⟩ (List.forall_mem_nil _)
  | cons item rest ih =>
      have later := ih (fun call => utcNow (call + 1)) (generator.generateSN (utcNow 0)).1
      rw [List.length_cons, List.range_succ_eq_map, List.map_cons, List.map_map,
        GeneratorItemSN.serves_cons]
      constructor
      · rintro ⟨list, made⟩
        obtain ⟨sn, others, returned, rest, rfl⟩ := newItems_cons.mp made
        exact ⟨⟨sn, returned⟩, later.mp ⟨others, rest⟩⟩
      · rintro ⟨⟨sn, returned⟩, serves⟩
        obtain ⟨others, rest⟩ := later.mpr serves
        exact ⟨_, newItems_cons.mpr ⟨sn, others, returned, rest, rfl⟩⟩

theorem newItems_length {utcNow : Nat → Int} {generator : GeneratorItemSN}
    {items list : List ItemDbInfo} (made : (newItems utcNow generator items).1 = .ok list) :
    list.length = items.length := by
  induction items generalizing utcNow generator list with
  | nil =>
      cases made
      rfl
  | cons item rest ih =>
      obtain ⟨sn, others, -, later, rfl⟩ := newItems_cons.mp made
      rw [List.length_cons, List.length_cons, ih later]

section Defaults

variable {work : Work Db}

theorem itemList_of_ok {items : List ItemDbInfo}
    (made : (newItems env.utcNow work.generator CharacterCreateDefault.items).1 = .ok items) :
    ∃ next, itemList env work = (.ok items, { work with generator := next }) := by
  refine ⟨(newItems env.utcNow work.generator CharacterCreateDefault.items).2, ?_⟩
  rw [itemList, made]
  rfl

theorem itemList_of_error {failure : Exception}
    (made : (newItems env.utcNow work.generator CharacterCreateDefault.items).1 =
      .error failure) :
    ∃ next, itemList env work = (.error (.other failure), { work with generator := next }) := by
  refine ⟨(newItems env.utcNow work.generator CharacterCreateDefault.items).2, ?_⟩
  rw [itemList, made]
  rfl

end Defaults

end WorldDbConnection

/-! What an operation has to do, and what its caller may conclude from the answer. -/

namespace Operation

open WorldDbConnection hiding characterCreate itemCreate itemRemove

variable {Db : Type} {env : Environment Db}

/-- The statements of an operation; there are none where the numbers for its items run out. -/
def statements (env : Environment Db) (generator : GeneratorItemSN) :
    Operation → Option (List String)
  | characterCreate uid cid name =>
      (newItems env.utcNow generator CharacterCreateDefault.items).1.toOption.map
        fun items => insertCharacter uid cid name ::
          items.map (insertItem cid)
  | itemCreate cid items => some (items.map (insertItem cid))
  | itemRemove _ itemSnList => some (itemSnList.map deleteItem)

/-- All or nothing, and the answer says which. -/
structure Truthful (env : Environment Db) (operation : Operation) (before : Work Db)
    (after : Bool × Work Db) : Prop where
  answer : after.1 = true ↔ after.2.committed = true ∧
    ∃ queries, operation.statements env before.generator = some queries ∧
      after.2.database = effects env queries before.database
  unchanged : after.1 = false → after.2.database = before.database

theorem not_truthful {operation : Operation} {before : Work Db} {after : Bool × Work Db}
    (told : after.1 = true) (uncommitted : after.2.committed = false) :
    ¬operation.Truthful env before after := by
  intro truthful
  have committed := (truthful.answer.mp told).1
  rw [uncommitted] at committed
  cases committed

theorem Truthful.of_refused {operation : Operation} {before : Work Db} {after : Bool × Work Db}
    (told : after.1 = false) (uncommitted : after.2.committed = false)
    (same : after.2.database = before.database) : operation.Truthful env before after where
  answer := by
    rw [told, uncommitted]
    exact iff_of_false Bool.false_ne_true fun both => Bool.false_ne_true both.1
  unchanged _ := same

theorem Truthful.of_committed {operation : Operation} {before : Work Db}
    {after : Bool × Work Db} {queries : List String} (told : after.1 = true)
    (committed : after.2.committed = true)
    (all : operation.statements env before.generator = some queries)
    (applied : after.2.database = effects env queries before.database) :
    operation.Truthful env before after where
  answer := iff_of_true told ⟨committed, queries, all, applied⟩
  unchanged denied := absurd (told.symm.trans denied) (by decide)

/-- Exactly when the answer can be trusted. -/
def Sound (env : Environment Db) (generator : GeneratorItemSN) : Operation → Prop
  | characterCreate _ _ _ => env.opens = true ∧ env.begins = true ∧
      (¬Succeed env 0 1 ∨
        generator.Serves [env.utcNow 0, env.utcNow 1] ∧
          (¬Succeed env 1 2 ∨ env.commits = true))
  | itemCreate _ items => env.opens = true ∧ env.begins = true ∧
      Succeed env 0 items.length ∧ env.commits = true
  | itemRemove _ itemSnList => env.opens = true ∧ env.begins = true ∧
      Succeed env 0 itemSnList.length ∧ env.commits = true

section Cases

variable (database : Db) (generator : GeneratorItemSN)

theorem itemTransaction_truthful_iff {operation : Operation} {queries : List String}
    (all : operation.statements env generator = some queries) :
    operation.Truthful env { database := database, generator := generator }
        (itemTransaction env (successEach env queries)
          { database := database, generator := generator }) ↔
      env.opens = true ∧ env.begins = true ∧ Succeed env 0 queries.length ∧
        env.commits = true := by
  by_cases ready : env.opens = true ∧ env.begins = true
  · rw [itemTransaction, finish_of_begun ready.1 ready.2]
    by_cases succeed : Succeed env 0 queries.length
    · rw [finish_of_ok (successEach_of_succeed _ succeed), if_pos rfl, finish_commit rfl]
      by_cases commits : env.commits = true
      · rw [if_pos commits]
        exact iff_of_true (.of_committed rfl rfl all rfl) ⟨ready.1, ready.2, succeed, commits⟩
      · rw [if_neg commits]
        exact iff_of_false (not_truthful rfl rfl) fun both => commits both.2.2.2
    · obtain ⟨later, ran, same, uncommitted⟩ := successEach_of_failure
        { database := database, transaction := some database, generator := generator } succeed
      rw [finish_of_ok ran, if_neg Bool.false_ne_true]
      exact iff_of_false (not_truthful rfl uncommitted) fun both => succeed both.2.2.1
  · rw [itemTransaction, finish_of_closed ready]
    exact iff_of_false (not_truthful rfl rfl) fun both => ready ⟨both.1, both.2.1⟩

theorem characterItems_truthful_iff {work : Work Db} (uid cid : Int) (name : String)
    (fresh : work.database = database ∧ work.generator = generator ∧ work.executed = 1 ∧
      work.committed = false ∧
      work.transaction = some (env.effect (insertCharacter uid cid name) database)) :
    (characterCreate uid cid name).Truthful env { database := database, generator := generator }
        (finish (do
          let items ← itemList env
          if ← queryItemCreate env cid items then
            commit env
            pure none
          else
            rollback
            pure (some false)) work) ↔
      generator.Serves [env.utcNow 0, env.utcNow 1] ∧
        (¬Succeed env 1 2 ∨ env.commits = true) := by
  obtain ⟨rfl, rfl, sent, uncommitted, copy⟩ := fresh
  have serves := newItems_ok_iff env.utcNow work.generator CharacterCreateDefault.items
  cases made : (newItems env.utcNow work.generator CharacterCreateDefault.items).1 with
  | error failure =>
      obtain ⟨next, threw⟩ := itemList_of_error made
      rw [finish, Session.bind_of_error threw]
      refine iff_of_false (not_truthful rfl uncommitted) fun both => ?_
      obtain ⟨items, drawn⟩ := serves.mpr both.1
      cases made.symm.trans drawn
  | ok items =>
      have enough : work.generator.Serves [env.utcNow 0, env.utcNow 1] := serves.mp ⟨items, made⟩
      have two : (items.map (insertItem cid)).length = 2 := by
        rw [List.length_map, newItems_length made]
        rfl
      have sending : Succeed env work.executed (items.map (insertItem cid)).length ↔
          Succeed env 1 2 := by rw [sent, two]
      obtain ⟨next, drawn⟩ := itemList_of_ok made
      rw [finish_of_ok drawn]
      by_cases succeed : Succeed env 1 2
      · have ran := successEach_of_succeed { work with generator := next } (sending.mpr succeed)
        change queryItemCreate env cid items _ = _ at ran
        rw [finish_of_ok ran, if_pos rfl, finish_commit rfl]
        by_cases commits : env.commits = true
        · have all : (characterCreate uid cid name).statements env work.generator =
              some (insertCharacter uid cid name :: items.map (insertItem cid)) := by
            rw [statements, made]
            rfl
          have applied : (work.transaction.map
              (effects env (items.map (insertItem cid)))).getD work.database =
                effects env (insertCharacter uid cid name :: items.map (insertItem cid))
                  work.database := by
            rw [copy]
            rfl
          rw [if_pos commits]
          exact iff_of_true (.of_committed rfl rfl all applied) ⟨enough, .inr commits⟩
        · rw [if_neg commits]
          refine iff_of_false (not_truthful rfl uncommitted) ?_
          rintro ⟨-, fails | allowed⟩
          · exact fails succeed
          · exact commits allowed
      · obtain ⟨later, ran, same, still⟩ := successEach_of_failure { work with generator := next }
          (mt sending.mp succeed)
        change queryItemCreate env cid items _ = _ at ran
        rw [finish_of_ok ran, if_neg Bool.false_ne_true]
        exact iff_of_true (.of_refused rfl (still.trans uncommitted) same) ⟨enough, .inl succeed⟩

theorem characterCreate_truthful_iff (uid cid : Int) (name : String) :
    (characterCreate uid cid name).Truthful env { database := database, generator := generator }
        (WorldDbConnection.characterCreate env uid cid name
          { database := database, generator := generator }) ↔
      (characterCreate uid cid name).Sound env generator := by
  rw [WorldDbConnection.characterCreate, Sound]
  by_cases ready : env.opens = true ∧ env.begins = true
  · have sent := success_eq env (insertCharacter uid cid name)
      { database := database, transaction := some database, generator := generator }
    change queryCharacterCreate env uid cid name _ = (.ok (env.replies 0).success, _) at sent
    rw [finish_of_begun ready.1 ready.2, finish_of_ok sent]
    by_cases inserted : (env.replies 0).success = true
    · rw [if_pos inserted, characterItems_truthful_iff database generator uid cid name
        ⟨rfl, rfl, rfl, rfl, if_pos inserted⟩]
      have first : Succeed env 0 1 := by
        intro index bound
        obtain rfl : index = 0 := by omega
        exact inserted
      constructor
      · intro both
        exact ⟨ready.1, ready.2, .inr both⟩
      · rintro ⟨-, -, fails | both⟩
        · exact absurd first fails
        · exact both
    · rw [if_neg inserted]
      exact iff_of_true (.of_refused rfl rfl rfl) ⟨ready.1, ready.2, .inl fun first =>
        inserted (first 0 (by decide))⟩
  · rw [finish_of_closed ready]
    exact iff_of_false (not_truthful rfl rfl) fun both => ready ⟨both.1, both.2.1⟩

/-- The answer is right exactly when the operation gets as far as it can tell its caller about. -/
theorem perform_truthful_iff (operation : Operation) :
    operation.Truthful env { database := database, generator := generator }
        (operation.perform env { database := database, generator := generator }) ↔
      operation.Sound env generator := by
  cases operation with
  | characterCreate uid cid name =>
      exact characterCreate_truthful_iff database generator uid cid name
  | itemCreate cid items =>
      refine (itemTransaction_truthful_iff database generator rfl).trans ?_
      rw [List.length_map, Sound]
  | itemRemove cid itemSnList =>
      refine (itemTransaction_truthful_iff database generator rfl).trans ?_
      rw [List.length_map, Sound]

end Cases

/-- The item is there already: the primary key makes the statement throw. -/
def duplicateKey : Environment (List String) where
  effect := fun query before => before ++ [query]
  opens := true
  begins := true
  commits := true
  replies := fun _ => .throws
  utcNow := fun _ => 1

theorem itemCreate_not_truthful :
    ¬(itemCreate 1 [{ itemSN := 7 }]).Truthful duplicateKey { database := [], generator := {} }
      ((itemCreate 1 [{ itemSN := 7 }]).perform duplicateKey
        { database := [], generator := {} }) :=
  not_truthful rfl rfl

end Operation

end ProjectPl.Sharp
