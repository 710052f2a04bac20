import ProjectPl.Pending

/-!
The zone id in a session against its registration in the zone. `CS_P_ENTER` sets the id when
the packet is handled and registers when the command is fired; `CS_P_LEAVE` keeps the id it
finds in the command, and resets it when the command is fired. What matters of one session is
its seat: the id, whether it is registered, and its own commands still waiting.
-/

namespace ProjectPl

def Command.isEnter : Command → Bool
  | .enterCharacter .. => true
  | _ => false

structure Seat where
  zoneId : Int
  registered : Prop
  own : List Command

namespace Seat

/-! What can happen to a seat. The condition on entering is the one the code does not check. -/

inductive Moves (token : Int) (seat : Seat) : Seat → Prop
  | stays : Moves token seat seat
  | enter (posX posY : Int) (noLeave : ∀ zoneId, .leaveCharacter token zoneId ∉ seat.own) :
      Moves token seat
        ⟨1, seat.registered, seat.own ++ [.enterCharacter token 1 posX posY]⟩
  | leave : Moves token seat
      ⟨seat.zoneId, seat.registered, seat.own ++ [.leaveCharacter token seat.zoneId]⟩
  | fireEnter (zoneId posX posY : Int) (rest : List Command)
      (own : seat.own = .enterCharacter token zoneId posX posY :: rest) :
      Moves token seat ⟨seat.zoneId, True, rest⟩
  | fireLeave (zoneId : Int) (rest : List Command)
      (own : seat.own = .leaveCharacter token zoneId :: rest) :
      Moves token seat ⟨0, zoneId ≠ 1 ∧ seat.registered, rest⟩

/-- A registered session knows that it is in the zone, once no command of its own that enters
is waiting. Commands that enter come before those that leave. -/
structure Located (token : Int) (seat : Seat) : Prop where
  order : seat.own.Pairwise fun first second => first.isEnter = false → second.isEnter = false
  pending : ∀ command ∈ seat.own, command.isEnter = true → seat.zoneId = 1
  inside : (∀ command ∈ seat.own, command.isEnter = false) → seat.registered → seat.zoneId = 1
  stale : ∀ zoneId, .leaveCharacter token zoneId ∈ seat.own → zoneId ≠ 1 → seat.zoneId ≠ 1
  mine : ∀ command ∈ seat.own, command.registersFor token = true

structure Agrees (token : Int) (seat : Seat) : Prop where
  located : seat.Located token
  zone : seat.zoneId = 0 ∨ seat.zoneId = 1
  outside : (∀ command ∈ seat.own, command.isEnter = false) → seat.zoneId = 1 →
    seat.registered

variable {token : Int} {seat next : Seat}

theorem Located.only_enters (located : seat.Located token)
    (noLeave : ∀ zoneId, .leaveCharacter token zoneId ∉ seat.own) {command : Command}
    (member : command ∈ seat.own) : command.isEnter = true := by
  have mine := located.mine command member
  cases command with
  | enterCharacter other zoneId posX posY => rfl
  | leaveCharacter other zoneId =>
      have same : other = token := by simpa [Command.registersFor] using mine
      subst same
      exact absurd member (noLeave zoneId)
  | _ => cases mine

theorem Moves.located (moves : Moves token seat next) (located : seat.Located token) :
    next.Located token := by
  obtain ⟨order, pending, inside, stale, mine⟩ := located
  cases moves with
  | stays => exact ⟨order, pending, inside, stale, mine⟩
  | enter posX posY noLeave =>
      refine ⟨?_, fun _ _ _ => rfl, fun _ _ => rfl, ?_, ?_⟩
      · refine List.pairwise_append.mpr ⟨order, List.pairwise_singleton _ _, ?_⟩
        intro first member second _ notEnter
        have enters := Located.only_enters ⟨order, pending, inside, stale, mine⟩ noLeave member
        rw [notEnter] at enters
        cases enters
      · intro zoneId member
        rcases List.mem_append.mp member with old | new
        · exact absurd old (noLeave zoneId)
        · simp at new
      · intro command member
        rcases List.mem_append.mp member with old | new
        · exact mine command old
        · rw [List.mem_singleton.mp new]
          simp [Command.registersFor]
  | leave =>
      refine ⟨?_, ?_, ?_, ?_, ?_⟩
      · refine List.pairwise_append.mpr ⟨order, List.pairwise_singleton _ _, ?_⟩
        intro first _ second new _
        rw [List.mem_singleton.mp new]
        rfl
      · intro command member enters
        rcases List.mem_append.mp member with old | new
        · exact pending command old enters
        · rw [List.mem_singleton.mp new] at enters
          cases enters
      · intro noEnter
        exact inside fun command member => noEnter command (List.mem_append_left _ member)
      · intro zoneId member elsewhere
        rcases List.mem_append.mp member with old | new
        · exact stale zoneId old elsewhere
        · have same : zoneId = seat.zoneId := by simpa using new
          rw [← same]
          exact elsewhere
      · intro command member
        rcases List.mem_append.mp member with old | new
        · exact mine command old
        · rw [List.mem_singleton.mp new]
          simp [Command.registersFor]
  | fireEnter zoneId posX posY rest own =>
      rw [own] at order pending stale mine
      refine ⟨(List.pairwise_cons.mp order).2, ?_, ?_, ?_, ?_⟩
      · exact fun command member => pending command (List.mem_cons_of_mem _ member)
      · exact fun _ _ => pending _ List.mem_cons_self rfl
      · exact fun zoneId member => stale zoneId (List.mem_cons_of_mem _ member)
      · exact fun command member => mine command (List.mem_cons_of_mem _ member)
  | fireLeave zoneId rest own =>
      rw [own] at order inside stale mine
      obtain ⟨leaves, later⟩ := List.pairwise_cons.mp order
      have noEnter : ∀ command ∈ rest, command.isEnter = false :=
        fun command member => leaves command member rfl
      refine ⟨later, ?_, ?_, fun _ _ _ => zero_ne_one, ?_⟩
      · intro command member enters
        rw [noEnter command member] at enters
        cases enters
      · rintro - ⟨elsewhere, registered⟩
        have here : seat.zoneId = 1 := by
          apply inside _ registered
          intro command member
          rcases List.mem_cons.mp member with rfl | old
          · rfl
          · exact noEnter command old
        exact absurd here (stale zoneId List.mem_cons_self elsewhere)
      · exact fun command member => mine command (List.mem_cons_of_mem _ member)

theorem Moves.agrees (moves : Moves token seat next) (agrees : seat.Agrees token) :
    next.Agrees token := by
  refine ⟨moves.located agrees.located, ?_, ?_⟩
  · cases moves with
    | stays => exact agrees.zone
    | enter posX posY noLeave => exact Or.inr rfl
    | leave => exact agrees.zone
    | fireEnter zoneId posX posY rest own => exact agrees.zone
    | fireLeave zoneId rest own => exact Or.inl rfl
  · cases moves with
    | stays => exact agrees.outside
    | enter posX posY noLeave =>
        intro noEnter
        exact absurd (noEnter _ (List.mem_append_right _ List.mem_cons_self))
          (by simp [Command.isEnter])
    | leave =>
        intro noEnter
        exact agrees.outside fun command member => noEnter command (List.mem_append_left _ member)
    | fireEnter zoneId posX posY rest own => exact fun _ _ => trivial
    | fireLeave zoneId rest own =>
        intro _ here
        exact absurd here zero_ne_one

end Seat

namespace Server

def seat (server : Server) (token : Int) (slot : Nat) : Seat :=
  { zoneId := (server.sessions slot).nub.pos.zoneId
    registered := (server.characterMap 1)[token]? = some slot
    own := server.own token }

/-! A token that nothing in the server refers to, and one that belongs to one session. -/

structure Unused (token : Int) (server : Server) : Prop where
  userMap : server.userMap[token]? = none
  sessions : ∀ slot ∈ server.mgr.usedList, (server.sessions slot).nub.token ≠ token
  zones : ∀ zoneId : Int, (server.characterMap zoneId)[token]? = none
  own : server.own token = []

structure Sole (token : Int) (server : Server) : Prop where
  held : ∀ slot ∈ server.mgr.usedList, (server.sessions slot).nub.token = token →
    server.userMap[token]? = some slot
  entries : ∀ slot, server.userMap[token]? = some slot →
    ∀ (zoneId : Int) known, (server.characterMap zoneId)[token]? = some known →
      zoneId = 1 ∧ known = slot
  enters : ∀ zoneId posX posY, .enterCharacter token zoneId posX posY ∈ server.pending →
    zoneId = 1

/-- Sessions authenticate once, the session that gets `token` is the only one to have it and has
not entered before, and it does not enter again while a `LeaveCharacter` of its own waits. -/
def Settles (token : Int) (server : Server) : Event → Prop
  | .packet conn (some (.auth _)) env =>
      (server.sender conn).nub.token = 0 ∧
        (server.nextToken env = token → Unused token server)
  | .packet conn (some (.enter _)) _ =>
      (server.sender conn).nub.token = token →
        ∀ zoneId, .leaveCharacter token zoneId ∉ server.pending
  | _ => True

/-! Handlers. -/

theorem seat_congr {server next : Server} {token : Int} {slot : Nat}
    (zoneId : (next.sessions slot).nub.pos.zoneId = (server.sessions slot).nub.pos.zoneId)
    (entry : (next.characterMap 1)[token]? = (server.characterMap 1)[token]?)
    (own : next.own token = server.own token) : next.seat token slot = server.seat token slot := by
  unfold seat
  rw [zoneId, entry, own]

theorem handle_moves {server : Server} {token : Int} {slot sender : Nat} (env : Env)
    (call : C2SCall) (holds : (server.sessions slot).nub.token = token)
    (alone : (server.sessions sender).nub.token = token → sender = slot)
    (notAuth : ∀ packet, call = .auth packet → sender ≠ slot)
    (noLeave : ∀ packet, call = .enter packet → sender = slot →
      ∀ zoneId, .leaveCharacter token zoneId ∉ server.pending) :
    Seat.Moves token (server.seat token slot) ((server.handle sender env call).seat token slot) := by
  have zones := (handle_queues server sender env call).zoneMap
  have entry : ((server.handle sender env call).characterMap 1)[token]? =
      (server.characterMap 1)[token]? := by
    rw [characterMap_congr zones]
  by_cases same : sender = slot
  swap
  · have other : (server.sessions sender).nub.token ≠ token := fun holds => same (alone holds)
    have kept : (server.handle sender env call).seat token slot = server.seat token slot := by
      apply seat_congr _ entry (handle_own_other other env call)
      rw [handle_sessions_other server sender env call (Ne.symm same)]
    rw [kept]
    exact .stays
  subst same
  have added : (server.handle sender env call).own token = server.own token ++
      (server.handlerCommand sender env call).toList.filter (·.registersFor token) := by
    rw [own, handle_pending, List.filter_append, own]
  cases call with
  | auth packet => exact absurd rfl (notAuth packet rfl)
  | enter packet =>
      have next : (server.handle sender env (.enter packet)).seat token sender =
          ⟨1, (server.seat token sender).registered, (server.seat token sender).own ++
            [.enterCharacter token 1 (env.rand1 % 1000 : Nat) (env.rand2 % 1000 : Nat)]⟩ := by
        unfold seat
        rw [entry, added]
        simp [handle, c2sEnter, setPos, setSession, add, handlerCommand, holds,
          Command.registersFor]
      rw [next]
      refine .enter _ _ ?_
      intro zoneId member
      exact noLeave packet rfl rfl zoneId (List.mem_filter.mp member).1
  | leave packet =>
      have next : (server.handle sender env (.leave packet)).seat token sender =
          ⟨(server.seat token sender).zoneId, (server.seat token sender).registered,
            (server.seat token sender).own ++
              [.leaveCharacter token (server.seat token sender).zoneId]⟩ := by
        unfold seat
        rw [entry, added]
        simp [handle, c2sLeave, add, handlerCommand, holds, Command.registersFor]
      rw [next]
      exact .leave
  | move packet =>
      have kept : (server.handle sender env (.move packet)).seat token sender =
          server.seat token sender := by
        apply seat_congr _ entry
        · simpa [handlerCommand, Command.registersFor] using added
        · simp [handle, c2sMove, setPos, setSession, add]
      rw [kept]
      exact .stays
  | interaction packet =>
      have kept : (server.handle sender env (.interaction packet)).seat token sender =
          server.seat token sender := by
        apply seat_congr _ entry
        · simpa [handlerCommand, Command.registersFor] using added
        · rfl
      rw [kept]
      exact .stays
  | heartbeat packet => exact .stays
  | echo packet =>
      have kept : (server.handle sender env (.echo packet)).seat token sender =
          server.seat token sender := by
        apply seat_congr _ entry
        · simpa [handlerCommand, Command.registersFor] using added
        · rfl
      rw [kept]
      exact .stays

/-! Firing a command. -/

theorem fire_enter_moves {server : Server} {token : Int} {slot : Nat} (owned : Owned server)
    (sole : Sole token server) (mapped : server.userMap[token]? = some slot) {queued : Queued}
    {rest : List Queued} (firing : server.firingCmds = queued :: rest) {zoneId posX posY : Int}
    (command : queued.command = .enterCharacter token zoneId posX posY) :
    Seat.Moves token (server.seat token slot) (server.fire.seat token slot) := by
  have one : zoneId = 1 := by
    apply sole.enters zoneId posX posY
    rw [← command, pending, firing]
    simp
  subst one
  have own := fire_own firing token
  have holds := (owned.mapped token slot mapped).2.1
  have entry : (server.fire.characterMap 1)[token]? = some slot := by
    rw [fire_cons firing, command,
      enter_zones { server with firingCmds := rest } queued.cause mapped]
    split
    · rfl
    next known =>
      cases found : (server.characterMap 1)[token]? with
      | none => exact absurd ⟨rfl, holds.symm, found⟩ known
      | some other =>
          rw [(sole.entries slot mapped 1 other found).2] at found
          exact found
  have sessions : server.fire.sessions = server.sessions := by
    rw [fire_cons firing, command]
    exact operator_sessions _ _ (by simp)
  have next : server.fire.seat token slot =
      ⟨(server.seat token slot).zoneId, True, server.fire.own token⟩ := by
    unfold seat
    rw [sessions, entry]
    simp
  rw [next]
  apply Seat.Moves.fireEnter 1 posX posY
  rw [command] at own
  simpa [Command.registersFor, seat] using own

theorem fire_leave_moves {server : Server} {token : Int} {slot : Nat}
    (mapped : server.userMap[token]? = some slot) {queued : Queued} {rest : List Queued}
    (firing : server.firingCmds = queued :: rest) {zoneId : Int}
    (command : queued.command = .leaveCharacter token zoneId) :
    Seat.Moves token (server.seat token slot) (server.fire.seat token slot) := by
  have own := fire_own firing token
  have sessions : (server.fire.sessions slot).nub.pos.zoneId = 0 := by
    rw [fire_cons firing, command, leave_sessions]
    dsimp only
    rw [mapped]
    simp [setPos, setSession]
  have entry : (server.fire.characterMap 1)[token]? =
      if zoneId = 1 then none else (server.characterMap 1)[token]? := by
    rw [fire_cons firing, command, leave_zones]
    simp only [and_true, eq_comm]
    rfl
  have next : server.fire.seat token slot =
      ⟨0, zoneId ≠ 1 ∧ (server.seat token slot).registered, server.fire.own token⟩ := by
    unfold seat
    rw [sessions, entry]
    by_cases here : zoneId = 1
    · simp [here]
    · simp [here]
  rw [next]
  apply Seat.Moves.fireLeave zoneId
  rw [command] at own
  simpa [Command.registersFor, seat] using own

theorem fire_moves {server : Server} {token : Int} {slot : Nat} (owned : Owned server)
    (sole : Sole token server) (mapped : server.userMap[token]? = some slot) :
    Seat.Moves token (server.seat token slot) (server.fire.seat token slot) := by
  have holds := (owned.mapped token slot mapped).2.1
  cases firing : server.firingCmds with
  | nil =>
      simp only [fire, firing]
      exact .stays
  | cons queued rest =>
      by_cases mine : queued.command.registersFor token = true
      · cases command : queued.command with
        | enterCharacter other zoneId posX posY =>
            have same : other = token := by simpa [command, Command.registersFor] using mine
            rw [same] at command
            exact fire_enter_moves owned sole mapped firing command
        | leaveCharacter other zoneId =>
            have same : other = token := by simpa [command, Command.registersFor] using mine
            rw [same] at command
            exact fire_leave_moves mapped firing command
        | _ =>
            rw [command] at mine
            cases mine
      · have kept : server.fire.seat token slot = server.seat token slot := by
          apply seat_congr
          · rw [fire_sessions_other owned firing holds (by simpa using mine)]
          · rw [fire_zones_other owned firing (by simpa using mine)]
          · exact fire_own_other firing (by simpa using mine)
        rw [kept]
        exact .stays

/-! The token keeps its one owner. -/

theorem SameOwners.sole {server next : Server} {token : Int} (same : SameOwners server next)
    (zones : next.zoneMap = server.zoneMap)
    (enters : ∀ zoneId posX posY, .enterCharacter token zoneId posX posY ∈ next.pending →
      .enterCharacter token zoneId posX posY ∈ server.pending ∨ zoneId = 1)
    (sole : Sole token server) : Sole token next := by
  refine ⟨?_, ?_, ?_⟩
  · intro slot inUse holds
    rw [same.mgr] at inUse
    rw [same.token] at holds
    rw [same.userMap]
    exact sole.held slot inUse holds
  · intro slot mapped zoneId known registered
    rw [same.userMap] at mapped
    rw [characterMap_congr zones] at registered
    exact sole.entries slot mapped zoneId known registered
  · intro zoneId posX posY member
    rcases enters zoneId posX posY member with old | one
    · exact sole.enters zoneId posX posY old
    · exact one

theorem attach_sole {server : Server} {token : Int} (owned : Owned server)
    (sole : Sole token server) (authed : token ≠ 0) (conn : Nat) :
    Sole token (server.attach conn).1 := by
  cases param : (server.links conn).param with
  | some slot =>
      rw [attach_known param]
      exact sole
  | none =>
      have attaches := attach_attaches param owned.kept
      refine ⟨?_, ?_, ?_⟩
      · intro slot inUse holds
        rw [attaches.userMap]
        rcases (attaches.inUse_iff slot).mp inUse with old | rfl
        · rw [attaches.session_old old] at holds
          exact sole.held slot old holds
        · rw [attaches.session_new] at holds
          exact absurd holds.symm authed
      · intro slot mapped zoneId known registered
        rw [attaches.userMap] at mapped
        rw [characterMap_congr attaches.queues.zoneMap] at registered
        exact sole.entries slot mapped zoneId known registered
      · rw [attach_pending]
        exact sole.enters

theorem handle_sole {server : Server} {token : Int} (sole : Sole token server) (slot : Nat)
    (env : Env) {call : C2SCall} (notAuth : ∀ packet, call ≠ .auth packet) :
    Sole token (server.handle slot env call) := by
  refine (handle_sameOwners server slot env call notAuth).sole
    (handle_queues server slot env call).zoneMap ?_ sole
  intro zoneId posX posY member
  rw [handle_pending] at member
  rcases List.mem_append.mp member with old | new
  · exact Or.inl old
  · cases call with
    | enter packet =>
        simp only [handlerCommand, Option.toList_some, List.mem_singleton,
          Command.enterCharacter.injEq] at new
        exact Or.inr new.2.1
    | _ => simp [handlerCommand] at new

theorem auth_sole {server : Server} {token : Int} (sole : Sole token server) {slot : Nat}
    (env : Env) (packet : CsPAuth)
    (unused : server.nextToken env = token → Unused token server) :
    Sole token (server.c2sAuth slot env packet) := by
  refine ⟨?_, ?_, sole.enters⟩
  · intro known inUse holds
    rw [auth_token] at holds
    rw [auth_userMap]
    split at holds
    next same =>
      rw [if_pos ⟨holds, (unused holds).userMap⟩, same]
    next =>
      have other : server.nextToken env ≠ token := by
        intro issued
        exact (unused issued).sessions known inUse holds
      rw [if_neg (fun new => other new.1)]
      exact sole.held known inUse holds
  · intro known mapped zoneId entry registered
    rw [auth_userMap] at mapped
    have registered : (server.characterMap zoneId)[token]? = some entry := registered
    split at mapped
    next new =>
      rw [(unused new.1).zones] at registered
      cases registered
    next => exact sole.entries known mapped zoneId entry registered

theorem fire_sole {server : Server} {token : Int} (owned : Owned server)
    (sole : Sole token server) : Sole token server.fire := by
  have owners := fire_sameOwners server
  cases firing : server.firingCmds with
  | nil =>
      have idle : server.fire = server := by
        unfold fire
        rw [firing]
      rw [idle]
      exact sole
  | cons queued rest =>
      refine ⟨?_, ?_, ?_⟩
      · intro slot inUse holds
        rw [owners.mgr] at inUse
        rw [owners.token] at holds
        rw [owners.userMap]
        exact sole.held slot inUse holds
      · intro slot mapped zoneId known registered
        rw [owners.userMap] at mapped
        rw [fire_cons firing] at registered
        cases command : queued.command with
        | leaveCharacter key left =>
            rw [command, leave_zones] at registered
            split at registered
            next => cases registered
            next => exact sole.entries slot mapped zoneId known registered
        | enterCharacter key entered posX posY =>
            cases found : server.userMap[key]? with
            | none =>
                simp only [command, operator, getUserSession, found] at registered
                exact sole.entries slot mapped zoneId known registered
            | some other =>
                have holds := (owned.mapped key other found).2.1
                rw [command, enter_zones { server with firingCmds := rest } queued.cause found]
                  at registered
                split at registered
                next new =>
                  obtain ⟨rfl, same, -⟩ := new
                  have keys : token = key := same.trans holds
                  subst keys
                  have one : zoneId = 1 := by
                    apply sole.enters zoneId posX posY
                    rw [← command, pending, firing]
                    simp
                  rw [mapped] at found
                  exact ⟨one, (Option.some.inj registered).symm.trans (Option.some.inj found).symm⟩
                next => exact sole.entries slot mapped zoneId known registered
        | _ =>
            rw [command, characterMap_congr (operator_zoneMap _ _ rfl)] at registered
            exact sole.entries slot mapped zoneId known registered
      · intro zoneId posX posY member
        obtain ⟨more, later, quiet⟩ := fire_pending firing
        rw [later] at member
        apply sole.enters zoneId posX posY
        rw [pending, firing]
        rcases List.mem_append.mp member with old | new
        · simp only [List.cons_append, List.map_cons]
          exact List.mem_cons_of_mem _ old
        · cases quiet _ new

theorem doUpdate_sole {server : Server} {token : Int} (owned : Owned server)
    (sole : Sole token server) (clock : Clock) : Sole token (server.doUpdate clock) := by
  obtain ⟨listed, sessions, zoneMap, firingCmds, cmds, userMap, -, used, -⟩ :=
    doUpdate_releases server clock owned.kept
  refine ⟨?_, ?_, ?_⟩
  · intro slot inUse holds
    obtain ⟨before, stays⟩ := (used slot).mp inUse
    rw [sessions] at holds
    have mapped := sole.held slot before holds
    rw [userMap, if_neg, mapped]
    rintro ⟨other, member, same⟩
    have otherMapped := sole.held other (listed other member) same
    rw [mapped] at otherMapped
    rw [Option.some.inj otherMapped] at stays
    exact stays member
  · intro slot mapped zoneId known registered
    rw [userMap] at mapped
    rw [characterMap_congr zoneMap] at registered
    split at mapped
    · cases mapped
    · exact sole.entries slot mapped zoneId known registered
  · intro zoneId posX posY member
    apply sole.enters zoneId posX posY
    rw [pending, firingCmds, cmds, ← List.append_assoc, List.map_append] at member
    rcases List.mem_append.mp member with old | new
    · exact old
    · exfalso
      simp only [List.mem_map, List.mem_flatMap] at new
      obtain ⟨queued, ⟨slot, -, released⟩, command⟩ := new
      unfold releaseCommands at released
      split at released
      · rw [List.mem_singleton.mp released] at command
        cases command
      · cases released

/-! A property of the seat that every move keeps holds along a run, if it holds of the seat a
session gets with its token. -/

structure Tracked (token : Int) (seated : Seat → Prop) (server : Server) : Prop where
  owned : Owned server
  sole : Sole token server
  seat : ∀ slot, server.userMap[token]? = some slot → seated (server.seat token slot)

def FirstSeat (seated : Seat → Prop) (zoneId : Int) : Prop :=
  ∀ seat : Seat, seat.zoneId = zoneId → ¬seat.registered → seat.own = [] → seated seat

theorem start_tracked (token : Int) (seated : Seat → Prop) : Tracked token seated {} := by
  refine ⟨start_owned, ⟨?_, ?_, ?_⟩, ?_⟩
  · intro slot inUse
    cases inUse
  · intro slot mapped
    simp at mapped
  · intro zoneId posX posY member
    cases member
  · intro slot mapped
    simp at mapped

theorem attach_seat {server : Server} (owned : Owned server) (conn : Nat) {slot : Nat}
    (inUse : slot ∈ server.mgr.usedList) (token : Int) :
    (server.attach conn).1.seat token slot = server.seat token slot := by
  cases param : (server.links conn).param with
  | some known => rw [attach_known param]
  | none =>
      have attaches := attach_attaches param owned.kept
      apply seat_congr
      · rw [attaches.session_old inUse]
      · rw [characterMap_congr attaches.queues.zoneMap]
      · rw [own, own, attach_pending]

theorem attach_tracked {server : Server} {token : Int} {seated : Seat → Prop}
    (tracked : Tracked token seated server) (authed : token ≠ 0) (conn : Nat) :
    Tracked token seated (server.attach conn).1 := by
  refine ⟨(attach_owned tracked.owned conn).1,
    attach_sole tracked.owned tracked.sole authed conn, ?_⟩
  intro slot mapped
  rw [attach_userMap] at mapped
  rw [attach_seat tracked.owned conn (tracked.owned.mapped token slot mapped).1]
  exact tracked.seat slot mapped

theorem attach_unused {server : Server} {token : Int} (owned : Owned server)
    (unused : Unused token server) (authed : token ≠ 0) (conn : Nat) :
    Unused token (server.attach conn).1 := by
  cases param : (server.links conn).param with
  | some known =>
      rw [attach_known param]
      exact unused
  | none =>
      have attaches := attach_attaches param owned.kept
      refine ⟨?_, ?_, ?_, ?_⟩
      · rw [attaches.userMap]
        exact unused.userMap
      · intro slot inUse
        rcases (attaches.inUse_iff slot).mp inUse with old | rfl
        · rw [attaches.session_old old]
          exact unused.sessions slot old
        · rw [attaches.session_new]
          exact Ne.symm authed
      · intro zoneId
        rw [characterMap_congr attaches.queues.zoneMap]
        exact unused.zones zoneId
      · rw [own, attach_pending]
        exact unused.own

theorem auth_tracked {server : Server} {token : Int} {seated : Seat → Prop}
    (tracked : Tracked token seated server) {slot : Nat}
    (inUse : slot ∈ server.mgr.usedList) (first : (server.sessions slot).nub.token = 0)
    (env : Env) (packet : CsPAuth)
    (unused : server.nextToken env = token → Unused token server)
    (firstSeat : server.nextToken env = token →
      FirstSeat seated (server.sessions slot).nub.pos.zoneId) :
    Tracked token seated (server.c2sAuth slot env packet) := by
  obtain ⟨owned, sole, seat⟩ := tracked
  have unmapped := owned.guest_unmapped first
  refine ⟨auth_owned owned inUse unmapped env packet, auth_sole sole env packet unused, ?_⟩
  intro known mapped
  rw [auth_userMap] at mapped
  split at mapped
  next new =>
    obtain rfl := Option.some.inj mapped
    apply firstSeat new.1
    · simp [Server.seat, c2sAuth, sendPacket, setSession]
    · have none := (unused new.1).zones 1
      intro registered
      have registered : (server.characterMap 1)[token]? = some slot := registered
      rw [none] at registered
      cases registered
    · exact (unused new.1).own
  next =>
    have other : known ≠ slot := by
      rintro rfl
      exact unmapped token mapped
    have kept : (server.c2sAuth slot env packet).seat token known = server.seat token known := by
      apply seat_congr
      · rw [show (server.c2sAuth slot env packet).sessions known = server.sessions known from
          Function.update_of_ne other _ _]
      · rfl
      · rfl
    rw [kept]
    exact seat known mapped

theorem handle_tracked {server : Server} {token : Int} {seated : Seat → Prop}
    (moved : ∀ seat next, Seat.Moves token seat next → seated seat → seated next)
    (tracked : Tracked token seated server) {sender : Nat}
    (inUse : sender ∈ server.mgr.usedList) (env : Env) {call : C2SCall}
    (notAuth : ∀ packet, call ≠ .auth packet)
    (noLeave : ∀ packet, call = .enter packet → (server.sessions sender).nub.token = token →
      ∀ zoneId, .leaveCharacter token zoneId ∉ server.pending) :
    Tracked token seated (server.handle sender env call) := by
  obtain ⟨owned, sole, seat⟩ := tracked
  have owners := handle_sameOwners server sender env call notAuth
  refine ⟨owners.owned owned, handle_sole sole sender env notAuth, ?_⟩
  intro slot mapped
  rw [owners.userMap] at mapped
  have holds := (owned.mapped token slot mapped).2.1
  apply moved _ _ _ (seat slot mapped)
  apply handle_moves env call holds
  · intro same
    have senderMapped := sole.held sender inUse same
    rw [mapped] at senderMapped
    exact (Option.some.inj senderMapped).symm
  · exact fun packet auth => absurd auth (notAuth packet)
  · rintro packet enters rfl
    exact noLeave packet enters holds

theorem packet_tracked {server : Server} {token : Int} {seated : Seat → Prop}
    (moved : ∀ seat next, Seat.Moves token seat next → seated seat → seated next)
    (tracked : Tracked token seated server) (authed : token ≠ 0) (conn : Nat)
    (call : Option C2SCall) (env : Env) (settles : Settles token server (.packet conn call env))
    (first : ∀ packet, call = some (.auth packet) → server.nextToken env = token →
      FirstSeat seated (server.sender conn).nub.pos.zoneId) :
    Tracked token seated (server.packet conn call env) := by
  have attached := attach_tracked tracked authed conn
  have inUse := (attach_owned tracked.owned conn).2
  simp only [packet]
  cases call with
  | none => exact attached
  | some call =>
      cases call with
      | auth packet =>
          apply auth_tracked attached inUse settles.1 env packet
          · intro issued
            rw [attach_nextToken] at issued
            exact attach_unused tracked.owned (settles.2 issued) authed conn
          · intro issued
            rw [attach_nextToken] at issued
            exact first packet rfl issued
      | enter packet =>
          apply handle_tracked moved attached inUse env (by simp)
          rintro - - holds
          rw [attach_pending]
          exact settles holds
      | leave packet => exact handle_tracked moved attached inUse env (by simp) (by simp)
      | move packet => exact handle_tracked moved attached inUse env (by simp) (by simp)
      | interaction packet => exact handle_tracked moved attached inUse env (by simp) (by simp)
      | heartbeat packet => exact handle_tracked moved attached inUse env (by simp) (by simp)
      | echo packet => exact handle_tracked moved attached inUse env (by simp) (by simp)

theorem doUpdate_tracked {server : Server} {token : Int} {seated : Seat → Prop}
    (tracked : Tracked token seated server) (clock : Clock) :
    Tracked token seated (server.doUpdate clock) := by
  obtain ⟨owned, sole, seat⟩ := tracked
  obtain ⟨listed, sessions, zoneMap, firingCmds, cmds, userMap, -, -, -⟩ :=
    doUpdate_releases server clock owned.kept
  refine ⟨doUpdate_owned owned clock, doUpdate_sole owned sole clock, ?_⟩
  intro slot mapped
  rw [userMap] at mapped
  split at mapped
  next => cases mapped
  next stays =>
    have kept : (server.doUpdate clock).seat token slot = server.seat token slot := by
      apply seat_congr
      · rw [sessions]
      · rw [characterMap_congr zoneMap]
      · have others : (((server.releaseList clock).flatMap fun other =>
            releaseCommands (server.sessions other)).map Queued.command).filter
              (·.registersFor token) = [] := by
          apply List.filter_eq_nil_iff.mpr
          intro command member
          simp only [List.mem_map, List.mem_flatMap] at member
          obtain ⟨queued, ⟨other, released, added⟩, rfl⟩ := member
          unfold releaseCommands at added
          split at added
          · rw [List.mem_singleton.mp added]
            simp only [Command.registersFor, decide_eq_true_eq]
            exact fun holds => stays ⟨other, released, holds⟩
          · cases added
        rw [own, own, pending, firingCmds, cmds, ← List.append_assoc, List.map_append,
          List.filter_append, others, List.append_nil, pending]
    rw [kept]
    exact seat slot mapped

theorem step_tracked {server : Server} {token : Int} {seated : Seat → Prop}
    (moved : ∀ seat next, Seat.Moves token seat next → seated seat → seated next)
    (authed : token ≠ 0) (event : Event) (tracked : Tracked token seated server)
    (settles : Settles token server event)
    (first : ∀ conn packet env, event = .packet conn (some (.auth packet)) env →
      server.nextToken env = token → FirstSeat seated (server.sender conn).nub.pos.zoneId) :
    Tracked token seated (server.step event) := by
  have quiet {next : Server} (owners : SameOwners server next)
      (sessions : next.sessions = server.sessions) (zoneMap : next.zoneMap = server.zoneMap)
      (pending : next.pending = server.pending) : Tracked token seated next := by
    obtain ⟨owned, sole, seat⟩ := tracked
    refine ⟨owners.owned owned, owners.sole zoneMap ?_ sole, ?_⟩
    · intro zoneId posX posY member
      rw [pending] at member
      exact Or.inl member
    · intro slot mapped
      rw [owners.userMap] at mapped
      have kept : next.seat token slot = server.seat token slot := by
        apply seat_congr
        · rw [sessions]
        · rw [characterMap_congr zoneMap]
        · rw [own, own, pending]
      rw [kept]
      exact seat slot mapped
  cases event with
  | connect conn =>
      refine quiet (connect_sameOwners conn) ?_ ?_ ?_
      · simp only [step]
        split
        · rfl
        · rfl
      · simp only [step]
        split
        · rfl
        · rfl
      · simp only [step]
        split
        · rfl
        · rfl
  | close conn => exact quiet (closeLink_sameOwners server conn) rfl rfl rfl
  | packet conn call env =>
      apply packet_tracked moved tracked authed conn call env settles
      rintro packet rfl
      exact first conn packet env rfl
  | doUpdate clock =>
      simp only [step]
      split
      · exact doUpdate_tracked tracked clock
      · exact tracked
  | tick =>
      simp only [step, tick]
      split
      next idle =>
        refine quiet ⟨rfl, rfl, fun _ => rfl, fun _ => rfl, fun _ => rfl⟩ rfl rfl ?_
        simp [pending, idle]
      next => exact tracked
  | fire =>
      obtain ⟨owned, sole, seat⟩ := tracked
      have owners := fire_sameOwners server
      refine ⟨owners.owned owned, fire_sole owned sole, ?_⟩
      intro slot mapped
      have mapped : server.fire.userMap[token]? = some slot := mapped
      rw [owners.userMap] at mapped
      exact moved _ _ (fire_moves owned sole mapped) (seat slot mapped)

/-! The last condition: the session was in no zone when it got its token. -/

def AuthsOutside (token : Int) (server : Server) : Event → Prop
  | .packet conn (some (.auth _)) env =>
      server.nextToken env = token → (server.sender conn).nub.pos.zoneId = 0
  | _ => True

theorem Settles.authsUnmapped {token : Int} {server : Server} {event : Event}
    (settles : Settles token server event) (owned : Owned server) :
    AuthsUnmapped server event := by
  unfold AuthsUnmapped
  split
  next conn packet env =>
    intro slot param key mapped
    have first : (server.sessions slot).nub.token = 0 := by
      have asked := settles.1
      rw [sender, attach_known param] at asked
      exact asked
    obtain ⟨-, holds, positive⟩ := owned.mapped key slot mapped
    omega
  next => trivial

theorem step_agrees (token : Int) (authed : token ≠ 0) (server : Server) (event : Event)
    (tracked : Tracked token (Seat.Agrees token) server)
    (allowed : Settles token server event ∧ AuthsOutside token server event) :
    Tracked token (Seat.Agrees token) (server.step event) := by
  apply step_tracked (fun _ _ moves => moves.agrees) authed event tracked allowed.1
  rintro conn packet env rfl issued seat zoneId out own
  have outside : (server.sender conn).nub.pos.zoneId = 0 := allowed.2 issued
  rw [outside] at zoneId
  refine ⟨⟨?_, ?_, fun _ registered => absurd registered out, ?_, ?_⟩, Or.inl zoneId, ?_⟩
  · simp [own]
  · simp [own]
  · simp [own]
  · simp [own]
  · intro _ one
    omega

/-- Whenever no command waits and no tick is in progress, a session with a token is registered
in the zone its own zone id names and in no other, as long as it entered only after it
authenticated and only while no `LeaveCharacter` of its own was waiting. -/
theorem zone_agrees_when_settled (token : Int) (slot : Nat) (events : List Event)
    (along : Run.Along step
      (fun server event => Settles token server event ∧ AuthsOutside token server event) {} events)
    (mapped : (run {} events).userMap[token]? = some slot)
    (idle : (run {} events).cmds = [] ∧ (run {} events).firingCmds = []) :
    ∀ zoneId ≠ 0, ((run {} events).characterMap zoneId)[token]? = some slot ↔
      ((run {} events).sessions slot).nub.pos.zoneId = zoneId := by
  have owned : Owned (run {} events) :=
    Run.Along.invariant
      (fun server event owned allowed => step_owned server event owned
        (Settles.authsUnmapped allowed.1 owned))
      start_owned along
  have authed : token ≠ 0 := by
    have positive := (owned.mapped token slot mapped).2.2
    omega
  have tracked : Tracked token (Seat.Agrees token) (run {} events) :=
    Run.Along.invariant (step_agrees token authed) (start_tracked token _) along
  generalize run {} events = server at *
  have none : server.own token = [] := by
    simp [own, pending, idle.1, idle.2]
  have agrees := tracked.seat slot mapped
  have quiet : ∀ command ∈ (server.seat token slot).own, command.isEnter = false := by
    simp [seat, none]
  intro zoneId nonzero
  constructor
  · intro registered
    have one := (tracked.sole.entries slot mapped zoneId slot registered).1
    subst one
    exact agrees.located.inside quiet registered
  · intro here
    have here : (server.seat token slot).zoneId = zoneId := here
    have one : zoneId = 1 := by
      have zone := agrees.zone
      omega
    subst one
    exact agrees.outside quiet here

theorem zone_agrees_after_leave :
    let events : List Event := [.connect 7, .packet 7 (some (.auth { id := 5 })) {},
      .packet 7 (some (.enter {})) {}, .packet 7 (some (.leave {})) {}, .tick, .fire, .fire,
      .tick, .fire, .fire, .fire, .packet 7 (some (.enter {})) {}, .tick, .fire, .tick, .fire,
      .fire, .tick, .fire]
    Run.Along step
        (fun server event => Settles 1 server event ∧ AuthsOutside 1 server event) {} events ∧
      (run {} events).userMap[(1 : Int)]? = some 99 ∧
      ((run {} events).cmds = [] ∧ (run {} events).firingCmds = []) ∧
      ∀ zoneId ≠ 0, ((run {} events).characterMap zoneId)[(1 : Int)]? = some 99 ↔
        ((run {} events).sessions 99).nub.pos.zoneId = zoneId := by
  intro events
  have first : Unused 1 (step {} (.connect 7)) := by
    refine ⟨by decide, by decide, ?_, by decide⟩
    intro zoneId
    simp [step, setLink, characterMap]
  have along : Run.Along step
      (fun server event => Settles 1 server event ∧ AuthsOutside 1 server event) {} events := by
    refine ⟨⟨trivial, trivial⟩, ⟨⟨by decide, fun _ => first⟩, fun _ => by decide⟩,
      ⟨fun _ zoneId => ?_, trivial⟩, ⟨trivial, trivial⟩, ⟨trivial, trivial⟩, ⟨trivial, trivial⟩,
      ⟨trivial, trivial⟩, ⟨trivial, trivial⟩, ⟨trivial, trivial⟩, ⟨trivial, trivial⟩,
      ⟨trivial, trivial⟩, ⟨fun _ zoneId => ?_, trivial⟩, ⟨trivial, trivial⟩, ⟨trivial, trivial⟩,
      ⟨trivial, trivial⟩, ⟨trivial, trivial⟩, ⟨trivial, trivial⟩, ⟨trivial, trivial⟩,
      ⟨trivial, trivial⟩, trivial⟩
    · have none : (run {} (events.take 2)).pending = [] := by decide
      intro member
      have waits : .leaveCharacter 1 zoneId ∈ (run {} (events.take 2)).pending := member
      rw [none] at waits
      cases waits
    · have none : (run {} (events.take 11)).pending = [] := by decide
      intro member
      have waits : .leaveCharacter 1 zoneId ∈ (run {} (events.take 11)).pending := member
      rw [none] at waits
      cases waits
  have mapped : (run {} events).userMap[(1 : Int)]? = some 99 := by decide
  have idle : (run {} events).cmds = [] ∧ (run {} events).firingCmds = [] := by decide
  exact ⟨along, mapped, idle, zone_agrees_when_settled 1 99 events along mapped idle⟩

/-- Enter, leave and enter again between two ticks: the leave resets the id that the second
enter had set, and the second enter registers. -/
theorem registered_outside_every_zone :
    let server := run {} [.connect 7, .packet 7 (some (.auth { id := 5 })) {},
      .packet 7 (some (.enter {})) {}, .packet 7 (some (.leave {})) {},
      .packet 7 (some (.enter {})) {}, .tick, .fire, .fire, .fire, .tick, .fire, .fire, .fire,
      .fire, .fire, .tick, .fire, .fire, .fire]
    (server.cmds = [] ∧ server.firingCmds = []) ∧ server.userMap[(1 : Int)]? = some 99 ∧
      (server.characterMap 1)[(1 : Int)]? = some 99 ∧
      (server.sessions 99).nub.pos.zoneId = 0 := by
  decide

end Server

end ProjectPl
