import ProjectPl.ZoneEntries

/-!
The commands that wait, those of the tick in progress before those of the next one. A handler
adds at most one, behind all others; firing takes the first and adds only commands that
register nobody.
-/

namespace ProjectPl

def Command.registersFor (token : Int) : Command → Bool
  | .enterCharacter other .. => other = token
  | .leaveCharacter other _ => other = token
  | _ => false

namespace Server

def pending (server : Server) : List Command :=
  (server.firingCmds ++ server.cmds).map Queued.command

def own (server : Server) (token : Int) : List Command :=
  server.pending.filter (·.registersFor token)

def nextToken (server : Server) (env : Env) : Int :=
  env.now * 10000 + (server.uniqueSerialId + 1 : Nat)

/-! Attaching a session and `CS_P_AUTH` add nothing. -/

theorem attach_pending (server : Server) (conn : Nat) :
    (server.attach conn).1.pending = server.pending := by
  unfold attach
  split
  · rfl
  · rfl

theorem attach_userMap (server : Server) (conn : Nat) :
    (server.attach conn).1.userMap = server.userMap := by
  unfold attach
  split
  · rfl
  · rfl

theorem attach_nextToken (server : Server) (conn : Nat) (env : Env) :
    (server.attach conn).1.nextToken env = server.nextToken env := by
  unfold attach
  split
  · rfl
  · rfl

theorem auth_userMap (server : Server) (slot : Nat) (env : Env) (packet : CsPAuth) (key : Int) :
    (server.c2sAuth slot env packet).userMap[key]? =
      if server.nextToken env = key ∧ server.userMap[key]? = none then some slot
      else server.userMap[key]? := by
  have inserted : (server.c2sAuth slot env packet).userMap =
      server.userMap.insertIfNew (server.nextToken env) slot := rfl
  rw [inserted, Registry.lookup_insertIfNew]

theorem auth_token (server : Server) (slot : Nat) (env : Env) (packet : CsPAuth) (known : Nat) :
    ((server.c2sAuth slot env packet).sessions known).nub.token =
      if known = slot then server.nextToken env else (server.sessions known).nub.token := by
  by_cases same : known = slot
  · subst same
    simp [c2sAuth, sendPacket, setSession, nextToken]
  · simp [c2sAuth, sendPacket, setSession, same]

/-! Handlers and the commands they add. -/

theorem pending_add (server : Server) (cause : Nat) (command : Command) :
    (server.add cause command).pending = server.pending ++ [command] := by
  simp [pending, add]

def handlerCommand (server : Server) (slot : Nat) (env : Env) : C2SCall → Option Command
  | .enter _ => some (.enterCharacter (server.sessions slot).nub.token 1
      (env.rand1 % 1000 : Nat) (env.rand2 % 1000 : Nat))
  | .leave _ => some (.leaveCharacter (server.sessions slot).nub.token
      (server.sessions slot).nub.pos.zoneId)
  | .move packet => some (.sendBroadcastToAllUser (server.sessions slot).nub.pos.zoneId
      (.move { token := (server.sessions slot).nub.token, x := packet.x, y := packet.y }))
  | .interaction packet => some (.sendBroadcastToAllUser (server.sessions slot).nub.pos.zoneId
      (.interaction
        { token := (server.sessions slot).nub.token
          targetToken := packet.targetToken
          interactionType := packet.interactionType }))
  | .echo packet => some (.sendBroadcastToAllUser (server.sessions slot).nub.pos.zoneId
      (.echo (ScPEcho.setData (server.sessions slot).nub.token packet.echoData
        packet.echoDataSize)))
  | .auth _ | .heartbeat _ => none

theorem handle_pending (server : Server) (slot : Nat) (env : Env) (call : C2SCall) :
    (server.handle slot env call).pending =
      server.pending ++ (server.handlerCommand slot env call).toList := by
  cases call with
  | auth packet => exact (List.append_nil _).symm
  | heartbeat packet => exact (List.append_nil _).symm
  | enter packet => exact pending_add _ _ _
  | leave packet => exact pending_add _ _ _
  | move packet => exact pending_add _ _ _
  | interaction packet => exact pending_add _ _ _
  | echo packet => exact pending_add _ _ _

theorem handle_own_other {server : Server} {slot : Nat} {token : Int}
    (other : (server.sessions slot).nub.token ≠ token) (env : Env) (call : C2SCall) :
    (server.handle slot env call).own token = server.own token := by
  rw [own, handle_pending, List.filter_append]
  cases call with
  | enter packet => simp [handlerCommand, Command.registersFor, other, own]
  | leave packet => simp [handlerCommand, Command.registersFor, other, own]
  | _ => simp [handlerCommand, Command.registersFor, own]

theorem handle_sessions_other (server : Server) (slot : Nat) (env : Env) (call : C2SCall)
    {known : Nat} (other : known ≠ slot) :
    (server.handle slot env call).sessions known = server.sessions known := by
  cases call with
  | auth packet => exact Function.update_of_ne other _ _
  | enter packet => exact Function.update_of_ne other _ _
  | move packet => exact Function.update_of_ne other _ _
  | _ => rfl

/-! Firing a command. -/

theorem fire_cons {server : Server} {queued : Queued} {rest : List Queued}
    (firing : server.firingCmds = queued :: rest) :
    server.fire = operator { server with firingCmds := rest } queued.cause queued.command := by
  unfold fire
  rw [firing]

theorem fire_pending {server : Server} {queued : Queued} {rest : List Queued}
    (firing : server.firingCmds = queued :: rest) :
    ∃ more : List Command, server.fire.pending = (rest ++ server.cmds).map Queued.command ++ more ∧
      ∀ command ∈ more, command.registers = false := by
  obtain ⟨later, more, added, quiet⟩ :=
    operator_queues { server with firingCmds := rest } queued.cause queued.command
  refine ⟨more.map Queued.command, ?_, ?_⟩
  · rw [fire_cons firing, pending, later, ← added]
    simp
  · intro command member
    obtain ⟨other, listed, rfl⟩ := List.mem_map.mp member
    exact quiet other listed

theorem registersFor_of_quiet {command : Command} (quiet : command.registers = false)
    (token : Int) : command.registersFor token = false := by
  cases command with
  | enterCharacter other zoneId posX posY => cases quiet
  | leaveCharacter other zoneId => cases quiet
  | _ => rfl

theorem fire_own {server : Server} {queued : Queued} {rest : List Queued}
    (firing : server.firingCmds = queued :: rest) (token : Int) :
    server.own token =
      [queued.command].filter (·.registersFor token) ++ server.fire.own token := by
  obtain ⟨more, later, quiet⟩ := fire_pending firing
  have none : more.filter (·.registersFor token) = [] := by
    apply List.filter_eq_nil_iff.mpr
    intro command member
    simp [registersFor_of_quiet (quiet command member) token]
  have before : server.pending = queued.command :: (rest ++ server.cmds).map Queued.command := by
    simp [pending, firing]
  rw [own, own, before, later, List.filter_append, none, List.append_nil,
    ← List.filter_append, List.singleton_append]

theorem fire_own_other {server : Server} {queued : Queued} {rest : List Queued}
    (firing : server.firingCmds = queued :: rest) {token : Int}
    (other : queued.command.registersFor token = false) :
    server.fire.own token = server.own token := by
  rw [fire_own firing token]
  simp [other]

theorem operator_sessions (server : Server) (cause : Nat) {command : Command}
    (stays : ∀ token zoneId, command ≠ .leaveCharacter token zoneId) :
    (server.operator cause command).sessions = server.sessions := by
  cases command with
  | sendBroadcastToAllUser zoneId packet =>
      simp only [operator]
      split
      · rfl
      · rw [addAll_eq]
  | sendPacketToUser token packet =>
      simp only [operator]
      split
      · rfl
      · rfl
  | enterCharacter token zoneId posX posY =>
      simp only [operator]
      split
      · rfl
      · rfl
  | leaveCharacter token zoneId => exact absurd rfl (stays token zoneId)
  | sendCharacterList exceptCharacterToken zoneId =>
      simp only [operator]
      split
      · rw [addAll_eq]
      · rfl

theorem leave_zones (server : Server) (cause : Nat) (token zoneId other key : Int) :
    ((server.operator cause (.leaveCharacter token zoneId)).characterMap other)[key]? =
      if other = zoneId ∧ key = token then none else (server.characterMap other)[key]? := by
  simp only [operator]
  split
  · exact onUnregistCharacter_lookup server zoneId token other key
  next slot _ => exact onUnregistCharacter_lookup (server.setPos slot {}) zoneId token other key

theorem leave_sessions (server : Server) (cause : Nat) (token zoneId : Int) :
    (server.operator cause (.leaveCharacter token zoneId)).sessions =
      match server.userMap[token]? with
      | none => server.sessions
      | some slot => (server.setPos slot {}).sessions := by
  have reset : ∀ current : Server,
      (current.onUnregistCharacter zoneId token).sessions = current.sessions := by
    intro current
    unfold onUnregistCharacter
    split
    · rfl
    · rfl
  simp only [operator, add, getUserSession]
  rw [reset]
  cases server.userMap[token]? with
  | none => rfl
  | some slot => rfl

theorem enter_zones (server : Server) (cause : Nat) {token : Int} {slot : Nat}
    (mapped : server.userMap[token]? = some slot) (zoneId posX posY other key : Int) :
    ((server.operator cause (.enterCharacter token zoneId posX posY)).characterMap other)[key]? =
      if other = zoneId ∧ key = (server.sessions slot).nub.token ∧
          (server.characterMap zoneId)[key]? = none then some slot
      else (server.characterMap other)[key]? := by
  simp only [operator, getUserSession, mapped]
  exact onRegistCharacter_lookup server zoneId slot other key

/-! A command of another token leaves the session and the entries of this one alone. -/

theorem fire_sessions_other {server : Server} {token : Int} {slot : Nat} (owned : Owned server)
    {queued : Queued} {rest : List Queued} (firing : server.firingCmds = queued :: rest)
    (holds : (server.sessions slot).nub.token = token)
    (other : queued.command.registersFor token = false) :
    server.fire.sessions slot = server.sessions slot := by
  rw [fire_cons firing]
  cases command : queued.command with
  | leaveCharacter key zoneId =>
      rw [leave_sessions]
      dsimp only
      cases mapped : server.userMap[key]? with
      | none => rfl
      | some known =>
          have different : slot ≠ known := by
            rintro rfl
            rw [command] at other
            simp only [Command.registersFor, decide_eq_false_iff_not] at other
            exact other ((owned.mapped key slot mapped).2.1.symm.trans holds)
          exact Function.update_of_ne different _ _
  | _ => rw [operator_sessions _ _ (by simp)]

theorem fire_zones_other {server : Server} {token : Int} (owned : Owned server)
    {queued : Queued} {rest : List Queued} (firing : server.firingCmds = queued :: rest)
    (other : queued.command.registersFor token = false) (zoneId : Int) :
    (server.fire.characterMap zoneId)[token]? = (server.characterMap zoneId)[token]? := by
  rw [fire_cons firing]
  cases command : queued.command with
  | leaveCharacter key left =>
      rw [command] at other
      simp only [Command.registersFor, decide_eq_false_iff_not] at other
      rw [leave_zones, if_neg (by rintro ⟨-, rfl⟩; exact other rfl)]
      rfl
  | enterCharacter key entered posX posY =>
      rw [command] at other
      simp only [Command.registersFor, decide_eq_false_iff_not] at other
      cases mapped : server.userMap[key]? with
      | none =>
          simp only [operator, getUserSession, mapped]
          rfl
      | some slot =>
          have holds := (owned.mapped key slot mapped).2.1
          rw [enter_zones { server with firingCmds := rest } queued.cause mapped, if_neg]
          · rfl
          · rintro ⟨-, rfl, -⟩
            exact other holds.symm
  | _ =>
      rw [characterMap_congr (operator_zoneMap _ _ rfl)]
      rfl

end Server

end ProjectPl
