import ProjectPl.Protocol
import ProjectPl.Roster

/-!
What the server hands to its connections. Its members stay within their declared types as long as
those of the packets it receives do and the tokens made from the clock fit, so everything it sends
can be sent. Sessions are numbered in the order in which they are made, and a number is never
given twice.
-/

namespace ProjectPl

open LittleEndian

/-! A call as its handler gets it. The array of an echo may hold more than the echo. -/

def C2SCall.Received : C2SCall → Prop
  | .auth packet => FitsSigned 4 packet.id
  | .move packet => FitsSigned 4 packet.x ∧ FitsSigned 4 packet.y
  | .interaction packet => FitsSigned 8 packet.targetToken ∧ FitsSigned 4 packet.interactionType
  | .echo packet => 0 ≤ packet.echoDataSize ∧ packet.echoDataSize ≤ maxEchoDataLength ∧
      packet.echoDataSize ≤ packet.echoData.length
  | .enter _ | .leave _ | .heartbeat _ => True

theorem C2SCall.received_of_sameAs {sent received : C2SCall} (sendable : sent.Sendable)
    (same : sent.SameAs received) : received.Received := by
  cases sent with
  | echo sent =>
      cases received with
      | echo received =>
          obtain ⟨size, data⟩ := same
          obtain ⟨lower, upper, length⟩ := sendable
          have taken := congrArg List.length data
          rw [List.length_take, List.length_take] at taken
          refine ⟨by omega, by omega, ?_⟩
          rw [size]
          omega
      | _ => cases same
  | auth sent =>
      cases same
      exact sendable
  | move sent =>
      cases same
      exact sendable
  | interaction sent =>
      cases same
      exact sendable
  | _ =>
      cases same
      trivial

def Command.Fits : Command → Prop
  | .sendBroadcastToAllUser _ packet => packet.Sendable
  | .sendPacketToUser _ packet => packet.Sendable
  | .enterCharacter token _ posX posY =>
      FitsSigned 8 token ∧ FitsSigned 4 posX ∧ FitsSigned 4 posY
  | .leaveCharacter token _ => FitsSigned 8 token
  | .sendCharacterList _ _ => True

theorem CharacterDbData.fits_iff (data : CharacterDbData) :
    data.Fits ↔ FitsSigned 8 data.token ∧ FitsSigned 4 data.pos.zoneId ∧
      FitsSigned 4 data.pos.posX ∧ FitsSigned 4 data.pos.posY := by
  simp [Fits, Member.Fits, Position.members]

theorem CharacterDbData.default_fits : ({} : CharacterDbData).Fits :=
  (fits_iff _).mpr (by decide)

theorem fitsSigned_rand (value : Nat) : FitsSigned 4 (value % 1000 : Nat) := by
  unfold FitsSigned
  omega

namespace Server

structure Fits (server : Server) : Prop where
  sessions : ∀ slot, (server.sessions slot).nub.getDbData.Fits
  pending : ∀ command ∈ server.pending, command.Fits
  delivered : ∀ delivery ∈ server.delivered, delivery.packet.Sendable

theorem start_fits : Fits {} :=
  ⟨fun _ => CharacterDbData.default_fits, nofun, nofun⟩

theorem Fits.keep {server next : Server} (fits : Fits server)
    (sessions : ∀ slot, (next.sessions slot).nub.getDbData = (server.sessions slot).nub.getDbData ∨
      (next.sessions slot).nub.getDbData.Fits)
    (pending : ∀ command ∈ next.pending, command ∈ server.pending ∨ command.Fits)
    (delivered : ∀ delivery ∈ next.delivered,
      delivery ∈ server.delivered ∨ delivery.packet.Sendable) : Fits next := by
  refine ⟨?_, ?_, ?_⟩
  · intro slot
    rcases sessions slot with same | new
    · exact same ▸ fits.sessions slot
    · exact new
  · exact fun command member => (pending command member).elim (fits.pending command) id
  · exact fun delivery member => (delivered delivery member).elim (fits.delivered delivery) id

theorem Fits.same {server next : Server} (fits : Fits server)
    (sessions : next.sessions = server.sessions) (pending : next.pending = server.pending)
    (delivered : next.delivered = server.delivered) : Fits next :=
  fits.keep (fun slot => Or.inl (by rw [sessions])) (fun _ => by rw [pending]; exact Or.inl)
    fun _ => by rw [delivered]; exact Or.inl

theorem pending_addAll (server : Server) (cause : Nat) (commands : List Command) :
    (server.addAll cause commands).pending = server.pending ++ commands := by
  have commanded : Queued.command ∘ Queued.mk cause = id := rfl
  rw [addAll_eq]
  simp [pending, commanded]

theorem Fits.add {server : Server} (fits : Fits server) (cause : Nat) {command : Command}
    (fitting : command.Fits) : Fits (server.add cause command) := by
  refine fits.keep (fun _ => Or.inl rfl) ?_ fun _ => Or.inl
  intro other member
  rw [pending_add] at member
  rcases List.mem_append.mp member with old | new
  · exact Or.inl old
  · exact Or.inr (List.mem_singleton.mp new ▸ fitting)

theorem Fits.addAll {server : Server} (fits : Fits server) (cause : Nat) {commands : List Command}
    (fitting : ∀ command ∈ commands, command.Fits) : Fits (server.addAll cause commands) := by
  refine fits.keep ?_ ?_ ?_
  · intro slot
    rw [addAll_eq]
    exact Or.inl rfl
  · intro other member
    rw [pending_addAll] at member
    exact (List.mem_append.mp member).imp_right (fitting other)
  · intro delivery member
    rw [addAll_eq] at member
    exact Or.inl member

theorem setPos_fits {server : Server} (fits : Fits server) (slot : Nat) {pos : Position}
    (fitting : Member.Fits Position.members pos) : Fits (server.setPos slot pos) := by
  refine fits.keep ?_ (fun _ => Or.inl) fun _ => Or.inl
  intro other
  by_cases same : other = slot
  · subst same
    right
    simp only [setPos, setSession, Function.update_self]
    exact ⟨(fits.sessions other).1, fitting⟩
  · left
    simp only [setPos, setSession, Function.update_of_ne same]

/-! Handlers. -/

theorem echo_sendable {token : Int} (fits : FitsSigned 8 token) {packet : CsPEcho}
    (received : (C2SCall.echo packet).Received) :
    (S2CCall.echo (ScPEcho.setData token packet.echoData packet.echoDataSize)).Sendable := by
  obtain ⟨lower, upper, inside⟩ := received
  refine ⟨fits, ?_⟩
  rw [ScPEcho.setData, if_pos ⟨lower, upper⟩]
  refine ⟨?_, min_le_left _ _, ?_⟩
  · exact le_min (by decide) lower
  · dsimp only
    rw [List.length_append, List.length_take, List.length_replicate]
    omega

theorem handle_fits {server : Server} (fits : Fits server) (slot : Nat) {env : Env}
    (token : FitsSigned 8 (server.nextToken env)) {call : C2SCall} (received : call.Received) :
    Fits (server.handle slot env call) := by
  have own := fits.sessions slot
  rw [CharacterDbData.fits_iff] at own
  obtain ⟨holds, zone, posX, posY⟩ := own
  cases call with
  | auth packet =>
      refine fits.keep ?_ (fun _ => Or.inl) ?_
      · intro other
        by_cases same : other = slot
        · subst same
          right
          rw [CharacterDbData.fits_iff]
          simp only [handle, c2sAuth, sendPacket, setSession, Function.update_self]
          exact ⟨token, zone, posX, posY⟩
        · left
          rw [handle_sessions_other _ _ _ _ same]
      · intro delivery member
        rw [handle, auth_delivered] at member
        refine (List.mem_append.mp member).imp_right fun new => ?_
        rw [List.mem_singleton.mp new]
        exact ⟨received, token⟩
  | enter packet =>
      refine (setPos_fits fits slot ?_).add _ ⟨holds, fitsSigned_rand _, fitsSigned_rand _⟩
      simp only [Member.Fits, Position.members, List.forall_mem_cons]
      exact ⟨show FitsSigned 4 1 by decide, fitsSigned_rand _, fitsSigned_rand _,
        List.forall_mem_nil _⟩
  | leave packet => exact fits.add _ holds
  | move packet =>
      refine (setPos_fits fits slot ?_).add _ ⟨holds, received⟩
      simp only [Member.Fits, Position.members, List.forall_mem_cons]
      exact ⟨zone, received.1, received.2, List.forall_mem_nil _⟩
  | interaction packet => exact fits.add _ ⟨holds, received⟩
  | heartbeat packet => exact fits
  | echo packet => exact fits.add _ (echo_sendable holds received)

theorem attach_fits {server : Server} (fits : Fits server) (conn : Nat) :
    Fits (server.attach conn).1 := by
  unfold attach
  split
  · exact fits
  · refine fits.keep ?_ (fun _ => Or.inl) fun _ => Or.inl
    intro slot
    by_cases same : slot = server.mgr.getFreeObject.2
    · subst same
      right
      simp only [setLink, setSession, Function.update_self]
      exact CharacterDbData.default_fits
    · left
      simp only [setLink, setSession, Function.update_of_ne same]

theorem packet_fits {server : Server} (fits : Fits server) (conn : Nat) {call : Option C2SCall}
    (received : ∀ packet, call = some packet → packet.Received) {env : Env}
    (token : FitsSigned 8 (server.nextToken env)) : Fits (server.packet conn call env) := by
  have attached := attach_fits fits conn
  rw [← attach_nextToken server conn] at token
  cases call with
  | none => exact attached
  | some call => exact handle_fits attached _ token (received call rfl)

/-! Operators. -/

theorem list_sendable {data : CharacterDbData} (fits : data.Fits) :
    (S2CCall.enterCharacter (ScPEnterCharacterList.setData {} data).1).Sendable := by
  refine ⟨show (0 : Int) ≤ 1 by decide, show (1 : Int) ≤ maxSendCountCharacterDbData by decide, rfl,
    ?_⟩
  intro entry member
  rcases List.mem_or_eq_of_mem_set member with old | rfl
  · rw [List.eq_of_mem_replicate old]
    exact CharacterDbData.default_fits
  · exact fits

theorem operator_fits {server : Server} (fits : Fits server) (cause : Nat) {command : Command}
    (fitting : command.Fits) : Fits (server.operator cause command) := by
  cases command with
  | sendBroadcastToAllUser zoneId packet =>
      simp only [operator]
      split
      · exact fits
      · refine fits.addAll _ ?_
        intro other member
        obtain ⟨entry, -, rfl⟩ := List.mem_map.mp member
        exact fitting
  | sendPacketToUser token packet =>
      simp only [operator]
      split
      · exact fits
      · refine fits.keep (fun _ => Or.inl rfl) (fun _ => Or.inl) ?_
        intro delivery member
        refine (List.mem_append.mp member).imp_right fun new => ?_
        rw [List.mem_singleton.mp new]
        exact fitting
  | enterCharacter token zoneId posX posY =>
      simp only [operator]
      split
      · exact fits
      next slot _ =>
        have registered : Fits (server.onRegistCharacter zoneId slot) := fits.same rfl rfl rfl
        have announces : (Command.sendBroadcastToAllUser zoneId
            (.enter { token := token, x := posX, y := posY })).Fits := fitting
        have lists : (Command.sendCharacterList token zoneId).Fits := trivial
        exact (registered.add cause announces).add cause lists
  | leaveCharacter token zoneId =>
      simp only [operator]
      refine Fits.add ?_ _ fitting
      have unregistered (current : Server) (held : Fits current) :
          Fits (current.onUnregistCharacter zoneId token) := by
        unfold onUnregistCharacter
        split
        · exact held
        · exact held.same rfl rfl rfl
      apply unregistered
      split
      · exact fits
      · exact setPos_fits fits _ CharacterDbData.default_fits.2
  | sendCharacterList exceptCharacterToken zoneId =>
      simp only [operator]
      split
      next zone _ _ =>
        refine fits.addAll _ ?_
        intro other member
        obtain ⟨packet, listed, rfl⟩ := List.mem_map.mp member
        rw [World.characterListPackets_eq] at listed
        obtain ⟨data, found, rfl⟩ := List.mem_map.mp listed
        obtain ⟨entry, -, rfl⟩ := List.mem_map.mp found
        exact list_sendable (fits.sessions entry.2)
      next => exact fits

theorem fire_fits {server : Server} (fits : Fits server) : Fits server.fire := by
  unfold fire
  split
  · exact fits
  next queued rest firing =>
    have waiting : server.pending = queued.command :: (rest ++ server.cmds).map Queued.command := by
      simp [pending, firing]
    have popped : Fits { server with firingCmds := rest } := by
      refine fits.keep (fun _ => Or.inl rfl) ?_ fun _ => Or.inl
      intro command member
      rw [waiting]
      exact Or.inl (List.mem_cons_of_mem _ member)
    exact operator_fits popped queued.cause (fits.pending _ (by simp [waiting]))

theorem tick_fits {server : Server} (fits : Fits server) : Fits server.tick := by
  unfold tick
  split
  next idle => exact fits.same rfl (by simp [pending, idle]) rfl
  next => exact fits

theorem foldl_free_eq (server : Server) (slots : List Nat) :
    ∃ mgr userMap, slots.foldl free server = { server with mgr, userMap } := by
  induction slots generalizing server with
  | nil => exact ⟨server.mgr, server.userMap, rfl⟩
  | cons slot rest ih =>
      obtain ⟨mgr, userMap, freed⟩ := ih (server.free slot)
      exact ⟨mgr, userMap, freed⟩

theorem doUpdate_eq (server : Server) (clock : Clock) :
    ∃ mgr userMap links, server.doUpdate clock =
      { (server.updateSessions clock server.mgr.usedList).1 with
        sessions := server.sessions
        cmds := server.cmds ++ (server.releaseList clock).flatMap fun slot =>
          releaseCommands (server.sessions slot)
        mgr, userMap, links } := by
  obtain ⟨sessions, cmds, -, -⟩ := updateSessions_keeps server clock server.mgr.usedList
  have update : server.doUpdate clock = (server.releaseList clock).foldl free
      ((server.releaseList clock).foldl release
        (server.updateSessions clock server.mgr.usedList).1) := rfl
  rw [foldl_release, sessions, cmds] at update
  obtain ⟨mgr, userMap, freed⟩ := foldl_free_eq _ (server.releaseList clock)
  exact ⟨mgr, userMap, _, update.trans freed⟩

theorem doUpdate_fits {server : Server} (fits : Fits server) (clock : Clock) :
    Fits (server.doUpdate clock) := by
  obtain ⟨-, -, -, firingCmds⟩ := updateSessions_keeps server clock server.mgr.usedList
  obtain ⟨-, more, sent, beating⟩ := updateSessions_beats server clock server.mgr.usedList
  obtain ⟨mgr, userMap, links, update⟩ := doUpdate_eq server clock
  rw [update]
  refine fits.keep (fun _ => Or.inl rfl) ?_ ?_
  · intro command member
    simp only [pending, firingCmds, ← List.append_assoc] at member
    rw [List.map_append] at member
    refine (List.mem_append.mp member).imp_right fun left => ?_
    obtain ⟨queued, listed, rfl⟩ := List.mem_map.mp left
    obtain ⟨slot, -, here⟩ := List.mem_flatMap.mp listed
    unfold releaseCommands at here
    split at here
    · rw [List.mem_singleton.mp here]
      exact (fits.sessions slot).1
    · cases here
  · intro delivery member
    dsimp only at member
    rw [sent] at member
    refine (List.mem_append.mp member).imp_right fun new => ?_
    rw [(beating delivery new).1]
    trivial

/-- The condition on an event under which what the server sends can be sent. -/
def Receives (server : Server) : Event → Prop
  | .packet _ call env => (∀ packet, call = some packet → packet.Received) ∧
      FitsSigned 8 (server.nextToken env)
  | _ => True

theorem step_fits {server : Server} (fits : Fits server) {event : Event}
    (receives : Receives server event) : Fits (server.step event) := by
  cases event with
  | connect conn =>
      simp only [step]
      split
      · exact fits.same rfl rfl rfl
      · exact fits
  | close conn => exact fits.same rfl rfl rfl
  | packet conn call env => exact packet_fits fits conn receives.1 receives.2
  | doUpdate clock =>
      simp only [step]
      split
      · exact doUpdate_fits fits clock
      · exact fits
  | tick => exact tick_fits fits
  | fire => exact fire_fits fits

/-! A session keeps its number and its connection for good, also behind its release, and what has
been delivered stays. -/

structure Extends (server next : Server) : Prop where
  uid : ∀ slot, (next.sessions slot).uid = (server.sessions slot).uid
  connector : ∀ slot, (next.sessions slot).pConnector = (server.sessions slot).pConnector
  counter : next.uniqueUserSessionUid = server.uniqueUserSessionUid
  delivered : ∃ more, next.delivered = server.delivered ++ more ∧
    ∀ delivery ∈ more, ∃ slot, delivery.recipient = (server.sessions slot).uid

theorem Extends.of_same {server next : Server} (sessions : next.sessions = server.sessions)
    (counter : next.uniqueUserSessionUid = server.uniqueUserSessionUid)
    (delivered : next.delivered = server.delivered) : Extends server next :=
  ⟨fun _ => by rw [sessions], fun _ => by rw [sessions], counter, [], by simp [delivered]⟩

theorem handle_extends (server : Server) (slot : Nat) (env : Env) (call : C2SCall) :
    Extends server (server.handle slot env call) ∧
      (server.handle slot env call).links = server.links := by
  have moves (pos : Position) (cause : Nat) (command : Command) :
      Extends server ((server.setPos slot pos).add cause command) :=
    ⟨setPos_uid server slot pos, (setPos_sameOwners server slot pos).connector, rfl, [],
      (List.append_nil _).symm, nofun⟩
  cases call with
  | auth packet =>
      refine ⟨⟨auth_uid server slot env packet, ?_, rfl, _, auth_delivered server slot env packet,
        ?_⟩, rfl⟩
      · intro known
        by_cases same : known = slot
        · subst same
          simp [handle, c2sAuth, sendPacket, setSession]
        · rw [handle_sessions_other _ _ _ _ same]
      · intro delivery member
        rw [List.mem_singleton.mp member]
        exact ⟨slot, rfl⟩
  | enter packet => exact ⟨moves _ _ _, rfl⟩
  | leave packet => exact ⟨.of_same rfl rfl rfl, rfl⟩
  | move packet => exact ⟨moves _ _ _, rfl⟩
  | interaction packet => exact ⟨.of_same rfl rfl rfl, rfl⟩
  | heartbeat packet => exact ⟨.of_same rfl rfl rfl, rfl⟩
  | echo packet => exact ⟨.of_same rfl rfl rfl, rfl⟩

theorem operator_extends (server : Server) (cause : Nat) (command : Command) :
    Extends server (server.operator cause command) := by
  obtain ⟨counter, more, sent, known⟩ := operator_sends server cause command
  refine ⟨operator_uid server cause command, (operator_sameOwners server cause command).connector,
    counter, more, sent, ?_⟩
  intro delivery member
  obtain ⟨token, slot, -, recipient⟩ := known delivery member
  exact ⟨slot, recipient⟩

theorem fire_extends (server : Server) : Extends server server.fire := by
  unfold fire
  split
  · exact .of_same rfl rfl rfl
  next queued rest _ =>
    obtain ⟨uid, connector, counter, more, sent, known⟩ :=
      operator_extends { server with firingCmds := rest } queued.cause queued.command
    exact ⟨uid, connector, counter, more, sent, known⟩

theorem doUpdate_extends (server : Server) (clock : Clock) :
    Extends server (server.doUpdate clock) := by
  obtain ⟨counter, more, sent, beating⟩ := updateSessions_beats server clock server.mgr.usedList
  obtain ⟨mgr, userMap, links, update⟩ := doUpdate_eq server clock
  rw [update]
  refine ⟨fun _ => rfl, fun _ => rfl, counter, more, sent, ?_⟩
  intro delivery member
  obtain ⟨-, slot, -, recipient⟩ := beating delivery member
  exact ⟨slot, recipient⟩

/-- The session that a packet of a connection is handled by. -/
theorem attach_sessions (server : Server) (conn : Nat) :
    (server.attach conn).1.delivered = server.delivered ∧
      ((server.links conn).param ≠ none ∧ (server.attach conn).1 = server ∨
        (server.links conn).param = none ∧
          (server.attach conn).1.uniqueUserSessionUid = server.uniqueUserSessionUid + 1 ∧
          (server.attach conn).1.sessions = Function.update server.sessions (server.attach conn).2
            { uid := server.uniqueUserSessionUid + 1, pConnector := some conn }) := by
  cases param : (server.links conn).param with
  | some slot =>
      rw [attach_known param]
      exact ⟨rfl, Or.inl ⟨nofun, rfl⟩⟩
  | none =>
      unfold attach
      rw [param]
      exact ⟨rfl, Or.inr ⟨rfl, rfl, rfl⟩⟩

structure Numbered (server : Server) : Prop where
  counted : ∀ slot, (server.sessions slot).uid ≤ server.uniqueUserSessionUid
  sent : ∀ delivery ∈ server.delivered, delivery.recipient ≤ server.uniqueUserSessionUid

theorem start_numbered : Numbered {} := ⟨fun _ => Nat.le_refl _, nofun⟩

theorem Extends.numbered {server next : Server} (extends' : Extends server next)
    (numbered : Numbered server) : Numbered next := by
  obtain ⟨uid, -, counter, more, delivered, known⟩ := extends'
  refine ⟨?_, ?_⟩
  · intro slot
    rw [uid, counter]
    exact numbered.counted slot
  · intro delivery member
    rw [counter]
    rw [delivered] at member
    rcases List.mem_append.mp member with old | new
    · exact numbered.sent delivery old
    · obtain ⟨slot, recipient⟩ := known delivery new
      rw [recipient]
      exact numbered.counted slot

theorem attach_numbered {server : Server} (numbered : Numbered server) (conn : Nat) :
    Numbered (server.attach conn).1 := by
  obtain ⟨delivered, ⟨-, same⟩ | ⟨-, counter, sessions⟩⟩ := attach_sessions server conn
  · rw [same]
    exact numbered
  · refine ⟨?_, ?_⟩
    · intro slot
      rw [counter, sessions]
      by_cases new : slot = (server.attach conn).2
      · rw [new, Function.update_self]
      · rw [Function.update_of_ne new]
        exact Nat.le_succ_of_le (numbered.counted slot)
    · intro delivery member
      rw [delivered] at member
      rw [counter]
      exact Nat.le_succ_of_le (numbered.sent delivery member)

theorem connect_extends (server : Server) (conn : Nat) :
    Extends server (server.step (.connect conn)) := by
  simp only [step]
  split
  · exact .of_same rfl rfl rfl
  · exact .of_same rfl rfl rfl

theorem tick_extends (server : Server) : Extends server server.tick := by
  rw [tick]
  split
  · exact .of_same rfl rfl rfl
  · exact .of_same rfl rfl rfl

theorem packet_extends (server : Server) (conn : Nat) (call : Option C2SCall) (env : Env) :
    Extends (server.attach conn).1 (server.packet conn call env) ∧
      (server.packet conn call env).links = (server.attach conn).1.links := by
  cases call with
  | none => exact ⟨.of_same rfl rfl rfl, rfl⟩
  | some call => exact handle_extends _ _ env call

end Server

end ProjectPl
