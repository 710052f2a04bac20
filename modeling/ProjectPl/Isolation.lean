import ProjectPl.ZoneEntries

/-!
Sessions that never authenticate. A run is compared with the run in which no handler gets
the packets of one such session and the commands that go back to it are not fired, under the
same answers of `Clock`. The two runs stay in step, and differ only in that session's
position and in those commands, as long as the session keeps still once `CS_P_ENTER` has put
it into a zone. `rand()` is one stream of `ProcessThread`, from which every `CS_P_ENTER` takes
its position, so each run takes the values of its own packets. Both runs have the session: its
connection is given one, and nothing comes of what it sends.
-/

namespace ProjectPl

def C2SCall.readsZone : C2SCall → Bool
  | .leave _ | .move _ | .interaction _ | .echo _ => true
  | _ => false

def Command.harmless : Command → Prop
  | .enterCharacter token _ _ _ => token = 0
  | .leaveCharacter token zoneId => token = 0 ∧ zoneId = 0
  | .sendBroadcastToAllUser zoneId _ => zoneId = 0
  | _ => False

def Command.entersZone : Command → Prop
  | .enterCharacter _ zoneId _ _ => zoneId ≠ 0
  | _ => True

namespace Server

/-! The run without the session's packets. Events of the ticking thread that find it busy do
nothing and go as well. -/

def eraseEvent (uid : Nat) (server : Server) : Event → List Event
  | .packet conn call env =>
      if (server.sender conn).uid = uid then [.packet conn none env] else [.packet conn call env]
  | .doUpdate clock => if server.firingCmds = [] then [.doUpdate clock] else []
  | .tick => if server.firingCmds = [] then [.tick] else []
  | .fire =>
      match server.firingCmds with
      | [] => []
      | queued :: _ => if queued.cause = uid then [] else [.fire]
  | event => [event]

def erase (uid : Nat) : Server → List Event → List Event
  | _, [] => []
  | server, event :: rest => eraseEvent uid server event ++ erase uid (server.step event) rest

/-! The conditions on the steps. A discreet session sends the packets that read its zone, and
is released, only outside every zone, and no character list shows its memory through an entry
that another session left behind. -/

def NeverAuths (uid : Nat) (server : Server) : Event → Prop
  | .packet conn (some (.auth _)) _ => (server.sender conn).uid ≠ uid
  | _ => True

def Discreet (uid : Nat) (server : Server) : Event → Prop
  | .packet conn (some call) _ =>
      (server.sender conn).uid = uid → call.readsZone = true →
        (server.sender conn).nub.pos.zoneId = 0
  | .doUpdate clock =>
      server.firingCmds = [] → ∀ slot ∈ server.releaseList clock,
        (server.sessions slot).uid = uid → (server.sessions slot).nub.pos.zoneId = 0
  | .fire =>
      ∀ queued rest exceptToken zoneId, server.firingCmds = queued :: rest →
        queued.command = .sendCharacterList exceptToken zoneId →
        ∀ (token : Int) slot, (server.characterMap zoneId)[token]? = some slot →
          (server.sessions slot).uid ≠ uid
  | _ => True

/-! The relation between the two runs. -/

structure Alike (uid : Nat) (session twin : UserSession) : Prop where
  elsewhere : twin = { session with nub := { session.nub with pos := twin.nub.pos } }
  other : session.uid ≠ uid → twin = session

structure Allowed (uid : Nat) (queued : Queued) : Prop where
  harmless : queued.cause = uid → queued.command.harmless
  entersZone : queued.command.entersZone

structure Shadow (uid : Nat) (server twin : Server) : Prop where
  mgr : twin.mgr = server.mgr
  uniqueUserSessionUid : twin.uniqueUserSessionUid = server.uniqueUserSessionUid
  uniqueSerialId : twin.uniqueSerialId = server.uniqueSerialId
  userMap : twin.userMap = server.userMap
  zoneMap : twin.zoneMap = server.zoneMap
  links : twin.links = server.links
  delivered : twin.delivered = server.delivered
  sessions : ∀ slot, Alike uid (server.sessions slot) (twin.sessions slot)
  cmds : twin.cmds = server.cmds.filter (·.cause ≠ uid)
  firingCmds : twin.firingCmds = server.firingCmds.filter (·.cause ≠ uid)
  allowed : ∀ queued ∈ server.firingCmds ++ server.cmds, Allowed uid queued
  noKey : server.userMap[(0 : Int)]? = none
  noZone : server.zoneMap[(0 : Int)]? = none
  token : ∀ slot, (server.sessions slot).uid = uid → (server.sessions slot).nub.token = 0
  home : ∀ slot, (twin.sessions slot).uid = uid → (twin.sessions slot).nub.pos.zoneId = 0
  ownOnly : ∀ delivery ∈ server.delivered, delivery.cause = uid → delivery.recipient = uid

namespace Alike

variable {uid : Nat} {session twin : UserSession}

theorem refl (uid : Nat) (session : UserSession) : Alike uid session session :=
  ⟨rfl, fun _ => rfl⟩

theorem uid_eq (alike : Alike uid session twin) : twin.uid = session.uid := by
  rw [alike.elsewhere]

theorem pConnector_eq (alike : Alike uid session twin) : twin.pConnector = session.pConnector := by
  rw [alike.elsewhere]

theorem token_eq (alike : Alike uid session twin) : twin.nub.token = session.nub.token := by
  rw [alike.elsewhere]

end Alike

section Primitives

variable {uid : Nat} {server twin : Server}

theorem allowed_add {cause : Nat} {command : Command} (allowed : Allowed uid ⟨cause, command⟩)
    (before : ∀ queued ∈ server.firingCmds ++ server.cmds, Allowed uid queued) :
    ∀ queued ∈ (server.add cause command).firingCmds ++ (server.add cause command).cmds,
      Allowed uid queued := by
  intro queued member
  simp only [add, ← List.append_assoc] at member
  rcases List.mem_append.mp member with old | new
  · exact before queued old
  · rw [List.mem_singleton.mp new]
    exact allowed

theorem Shadow.add_both (shadow : Shadow uid server twin) {cause : Nat} (other : cause ≠ uid)
    {command : Command} (enters : command.entersZone) :
    Shadow uid (server.add cause command) (twin.add cause command) := by
  refine { shadow with cmds := ?_, allowed := ?_ }
  · simp [add, shadow.cmds, other]
  · exact allowed_add ⟨fun own => absurd own other, enters⟩ shadow.allowed

theorem Shadow.add_own (shadow : Shadow uid server twin) {command : Command}
    (harmless : command.harmless) (enters : command.entersZone) :
    Shadow uid (server.add uid command) twin := by
  refine { shadow with cmds := ?_, allowed := ?_ }
  · simp [add, shadow.cmds]
  · exact allowed_add ⟨fun _ => harmless, enters⟩ shadow.allowed

theorem Shadow.addAll_both (shadow : Shadow uid server twin) {cause : Nat} (other : cause ≠ uid)
    (commands : List Command) (enters : ∀ command ∈ commands, command.entersZone) :
    Shadow uid (server.addAll cause commands) (twin.addAll cause commands) := by
  induction commands generalizing server twin with
  | nil => exact shadow
  | cons command rest ih =>
      exact ih (shadow.add_both other (enters command (by simp)))
        (fun later member => enters later (by simp [member]))

theorem Shadow.setPos_own (shadow : Shadow uid server twin) {slot : Nat}
    (own : (server.sessions slot).uid = uid) (pos : Position) :
    Shadow uid (server.setPos slot pos) twin := by
  refine { shadow with sessions := ?_, token := ?_ }
  · intro known
    by_cases same : known = slot
    · subst same
      have alike := shadow.sessions known
      simp only [setPos, setSession, Function.update_self]
      refine ⟨?_, fun different => absurd own different⟩
      exact alike.elsewhere
    · simpa [setPos, setSession, same] using shadow.sessions known
  · intro known knownOwn
    by_cases same : known = slot
    · subst same
      simpa [setPos, setSession] using shadow.token known own
    · simp only [setPos, setSession, Function.update_of_ne same] at knownOwn ⊢
      exact shadow.token known knownOwn

theorem Shadow.setPos_both (shadow : Shadow uid server twin) (slot : Nat) {pos : Position}
    (visible : (server.sessions slot).uid = uid → pos.zoneId = 0) :
    Shadow uid (server.setPos slot pos) (twin.setPos slot pos) := by
  have alike := shadow.sessions slot
  refine { shadow with sessions := ?_, token := ?_, home := ?_ }
  · intro known
    by_cases same : known = slot
    · subst same
      simp only [setPos, setSession, Function.update_self]
      refine ⟨?_, ?_⟩
      · conv_lhs => rw [alike.elsewhere]
      · intro different
        rw [alike.other different]
    · simpa [setPos, setSession, same] using shadow.sessions known
  · intro known knownOwn
    by_cases same : known = slot
    · subst same
      simp only [setPos, setSession, Function.update_self] at knownOwn ⊢
      exact shadow.token known knownOwn
    · simp only [setPos, setSession, Function.update_of_ne same] at knownOwn ⊢
      exact shadow.token known knownOwn
  · intro known knownOwn
    by_cases same : known = slot
    · subst same
      simp only [setPos, setSession, Function.update_self] at knownOwn ⊢
      exact visible (alike.uid_eq.symm.trans knownOwn)
    · simp only [setPos, setSession, Function.update_of_ne same] at knownOwn ⊢
      exact shadow.home known knownOwn

theorem Shadow.sendPacket_both (shadow : Shadow uid server twin) {cause slot : Nat}
    (visible : cause = uid → (server.sessions slot).uid = uid) (packet : S2CCall) :
    Shadow uid (server.sendPacket cause slot packet) (twin.sendPacket cause slot packet) := by
  refine { shadow with delivered := ?_, ownOnly := ?_ }
  · simp only [sendPacket, shadow.delivered, (shadow.sessions slot).uid_eq]
  · intro delivery member own
    simp only [sendPacket, List.mem_append, List.mem_singleton] at member
    rcases member with old | rfl
    · exact shadow.ownOnly delivery old own
    · exact visible own

theorem Shadow.setLink_both (shadow : Shadow uid server twin) (conn : Nat) (link : Link) :
    Shadow uid (server.setLink conn link) (twin.setLink conn link) := by
  refine { shadow with links := ?_ }
  simp only [setLink, shadow.links]

theorem Shadow.closeLink_both (shadow : Shadow uid server twin) (conn : Nat) :
    Shadow uid (server.closeLink conn) (twin.closeLink conn) := by
  unfold closeLink
  rw [shadow.links]
  exact shadow.setLink_both conn _

theorem Shadow.onRegistCharacter_both (shadow : Shadow uid server twin) {zoneId : Int}
    (elsewhere : zoneId ≠ 0) (slot : Nat) :
    Shadow uid (server.onRegistCharacter zoneId slot) (twin.onRegistCharacter zoneId slot) := by
  refine { shadow with zoneMap := ?_, noZone := ?_ }
  · simp only [onRegistCharacter, characterMap, shadow.zoneMap, (shadow.sessions slot).token_eq]
  · simp only [onRegistCharacter]
    rw [Std.TreeMap.getElem?_insert]
    simpa [elsewhere] using shadow.noZone

theorem Shadow.onUnregistCharacter_both (shadow : Shadow uid server twin) (zoneId token : Int) :
    Shadow uid (server.onUnregistCharacter zoneId token)
      (twin.onUnregistCharacter zoneId token) := by
  unfold onUnregistCharacter
  rw [shadow.zoneMap]
  cases found : server.zoneMap[zoneId]? with
  | none => exact shadow
  | some zone =>
      refine { shadow with zoneMap := rfl, noZone := ?_ }
      rw [Std.TreeMap.getElem?_insert]
      split
      next same =>
        have zero : zoneId = 0 := by simpa using same
        subst zero
        rw [shadow.noZone] at found
        cases found
      next => exact shadow.noZone

end Primitives

/-! Packets. -/

theorem Shadow.attach_both {uid : Nat} {server twin : Server} (shadow : Shadow uid server twin)
    (conn : Nat) :
    Shadow uid (server.attach conn).1 (twin.attach conn).1 ∧
      (twin.attach conn).2 = (server.attach conn).2 := by
  unfold attach
  rw [shadow.links]
  cases param : (server.links conn).param with
  | some slot => exact ⟨shadow, rfl⟩
  | none =>
      rw [shadow.mgr, shadow.uniqueUserSessionUid]
      refine ⟨?_, rfl⟩
      have created : Shadow uid
          { server.setSession server.mgr.getFreeObject.2
              { uid := server.uniqueUserSessionUid + 1, pConnector := some conn } with
            mgr := server.mgr.getFreeObject.1
            uniqueUserSessionUid := server.uniqueUserSessionUid + 1 }
          { twin.setSession server.mgr.getFreeObject.2
              { uid := server.uniqueUserSessionUid + 1, pConnector := some conn } with
            mgr := server.mgr.getFreeObject.1
            uniqueUserSessionUid := server.uniqueUserSessionUid + 1 } := by
        refine { shadow with
          mgr := rfl, uniqueUserSessionUid := rfl, sessions := ?_, token := ?_, home := ?_ }
        · intro known
          by_cases same : known = server.mgr.getFreeObject.2
          · subst same
            simp only [setSession, Function.update_self]
            exact Alike.refl _ _
          · simpa [setSession, same] using shadow.sessions known
        · intro known own
          by_cases same : known = server.mgr.getFreeObject.2
          · subst same
            simp [setSession]
          · simp only [setSession, Function.update_of_ne same] at own ⊢
            exact shadow.token known own
        · intro known own
          by_cases same : known = server.mgr.getFreeObject.2
          · subst same
            simp [setSession]
          · simp only [setSession, Function.update_of_ne same] at own ⊢
            exact shadow.home known own
      exact created.setLink_both conn _

theorem Shadow.auth_both {uid : Nat} {server twin : Server} (shadow : Shadow uid server twin)
    {slot : Nat} (other : (server.sessions slot).uid ≠ uid) (env : Env) (packet : CsPAuth) :
    Shadow uid (server.c2sAuth slot env packet) (twin.c2sAuth slot env packet) := by
  have sameSession := (shadow.sessions slot).other other
  unfold c2sAuth
  rw [sameSession, shadow.uniqueSerialId, shadow.userMap]
  apply Shadow.sendPacket_both
  · refine { shadow with
      uniqueSerialId := rfl, userMap := rfl, sessions := ?_, noKey := ?_, token := ?_, home := ?_ }
    · intro known
      by_cases same : known = slot
      · subst same
        simp only [setSession, Function.update_self]
        exact Alike.refl _ _
      · simpa [setSession, same] using shadow.sessions known
    · rw [Registry.lookup_insertIfNew]
      split
      next new =>
        obtain ⟨zero, -⟩ := new
        omega
      next => exact shadow.noKey
    · intro known own
      by_cases same : known = slot
      · subst same
        simp only [setSession, Function.update_self] at own
        exact absurd own other
      · simp only [setSession, Function.update_of_ne same] at own ⊢
        exact shadow.token known own
    · intro known own
      by_cases same : known = slot
      · subst same
        simp only [setSession, Function.update_self] at own
        exact absurd own other
      · simp only [setSession, Function.update_of_ne same] at own ⊢
        exact shadow.home known own
  · intro own
    exact absurd own other

theorem Shadow.handle_both {uid : Nat} {server twin : Server} (shadow : Shadow uid server twin)
    {slot : Nat} (other : (server.sessions slot).uid ≠ uid) (env : Env) (call : C2SCall) :
    Shadow uid (server.handle slot env call) (twin.handle slot env call) := by
  have sameSession := (shadow.sessions slot).other other
  have hidden (pos : Position) : (server.sessions slot).uid = uid → pos.zoneId = 0 :=
    fun own => absurd own other
  cases call with
  | auth packet => exact shadow.auth_both other env packet
  | enter packet =>
      simp only [handle, c2sEnter, sameSession]
      exact (shadow.setPos_both slot (hidden _)).add_both other (by simp [Command.entersZone])
  | leave packet =>
      simp only [handle, c2sLeave, sameSession]
      exact shadow.add_both other trivial
  | move packet =>
      simp only [handle, c2sMove, sameSession]
      exact (shadow.setPos_both slot (hidden _)).add_both other trivial
  | interaction packet =>
      simp only [handle, c2sInteraction, sameSession]
      exact shadow.add_both other trivial
  | heartbeat packet => exact shadow
  | echo packet =>
      simp only [handle, c2sEcho, sameSession]
      exact shadow.add_both other trivial

theorem Shadow.handle_own {uid : Nat} {server twin : Server} (shadow : Shadow uid server twin)
    {slot : Nat} (own : (server.sessions slot).uid = uid) (env : Env) (call : C2SCall)
    (notAuth : ∀ packet, call ≠ .auth packet)
    (still : call.readsZone = true → (server.sessions slot).nub.pos.zoneId = 0) :
    Shadow uid (server.handle slot env call) twin := by
  have token := shadow.token slot own
  cases call with
  | auth packet => exact absurd rfl (notAuth packet)
  | enter packet =>
      simp only [handle, c2sEnter, own]
      exact (shadow.setPos_own own _).add_own token (by simp [Command.entersZone])
  | leave packet =>
      simp only [handle, c2sLeave, own]
      exact shadow.add_own ⟨token, still rfl⟩ trivial
  | move packet =>
      simp only [handle, c2sMove, own]
      exact (shadow.setPos_own own _).add_own (still rfl) trivial
  | interaction packet =>
      simp only [handle, c2sInteraction, own]
      exact shadow.add_own (still rfl) trivial
  | heartbeat packet => exact shadow
  | echo packet =>
      simp only [handle, c2sEcho, own]
      exact shadow.add_own (still rfl) trivial

theorem Shadow.packet {uid : Nat} {server twin : Server} (shadow : Shadow uid server twin)
    (conn : Nat) (call : Option C2SCall) (env : Env)
    (never : NeverAuths uid server (.packet conn call env))
    (discreet : Discreet uid server (.packet conn call env)) :
    Shadow uid (server.packet conn call env)
      (twin.run (eraseEvent uid server (.packet conn call env))) := by
  obtain ⟨attached, slot⟩ := shadow.attach_both conn
  have silent : Shadow uid (server.attach conn).1 (twin.packet conn none env) := attached
  by_cases own : (server.sender conn).uid = uid
  · simp only [eraseEvent, own, ↓reduceIte]
    cases call with
    | none => exact silent
    | some call =>
        apply silent.handle_own own env call
        · rintro packet rfl
          exact never own
        · intro reads
          exact discreet own reads
  · simp only [eraseEvent, own, ↓reduceIte, run, List.foldl_cons, List.foldl_nil, step]
    cases call with
    | none => exact silent
    | some call =>
        have both := attached.handle_both own env call
        simp only [Server.packet, slot]
        exact both

/-! Commands. -/

theorem Shadow.allowed_rest {uid : Nat} {server twin : Server} (shadow : Shadow uid server twin)
    {queued : Queued} {rest : List Queued} (firing : server.firingCmds = queued :: rest) :
    ∀ later ∈ rest ++ server.cmds, Allowed uid later := by
  intro later member
  apply shadow.allowed later
  rw [firing, List.cons_append]
  exact List.mem_cons_of_mem _ member

theorem Shadow.pop_own {uid : Nat} {server twin : Server} (shadow : Shadow uid server twin)
    {queued : Queued} {rest : List Queued} (firing : server.firingCmds = queued :: rest)
    (own : queued.cause = uid) : Shadow uid { server with firingCmds := rest } twin := by
  refine { shadow with firingCmds := ?_, allowed := shadow.allowed_rest firing }
  rw [shadow.firingCmds, firing]
  simp [own]

theorem Shadow.pop_both {uid : Nat} {server twin : Server} (shadow : Shadow uid server twin)
    {queued : Queued} {rest : List Queued} (firing : server.firingCmds = queued :: rest)
    (other : queued.cause ≠ uid) :
    twin.firingCmds = queued :: rest.filter (·.cause ≠ uid) ∧
      Shadow uid { server with firingCmds := rest }
        { twin with firingCmds := rest.filter (·.cause ≠ uid) } := by
  refine ⟨?_, { shadow with firingCmds := rfl, allowed := shadow.allowed_rest firing }⟩
  rw [shadow.firingCmds, firing]
  simp [other]

theorem Shadow.operator_own {uid : Nat} {server twin : Server} (shadow : Shadow uid server twin)
    {command : Command} (harmless : command.harmless) :
    Shadow uid (server.operator uid command) twin := by
  cases command with
  | sendBroadcastToAllUser zoneId packet =>
      have zero : zoneId = 0 := harmless
      subst zero
      simp only [operator, shadow.noZone]
      exact shadow
  | sendPacketToUser token packet => exact harmless.elim
  | enterCharacter token zoneId posX posY =>
      have zero : token = 0 := harmless
      subst zero
      simp only [operator, getUserSession, shadow.noKey]
      exact shadow
  | leaveCharacter token zoneId =>
      obtain ⟨rfl, rfl⟩ : token = 0 ∧ zoneId = 0 := harmless
      simp only [operator, getUserSession, shadow.noKey, onUnregistCharacter, shadow.noZone]
      exact shadow.add_own rfl trivial
  | sendCharacterList exceptToken zoneId => exact harmless.elim

theorem Shadow.packetBroadcast_eq {uid : Nat} {server twin : Server}
    (shadow : Shadow uid server twin) (zone : CharacterMap) (packet : S2CCall) :
    twin.packetBroadcast zone packet = server.packetBroadcast zone packet := by
  unfold packetBroadcast
  apply List.map_congr_left
  intro entry _
  rw [(shadow.sessions entry.2).token_eq]

theorem Shadow.getCharacterDbList_eq {uid : Nat} {server twin : Server}
    (shadow : Shadow uid server twin) (zone : CharacterMap) (exceptToken : Int)
    (others : ∀ (token : Int) slot, zone[token]? = some slot →
      (server.sessions slot).uid ≠ uid) :
    twin.getCharacterDbList zone exceptToken = server.getCharacterDbList zone exceptToken := by
  unfold getCharacterDbList
  apply List.map_congr_left
  intro entry member
  have listed : entry ∈ zone.toList := (List.mem_filter.mp member).1
  have found := Std.TreeMap.mem_toList_iff_getElem?_eq_some.mp listed
  rw [(shadow.sessions entry.2).other (others entry.1 entry.2 found)]

theorem Shadow.operator_both {uid : Nat} {server twin : Server} (shadow : Shadow uid server twin)
    {cause : Nat} (other : cause ≠ uid) {command : Command}
    (enters : command.entersZone)
    (others : ∀ exceptToken zoneId, command = .sendCharacterList exceptToken zoneId →
      ∀ (token : Int) slot, (server.characterMap zoneId)[token]? = some slot →
        (server.sessions slot).uid ≠ uid) :
    Shadow uid (server.operator cause command) (twin.operator cause command) := by
  cases command with
  | sendBroadcastToAllUser zoneId packet =>
      simp only [operator, shadow.zoneMap, shadow.packetBroadcast_eq]
      split
      · exact shadow
      next zone _ =>
        apply shadow.addAll_both other
        intro later member
        obtain ⟨entry, -, rfl⟩ := List.mem_map.mp member
        trivial
  | sendPacketToUser token packet =>
      simp only [operator, getUserSession, shadow.userMap]
      split
      · exact shadow
      · exact shadow.sendPacket_both (fun own => absurd own other) packet
  | enterCharacter token zoneId posX posY =>
      simp only [operator, getUserSession, shadow.userMap]
      split
      · exact shadow
      next slot _ =>
        have registered := shadow.onRegistCharacter_both enters slot
        refine (registered.add_both other ?_).add_both other ?_
        · trivial
        · trivial
  | leaveCharacter token zoneId =>
      simp only [operator, getUserSession, shadow.userMap]
      refine Shadow.add_both ?_ other trivial
      refine Shadow.onUnregistCharacter_both ?_ zoneId token
      split
      · exact shadow
      next slot _ => exact shadow.setPos_both slot fun _ => rfl
  | sendCharacterList exceptToken zoneId =>
      simp only [operator, getUserSession, shadow.userMap, shadow.zoneMap]
      cases found : server.userMap[exceptToken]? with
      | none => exact shadow
      | some slot =>
          cases present : server.zoneMap[zoneId]? with
          | none => exact shadow
          | some zone =>
              have here : server.characterMap zoneId = zone := by
                unfold characterMap
                rw [Std.TreeMap.getD_eq_getD_getElem?, present]
                rfl
              have same := shadow.getCharacterDbList_eq zone exceptToken
                (here ▸ others exceptToken zoneId rfl)
              simp only [same]
              apply shadow.addAll_both other
              intro later member
              obtain ⟨packet, -, rfl⟩ := List.mem_map.mp member
              trivial

theorem Shadow.fire {uid : Nat} {server twin : Server} (shadow : Shadow uid server twin)
    (discreet : Discreet uid server .fire) :
    Shadow uid server.fire (twin.run (eraseEvent uid server .fire)) := by
  unfold Server.fire eraseEvent
  cases firing : server.firingCmds with
  | nil => exact shadow
  | cons queued rest =>
      have listed : queued ∈ server.firingCmds ++ server.cmds := by
        rw [firing]
        simp
      by_cases own : queued.cause = uid
      · have popped := shadow.pop_own firing own
        simp only [own, ↓reduceIte]
        exact popped.operator_own ((shadow.allowed queued listed).harmless own)
      · obtain ⟨twinFiring, popped⟩ := shadow.pop_both firing own
        simp only [own, ↓reduceIte, run, List.foldl_cons, List.foldl_nil, step, Server.fire,
          twinFiring]
        apply popped.operator_both own (shadow.allowed queued listed).entersZone
        intro exceptToken zoneId command
        exact discreet queued rest exceptToken zoneId firing command

/-! Ticks and updates. -/

theorem Shadow.tick {uid : Nat} {server twin : Server} (shadow : Shadow uid server twin) :
    Shadow uid server.tick (twin.run (eraseEvent uid server .tick)) := by
  unfold Server.tick eraseEvent
  by_cases idle : server.firingCmds = []
  · have twinIdle : twin.firingCmds = [] := by
      rw [shadow.firingCmds, idle]
      rfl
    simp only [idle, ↓reduceIte, run, List.foldl_cons, List.foldl_nil, step, Server.tick, twinIdle]
    refine { shadow with cmds := rfl, firingCmds := shadow.cmds, allowed := ?_ }
    intro queued member
    apply shadow.allowed queued
    simpa [idle] using member
  · simp only [idle, ↓reduceIte]
    exact shadow

theorem Shadow.updateSession_both {uid : Nat} {server twin : Server}
    (shadow : Shadow uid server twin) (clock : Clock) (slot : Nat) :
    Shadow uid (server.updateSession clock slot) (twin.updateSession clock slot) := by
  unfold updateSession
  rw [(shadow.sessions slot).pConnector_eq, shadow.links, (shadow.sessions slot).uid_eq]
  split
  · exact shadow
  · split
    · split
      · exact shadow.closeLink_both _
      · exact shadow.sendPacket_both (fun own => own) _
    · exact shadow

theorem Shadow.updateSessions_both {uid : Nat} {server twin : Server}
    (shadow : Shadow uid server twin) (clock : Clock) (slots : List Nat) :
    Shadow uid (server.updateSessions clock slots).1 (twin.updateSessions clock slots).1 ∧
      (twin.updateSessions clock slots).2 = (server.updateSessions clock slots).2 := by
  induction slots generalizing server twin with
  | nil => exact ⟨shadow, rfl⟩
  | cons slot rest ih =>
      obtain ⟨later, sameList⟩ := ih (shadow.updateSession_both clock slot)
      have sameClosed : twin.closed slot = server.closed slot := by
        unfold closed
        rw [(shadow.sessions slot).pConnector_eq, shadow.links]
      simp only [updateSessions, sameClosed, sameList]
      exact ⟨later, trivial⟩

theorem Shadow.release_both {uid : Nat} {server twin : Server} (shadow : Shadow uid server twin)
    {slot : Nat}
    (still : (server.sessions slot).uid = uid → (server.sessions slot).nub.pos.zoneId = 0) :
    Shadow uid (server.release slot) (twin.release slot) := by
  have alike := shadow.sessions slot
  have leaving : Shadow uid
      { server with cmds := server.cmds ++ releaseCommands (server.sessions slot) }
      { twin with cmds := twin.cmds ++ releaseCommands (twin.sessions slot) } := by
    by_cases own : (server.sessions slot).uid = uid
    · have twinHome := shadow.home slot (alike.uid_eq.trans own)
      simp only [releaseCommands, still own, twinHome, ne_eq, not_true_eq_false, ↓reduceIte,
        List.append_nil]
      exact shadow
    · rw [alike.other own]
      unfold releaseCommands
      split
      · exact shadow.add_both own trivial
      · simp only [List.append_nil]
        exact shadow
  rw [release_eq, release_eq]
  refine { leaving with links := ?_ }
  rw [alike.pConnector_eq, shadow.links]

theorem Shadow.free_both {uid : Nat} {server twin : Server} (shadow : Shadow uid server twin)
    (slot : Nat) : Shadow uid (server.free slot) (twin.free slot) := by
  unfold free
  rw [(shadow.sessions slot).token_eq, shadow.userMap, shadow.mgr]
  refine { shadow with mgr := rfl, userMap := rfl, noKey := ?_ }
  rw [Registry.lookup_erase]
  split
  · rfl
  · exact shadow.noKey

theorem Shadow.foldl_release_both {uid : Nat} {server twin : Server}
    (shadow : Shadow uid server twin) (slots : List Nat)
    (still : ∀ slot ∈ slots, (server.sessions slot).uid = uid →
      (server.sessions slot).nub.pos.zoneId = 0) :
    Shadow uid (slots.foldl release server) (slots.foldl release twin) := by
  induction slots generalizing server twin with
  | nil => exact shadow
  | cons slot rest ih =>
      apply ih (shadow.release_both (still slot (by simp)))
      intro later member own
      rw [release_eq] at own ⊢
      exact still later (by simp [member]) own

theorem Shadow.foldl_free_both {uid : Nat} {server twin : Server}
    (shadow : Shadow uid server twin) (slots : List Nat) :
    Shadow uid (slots.foldl free server) (slots.foldl free twin) := by
  induction slots generalizing server twin with
  | nil => exact shadow
  | cons slot rest ih => exact ih (shadow.free_both slot)

theorem Shadow.doUpdate {uid : Nat} {server twin : Server} (shadow : Shadow uid server twin)
    (clock : Clock)
    (still : ∀ slot ∈ server.releaseList clock, (server.sessions slot).uid = uid →
      (server.sessions slot).nub.pos.zoneId = 0) :
    Shadow uid (server.doUpdate clock) (twin.doUpdate clock) := by
  obtain ⟨updated, sameList⟩ := shadow.updateSessions_both clock server.mgr.usedList
  have sessions := (updateSessions_keeps server clock server.mgr.usedList).1
  have released := updated.foldl_release_both (server.releaseList clock)
    (by rw [sessions]; exact still)
  simp only [Server.doUpdate, shadow.mgr, sameList]
  exact released.foldl_free_both (server.releaseList clock)

theorem Shadow.step {uid : Nat} {server twin : Server} (shadow : Shadow uid server twin)
    (event : Event) (never : NeverAuths uid server event)
    (discreet : Discreet uid server event) :
    Shadow uid (server.step event) (twin.run (eraseEvent uid server event)) := by
  cases event with
  | connect conn =>
      simp only [Server.step, eraseEvent, run, List.foldl_cons, List.foldl_nil, shadow.links]
      split
      · exact shadow.setLink_both conn _
      · exact shadow
  | close conn => exact shadow.closeLink_both conn
  | packet conn call env => exact shadow.packet conn call env never discreet
  | doUpdate clock =>
      by_cases idle : server.firingCmds = []
      · have twinIdle : twin.firingCmds = [] := by
          rw [shadow.firingCmds, idle]
          rfl
        simp only [Server.step, eraseEvent, idle, twinIdle, ↓reduceIte, run, List.foldl_cons,
          List.foldl_nil]
        exact shadow.doUpdate clock (discreet idle)
      · simp only [Server.step, eraseEvent, idle, ↓reduceIte]
        exact shadow
  | tick => exact shadow.tick
  | fire => exact shadow.fire discreet

theorem Shadow.run {uid : Nat} {server twin : Server} (shadow : Shadow uid server twin)
    (events : List Event) (never : Run.Along Server.step (NeverAuths uid) server events)
    (discreet : Run.Along Server.step (Discreet uid) server events) :
    Shadow uid (server.run events) (twin.run (erase uid server events)) := by
  induction events generalizing server twin with
  | nil => exact shadow
  | cons event rest ih =>
      have here := shadow.step event never.1 discreet.1
      have later := ih here never.2 discreet.2
      rw [erase]
      unfold Server.run at later ⊢
      rw [List.foldl_append]
      exact later

/-! The stream of `rand()`. A `CS_P_ENTER` takes the next two values, whoever sends it. -/

def drawn (rand : Nat → Nat) (taken : Nat) : Event → Event
  | .packet conn call env =>
      .packet conn call { env with rand1 := rand taken, rand2 := rand (taken + 1) }
  | event => event

/-- The `CS_P_ENTER` of another session gets the position that it gets without `uid`. -/
def Aligned (rand : Nat → Nat) (uid : Nat) (state : Server × Nat) : Event → Prop
  | .packet conn (some (.enter _)) env =>
      (state.1.sender conn).uid ≠ uid →
        rand state.2 % 1000 = env.rand1 % 1000 ∧ rand (state.2 + 1) % 1000 = env.rand2 % 1000
  | _ => True

end Server

end ProjectPl
