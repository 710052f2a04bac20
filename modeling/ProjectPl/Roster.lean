import ProjectPl.World

/-!
The server as a world of tokens. As long as every session authenticates once, under a token
that nobody has, and nobody is released, slots and tokens correspond, and each step of the
server is one move of the world.
-/

namespace ProjectPl

namespace Server

/-- The users are the tokens of the token map, and the members are those of zone 1. -/
def world (server : Server) : World where
  user := fun token => ∃ slot, server.userMap[token]? = some slot
  member := fun token => ∃ slot, (server.characterMap 1)[token]? = some slot
  pos := fun token =>
    match server.userMap[token]? with
    | some slot => (server.sessions slot).nub.pos
    | none => {}
  queue := server.pending
  mail := fun token =>
    match server.userMap[token]? with
    | some slot => packetsTo (server.sessions slot).uid server
    | none => []

/-- A session authenticates once and gets a token that is not in use, and no session is released. -/
def Steady (server : Server) : Event → Prop
  | .packet conn (some (.auth _)) env =>
      (server.sender conn).nub.token = 0 ∧ server.userMap[server.nextToken env]? = none
  | .doUpdate clock => server.firingCmds = [] → server.releaseList clock = []
  | _ => True

/-! Commands name tokens of users, or none. -/

def Named (server : Server) : Command → Prop
  | .enterCharacter token zoneId _ _ => zoneId = 1 ∧ (token = 0 ∨ server.world.user token)
  | .leaveCharacter token _ => token = 0 ∨ server.world.user token
  | .sendCharacterList token zoneId => zoneId = 1 ∧ server.world.user token
  | .sendPacketToUser token _ => server.world.user token
  | .sendBroadcastToAllUser _ _ => True

/-- The invariant. A guest is a session without a token, and hears nothing but heartbeats. -/
structure Enrolled (server : Server) : Prop where
  owned : Owned server
  held : ∀ slot ∈ server.mgr.usedList, (server.sessions slot).nub.token ≠ 0 →
    server.userMap[(server.sessions slot).nub.token]? = some slot
  zones : ∀ zoneId : Int, zoneId ≠ 1 → server.zoneMap[zoneId]? = none
  entries : ∀ (token : Int) slot, (server.characterMap 1)[token]? = some slot →
    server.userMap[token]? = some slot
  named : ∀ command ∈ server.pending, server.Named command
  uids : ∀ first ∈ server.mgr.usedList, ∀ second ∈ server.mgr.usedList,
    (server.sessions first).uid = (server.sessions second).uid → first = second
  counted : ∀ slot ∈ server.mgr.usedList,
    (server.sessions slot).uid ≤ server.uniqueUserSessionUid
  sent : ∀ delivery ∈ server.delivered, delivery.recipient ≤ server.uniqueUserSessionUid
  guests : ∀ slot ∈ server.mgr.usedList, (server.sessions slot).nub.token = 0 →
    ∀ delivery ∈ server.delivered, delivery.recipient = (server.sessions slot).uid →
      delivery.packet = .heartbeat {}

theorem start_enrolled : Enrolled {} := by
  refine ⟨start_owned, ?_, ?_, ?_, ?_, ?_, ?_, ?_, ?_⟩
  · intro slot inUse
    cases inUse
  · intro zoneId _
    simp
  · intro token slot registered
    simp [characterMap] at registered
  · intro command waiting
    cases waiting
  · intro first inUse
    cases inUse
  · intro slot inUse
    cases inUse
  · intro delivery sent
    cases sent
  · intro slot inUse
    cases inUse

theorem Named.mono {server next : Server} {command : Command} (named : server.Named command)
    (users : ∀ token, server.world.user token → next.world.user token) : next.Named command := by
  cases command with
  | enterCharacter token zoneId posX posY => exact ⟨named.1, named.2.imp_right (users token)⟩
  | leaveCharacter token zoneId => exact Or.imp_right (users token) named
  | sendCharacterList token zoneId => exact ⟨named.1, users token named.2⟩
  | sendPacketToUser token packet => exact users token named
  | sendBroadcastToAllUser zoneId packet => trivial

/-! The same world from another server: users, sessions of users, zones, queue and what was
sent are all that counts. -/

theorem world_congr {server next : Server} (owned : Owned server)
    (userMap : next.userMap = server.userMap) (zoneMap : next.zoneMap = server.zoneMap)
    (pending : next.pending = server.pending) (delivered : next.delivered = server.delivered)
    (sessions : ∀ slot ∈ server.mgr.usedList, next.sessions slot = server.sessions slot) :
    next.world = server.world := by
  have known : ∀ (token : Int) slot, server.userMap[token]? = some slot →
      next.sessions slot = server.sessions slot :=
    fun token slot mapped => sessions slot (owned.mapped token slot mapped).1
  apply World.ext
  · simp only [world, userMap]
  · simp only [world, characterMap_congr zoneMap]
  · funext token
    simp only [world, userMap]
    cases mapped : server.userMap[token]? with
    | none => rfl
    | some slot => simp only [known token slot mapped]
  · exact pending
  · funext token
    simp only [world, userMap]
    cases mapped : server.userMap[token]? with
    | none => rfl
    | some slot => simp only [known token slot mapped, packetsTo, delivered]

/-! What the primitives of the handlers and operators do to the world. -/

theorem add_world (server : Server) (cause : Nat) (command : Command) :
    (server.add cause command).world =
      { server.world with queue := server.world.queue ++ [command] } := by
  apply World.ext
  · rfl
  · rfl
  · rfl
  · exact pending_add server cause command
  · rfl

theorem addAll_world (server : Server) (cause : Nat) (commands : List Command) :
    (server.addAll cause commands).world =
      { server.world with queue := server.world.queue ++ commands } := by
  rw [addAll_eq]
  apply World.ext
  · rfl
  · rfl
  · rfl
  · simp only [world, pending, List.map_append, List.map_map, List.append_assoc]
    congr 2
    exact List.map_id _
  · rfl

theorem setPos_world {server : Server} (owned : Owned server) {token : Int} {slot : Nat}
    (mapped : server.userMap[token]? = some slot) (pos : Position) :
    (server.setPos slot pos).world =
      { server.world with pos := Function.update server.world.pos token pos } := by
  apply World.ext
  · rfl
  · rfl
  · funext key
    dsimp only
    by_cases same : key = token
    · subst same
      rw [Function.update_self]
      simp [world, setPos, setSession, mapped]
    · rw [Function.update_of_ne same]
      simp only [world, setPos, setSession]
      cases found : server.userMap[key]? with
      | none => rfl
      | some known =>
          have other : known ≠ slot := by
            rintro rfl
            exact same ((owned.mapped key known found).2.1.symm.trans
              (owned.mapped token known mapped).2.1)
          simp [Function.update_of_ne other]
  · rfl
  · funext key
    simp only [world, setPos, setSession, packetsTo]
    cases found : server.userMap[key]? with
    | none => rfl
    | some known =>
        by_cases same : known = slot
        · subst same
          simp
        · simp [Function.update_of_ne same]

theorem setPos_world_guest {server : Server} (owned : Owned server) {slot : Nat}
    (guest : (server.sessions slot).nub.token = 0) (pos : Position) :
    (server.setPos slot pos).world = server.world := by
  have other : ∀ (token : Int) known, server.userMap[token]? = some known → known ≠ slot := by
    rintro token known mapped rfl
    exact owned.guest_unmapped guest token mapped
  apply World.ext
  · rfl
  · rfl
  · funext key
    simp only [world, setPos, setSession]
    cases found : server.userMap[key]? with
    | none => rfl
    | some known => simp [Function.update_of_ne (other key known found)]
  · rfl
  · funext key
    simp only [world, setPos, setSession, packetsTo]
    cases found : server.userMap[key]? with
    | none => rfl
    | some known => simp [Function.update_of_ne (other key known found)]

theorem packetsTo_sendPacket (server : Server) (cause slot recipient : Nat) (packet : S2CCall) :
    packetsTo recipient (server.sendPacket cause slot packet) =
      packetsTo recipient server ++
        if (server.sessions slot).uid = recipient then [packet] else [] := by
  simp only [packetsTo, sendPacket, List.filter_append, List.map_append]
  by_cases same : (server.sessions slot).uid = recipient
  · simp [same]
  · simp [same]

theorem sendPacket_world {server : Server} (enrolled : Enrolled server) {token : Int} {slot : Nat}
    (mapped : server.userMap[token]? = some slot) (cause : Nat) (packet : S2CCall) :
    (server.sendPacket cause slot packet).world =
      { server.world with
        mail := Function.update server.world.mail token (server.world.mail token ++ [packet]) } := by
  obtain ⟨inUse, holds, -⟩ := enrolled.owned.mapped token slot mapped
  apply World.ext
  · rfl
  · rfl
  · rfl
  · rfl
  · funext key
    have sessions : (server.sendPacket cause slot packet).sessions = server.sessions := rfl
    have userMap : (server.sendPacket cause slot packet).userMap = server.userMap := rfl
    dsimp only
    by_cases same : key = token
    · subst same
      rw [Function.update_self]
      simp only [world, userMap, sessions, mapped, packetsTo_sendPacket, if_pos]
    · rw [Function.update_of_ne same]
      simp only [world, userMap, sessions]
      cases found : server.userMap[key]? with
      | none => rfl
      | some known =>
          obtain ⟨knownInUse, knownHolds, -⟩ := enrolled.owned.mapped key known found
          have other : (server.sessions slot).uid ≠ (server.sessions known).uid := by
            intro uid
            rw [← knownHolds, ← holds, enrolled.uids slot inUse known knownInUse uid] at same
            exact same rfl
          simp only [packetsTo_sendPacket, if_neg other, List.append_nil]

theorem Enrolled.mapped_of_entry {server : Server} (enrolled : Enrolled server) {token : Int}
    {slot : Nat} (registered : (server.characterMap 1)[token]? = some slot) :
    (server.sessions slot).nub.token = token :=
  (enrolled.owned.mapped token slot (enrolled.entries token slot registered)).2.1

/-! Firing a command of an enrolled server. The commands of a tick are fired with the first one
already taken out of the queue. -/

theorem Enrolled.pop {server : Server} (enrolled : Enrolled server) {queued : Queued}
    {rest : List Queued} (firing : server.firingCmds = queued :: rest) :
    Enrolled { server with firingCmds := rest } := by
  refine ⟨⟨enrolled.owned.kept, enrolled.owned.linked, enrolled.owned.mapped⟩, enrolled.held,
    enrolled.zones, enrolled.entries, ?_, enrolled.uids, enrolled.counted, enrolled.sent,
    enrolled.guests⟩
  intro command waiting
  refine (enrolled.named command ?_).mono fun _ user => user
  simp only [pending, firing, List.cons_append, List.map_cons]
  exact List.mem_cons_of_mem _ waiting

theorem zone_entries {server : Server} {zoneId : Int} {zone : CharacterMap}
    (found : server.zoneMap[zoneId]? = some zone) : server.characterMap zoneId = zone := by
  rw [characterMap, Std.TreeMap.getD_eq_getD_getElem?, found, Option.getD_some]

theorem Enrolled.recipients {server : Server} (enrolled : Enrolled server) {zone : CharacterMap}
    (found : server.zoneMap[(1 : Int)]? = some zone) (packet : S2CCall) :
    server.packetBroadcast zone packet =
      zone.keys.map fun token => .sendPacketToUser token packet := by
  rw [packetBroadcast, ← Std.TreeMap.map_fst_toList_eq_keys, List.map_map]
  apply List.map_congr_left
  intro entry listed
  have registered : (server.characterMap 1)[entry.1]? = some entry.2 := by
    rw [zone_entries found]
    exact Std.TreeMap.mem_toList_iff_getElem?_eq_some.mp listed
  rw [Function.comp_apply, enrolled.mapped_of_entry registered]

theorem Enrolled.others {server : Server} (enrolled : Enrolled server) {zone : CharacterMap}
    (found : server.zoneMap[(1 : Int)]? = some zone) (token : Int) :
    server.getCharacterDbList zone token =
      (zone.keys.filter fun other => other ≠ token).map fun other =>
        { token := other, pos := server.world.pos other } := by
  rw [getCharacterDbList, ← Std.TreeMap.map_fst_toList_eq_keys, List.filter_map, List.map_map]
  apply List.map_congr_left
  intro entry listed
  have registered : (server.characterMap 1)[entry.1]? = some entry.2 := by
    rw [zone_entries found]
    exact Std.TreeMap.mem_toList_iff_getElem?_eq_some.mp (List.mem_filter.mp listed).1
  have mapped := enrolled.entries entry.1 entry.2 registered
  simp only [Function.comp_apply, Character.getDbData, enrolled.mapped_of_entry registered, world,
    mapped]

theorem keys_member {server : Server} {zone : CharacterMap}
    (found : server.zoneMap[(1 : Int)]? = some zone) (token : Int) :
    token ∈ zone.keys ↔ server.world.member token := by
  rw [Std.TreeMap.mem_keys, Std.TreeMap.mem_iff_isSome_getElem?, ← zone_entries found]
  exact Option.isSome_iff_exists

theorem no_member {server : Server} (absent : server.zoneMap[(1 : Int)]? = none) (token : Int) :
    ¬server.world.member token := by
  rintro ⟨slot, registered⟩
  rw [characterMap, Std.TreeMap.getD_eq_getD_getElem?, absent] at registered
  simp at registered

theorem broadcast_fires {server : Server} (enrolled : Enrolled server) (cause : Nat)
    (zoneId : Int) (packet : S2CCall) :
    World.Fires server.world (.sendBroadcastToAllUser zoneId packet)
      (server.operator cause (.sendBroadcastToAllUser zoneId packet)).world := by
  by_cases here : zoneId = 1
  swap
  · simp only [operator, enrolled.zones zoneId here]
    exact .nowhere zoneId packet here
  subst here
  simp only [operator]
  cases found : server.zoneMap[(1 : Int)]? with
  | none =>
      have fires : World.Fires server.world (.sendBroadcastToAllUser 1 packet) _ :=
        .broadcast packet [] List.nodup_nil (by simpa using no_member found)
      simpa using fires
  | some zone =>
      dsimp only
      rw [enrolled.recipients found, addAll_world]
      exact .broadcast packet zone.keys Std.TreeMap.nodup_keys (keys_member found)

theorem packet_fires {server : Server} (enrolled : Enrolled server) (cause : Nat) {token : Int}
    (user : server.world.user token) (packet : S2CCall) :
    World.Fires server.world (.sendPacketToUser token packet)
      (server.operator cause (.sendPacketToUser token packet)).world := by
  obtain ⟨slot, mapped⟩ := id user
  simp only [operator, getUserSession, mapped]
  rw [sendPacket_world enrolled mapped]
  exact .packet token packet user

theorem registered_world {server : Server} (enrolled : Enrolled server) {token : Int} {slot : Nat}
    (mapped : server.userMap[token]? = some slot) :
    (server.onRegistCharacter 1 slot).world =
      { server.world with member := fun other => other = token ∨ server.world.member other } := by
  have holds := (enrolled.owned.mapped token slot mapped).2.1
  apply World.ext
  · rfl
  · funext key
    simp only [world, onRegistCharacter_lookup, holds, true_and, eq_iff_iff]
    by_cases same : key = token
    · subst same
      cases (server.characterMap 1)[key]? <;> simp
    · simp [same]
  · rfl
  · rfl
  · rfl

theorem unregistered_world (server : Server) (zoneId token : Int) :
    (server.onUnregistCharacter zoneId token).world =
      { server.world with
        member := fun other => server.world.member other ∧ ¬(zoneId = 1 ∧ other = token) } := by
  have lookup := onUnregistCharacter_lookup server zoneId token 1
  obtain ⟨zones, next⟩ : ∃ zones,
      server.onUnregistCharacter zoneId token = { server with zoneMap := zones } := by
    unfold onUnregistCharacter
    split
    · exact ⟨server.zoneMap, rfl⟩
    · exact ⟨_, rfl⟩
  rw [next] at lookup ⊢
  apply World.ext
  · rfl
  · funext key
    simp only [world, lookup, eq_iff_iff]
    by_cases left : zoneId = 1 ∧ key = token
    · simp [left]
    · have kept : ¬(1 = zoneId ∧ key = token) := by
        rintro ⟨rfl, rfl⟩
        exact left ⟨rfl, rfl⟩
      simp [left, kept]
  · rfl
  · rfl
  · rfl

theorem enter_fires {server : Server} (enrolled : Enrolled server) (cause : Nat)
    {token zoneId : Int} (named : zoneId = 1 ∧ (token = 0 ∨ server.world.user token))
    (posX posY : Int) :
    World.Fires server.world (.enterCharacter token zoneId posX posY)
      (server.operator cause (.enterCharacter token zoneId posX posY)).world := by
  obtain ⟨rfl, who⟩ := named
  cases mapped : server.userMap[token]? with
  | none =>
      rcases who with rfl | ⟨slot, known⟩
      · simp only [operator, getUserSession, mapped]
        exact .guest 1 posX posY
      · rw [mapped] at known
        cases known
  | some slot =>
      simp only [operator, getUserSession, mapped]
      rw [add_world, add_world, registered_world enrolled mapped]
      simp only [List.append_assoc, List.singleton_append]
      exact .enter token posX posY ⟨slot, mapped⟩

theorem leave_fires {server : Server} (enrolled : Enrolled server) (cause : Nat)
    (token zoneId : Int) :
    World.Fires server.world (.leaveCharacter token zoneId)
      (server.operator cause (.leaveCharacter token zoneId)).world := by
  have fires : World.Fires server.world (.leaveCharacter token zoneId) _ := .leave token zoneId
  cases mapped : server.userMap[token]? with
  | none =>
      have pos : Function.update server.world.pos token {} = server.world.pos := by
        apply Function.update_eq_self_iff.mpr
        simp [world, mapped]
      simp only [operator, getUserSession, mapped]
      rw [pos] at fires
      rw [add_world, unregistered_world]
      exact fires
  | some slot =>
      simp only [operator, getUserSession, mapped]
      rw [add_world, unregistered_world, setPos_world enrolled.owned mapped]
      exact fires

theorem list_fires {server : Server} (enrolled : Enrolled server) (cause : Nat)
    {token zoneId : Int} (named : zoneId = 1 ∧ server.world.user token) :
    World.Fires server.world (.sendCharacterList token zoneId)
      (server.operator cause (.sendCharacterList token zoneId)).world := by
  obtain ⟨rfl, user⟩ := named
  obtain ⟨slot, mapped⟩ := id user
  simp only [operator, getUserSession, mapped]
  cases found : server.zoneMap[(1 : Int)]? with
  | none =>
      have fires : World.Fires server.world (.sendCharacterList token 1) _ :=
        .list token [] user (by simp [no_member found])
      simpa [characterListPackets] using fires
  | some zone =>
      dsimp only
      rw [addAll_world, enrolled.others found]
      apply World.Fires.list token _ user
      intro other
      simp [keys_member found]

theorem operator_fires {server : Server} (enrolled : Enrolled server) (cause : Nat)
    {command : Command} (named : server.Named command) :
    World.Fires server.world command (server.operator cause command).world := by
  cases command with
  | sendBroadcastToAllUser zoneId packet => exact broadcast_fires enrolled cause zoneId packet
  | sendPacketToUser token packet => exact packet_fires enrolled cause named packet
  | enterCharacter token zoneId posX posY => exact enter_fires enrolled cause named posX posY
  | leaveCharacter token zoneId => exact leave_fires enrolled cause token zoneId
  | sendCharacterList token zoneId => exact list_fires enrolled cause named

/-! A step that issues no slot and no token keeps the roster, if the commands it adds name users,
its entries are those of users, and what it sends to a guest is a heartbeat. -/

structure Retains (server next : Server) : Prop where
  owners : SameOwners server next
  uid : ∀ slot, (next.sessions slot).uid = (server.sessions slot).uid
  counter : next.uniqueUserSessionUid = server.uniqueUserSessionUid
  sent : ∀ delivery ∈ next.delivered, delivery ∈ server.delivered ∨
    ∃ slot ∈ server.mgr.usedList, delivery.recipient = (server.sessions slot).uid ∧
      ((server.sessions slot).nub.token = 0 → delivery.packet = .heartbeat {})

theorem Enrolled.keep {server next : Server} (enrolled : Enrolled server)
    (retains : Retains server next)
    (zones : ∀ zoneId : Int, zoneId ≠ 1 → next.zoneMap[zoneId]? = none)
    (entries : ∀ (token : Int) slot, (next.characterMap 1)[token]? = some slot →
      server.userMap[token]? = some slot)
    (named : ∀ command ∈ next.pending, command ∈ server.pending ∨ server.Named command) :
    Enrolled next := by
  obtain ⟨owners, uid, counter, sent⟩ := retains
  have users : ∀ token, server.world.user token → next.world.user token := by
    intro token user
    simpa only [world, owners.userMap] using user
  refine ⟨owners.owned enrolled.owned, ?_, zones, ?_, ?_, ?_, ?_, ?_, ?_⟩
  · intro slot inUse
    rw [owners.mgr] at inUse
    rw [owners.token, owners.userMap]
    exact enrolled.held slot inUse
  · rw [owners.userMap]
    exact entries
  · intro command waiting
    rcases named command waiting with old | new
    · exact (enrolled.named command old).mono users
    · exact new.mono users
  · intro first firstInUse second secondInUse
    rw [owners.mgr] at firstInUse secondInUse
    rw [uid, uid]
    exact enrolled.uids first firstInUse second secondInUse
  · intro slot inUse
    rw [owners.mgr] at inUse
    rw [uid, counter]
    exact enrolled.counted slot inUse
  · intro delivery member
    rw [counter]
    rcases sent delivery member with old | ⟨slot, inUse, recipient, -⟩
    · exact enrolled.sent delivery old
    · rw [recipient]
      exact enrolled.counted slot inUse
  · intro slot inUse guest delivery member recipient
    rw [owners.mgr] at inUse
    rw [owners.token] at guest
    rw [uid] at recipient
    rcases sent delivery member with old | ⟨known, knownInUse, knownRecipient, beats⟩
    · exact enrolled.guests slot inUse guest delivery old recipient
    · have same := enrolled.uids known knownInUse slot inUse (knownRecipient.symm.trans recipient)
      subst same
      exact beats guest

theorem setPos_uid (server : Server) (slot : Nat) (pos : Position) (known : Nat) :
    ((server.setPos slot pos).sessions known).uid = (server.sessions known).uid := by
  by_cases same : known = slot
  · subst same
    simp [setPos, setSession]
  · simp [setPos, setSession, same]

theorem operator_uid (server : Server) (cause : Nat) (command : Command) (slot : Nat) :
    ((server.operator cause command).sessions slot).uid = (server.sessions slot).uid := by
  cases command with
  | leaveCharacter token zoneId =>
      rw [leave_sessions]
      split
      · rfl
      · exact setPos_uid _ _ _ _
  | _ => rw [operator_sessions _ _ (by simp)]

theorem operator_sends (server : Server) (cause : Nat) (command : Command) :
    (server.operator cause command).uniqueUserSessionUid = server.uniqueUserSessionUid ∧
      ∃ more, (server.operator cause command).delivered = server.delivered ++ more ∧
        ∀ delivery ∈ more, ∃ (token : Int) (slot : Nat), server.userMap[token]? = some slot ∧
          delivery.recipient = (server.sessions slot).uid := by
  cases command with
  | sendBroadcastToAllUser zoneId packet =>
      simp only [operator]
      split
      · exact ⟨rfl, [], by simp⟩
      · rw [addAll_eq]
        exact ⟨rfl, [], by simp⟩
  | sendPacketToUser token packet =>
      simp only [operator]
      split
      · exact ⟨rfl, [], by simp⟩
      next slot mapped =>
        refine ⟨rfl, _, rfl, ?_⟩
        intro delivery member
        rw [List.mem_singleton.mp member]
        exact ⟨token, slot, mapped, rfl⟩
  | enterCharacter token zoneId posX posY =>
      simp only [operator]
      split
      · exact ⟨rfl, [], by simp⟩
      · exact ⟨rfl, [], by simp [add, onRegistCharacter]⟩
  | leaveCharacter token zoneId =>
      simp only [operator, onUnregistCharacter, add]
      split
      · split
        · exact ⟨rfl, [], by simp⟩
        · exact ⟨rfl, [], by simp [setPos, setSession]⟩
      · split
        · exact ⟨rfl, [], by simp⟩
        · exact ⟨rfl, [], by simp [setPos, setSession]⟩
  | sendCharacterList token zoneId =>
      simp only [operator]
      split
      · rw [addAll_eq]
        exact ⟨rfl, [], by simp⟩
      · exact ⟨rfl, [], by simp⟩

theorem operator_retains {server : Server} (owned : Owned server) (cause : Nat)
    (command : Command) : Retains server (server.operator cause command) := by
  obtain ⟨counter, more, sent, known⟩ := operator_sends server cause command
  refine ⟨operator_sameOwners server cause command, operator_uid server cause command, counter, ?_⟩
  intro delivery member
  rw [sent] at member
  refine (List.mem_append.mp member).imp_right ?_
  intro new
  obtain ⟨token, slot, mapped, recipient⟩ := known delivery new
  obtain ⟨inUse, holds, positive⟩ := owned.mapped token slot mapped
  exact ⟨slot, inUse, recipient, fun guest => by omega⟩

theorem Enrolled.user_of_member {server : Server} (enrolled : Enrolled server) {token : Int}
    (member : server.world.member token) : server.world.user token := by
  obtain ⟨slot, registered⟩ := member
  exact ⟨slot, enrolled.entries token slot registered⟩

theorem fires_named {server : Server} (enrolled : Enrolled server) {command : Command}
    {next : World} (fires : World.Fires server.world command next) :
    ∀ added ∈ next.queue, added ∈ server.pending ∨ server.Named added := by
  have old : ∀ (more : List Command), (∀ added ∈ more, server.Named added) →
      ∀ added ∈ server.pending ++ more, added ∈ server.pending ∨ server.Named added :=
    fun more named added member => (List.mem_append.mp member).imp_right (named added)
  cases fires with
  | nowhere zoneId packet elsewhere => exact fun added member => Or.inl member
  | broadcast packet recipients once all =>
      apply old
      intro added member
      obtain ⟨token, listed, rfl⟩ := List.mem_map.mp member
      exact enrolled.user_of_member ((all token).mp listed)
  | packet token packet user => exact fun added member => Or.inl member
  | enter token posX posY user =>
      apply old
      intro added member
      simp only [List.mem_cons, List.not_mem_nil, or_false] at member
      rcases member with rfl | rfl
      · trivial
      · exact ⟨rfl, user⟩
  | guest zoneId posX posY => exact fun added member => Or.inl member
  | leave token zoneId =>
      apply old
      intro added member
      rw [List.mem_singleton.mp member]
      trivial
  | list token others user all =>
      apply old
      intro added member
      obtain ⟨packet, -, rfl⟩ := List.mem_map.mp member
      exact user

theorem operator_zones {server : Server} {zoneId : Int} (absent : server.zoneMap[zoneId]? = none)
    (cause : Nat) {command : Command}
    (elsewhere : ∀ token posX posY, command ≠ .enterCharacter token zoneId posX posY) :
    (server.operator cause command).zoneMap[zoneId]? = none := by
  cases command with
  | enterCharacter token entered posX posY =>
      have other : entered ≠ zoneId := by
        rintro rfl
        exact elsewhere token posX posY rfl
      simp only [operator]
      split
      · exact absent
      · simp [add, onRegistCharacter, Std.TreeMap.getElem?_insert, other, absent]
  | leaveCharacter token left =>
      have kept : ∀ current : Server, current.zoneMap = server.zoneMap →
          (current.onUnregistCharacter left token).zoneMap[zoneId]? = none := by
        intro current same
        unfold onUnregistCharacter
        split
        · rw [same]
          exact absent
        next zone found =>
          have other : left ≠ zoneId := by
            rintro rfl
            rw [same, absent] at found
            cases found
          simp [Std.TreeMap.getElem?_insert, other, same, absent]
      simp only [operator]
      split
      · exact kept server rfl
      next slot _ => exact kept (server.setPos slot {}) rfl
  | _ =>
      rw [operator_zoneMap server cause rfl]
      exact absent

theorem operator_enrolled {server : Server} (enrolled : Enrolled server) (cause : Nat)
    {command : Command} (named : server.Named command) :
    Enrolled (server.operator cause command) := by
  apply enrolled.keep (operator_retains enrolled.owned cause command)
  · intro zoneId elsewhere
    apply operator_zones (enrolled.zones zoneId elsewhere)
    rintro token posX posY rfl
    exact elsewhere named.1
  · intro token slot registered
    rcases operator_entry registered with ⟨old, -⟩ | ⟨known, mapped, rfl⟩
    · exact enrolled.entries token slot old
    · rw [(enrolled.owned.mapped known slot mapped).2.1]
      exact mapped
  · exact fires_named enrolled (operator_fires enrolled cause named)

def fired (server : Server) : Option Command := server.firingCmds.head?.map Queued.command

theorem fire_fires {server : Server} (enrolled : Enrolled server) {queued : Queued}
    {rest : List Queued} (firing : server.firingCmds = queued :: rest) :
    Enrolled server.fire ∧
      server.world.queue = queued.command :: (rest ++ server.cmds).map Queued.command ∧
      World.Fires { server.world with queue := (rest ++ server.cmds).map Queued.command }
        queued.command server.fire.world := by
  have first : server.pending = queued.command :: (rest ++ server.cmds).map Queued.command := by
    simp [pending, firing]
  have named : Named { server with firingCmds := rest } queued.command := by
    refine (enrolled.named queued.command ?_).mono fun _ user => user
    rw [first]
    exact List.mem_cons_self
  have popped := enrolled.pop firing
  rw [fire_cons firing]
  exact ⟨operator_enrolled popped queued.cause named, first,
    operator_fires popped queued.cause named⟩

theorem fire_moves_world {rules : World.Rules} {server : Server} (enrolled : Enrolled server)
    (allowed : ∀ command, server.fired = some command → rules.mayFire command) :
    Enrolled server.fire ∧ World.Moves rules server.world server.fire.world := by
  cases firing : server.firingCmds with
  | nil =>
      have idle : server.fire = server := by
        unfold fire
        rw [firing]
      rw [idle]
      exact ⟨enrolled, .stays⟩
  | cons queued rest =>
      obtain ⟨later, first, fires⟩ := fire_fires enrolled firing
      have head : server.fired = some queued.command := by
        simp [fired, firing]
      exact ⟨later, .fire queued.command _ _ first (allowed queued.command head) fires⟩

/-! Handlers other than `C2S_Auth`. -/

theorem Enrolled.holder {server : Server} (enrolled : Enrolled server) {slot : Nat}
    (inUse : slot ∈ server.mgr.usedList) :
    (server.sessions slot).nub.token = 0 ∨
      server.userMap[(server.sessions slot).nub.token]? = some slot := by
  by_cases guest : (server.sessions slot).nub.token = 0
  · exact Or.inl guest
  · exact Or.inr (enrolled.held slot inUse guest)

theorem handlerCommand_named {server : Server} (enrolled : Enrolled server) {slot : Nat}
    (inUse : slot ∈ server.mgr.usedList) (env : Env) (call : C2SCall) :
    ∀ command ∈ (server.handlerCommand slot env call).toList, server.Named command := by
  have known := enrolled.holder inUse
  have user : (server.sessions slot).nub.token = 0 ∨
      server.world.user (server.sessions slot).nub.token := known.imp_right fun mapped => ⟨slot, mapped⟩
  intro command member
  cases call with
  | auth packet => cases member
  | heartbeat packet => cases member
  | enter packet =>
      rw [List.mem_singleton.mp member]
      exact ⟨rfl, user⟩
  | leave packet =>
      rw [List.mem_singleton.mp member]
      exact user
  | _ =>
      rw [List.mem_singleton.mp member]
      trivial

theorem handle_retains {server : Server} (slot : Nat) (env : Env) {call : C2SCall}
    (notAuth : ∀ packet, call ≠ .auth packet) : Retains server (server.handle slot env call) := by
  have owners := handle_sameOwners server slot env call notAuth
  cases call with
  | auth packet => exact absurd rfl (notAuth packet)
  | enter packet => exact ⟨owners, setPos_uid server slot _, rfl, fun _ => Or.inl⟩
  | move packet => exact ⟨owners, setPos_uid server slot _, rfl, fun _ => Or.inl⟩
  | _ => exact ⟨owners, fun _ => rfl, rfl, fun _ => Or.inl⟩

theorem handle_enrolled {server : Server} (enrolled : Enrolled server) {slot : Nat}
    (inUse : slot ∈ server.mgr.usedList) (env : Env) {call : C2SCall}
    (notAuth : ∀ packet, call ≠ .auth packet) : Enrolled (server.handle slot env call) := by
  have zones := (handle_queues server slot env call).zoneMap
  apply enrolled.keep (handle_retains slot env notAuth)
  · rw [zones]
    exact enrolled.zones
  · rw [characterMap_congr zones]
    exact enrolled.entries
  · intro command waiting
    rw [handle_pending] at waiting
    exact (List.mem_append.mp waiting).imp_right (handlerCommand_named enrolled inUse env call command)

theorem handle_moves_world {rules : World.Rules} {server : Server} (enrolled : Enrolled server)
    {slot : Nat} (inUse : slot ∈ server.mgr.usedList) (env : Env) {call : C2SCall}
    (notAuth : ∀ packet, call ≠ .auth packet)
    (mayEnter : ∀ packet, call = .enter packet → (server.sessions slot).nub.token ≠ 0 →
      rules.mayEnter (server.sessions slot).nub.token)
    (mayMove : ∀ packet, call = .move packet → (server.sessions slot).nub.token ≠ 0 →
      rules.mayMove (server.sessions slot).nub.token) :
    World.Moves rules server.world (server.handle slot env call).world := by
  have posts : ∀ command, World.Idle command →
      World.Moves rules server.world (server.add (server.sessions slot).uid command).world := by
    intro command idle
    rw [add_world]
    exact .post command idle
  rcases enrolled.holder inUse with guest | mapped
  · have reset := setPos_world_guest enrolled.owned guest
    cases call with
    | auth packet => exact absurd rfl (notAuth packet)
    | enter packet =>
        simp only [handle, c2sEnter]
        rw [add_world, reset]
        exact .post _ guest
    | leave packet => exact posts _ guest
    | move packet =>
        simp only [handle, c2sMove]
        rw [add_world, reset]
        exact .post _ guest
    | interaction packet => exact posts _ trivial
    | heartbeat packet => exact .stays
    | echo packet => exact posts _ trivial
  · have moved := setPos_world enrolled.owned mapped
    have user : server.world.user (server.sessions slot).nub.token := ⟨slot, mapped⟩
    have nonzero := (enrolled.owned.mapped _ slot mapped).2.2.ne'
    have pos : server.world.pos (server.sessions slot).nub.token = (server.sessions slot).nub.pos := by
      simp only [world, mapped]
    cases call with
    | auth packet => exact absurd rfl (notAuth packet)
    | enter packet =>
        simp only [handle, c2sEnter]
        rw [add_world, moved]
        exact .enter _ _ _ user (mayEnter packet rfl nonzero)
    | leave packet =>
        simp only [handle, c2sLeave]
        rw [add_world, ← pos]
        exact .leave _ user
    | move packet =>
        simp only [handle, c2sMove]
        rw [add_world, moved, ← pos]
        exact .move _ packet.x packet.y user (mayMove packet rfl nonzero)
    | interaction packet => exact posts _ trivial
    | heartbeat packet => exact .stays
    | echo packet => exact posts _ trivial

/-! Attaching a session: a guest more, under a number that nobody was sent anything for. -/

theorem attach_enrolled {server : Server} (enrolled : Enrolled server) (conn : Nat) :
    Enrolled (server.attach conn).1 ∧ (server.attach conn).1.world = server.world := by
  cases param : (server.links conn).param with
  | some slot =>
      rw [attach_known param]
      exact ⟨enrolled, rfl⟩
  | none =>
      have owned := (attach_owned enrolled.owned conn).1
      have attaches := attach_attaches param enrolled.owned.kept
      have counter : (server.attach conn).1.uniqueUserSessionUid =
          server.uniqueUserSessionUid + 1 := by
        unfold attach
        rw [param]
        rfl
      have delivered : (server.attach conn).1.delivered = server.delivered := by
        unfold attach
        rw [param]
        rfl
      have pending := attach_pending server conn
      generalize (server.attach conn).1 = next at owned attaches counter delivered pending ⊢
      generalize (server.attach conn).2 = slot at attaches
      have new := attaches.session_new
      have old : ∀ known ∈ server.mgr.usedList, next.sessions known = server.sessions known :=
        fun known member => attaches.session_old member
      have inUse := fun known => (attaches.inUse_iff known).mp
      obtain ⟨-, -, -, userMap, queues, -, -⟩ := attaches
      have world := world_congr enrolled.owned userMap queues.zoneMap pending delivered old
      have apart : ∀ known ∈ server.mgr.usedList,
          (next.sessions known).uid ≠ (next.sessions slot).uid := by
        intro known before
        have counted := enrolled.counted known before
        rw [old known before, new]
        dsimp only
        omega
      refine ⟨⟨owned, ?_, ?_, ?_, ?_, ?_, ?_, ?_, ?_⟩, world⟩
      · intro known member
        rcases inUse known member with before | rfl
        · rw [old known before, userMap]
          exact enrolled.held known before
        · rw [new]
          exact fun nonzero => absurd rfl nonzero
      · rw [queues.zoneMap]
        exact enrolled.zones
      · rw [characterMap_congr queues.zoneMap, userMap]
        exact enrolled.entries
      · intro command waiting
        rw [pending] at waiting
        exact (enrolled.named command waiting).mono fun token user => by rwa [world]
      · intro first firstInUse second secondInUse same
        rcases inUse first firstInUse with before | rfl
        · rcases inUse second secondInUse with before' | rfl
          · rw [old first before, old second before'] at same
            exact enrolled.uids first before second before' same
          · exact absurd same (apart first before)
        · rcases inUse second secondInUse with before' | rfl
          · exact absurd same.symm (apart second before')
          · rfl
      · intro known member
        rw [counter]
        rcases inUse known member with before | rfl
        · rw [old known before]
          exact Nat.le_succ_of_le (enrolled.counted known before)
        · rw [new]
      · intro delivery member
        rw [delivered] at member
        rw [counter]
        exact Nat.le_succ_of_le (enrolled.sent delivery member)
      · intro known member guest delivery sent recipient
        rw [delivered] at sent
        rcases inUse known member with before | rfl
        · rw [old known before] at guest recipient
          exact enrolled.guests known before guest delivery sent recipient
        · rw [new] at recipient
          have bound := enrolled.sent delivery sent
          dsimp only at recipient
          omega

/-! `C2S_Auth` makes a user of a guest. -/

theorem nextToken_pos (server : Server) (env : Env) : 0 < server.nextToken env := by
  unfold nextToken
  omega

theorem auth_lookup {server : Server} {env : Env}
    (fresh : server.userMap[server.nextToken env]? = none) (slot : Nat) (packet : CsPAuth)
    (key : Int) :
    (server.c2sAuth slot env packet).userMap[key]? =
      if key = server.nextToken env then some slot else server.userMap[key]? := by
  rw [auth_userMap]
  by_cases new : key = server.nextToken env
  · subst new
    simp [fresh]
  · have other : ¬server.nextToken env = key := Ne.symm new
    simp [new, other]

theorem auth_delivered (server : Server) (slot : Nat) (env : Env) (packet : CsPAuth) :
    (server.c2sAuth slot env packet).delivered = server.delivered ++
      [⟨(server.sessions slot).uid, (server.sessions slot).uid,
        .authResult ⟨packet.id, server.nextToken env⟩⟩] := by
  simp [c2sAuth, sendPacket, setSession, nextToken]

theorem auth_uid (server : Server) (slot : Nat) (env : Env) (packet : CsPAuth) (known : Nat) :
    ((server.c2sAuth slot env packet).sessions known).uid = (server.sessions known).uid := by
  by_cases same : known = slot
  · subst same
    simp [c2sAuth, sendPacket, setSession]
  · simp [c2sAuth, sendPacket, setSession, same]

theorem auth_pos (server : Server) (slot : Nat) (env : Env) (packet : CsPAuth) (known : Nat) :
    ((server.c2sAuth slot env packet).sessions known).nub.pos = (server.sessions known).nub.pos := by
  by_cases same : known = slot
  · subst same
    simp [c2sAuth, sendPacket, setSession]
  · simp [c2sAuth, sendPacket, setSession, same]

theorem auth_packetsTo (server : Server) (slot : Nat) (env : Env) (packet : CsPAuth)
    (recipient : Nat) :
    packetsTo recipient (server.c2sAuth slot env packet) = packetsTo recipient server ++
      if (server.sessions slot).uid = recipient then
        [.authResult ⟨packet.id, server.nextToken env⟩] else [] := by
  simp only [packetsTo, auth_delivered, List.filter_append, List.map_append]
  by_cases same : (server.sessions slot).uid = recipient
  · simp [same]
  · simp [same]

theorem auth_moves_world {rules : World.Rules} {server : Server} (enrolled : Enrolled server)
    {slot : Nat} (inUse : slot ∈ server.mgr.usedList) {env : Env}
    (guest : (server.sessions slot).nub.token = 0)
    (fresh : server.userMap[server.nextToken env]? = none) (packet : CsPAuth) :
    World.Moves rules server.world (server.c2sAuth slot env packet).world := by
  have lookup := auth_lookup fresh slot packet
  have unmapped : ∀ (token : Int) known, server.userMap[token]? = some known → known ≠ slot := by
    rintro token known mapped rfl
    exact enrolled.owned.guest_unmapped guest token mapped
  have next : (server.c2sAuth slot env packet).world = { server.world with
      user := fun other => other = server.nextToken env ∨ server.world.user other
      pos := Function.update server.world.pos (server.nextToken env) (server.sessions slot).nub.pos
      mail := Function.update server.world.mail (server.nextToken env)
        (packetsTo (server.sessions slot).uid server ++
          [.authResult ⟨packet.id, server.nextToken env⟩]) } := by
    apply World.ext
    · funext key
      simp only [world, lookup]
      by_cases new : key = server.nextToken env
      · simp [new]
      · simp [new]
    · rfl
    · funext key
      simp only [world, lookup]
      by_cases new : key = server.nextToken env
      · subst new
        simp [auth_pos]
      · rw [if_neg new, Function.update_of_ne new]
        simp only [auth_pos]
    · rfl
    · funext key
      simp only [world, lookup]
      by_cases new : key = server.nextToken env
      · subst new
        simp [auth_uid, auth_packetsTo]
      · rw [if_neg new, Function.update_of_ne new]
        cases found : server.userMap[key]? with
        | none => rfl
        | some known =>
            have knownInUse := (enrolled.owned.mapped key known found).1
            have other : (server.sessions slot).uid ≠ (server.sessions known).uid := fun uid =>
              unmapped key known found (enrolled.uids slot inUse known knownInUse uid).symm
            simp only [auth_uid, auth_packetsTo, if_neg other, List.append_nil]
  rw [next]
  apply World.Moves.auth
  · rintro ⟨known, mapped⟩
    rw [fresh] at mapped
    cases mapped
  · exact (nextToken_pos server env).ne'
  · intro sent member
    obtain ⟨delivery, listed, rfl⟩ := List.mem_map.mp member
    obtain ⟨listed, recipient⟩ := List.mem_filter.mp listed
    exact enrolled.guests slot inUse guest delivery listed (by simpa using recipient)

theorem auth_enrolled {server : Server} (enrolled : Enrolled server) {slot : Nat}
    (inUse : slot ∈ server.mgr.usedList) {env : Env}
    (guest : (server.sessions slot).nub.token = 0)
    (fresh : server.userMap[server.nextToken env]? = none) (packet : CsPAuth) :
    Enrolled (server.c2sAuth slot env packet) := by
  have lookup := auth_lookup fresh slot packet
  have tokens := auth_token server slot env packet
  have uids := auth_uid server slot env packet
  have unmapped := enrolled.owned.guest_unmapped guest
  have grows : ∀ (token : Int) known, server.userMap[token]? = some known →
      (server.c2sAuth slot env packet).userMap[token]? = some known := by
    intro token known mapped
    rw [lookup, if_neg, mapped]
    rintro rfl
    rw [fresh] at mapped
    cases mapped
  have positive := nextToken_pos server env
  refine ⟨auth_owned enrolled.owned inUse unmapped env packet, ?_, enrolled.zones, ?_, ?_, ?_, ?_, ?_,
    ?_⟩
  · intro known member
    rw [tokens]
    split
    next same =>
      subst same
      rw [lookup, if_pos rfl]
      exact fun _ => rfl
    next => exact fun nonzero => grows _ known (enrolled.held known member nonzero)
  · exact fun token known registered => grows token known (enrolled.entries token known registered)
  · intro command waiting
    refine (enrolled.named command waiting).mono ?_
    rintro token ⟨known, mapped⟩
    exact ⟨known, grows token known mapped⟩
  · intro first firstInUse second secondInUse
    rw [uids, uids]
    exact enrolled.uids first firstInUse second secondInUse
  · intro known member
    rw [uids]
    exact enrolled.counted known member
  · intro delivery member
    rw [auth_delivered] at member
    rcases List.mem_append.mp member with old | new
    · exact enrolled.sent delivery old
    · rw [List.mem_singleton.mp new]
      exact enrolled.counted slot inUse
  · intro known member guest' delivery sent recipient
    rw [tokens] at guest'
    rw [uids] at recipient
    split at guest'
    next => omega
    next other =>
      rw [auth_delivered] at sent
      rcases List.mem_append.mp sent with old | new
      · exact enrolled.guests known member guest' delivery old recipient
      · rw [List.mem_singleton.mp new] at recipient
        exact absurd (enrolled.uids slot inUse known member recipient).symm other

/-! `DoUpdate` that releases nobody: heartbeats, and links that close. -/

structure Beats (server : Server) (slots : List Nat) (next : Server) : Prop where
  counter : next.uniqueUserSessionUid = server.uniqueUserSessionUid
  sent : ∃ more, next.delivered = server.delivered ++ more ∧
    ∀ delivery ∈ more, delivery.packet = .heartbeat {} ∧
      ∃ slot ∈ slots, delivery.recipient = (server.sessions slot).uid

theorem updateSession_beats (server : Server) (clock : Clock) (slot : Nat) :
    Beats server [slot] (server.updateSession clock slot) := by
  unfold updateSession
  split
  · exact ⟨rfl, [], by simp⟩
  · split
    · split
      · exact ⟨rfl, [], by simp [closeLink, setLink]⟩
      · exact ⟨rfl, _, rfl, by simp⟩
    · exact ⟨rfl, [], by simp⟩

theorem updateSessions_beats (server : Server) (clock : Clock) (slots : List Nat) :
    Beats server slots (server.updateSessions clock slots).1 := by
  induction slots generalizing server with
  | nil => exact ⟨rfl, [], by simp [updateSessions]⟩
  | cons slot rest ih =>
      obtain ⟨counter, more, sent, beats⟩ := updateSession_beats server clock slot
      obtain ⟨laterCounter, later, laterSent, laterBeats⟩ := ih (server.updateSession clock slot)
      refine ⟨laterCounter.trans counter, more ++ later, ?_, ?_⟩
      · rw [← List.append_assoc, ← sent]
        exact laterSent
      · rw [(updateSession_keeps server clock slot).1] at laterBeats
        intro delivery member
        rcases List.mem_append.mp member with here | there
        · obtain ⟨packet, known, same, recipient⟩ := beats delivery here
          exact ⟨packet, known, List.mem_cons.mpr (Or.inl (List.mem_singleton.mp same)), recipient⟩
        · obtain ⟨packet, known, listed, recipient⟩ := laterBeats delivery there
          exact ⟨packet, known, List.mem_cons_of_mem _ listed, recipient⟩

theorem doUpdate_idle {server : Server} {clock : Clock} (idle : server.releaseList clock = []) :
    server.doUpdate clock = (server.updateSessions clock server.mgr.usedList).1 := by
  have none : (server.updateSessions clock server.mgr.usedList).2 = [] := idle
  simp only [doUpdate, none, List.foldl_nil]

theorem beats_world {server next : Server} (owners : SameOwners server next)
    (sessions : next.sessions = server.sessions) (zoneMap : next.zoneMap = server.zoneMap)
    (pending : next.pending = server.pending) {slots : List Nat} (beats : Beats server slots next) :
    ∃ count : Int → Nat, next.world = { server.world with
      mail := fun token =>
        server.world.mail token ++ List.replicate (count token) (.heartbeat {}) } := by
  obtain ⟨-, more, sent, beating⟩ := beats
  have packets : ∀ recipient, packetsTo recipient next = packetsTo recipient server ++
      List.replicate (more.filter (·.recipient = recipient)).length (.heartbeat {}) := by
    intro recipient
    simp only [packetsTo, sent, List.filter_append, List.map_append]
    congr 1
    refine List.eq_replicate_iff.mpr ⟨by simp, ?_⟩
    intro packet member
    obtain ⟨delivery, listed, rfl⟩ := List.mem_map.mp member
    exact (beating delivery (List.mem_filter.mp listed).1).1
  refine ⟨fun token => match server.userMap[token]? with
    | some slot => (more.filter (·.recipient = (server.sessions slot).uid)).length
    | none => 0, ?_⟩
  apply World.ext
  · simp only [world, owners.userMap]
  · simp only [world, characterMap_congr zoneMap]
  · simp only [world, owners.userMap, sessions]
  · exact pending
  · funext token
    simp only [world, owners.userMap, sessions]
    cases server.userMap[token]? with
    | none => rfl
    | some slot => exact packets _

theorem doUpdate_moves_world {rules : World.Rules} {server : Server} (enrolled : Enrolled server)
    {clock : Clock} (idle : server.releaseList clock = []) :
    Enrolled (server.doUpdate clock) ∧
      World.Moves rules server.world (server.doUpdate clock).world := by
  rw [doUpdate_idle idle]
  have owners := updateSessions_sameOwners server clock server.mgr.usedList
  obtain ⟨sessions, cmds, zoneMap, firingCmds⟩ :=
    updateSessions_keeps server clock server.mgr.usedList
  have beats := updateSessions_beats server clock server.mgr.usedList
  generalize (server.updateSessions clock server.mgr.usedList).1 = next at *
  have pending : next.pending = server.pending := by
    rw [Server.pending, cmds, firingCmds, Server.pending]
  obtain ⟨count, world⟩ := beats_world owners sessions zoneMap pending beats
  rw [world]
  refine ⟨?_, .beat count⟩
  obtain ⟨counter, more, sent, beating⟩ := beats
  apply enrolled.keep
  · refine ⟨owners, fun slot => by rw [sessions], counter, ?_⟩
    intro delivery member
    rw [sent] at member
    refine (List.mem_append.mp member).imp_right ?_
    intro new
    obtain ⟨packet, slot, inUse, recipient⟩ := beating delivery new
    exact ⟨slot, inUse, recipient, fun _ => packet⟩
  · rw [zoneMap]
    exact enrolled.zones
  · rw [characterMap_congr zoneMap]
    exact enrolled.entries
  · intro command waiting
    rw [pending] at waiting
    exact Or.inl waiting

/-! Events that the world does not see. -/

theorem unseen_moves_world {rules : World.Rules} {server next : Server} (enrolled : Enrolled server)
    (owners : SameOwners server next) (sessions : next.sessions = server.sessions)
    (counter : next.uniqueUserSessionUid = server.uniqueUserSessionUid)
    (zoneMap : next.zoneMap = server.zoneMap) (pending : next.pending = server.pending)
    (delivered : next.delivered = server.delivered) :
    Enrolled next ∧ World.Moves rules server.world next.world := by
  have world := world_congr enrolled.owned owners.userMap zoneMap pending delivered
    fun slot _ => congrFun sessions slot
  rw [world]
  refine ⟨?_, .stays⟩
  apply enrolled.keep
  · refine ⟨owners, fun slot => by rw [sessions], counter, ?_⟩
    rw [delivered]
    exact fun _ => Or.inl
  · rw [zoneMap]
    exact enrolled.zones
  · rw [characterMap_congr zoneMap]
    exact enrolled.entries
  · rw [pending]
    exact fun _ => Or.inl

/-- What the rules of the world say about the step. -/
def Permitted (rules : World.Rules) (server : Server) : Event → Prop
  | .packet conn (some (.enter _)) _ =>
      (server.sender conn).nub.token ≠ 0 → rules.mayEnter (server.sender conn).nub.token
  | .packet conn (some (.move _)) _ =>
      (server.sender conn).nub.token ≠ 0 → rules.mayMove (server.sender conn).nub.token
  | .fire => ∀ command, server.fired = some command → rules.mayFire command
  | _ => True

theorem packet_moves_world {rules : World.Rules} {server : Server} (enrolled : Enrolled server)
    {conn : Nat} {call : Option C2SCall} {env : Env}
    (steady : Steady server (.packet conn call env))
    (permitted : Permitted rules server (.packet conn call env)) :
    Enrolled (server.packet conn call env) ∧
      World.Moves rules server.world (server.packet conn call env).world := by
  obtain ⟨attached, world⟩ := attach_enrolled enrolled conn
  have inUse := (attach_owned enrolled.owned conn).2
  rw [← world]
  simp only [packet]
  cases call with
  | none => exact ⟨attached, .stays⟩
  | some call =>
      cases call with
      | auth packet =>
          obtain ⟨guest, fresh⟩ := steady
          rw [← attach_nextToken server conn, ← attach_userMap server conn] at fresh
          exact ⟨auth_enrolled attached inUse guest fresh packet,
            auth_moves_world attached inUse guest fresh packet⟩
      | enter packet =>
          exact ⟨handle_enrolled attached inUse env (by simp),
            handle_moves_world attached inUse env (by simp) (fun _ _ => permitted) (by simp)⟩
      | move packet =>
          exact ⟨handle_enrolled attached inUse env (by simp),
            handle_moves_world attached inUse env (by simp) (by simp) fun _ _ => permitted⟩
      | _ =>
          exact ⟨handle_enrolled attached inUse env (by simp),
            handle_moves_world attached inUse env (by simp) (by simp) (by simp)⟩

theorem step_moves_world {rules : World.Rules} {server : Server} (enrolled : Enrolled server)
    {event : Event} (steady : Steady server event) (permitted : Permitted rules server event) :
    Enrolled (server.step event) ∧ World.Moves rules server.world (server.step event).world := by
  cases event with
  | connect conn =>
      have owners : SameOwners server (server.step (.connect conn)) := connect_sameOwners conn
      simp only [step] at owners ⊢
      split at owners
      · exact unseen_moves_world enrolled owners rfl rfl rfl rfl rfl
      · exact ⟨enrolled, .stays⟩
  | close conn =>
      exact unseen_moves_world enrolled (closeLink_sameOwners server conn) rfl rfl rfl rfl rfl
  | packet conn call env => exact packet_moves_world enrolled steady permitted
  | doUpdate clock =>
      simp only [step]
      split
      next idle => exact doUpdate_moves_world enrolled (steady idle)
      next => exact ⟨enrolled, .stays⟩
  | tick =>
      have owners := tick_sameOwners server
      simp only [step, tick] at owners ⊢
      split at owners
      next idle =>
        rw [if_pos idle]
        apply unseen_moves_world enrolled owners rfl rfl rfl _ rfl
        simp [pending, idle]
      next busy =>
        rw [if_neg busy]
        exact ⟨enrolled, .stays⟩
  | fire => exact fire_moves_world enrolled permitted

end Server

end ProjectPl
