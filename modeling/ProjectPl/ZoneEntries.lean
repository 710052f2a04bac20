import ProjectPl.TokenMap

/-!
The entries of the zones. A zone points into session memory, a release frees that memory at
once, and the entry goes only when the queued `LeaveCharacter` is fired. So an entry is
either valid or on its way out, and the zone is safe to iterate when no command that does
so comes before that `LeaveCharacter`.
-/

namespace ProjectPl

def Command.iterates (zoneId : Int) : Command → Bool
  | .sendBroadcastToAllUser other _ => other = zoneId
  | .sendCharacterList _ other => other = zoneId
  | _ => false

def Command.registers : Command → Bool
  | .enterCharacter .. => true
  | .leaveCharacter .. => true
  | _ => false

namespace Server

def RemovedFirst (token zoneId : Int) : List Queued → Prop
  | [] => False
  | queued :: rest =>
      queued.command = .leaveCharacter token zoneId ∨
        (queued.command.iterates zoneId = false ∧ RemovedFirst token zoneId rest)

theorem RemovedFirst.append {token zoneId : Int} {queue : List Queued}
    (removed : RemovedFirst token zoneId queue) (more : List Queued) :
    RemovedFirst token zoneId (queue ++ more) := by
  induction queue with
  | nil => exact removed.elim
  | cons queued rest ih =>
      rcases removed with here | ⟨passes, later⟩
      · exact Or.inl here
      · exact Or.inr ⟨passes, ih later⟩

structure Valid (server : Server) (token : Int) (slot : Nat) : Prop where
  inUse : slot ∈ server.mgr.usedList
  holds : (server.sessions slot).nub.token = token
  authed : token ≠ 0

def EntriesKept (server : Server) : Prop :=
  ∀ (zoneId token : Int) slot, (server.characterMap zoneId)[token]? = some slot →
    Valid server token slot ∨ RemovedFirst token zoneId (server.firingCmds ++ server.cmds)

theorem characterMap_congr {server next : Server} (same : next.zoneMap = server.zoneMap)
    (zoneId : Int) : next.characterMap zoneId = server.characterMap zoneId := by
  unfold characterMap
  rw [same]

theorem SameOwners.valid {server next : Server} (same : SameOwners server next) {token : Int}
    {slot : Nat} (valid : Valid server token slot) : Valid next token slot := by
  refine ⟨?_, ?_, valid.authed⟩
  · rw [same.mgr]
    exact valid.inUse
  · rw [same.token]
    exact valid.holds

/-! Steps that only queue. -/

theorem Queues.entriesKept {server next : Server} (queues : Queues server next)
    (entries : EntriesKept server)
    (validLater : ∀ (zoneId token : Int) slot,
      (server.characterMap zoneId)[token]? = some slot → Valid server token slot →
        Valid next token slot) : EntriesKept next := by
  intro zoneId token slot registered
  rw [characterMap_congr queues.zoneMap] at registered
  rcases entries zoneId token slot registered with valid | removed
  · exact Or.inl (validLater zoneId token slot registered valid)
  · obtain ⟨more, added⟩ := queues.cmds
    rw [queues.firingCmds, ← added, ← List.append_assoc]
    exact Or.inr (removed.append more)

theorem attach_entriesKept {server : Server} (owned : Owned server) (entries : EntriesKept server)
    (conn : Nat) : EntriesKept (server.attach conn).1 := by
  cases param : (server.links conn).param with
  | some slot =>
      rw [attach_known param]
      exact entries
  | none =>
      have attaches := attach_attaches param owned.kept
      refine attaches.queues.entriesKept entries ?_
      intro zoneId token slot _ valid
      refine ⟨(attaches.inUse_iff slot).mpr (Or.inl valid.inUse), ?_, valid.authed⟩
      rw [attaches.session_old valid.inUse]
      exact valid.holds

theorem auth_entriesKept {server : Server} (entries : EntriesKept server) {slot : Nat}
    (first : (server.sessions slot).nub.token = 0) (env : Env) (packet : CsPAuth) :
    EntriesKept (server.c2sAuth slot env packet) := by
  refine Queues.entriesKept (handle_queues server slot env (.auth packet)) entries ?_
  intro zoneId token known _ valid
  have other : known ≠ slot := by
    rintro rfl
    exact valid.authed (valid.holds.symm.trans first)
  refine ⟨valid.inUse, ?_, valid.authed⟩
  simpa [handle, c2sAuth, sendPacket, setSession, other] using valid.holds

theorem handle_entriesKept {server : Server} (entries : EntriesKept server) (slot : Nat) (env : Env)
    (call : C2SCall) (notAuth : ∀ packet, call ≠ .auth packet) :
    EntriesKept (server.handle slot env call) :=
  (handle_queues server slot env call).entriesKept entries
    fun _ _ _ _ valid => (handle_sameOwners server slot env call notAuth).valid valid

/-! Firing a command. -/

theorem onRegistCharacter_lookup (server : Server) (zoneId : Int) (slot : Nat)
    (other token : Int) :
    ((server.onRegistCharacter zoneId slot).characterMap other)[token]? =
      if other = zoneId ∧ token = (server.sessions slot).nub.token ∧
          (server.characterMap zoneId)[token]? = none then some slot
      else (server.characterMap other)[token]? := by
  simp only [onRegistCharacter, characterMap, Std.TreeMap.getD_insert]
  by_cases zone : other = zoneId
  · subst zone
    rw [if_pos Std.ReflCmp.compare_self, Registry.lookup_insertIfNew]
    simp [eq_comm]
  · have different : ¬zoneId = other := Ne.symm zone
    simp [zone, different]

theorem onUnregistCharacter_lookup (server : Server) (zoneId left other token : Int) :
    ((server.onUnregistCharacter zoneId left).characterMap other)[token]? =
      if other = zoneId ∧ token = left then none else (server.characterMap other)[token]? := by
  unfold onUnregistCharacter
  split
  next absent =>
    by_cases here : other = zoneId ∧ token = left
    · rw [if_pos here, here.1, characterMap, Std.TreeMap.getD_eq_getD_getElem?, absent]
      simp
    · rw [if_neg here]
  next zone present =>
    simp only [characterMap, Std.TreeMap.getD_insert]
    by_cases same : other = zoneId
    · subst same
      rw [if_pos Std.ReflCmp.compare_self, Registry.lookup_erase]
      by_cases key : token = left
      · subst key
        simp
      · have different : ¬left = token := Ne.symm key
        simp [key, different, Std.TreeMap.getD_eq_getD_getElem?, present]
    · have different : ¬zoneId = other := Ne.symm same
      simp [same, different]

theorem onRegistCharacter_entry {server : Server} {zoneId other token : Int} {slot known : Nat}
    (registered : ((server.onRegistCharacter zoneId slot).characterMap other)[token]? =
      some known) :
    (server.characterMap other)[token]? = some known ∨
      (known = slot ∧ token = (server.sessions slot).nub.token) := by
  rw [onRegistCharacter_lookup] at registered
  split at registered
  next new => exact Or.inr ⟨(Option.some.inj registered).symm, new.2.1⟩
  next => exact Or.inl registered

theorem onUnregistCharacter_entry {server : Server} {zoneId other left token : Int} {known : Nat}
    (registered : ((server.onUnregistCharacter zoneId left).characterMap other)[token]? =
      some known) :
    (server.characterMap other)[token]? = some known ∧ ¬(other = zoneId ∧ token = left) := by
  rw [onUnregistCharacter_lookup] at registered
  split at registered
  next => cases registered
  next kept => exact ⟨registered, kept⟩

theorem operator_queues (server : Server) (cause : Nat) (command : Command) :
    (server.operator cause command).firingCmds = server.firingCmds ∧
      ∃ more, server.cmds ++ more = (server.operator cause command).cmds ∧
        ∀ queued ∈ more, queued.command.registers = false := by
  cases command with
  | sendBroadcastToAllUser zoneId packet =>
      simp only [operator]
      split
      · exact ⟨rfl, [], List.append_nil _, by simp⟩
      · rw [addAll_eq]
        refine ⟨rfl, _, rfl, ?_⟩
        intro queued member
        simp only [packetBroadcast, List.map_map, List.mem_map] at member
        obtain ⟨entry, -, rfl⟩ := member
        rfl
  | sendPacketToUser token packet =>
      simp only [operator]
      split
      · exact ⟨rfl, [], List.append_nil _, by simp⟩
      · exact ⟨rfl, [], List.append_nil _, by simp⟩
  | enterCharacter token zoneId posX posY =>
      simp only [operator]
      split
      · exact ⟨rfl, [], List.append_nil _, by simp⟩
      · refine ⟨rfl, _, (List.append_assoc _ _ _).symm, ?_⟩
        simp [Command.registers]
  | leaveCharacter token zoneId =>
      have reset : ∀ current : Server,
          (current.onUnregistCharacter zoneId token).firingCmds = current.firingCmds ∧
            (current.onUnregistCharacter zoneId token).cmds = current.cmds := by
        intro current
        unfold onUnregistCharacter
        split
        · exact ⟨rfl, rfl⟩
        · exact ⟨rfl, rfl⟩
      simp only [operator, add]
      rw [(reset _).1, (reset _).2]
      split
      · exact ⟨rfl, _, rfl, by simp [Command.registers]⟩
      · exact ⟨rfl, _, rfl, by simp [Command.registers]⟩
  | sendCharacterList exceptCharacterToken zoneId =>
      simp only [operator]
      split
      · rw [addAll_eq]
        refine ⟨rfl, _, rfl, ?_⟩
        simp [Command.registers]
      · exact ⟨rfl, [], List.append_nil _, by simp⟩

theorem operator_zoneMap (server : Server) (cause : Nat) {command : Command}
    (others : command.registers = false) :
    (server.operator cause command).zoneMap = server.zoneMap := by
  cases command with
  | sendBroadcastToAllUser zoneId packet =>
      simp only [operator]
      split
      · rfl
      · exact (addAll_queues _ _ _).zoneMap
  | sendPacketToUser token packet =>
      simp only [operator]
      split
      · rfl
      · rfl
  | enterCharacter token zoneId posX posY => cases others
  | leaveCharacter token zoneId => cases others
  | sendCharacterList exceptCharacterToken zoneId =>
      simp only [operator]
      split
      · exact (addAll_queues _ _ _).zoneMap
      · rfl

theorem operator_entry {server : Server} {cause : Nat} {command : Command} {zoneId token : Int}
    {slot : Nat}
    (registered : ((server.operator cause command).characterMap zoneId)[token]? = some slot) :
    ((server.characterMap zoneId)[token]? = some slot ∧
        command ≠ .leaveCharacter token zoneId) ∨
      ∃ known : Int, server.userMap[known]? = some slot ∧
        token = (server.sessions slot).nub.token := by
  cases command with
  | sendBroadcastToAllUser other packet =>
      rw [characterMap_congr (operator_zoneMap server cause rfl)] at registered
      exact Or.inl ⟨registered, by simp⟩
  | sendPacketToUser key packet =>
      rw [characterMap_congr (operator_zoneMap server cause rfl)] at registered
      exact Or.inl ⟨registered, by simp⟩
  | enterCharacter key other posX posY =>
      simp only [operator] at registered
      split at registered
      · exact Or.inl ⟨registered, by simp⟩
      next known found =>
        have entry : ((server.onRegistCharacter other known).characterMap zoneId)[token]? =
            some slot := registered
        rcases onRegistCharacter_entry entry with old | ⟨rfl, new⟩
        · exact Or.inl ⟨old, by simp⟩
        · exact Or.inr ⟨key, found, new⟩
  | leaveCharacter key other =>
      have reset (current : Server) (same : current.zoneMap = server.zoneMap)
          (entry : ((current.onUnregistCharacter other key).characterMap zoneId)[token]? =
            some slot) :
          (server.characterMap zoneId)[token]? = some slot ∧
            Command.leaveCharacter key other ≠ .leaveCharacter token zoneId := by
        obtain ⟨old, kept⟩ := onUnregistCharacter_entry entry
        rw [characterMap_congr same] at old
        refine ⟨old, ?_⟩
        simp only [ne_eq, Command.leaveCharacter.injEq]
        rintro ⟨rfl, rfl⟩
        exact kept ⟨rfl, rfl⟩
      simp only [operator] at registered
      left
      split at registered
      · exact reset server rfl registered
      next known _ => exact reset (server.setPos known {}) rfl registered
  | sendCharacterList key other =>
      rw [characterMap_congr (operator_zoneMap server cause rfl)] at registered
      exact Or.inl ⟨registered, by simp⟩

theorem fire_entriesKept {server : Server} (owned : Owned server) (entries : EntriesKept server) :
    EntriesKept server.fire := by
  unfold fire
  split
  · exact entries
  next queued rest firing =>
    have owners := operator_sameOwners { server with firingCmds := rest } queued.cause
      queued.command
    obtain ⟨firingLater, more, added, -⟩ := operator_queues { server with firingCmds := rest }
      queued.cause queued.command
    intro zoneId token slot registered
    rcases operator_entry registered with ⟨old, stays⟩ | ⟨known, mapped, rfl⟩
    · rcases entries zoneId token slot old with valid | removed
      · exact Or.inl (owners.valid ⟨valid.inUse, valid.holds, valid.authed⟩)
      · rw [firing] at removed
        rcases removed with here | ⟨-, later⟩
        · exact absurd here stays
        · rw [firingLater, ← added, ← List.append_assoc]
          exact Or.inr (later.append more)
    · obtain ⟨inUse, tokenEq, positive⟩ := owned.mapped known slot mapped
      refine Or.inl (owners.valid ⟨inUse, rfl, ?_⟩)
      have sameToken : (server.sessions slot).nub.token = known := tokenEq
      change (server.sessions slot).nub.token ≠ 0
      omega

theorem tick_entriesKept {server : Server} (entries : EntriesKept server) :
    EntriesKept server.tick := by
  unfold tick
  split
  next idle =>
    intro zoneId token slot registered
    rcases entries zoneId token slot registered with valid | removed
    · exact Or.inl ⟨valid.inUse, valid.holds, valid.authed⟩
    · rw [idle, List.nil_append] at removed
      exact Or.inr (by simpa using removed)
  next => exact entries

/-! Releasing sessions that zones still hold. -/

def LeavesFirst (server : Server) (clock : Clock) : Prop :=
  ∀ (zoneId token : Int) slot, (server.characterMap zoneId)[token]? = some slot →
    slot ∈ server.releaseList clock →
    RemovedFirst token zoneId (server.cmds ++
      (server.releaseList clock).flatMap fun listed => releaseCommands (server.sessions listed))

theorem doUpdate_entriesKept {server : Server} (owned : Owned server)
    (entries : EntriesKept server) {clock : Clock} (idle : server.firingCmds = [])
    (leaves : LeavesFirst server clock) : EntriesKept (server.doUpdate clock) := by
  obtain ⟨-, sessions, zoneMap, firingCmds, cmds, -, -, used, -⟩ :=
    doUpdate_releases server clock owned.kept
  intro zoneId token slot registered
  rw [characterMap_congr zoneMap] at registered
  rw [firingCmds, idle, List.nil_append, cmds]
  by_cases listed : slot ∈ server.releaseList clock
  · exact Or.inr (leaves zoneId token slot registered listed)
  · rcases entries zoneId token slot registered with valid | removed
    · refine Or.inl ⟨(used slot).mpr ⟨valid.inUse, listed⟩, ?_, valid.authed⟩
      rw [sessions]
      exact valid.holds
    · rw [idle, List.nil_append] at removed
      exact Or.inr (removed.append _)

/-! The condition on the steps: a session authenticates once, and a session that a zone
holds is released only when its `LeaveCharacter` will be the first to touch that zone. -/

def ZoneSafe (server : Server) : Event → Prop
  | .packet conn (some (.auth _)) _ =>
      ∀ slot, (server.links conn).param = some slot → (server.sessions slot).nub.token = 0
  | .doUpdate clock => server.firingCmds = [] → LeavesFirst server clock
  | _ => True

theorem ZoneSafe.authsUnmapped {server : Server} {event : Event} (safe : ZoneSafe server event)
    (owned : Owned server) : AuthsUnmapped server event := by
  unfold AuthsUnmapped
  split
  next conn packet env =>
    intro slot param token mapped
    have first : (server.sessions slot).nub.token = 0 := safe slot param
    obtain ⟨-, tokenEq, positive⟩ := owned.mapped token slot mapped
    omega
  next => trivial

theorem packet_entriesKept {server : Server} (owned : Owned server)
    (entries : EntriesKept server) (conn : Nat) (call : Option C2SCall) (env : Env)
    (safe : ZoneSafe server (.packet conn call env)) :
    EntriesKept (server.packet conn call env) := by
  have attached := attach_entriesKept owned entries conn
  simp only [packet]
  cases call with
  | none => exact attached
  | some call =>
      cases call with
      | auth packet =>
          apply auth_entriesKept attached
          cases param : (server.links conn).param with
          | some slot =>
              rw [attach_known param]
              exact safe slot param
          | none =>
              rw [(attach_attaches param owned.kept).sessions, Function.update_self]
      | enter packet => exact handle_entriesKept attached _ _ _ (by simp)
      | leave packet => exact handle_entriesKept attached _ _ _ (by simp)
      | move packet => exact handle_entriesKept attached _ _ _ (by simp)
      | interaction packet => exact handle_entriesKept attached _ _ _ (by simp)
      | heartbeat packet => exact handle_entriesKept attached _ _ _ (by simp)
      | echo packet => exact handle_entriesKept attached _ _ _ (by simp)

theorem step_entriesKept (server : Server) (event : Event)
    (holds : Owned server ∧ EntriesKept server) (safe : ZoneSafe server event) :
    Owned (server.step event) ∧ EntriesKept (server.step event) := by
  obtain ⟨owned, entries⟩ := holds
  refine ⟨step_owned server event owned (safe.authsUnmapped owned), ?_⟩
  cases event with
  | connect conn =>
      have queues : Queues server (server.step (.connect conn)) := by
        simp only [step]
        split
        · exact ⟨rfl, rfl, List.prefix_rfl⟩
        · exact Queues.refl _
      exact queues.entriesKept entries fun _ _ _ _ valid => (connect_sameOwners conn).valid valid
  | close conn =>
      exact (closeLink_queues server conn).entriesKept entries
        fun _ _ _ _ valid => (closeLink_sameOwners server conn).valid valid
  | packet conn call env => exact packet_entriesKept owned entries conn call env safe
  | doUpdate clock =>
      simp only [step]
      split
      next idle => exact doUpdate_entriesKept owned entries idle (safe idle)
      next => exact entries
  | tick => exact tick_entriesKept entries
  | fire => exact fire_entriesKept owned entries

/-! The zone whose characters the next command to fire goes through. -/

def iterated (server : Server) : Option Int :=
  match server.firingCmds with
  | [] => none
  | queued :: _ =>
      match queued.command with
      | .sendBroadcastToAllUser zoneId _ => some zoneId
      | .sendCharacterList exceptCharacterToken zoneId =>
          if (server.getUserSession exceptCharacterToken).isSome then some zoneId else none
      | _ => none

def IterationSafe (server : Server) : Prop :=
  ∀ zoneId, server.iterated = some zoneId →
    ∀ (token : Int) slot, (server.characterMap zoneId)[token]? = some slot →
      slot ∈ server.mgr.usedList ∧ slot ∉ server.mgr.freeList ∧
        (server.sessions slot).nub.token = token

theorem iterated_iterates {server : Server} {zoneId : Int} (next : server.iterated = some zoneId) :
    ∃ queued rest, server.firingCmds = queued :: rest ∧
      queued.command.iterates zoneId = true := by
  unfold iterated at next
  split at next
  · cases next
  next queued rest firing =>
    refine ⟨queued, rest, firing, ?_⟩
    split at next
    next command => simpa [command, Command.iterates] using next
    next command =>
      split at next
      · simpa [command, Command.iterates] using next
      · cases next
    next => cases next

theorem EntriesKept.iterationSafe {server : Server} (entries : EntriesKept server)
    (owned : Owned server) : IterationSafe server := by
  intro zoneId next token slot registered
  have apart := (List.nodup_append'.mp owned.kept.distinct).2.2
  rcases entries zoneId token slot registered with valid | removed
  · exact ⟨valid.inUse, fun listed => apart listed valid.inUse, valid.holds⟩
  · obtain ⟨queued, rest, firing, iterates⟩ := iterated_iterates next
    rw [firing] at removed
    rcases removed with here | ⟨passes, -⟩
    · rw [here] at iterates
      simp [Command.iterates] at iterates
    · rw [iterates] at passes
      cases passes

/-- In every state of every run whose steps meet the condition, the zone that is gone
through next holds sessions in use only, each under its own token. -/
theorem iteration_safe_of_zone_safe (before after : List Event)
    (along : Run.Along step ZoneSafe {} (before ++ after)) : IterationSafe (run {} before) := by
  have start : Owned {} ∧ EntriesKept {} := by
    refine ⟨start_owned, ?_⟩
    intro zoneId token slot registered
    simp [characterMap] at registered
  obtain ⟨owned, entries⟩ := Run.Along.invariant step_entriesKept start along.initial
  exact entries.iterationSafe owned

/-! Two characters are in the zone when the client of the first one closes, and `DoUpdate` releases
its session. -/

def removedFirst (token zoneId : Int) : List Queued → Bool
  | [] => false
  | queued :: rest =>
      queued.command = .leaveCharacter token zoneId ||
        !queued.command.iterates zoneId && removedFirst token zoneId rest

theorem removedFirst_sound {token zoneId : Int} {queue : List Queued}
    (removed : removedFirst token zoneId queue = true) : RemovedFirst token zoneId queue := by
  induction queue with
  | nil => cases removed
  | cons queued rest ih =>
      rw [removedFirst, Bool.or_eq_true, decide_eq_true_eq, Bool.and_eq_true,
        Bool.not_eq_true'] at removed
      exact removed.imp_right fun passes => ⟨passes.1, ih passes.2⟩

/-- `ZoneSafe`, as far as it can be evaluated: entry by entry. -/
def zoneSafe (server : Server) : Event → Bool
  | .packet conn (some (.auth _)) _ =>
      (server.links conn).param.all fun slot => (server.sessions slot).nub.token = 0
  | .doUpdate clock =>
      server.zoneMap.toList.all fun zone => zone.2.toList.all fun entry =>
        !(server.releaseList clock).contains entry.2 ||
          removedFirst entry.1 zone.1 (server.cmds ++
            (server.releaseList clock).flatMap fun listed =>
              releaseCommands (server.sessions listed))
  | _ => true

theorem zoneSafe_sound {server : Server} {event : Event} (safe : server.zoneSafe event = true) :
    ZoneSafe server event := by
  unfold zoneSafe at safe
  unfold ZoneSafe
  split at safe
  · intro slot linked
    rw [linked] at safe
    exact of_decide_eq_true safe
  · intro _ zoneId token slot registered listed
    rw [characterMap, Std.TreeMap.getD_eq_getD_getElem?] at registered
    cases found : server.zoneMap[zoneId]? with
    | none => simp [found] at registered
    | some zone =>
        rw [found, Option.getD_some] at registered
        have there := List.all_eq_true.mp safe _
          (Std.TreeMap.mem_toList_iff_getElem?_eq_some.mpr found)
        have entry := List.all_eq_true.mp there _
          (Std.TreeMap.mem_toList_iff_getElem?_eq_some.mpr registered)
        rw [List.contains_iff_mem.mpr listed] at entry
        exact removedFirst_sound entry
  · trivial

def oneReleased : List Event :=
  [.connect 7, .packet 7 (some (.auth { id := 5 })) {}, .packet 7 (some (.enter {})) {},
    .tick, .fire, .tick, .fire, .fire, .tick, .fire,
    .connect 8, .packet 8 (some (.auth { id := 6 })) {}, .packet 8 (some (.enter {})) {},
    .tick, .fire, .tick, .fire, .fire, .tick, .fire, .fire, .fire, .close 7,
    .doUpdate ⟨fun _ => true, fun _ => false, fun _ => false⟩, .tick, .fire, .tick]

theorem iteration_safe_of_one_character :
    Run.Along step ZoneSafe {} (oneReleased ++ []) ∧ (run {} oneReleased).iterated = some 1 ∧
      ((run {} oneReleased).characterMap 1).toList = [(2, 98)] ∧
      IterationSafe (run {} oneReleased) := by
  obtain ⟨checked, iterated, entries⟩ :
      Run.checkAlong step zoneSafe {} (oneReleased ++ []) = true ∧
        (run {} oneReleased).iterated = some 1 ∧
        ((run {} oneReleased).characterMap 1).toList = [(2, 98)] := by
    decide +kernel
  have along : Run.Along step ZoneSafe {} (oneReleased ++ []) :=
    Run.Along.of_check (fun _ _ => zoneSafe_sound) checked
  exact ⟨along, iterated, entries, iteration_safe_of_zone_safe oneReleased [] along⟩

/-- A client that enters and is gone before the announcement of its arrival is sent out: the
announcement goes through a zone that still points to the freed session. -/
theorem announcement_reads_freed_session :
    ¬IterationSafe (run {} [.connect 7, .packet 7 (some (.auth { id := 5 })) {},
      .packet 7 (some (.enter {})) {}, .tick, .fire, .close 7,
      .doUpdate ⟨fun _ => true, fun _ => false, fun _ => false⟩, .tick]) := by
  intro safe
  have inUse := (safe 1 (by decide) 1 99 (by decide)).1
  revert inUse
  decide

end Server

end ProjectPl
