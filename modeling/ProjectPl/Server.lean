import ProjectPl.Lib.Registry
import ProjectPl.Lib.Run
import ProjectPl.ServerCore

/-!
What the steps of the server leave alone. Who owns which session, token and connector
changes in three places only: a packet that attaches a new session, `CS_P_AUTH`, and the
releases of `DoUpdate`. Everything else keeps it.
-/

namespace ProjectPl

namespace Server

structure SameOwners (server next : Server) : Prop where
  mgr : next.mgr = server.mgr
  userMap : next.userMap = server.userMap
  token : ∀ slot, (next.sessions slot).nub.token = (server.sessions slot).nub.token
  connector : ∀ slot, (next.sessions slot).pConnector = (server.sessions slot).pConnector
  param : ∀ conn, (next.links conn).param = (server.links conn).param

/-! Commands are only ever added behind those already queued. -/

structure Queues (server next : Server) : Prop where
  zoneMap : next.zoneMap = server.zoneMap
  firingCmds : next.firingCmds = server.firingCmds
  cmds : server.cmds <+: next.cmds

theorem SameOwners.refl (server : Server) : SameOwners server server :=
  ⟨rfl, rfl, fun _ => rfl, fun _ => rfl, fun _ => rfl⟩

theorem SameOwners.trans {first second third : Server} (here : SameOwners first second)
    (later : SameOwners second third) : SameOwners first third := by
  refine ⟨later.mgr.trans here.mgr, later.userMap.trans here.userMap, ?_, ?_, ?_⟩
  · exact fun slot => (later.token slot).trans (here.token slot)
  · exact fun slot => (later.connector slot).trans (here.connector slot)
  · exact fun conn => (later.param conn).trans (here.param conn)

theorem Queues.refl (server : Server) : Queues server server :=
  ⟨rfl, rfl, List.prefix_rfl⟩

theorem Queues.trans {first second third : Server} (here : Queues first second)
    (later : Queues second third) : Queues first third :=
  ⟨later.zoneMap.trans here.zoneMap, later.firingCmds.trans here.firingCmds,
    here.cmds.trans later.cmds⟩

section Primitives

variable (server : Server)

theorem add_sameOwners (cause : Nat) (command : Command) :
    SameOwners server (server.add cause command) :=
  ⟨rfl, rfl, fun _ => rfl, fun _ => rfl, fun _ => rfl⟩

theorem add_queues (cause : Nat) (command : Command) :
    Queues server (server.add cause command) :=
  ⟨rfl, rfl, List.prefix_append _ _⟩

theorem addAll_eq (cause : Nat) (commands : List Command) :
    server.addAll cause commands =
      { server with cmds := server.cmds ++ commands.map (Queued.mk cause) } := by
  induction commands generalizing server with
  | nil => simp [addAll]
  | cons command rest ih =>
      have head : server.addAll cause (command :: rest) =
          (server.add cause command).addAll cause rest := rfl
      rw [head, ih]
      simp [add]

theorem addAll_sameOwners (cause : Nat) (commands : List Command) :
    SameOwners server (server.addAll cause commands) := by
  rw [addAll_eq]
  exact ⟨rfl, rfl, fun _ => rfl, fun _ => rfl, fun _ => rfl⟩

theorem addAll_queues (cause : Nat) (commands : List Command) :
    Queues server (server.addAll cause commands) := by
  rw [addAll_eq]
  exact ⟨rfl, rfl, List.prefix_append _ _⟩

theorem setPos_sameOwners (slot : Nat) (pos : Position) :
    SameOwners server (server.setPos slot pos) := by
  refine ⟨rfl, rfl, ?_, ?_, fun _ => rfl⟩
  · intro other
    by_cases same : other = slot
    · subst same
      simp [setPos, setSession]
    · simp [setPos, setSession, same]
  · intro other
    by_cases same : other = slot
    · subst same
      simp [setPos, setSession]
    · simp [setPos, setSession, same]

theorem setPos_queues (slot : Nat) (pos : Position) : Queues server (server.setPos slot pos) :=
  ⟨rfl, rfl, List.prefix_rfl⟩

theorem sendPacket_sameOwners (cause slot : Nat) (packet : S2CCall) :
    SameOwners server (server.sendPacket cause slot packet) :=
  ⟨rfl, rfl, fun _ => rfl, fun _ => rfl, fun _ => rfl⟩

theorem closeLink_sameOwners (conn : Nat) : SameOwners server (server.closeLink conn) := by
  refine ⟨rfl, rfl, fun _ => rfl, fun _ => rfl, ?_⟩
  intro other
  by_cases same : other = conn
  · subst same
    simp [closeLink, setLink]
  · simp [closeLink, setLink, same]

theorem closeLink_queues (conn : Nat) : Queues server (server.closeLink conn) :=
  ⟨rfl, rfl, List.prefix_rfl⟩

end Primitives

/-! Handlers other than `C2S_Auth`. -/

theorem handle_sameOwners (server : Server) (slot : Nat) (env : Env) (call : C2SCall)
    (notAuth : ∀ packet, call ≠ .auth packet) : SameOwners server (server.handle slot env call) := by
  cases call with
  | auth packet => exact absurd rfl (notAuth packet)
  | enter packet => exact (setPos_sameOwners _ _ _).trans (add_sameOwners _ _ _)
  | leave packet => exact add_sameOwners _ _ _
  | move packet => exact (setPos_sameOwners _ _ _).trans (add_sameOwners _ _ _)
  | interaction packet => exact add_sameOwners _ _ _
  | heartbeat packet => exact SameOwners.refl _
  | echo packet => exact add_sameOwners _ _ _

theorem handle_queues (server : Server) (slot : Nat) (env : Env) (call : C2SCall) :
    Queues server (server.handle slot env call) := by
  cases call with
  | auth packet => exact ⟨rfl, rfl, List.prefix_rfl⟩
  | enter packet => exact (setPos_queues _ _ _).trans (add_queues _ _ _)
  | leave packet => exact add_queues _ _ _
  | move packet => exact (setPos_queues _ _ _).trans (add_queues _ _ _)
  | interaction packet => exact add_queues _ _ _
  | heartbeat packet => exact Queues.refl _
  | echo packet => exact add_queues _ _ _

/-! Operators. -/

theorem onUnregistCharacter_sameOwners (server : Server) (zoneId token : Int) :
    SameOwners server (server.onUnregistCharacter zoneId token) := by
  unfold onUnregistCharacter
  split
  · exact SameOwners.refl _
  · exact ⟨rfl, rfl, fun _ => rfl, fun _ => rfl, fun _ => rfl⟩

theorem operator_sameOwners (server : Server) (cause : Nat) (command : Command) :
    SameOwners server (server.operator cause command) := by
  cases command with
  | sendBroadcastToAllUser zoneId packet =>
      simp only [operator]
      split
      · exact SameOwners.refl _
      · exact addAll_sameOwners _ _ _
  | sendPacketToUser token packet =>
      simp only [operator]
      split
      · exact SameOwners.refl _
      · exact sendPacket_sameOwners _ _ _ _
  | enterCharacter token zoneId posX posY =>
      simp only [operator]
      split
      · exact SameOwners.refl _
      next slot _ =>
        have registered : SameOwners server (server.onRegistCharacter zoneId slot) :=
          ⟨rfl, rfl, fun _ => rfl, fun _ => rfl, fun _ => rfl⟩
        exact (registered.trans (add_sameOwners _ _ _)).trans (add_sameOwners _ _ _)
  | leaveCharacter token zoneId =>
      simp only [operator]
      refine SameOwners.trans ?_ (add_sameOwners _ _ _)
      refine SameOwners.trans ?_ (onUnregistCharacter_sameOwners _ _ _)
      split
      · exact SameOwners.refl _
      · exact setPos_sameOwners _ _ _
  | sendCharacterList exceptCharacterToken zoneId =>
      simp only [operator]
      split
      · exact addAll_sameOwners _ _ _
      · exact SameOwners.refl _

theorem fire_sameOwners (server : Server) : SameOwners server server.fire := by
  unfold fire
  split
  · exact SameOwners.refl _
  next queued rest _ =>
    have popped : SameOwners server { server with firingCmds := rest } :=
      ⟨rfl, rfl, fun _ => rfl, fun _ => rfl, fun _ => rfl⟩
    exact popped.trans (operator_sameOwners _ _ _)

theorem tick_sameOwners (server : Server) : SameOwners server server.tick := by
  unfold tick
  split
  · exact ⟨rfl, rfl, fun _ => rfl, fun _ => rfl, fun _ => rfl⟩
  · exact SameOwners.refl _

/-! The first half of `DoUpdate`: it sends heartbeats, closes links and lists sessions. -/

theorem updateSession_sameOwners (server : Server) (clock : Clock) (slot : Nat) :
    SameOwners server (server.updateSession clock slot) := by
  unfold updateSession
  split
  · exact SameOwners.refl _
  · split
    · split
      · exact closeLink_sameOwners _ _
      · exact sendPacket_sameOwners _ _ _ _
    · exact SameOwners.refl _

theorem updateSession_keeps (server : Server) (clock : Clock) (slot : Nat) :
    (server.updateSession clock slot).sessions = server.sessions ∧
      (server.updateSession clock slot).cmds = server.cmds ∧
      (server.updateSession clock slot).zoneMap = server.zoneMap ∧
      (server.updateSession clock slot).firingCmds = server.firingCmds := by
  unfold updateSession
  split
  · exact ⟨rfl, rfl, rfl, rfl⟩
  · split
    · split
      · exact ⟨rfl, rfl, rfl, rfl⟩
      · exact ⟨rfl, rfl, rfl, rfl⟩
    · exact ⟨rfl, rfl, rfl, rfl⟩

theorem updateSessions_sameOwners (server : Server) (clock : Clock) (slots : List Nat) :
    SameOwners server (server.updateSessions clock slots).1 := by
  induction slots generalizing server with
  | nil => exact SameOwners.refl _
  | cons slot rest ih => exact (updateSession_sameOwners server clock slot).trans (ih _)

theorem updateSessions_keeps (server : Server) (clock : Clock) (slots : List Nat) :
    (server.updateSessions clock slots).1.sessions = server.sessions ∧
      (server.updateSessions clock slots).1.cmds = server.cmds ∧
      (server.updateSessions clock slots).1.zoneMap = server.zoneMap ∧
      (server.updateSessions clock slots).1.firingCmds = server.firingCmds := by
  induction slots generalizing server with
  | nil => exact ⟨rfl, rfl, rfl, rfl⟩
  | cons slot rest ih =>
      obtain ⟨sessions, cmds, zoneMap, firingCmds⟩ := updateSession_keeps server clock slot
      obtain ⟨later1, later2, later3, later4⟩ := ih (server.updateSession clock slot)
      exact ⟨later1.trans sessions, later2.trans cmds, later3.trans zoneMap,
        later4.trans firingCmds⟩

theorem updateSessions_listed (server : Server) (clock : Clock) (slots : List Nat) :
    (server.updateSessions clock slots).2.Sublist slots := by
  induction slots generalizing server with
  | nil => exact List.Sublist.slnil
  | cons slot rest ih =>
      simp only [updateSessions]
      split
      · exact (ih _).cons_cons slot
      · exact (ih _).cons slot

/-! The second half of `DoUpdate`, for the sessions listed. -/

def releaseList (server : Server) (clock : Clock) : List Nat :=
  (server.updateSessions clock server.mgr.usedList).2

def releaseCommands (session : UserSession) : List Queued :=
  if session.nub.pos.zoneId ≠ 0 then
    [⟨session.uid, .leaveCharacter session.nub.token session.nub.pos.zoneId⟩]
  else []

theorem release_eq (server : Server) (slot : Nat) :
    server.release slot =
      { server with
        cmds := server.cmds ++ releaseCommands (server.sessions slot)
        links := fun conn =>
          if (server.sessions slot).pConnector = some conn then {} else server.links conn } := by
  have leaving : (if (server.sessions slot).nub.pos.zoneId ≠ 0 then
      server.add (server.sessions slot).uid (.leaveCharacter (server.sessions slot).nub.token
        (server.sessions slot).nub.pos.zoneId) else server) =
      { server with cmds := server.cmds ++ releaseCommands (server.sessions slot) } := by
    unfold releaseCommands
    split
    · rfl
    · simp
  simp only [release, leaving]
  cases attached : (server.sessions slot).pConnector with
  | none => simp
  | some conn =>
      simp only [setLink, Option.some.injEq]
      congr 1
      funext other
      by_cases same : other = conn
      · subst same
        simp
      · simp [same, Ne.symm same]

theorem foldl_release (server : Server) (slots : List Nat) :
    slots.foldl release server =
      { server with
        cmds := server.cmds ++ slots.flatMap fun slot => releaseCommands (server.sessions slot)
        links := fun conn =>
          if ∃ slot ∈ slots, (server.sessions slot).pConnector = some conn then {}
          else server.links conn } := by
  induction slots generalizing server with
  | nil => simp
  | cons slot rest ih =>
      rw [List.foldl_cons, ih, release_eq]
      simp only [List.flatMap_cons, List.append_assoc, List.exists_mem_cons_iff]
      congr 1
      funext conn
      by_cases later : ∃ other ∈ rest, (server.sessions other).pConnector = some conn
      · simp [later]
      · simp [later]

theorem free_userMap (server : Server) (slot : Nat) (token : Int) :
    (server.free slot).userMap[token]? =
      if (server.sessions slot).nub.token = token then none else server.userMap[token]? :=
  Registry.lookup_erase server.userMap _ token

theorem foldl_free_keeps (server : Server) (slots : List Nat) :
    (slots.foldl free server).sessions = server.sessions ∧
      (slots.foldl free server).cmds = server.cmds ∧
      (slots.foldl free server).zoneMap = server.zoneMap ∧
      (slots.foldl free server).firingCmds = server.firingCmds ∧
      (slots.foldl free server).links = server.links := by
  induction slots generalizing server with
  | nil => exact ⟨rfl, rfl, rfl, rfl, rfl⟩
  | cons slot rest ih => exact ih (server.free slot)

theorem foldl_free_userMap (server : Server) (slots : List Nat) (token : Int) :
    (slots.foldl free server).userMap[token]? =
      if ∃ slot ∈ slots, (server.sessions slot).nub.token = token then none
      else server.userMap[token]? := by
  induction slots generalizing server with
  | nil => simp
  | cons slot rest ih =>
      rw [List.foldl_cons, ih, free_userMap]
      have sessions : (server.free slot).sessions = server.sessions := rfl
      simp only [sessions, List.exists_mem_cons_iff]
      by_cases later : ∃ other ∈ rest, (server.sessions other).nub.token = token
      · simp [later]
      · simp [later]

theorem foldl_free_mgr (server : Server) (slots : List Nat) (kept : server.mgr.Kept)
    (distinct : slots.Nodup) (inUse : ∀ slot ∈ slots, slot ∈ server.mgr.usedList) :
    (slots.foldl free server).mgr.Kept ∧
      ∀ other, other ∈ (slots.foldl free server).mgr.usedList ↔
        other ∈ server.mgr.usedList ∧ other ∉ slots := by
  induction slots generalizing server with
  | nil => simp [kept]
  | cons slot rest ih =>
      obtain ⟨fresh, restDistinct⟩ := List.nodup_cons.mp distinct
      obtain ⟨freedKept, freedUsed⟩ :=
        ObjectMgr.setFreeObject_kept kept (inUse slot (by simp))
      have freedInUse : ∀ other ∈ rest, other ∈ (server.free slot).mgr.usedList := by
        intro other listed
        refine (freedUsed other).mpr ⟨inUse other (by simp [listed]), ?_⟩
        rintro rfl
        exact fresh listed
      obtain ⟨laterKept, laterUsed⟩ := ih (server.free slot) freedKept restDistinct freedInUse
      refine ⟨laterKept, ?_⟩
      intro other
      rw [List.foldl_cons, laterUsed]
      have here : other ∈ (server.free slot).mgr.usedList ↔
          other ∈ server.mgr.usedList ∧ other ≠ slot := freedUsed other
      rw [here]
      simp only [List.mem_cons, not_or]
      tauto

/-! `DoUpdate` as one step. -/

structure Releases (server : Server) (slots : List Nat) (next : Server) : Prop where
  inUse : ∀ slot ∈ slots, slot ∈ server.mgr.usedList
  sessions : next.sessions = server.sessions
  zoneMap : next.zoneMap = server.zoneMap
  firingCmds : next.firingCmds = server.firingCmds
  cmds : next.cmds =
    server.cmds ++ slots.flatMap fun slot => releaseCommands (server.sessions slot)
  userMap : ∀ token : Int, next.userMap[token]? =
    if ∃ slot ∈ slots, (server.sessions slot).nub.token = token then none
    else server.userMap[token]?
  kept : next.mgr.Kept
  used : ∀ slot, slot ∈ next.mgr.usedList ↔ slot ∈ server.mgr.usedList ∧ slot ∉ slots
  param : ∀ conn, (next.links conn).param =
    if ∃ slot ∈ slots, (server.sessions slot).pConnector = some conn then none
    else (server.links conn).param

theorem doUpdate_releases (server : Server) (clock : Clock) (kept : server.mgr.Kept) :
    Releases server (server.releaseList clock) (server.doUpdate clock) := by
  obtain ⟨sessions, cmds, zoneMap, firingCmds⟩ :=
    updateSessions_keeps server clock server.mgr.usedList
  have owners := updateSessions_sameOwners server clock server.mgr.usedList
  have listed := updateSessions_listed server clock server.mgr.usedList
  have distinct := listed.nodup (List.nodup_append'.mp kept.distinct).2.1
  have inUse : ∀ slot ∈ server.releaseList clock, slot ∈ server.mgr.usedList :=
    fun slot member => listed.subset member
  have update : server.doUpdate clock = (server.releaseList clock).foldl free
      ((server.releaseList clock).foldl release
        (server.updateSessions clock server.mgr.usedList).1) := rfl
  rw [update, foldl_release]
  generalize (server.updateSessions clock server.mgr.usedList).1 = updated at *
  obtain ⟨freeSessions, freeCmds, freeZoneMap, freeFiring, freeLinks⟩ := foldl_free_keeps
    { updated with
      cmds := updated.cmds ++ (server.releaseList clock).flatMap fun slot =>
        releaseCommands (updated.sessions slot)
      links := fun conn =>
        if ∃ slot ∈ server.releaseList clock, (updated.sessions slot).pConnector = some conn
        then {} else updated.links conn } (server.releaseList clock)
  obtain ⟨freeKept, freeUsed⟩ := foldl_free_mgr
    { updated with
      cmds := updated.cmds ++ (server.releaseList clock).flatMap fun slot =>
        releaseCommands (updated.sessions slot)
      links := fun conn =>
        if ∃ slot ∈ server.releaseList clock, (updated.sessions slot).pConnector = some conn
        then {} else updated.links conn } (server.releaseList clock)
    (by rw [owners.mgr]; exact kept) distinct (by rw [owners.mgr]; exact inUse)
  refine ⟨inUse, freeSessions.trans sessions, freeZoneMap.trans zoneMap,
    freeFiring.trans firingCmds, ?_, ?_, freeKept, ?_, ?_⟩
  · rw [freeCmds, cmds, sessions]
  · intro token
    rw [foldl_free_userMap, owners.userMap, sessions]
  · intro slot
    rw [freeUsed, owners.mgr]
  · intro conn
    rw [freeLinks, sessions]
    dsimp only
    split
    · rfl
    · exact owners.param conn

/-! A new session. -/

structure Attaches (server : Server) (conn slot : Nat) (next : Server) : Prop where
  fresh : slot ∉ server.mgr.usedList
  kept : next.mgr.Kept
  used : next.mgr.usedList = server.mgr.usedList ++ [slot]
  userMap : next.userMap = server.userMap
  queues : Queues server next
  sessions : next.sessions = Function.update server.sessions slot
    { uid := server.uniqueUserSessionUid + 1, pConnector := some conn }
  links : next.links =
    Function.update server.links conn { server.links conn with param := some slot }

section Attaches

variable {server next : Server} {conn slot : Nat}

theorem Attaches.session_new (attaches : Attaches server conn slot next) :
    next.sessions slot = { uid := server.uniqueUserSessionUid + 1, pConnector := some conn } := by
  rw [attaches.sessions, Function.update_self]

theorem Attaches.session_old (attaches : Attaches server conn slot next) {known : Nat}
    (inUse : known ∈ server.mgr.usedList) : next.sessions known = server.sessions known := by
  rw [attaches.sessions, Function.update_of_ne]
  rintro rfl
  exact attaches.fresh inUse

theorem Attaches.inUse_iff (attaches : Attaches server conn slot next) (known : Nat) :
    known ∈ next.mgr.usedList ↔ known ∈ server.mgr.usedList ∨ known = slot := by
  rw [attaches.used, List.mem_append, List.mem_singleton]

theorem Attaches.param (attaches : Attaches server conn slot next) (other : Nat) :
    (next.links other).param = if other = conn then some slot else (server.links other).param := by
  rw [attaches.links]
  by_cases same : other = conn
  · subst same
    simp
  · simp [same]

end Attaches

theorem attach_known {server : Server} {conn slot : Nat}
    (known : (server.links conn).param = some slot) : server.attach conn = (server, slot) := by
  unfold attach
  rw [known]

theorem attach_attaches {server : Server} {conn : Nat}
    (unknown : (server.links conn).param = none) (kept : server.mgr.Kept) :
    Attaches server conn (server.attach conn).2 (server.attach conn).1 := by
  obtain ⟨issuedKept, fresh, used⟩ := ObjectMgr.getFreeObject_kept kept
  unfold attach
  rw [unknown]
  exact ⟨fresh, issuedKept, used, rfl, ⟨rfl, rfl, List.prefix_rfl⟩, rfl, by simp [setLink, setSession]⟩

end Server

end ProjectPl
