import ProjectPl.AppLocksCore
import ProjectPl.Lib.Run
import ProjectPl.Server

/-!
The order in which the two application threads nest their locks. `C2S_Auth` holds the lock of its
session and goes on to the lock of `UserSessionMgr` in `AddUserSessionMap`; the walk of
`UserSessionMgr::DoUpdate` holds the lock of `UserSessionMgr` and goes on to the lock of each
session. No other pair of locks is nested in both orders.
-/

namespace ProjectPl

open Locks

namespace AppCode

/-! Left alone, the code of the threads does what the steps of `Server` do. -/

section Alone

variable (shared : Shared)

@[simp] theorem modifyServer_alone (change : Server → Server) :
    (modifyServer change).alone shared =
      ({ shared with server := change shared.server }, ()) := rfl

@[simp] theorem readSession_alone (slot : Nat) :
    (readSession slot).alone shared = (shared, shared.server.sessions slot) := rfl

@[simp] theorem add_alone (cause : Nat) (command : Command) :
    (add cause command).alone shared =
      ({ shared with server := shared.server.add cause command }, ()) := rfl

@[simp] theorem getUserSession_alone (token : Int) :
    (getUserSession token).alone shared = (shared, shared.server.getUserSession token) := rfl

@[simp] theorem getZone_alone (zoneId : Int) :
    (getZone zoneId).alone shared = (shared, shared.server.zoneMap.contains zoneId) := rfl

theorem c2sAuth_alone (slot : Nat) (env : Server.Env) (packet : CsPAuth) :
    (c2sAuth slot env packet).alone shared =
      ({ shared with server := shared.server.c2sAuth slot env packet }, ()) := by
  simp [c2sAuth, getUniqueSerialId, addUserSessionMap, setIdToken, Server.c2sAuth,
    Server.setSession, Server.sendPacket, Code.alone]

theorem handle_alone (slot : Nat) (env : Server.Env) (call : C2SCall) :
    (handle slot env call).alone shared =
      ({ shared with server := shared.server.handle slot env call }, ()) := by
  cases call with
  | auth packet => exact c2sAuth_alone shared slot env packet
  | enter packet => rfl
  | leave packet => rfl
  | move packet =>
      simp [handle, c2sMove, Server.handle, Server.c2sMove, Server.setPos, Server.setSession]
  | interaction packet => rfl
  | heartbeat packet => rfl
  | echo packet => rfl

theorem attach_alone (conn : Nat) :
    (attach conn).alone shared =
      ({ shared with server := (shared.server.attach conn).1 }, (shared.server.attach conn).2) := by
  cases param : (shared.server.links conn).param with
  | some slot => simp [attach, Server.attach, param]
  | none =>
      simp [attach, Server.attach, param, getFreeObject, setParam, setConnector, Code.alone,
        Server.setSession, Server.setLink]

theorem processPacket_alone (conn : Nat) (call : Option C2SCall) (env : Server.Env) :
    (processPacket conn call env).alone shared =
      ({ shared with server := shared.server.packet conn call env }, ()) := by
  cases call with
  | none => simp [processPacket, attach_alone, Server.packet]
  | some call => simp [processPacket, attach_alone, handle_alone, Server.packet]

/-- A loop whose turns only change the server. -/
theorem forM_alone {α : Type} {body : α → AppCode Unit} (turn : Server → α → Server)
    (each : ∀ shared item, (body item).alone shared =
      ({ shared with server := turn shared.server item }, ())) (items : List α) :
    (items.forM body).alone shared =
      ({ shared with server := items.foldl turn shared.server }, ()) := by
  induction items generalizing shared with
  | nil => rfl
  | cons item rest ih => rw [Code.alone_forM_cons, each, ih, List.foldl_cons]

theorem updateSession_alone (clock : Server.Clock) (slot : Nat) :
    (updateSession clock slot).alone shared =
      ({ server := shared.server.updateSession clock slot
         releaseList := if clock.due slot && shared.server.closed slot
           then shared.releaseList ++ [slot] else shared.releaseList }, ()) := by
  have chosen : (updateSession clock slot).alone shared =
      (if clock.due slot && shared.server.closed slot then setReleaseObj slot
        else modifyServer fun server => server.updateSession clock slot).alone shared :=
    Code.alone_guarded _ _ shared
  rw [chosen]
  by_cases listed : (clock.due slot && shared.server.closed slot) = true
  · have idle : shared.server.updateSession clock slot = shared.server := by
      simp only [Bool.and_eq_true] at listed
      cases connector : (shared.server.sessions slot).pConnector with
      | none => simp [Server.updateSession, connector]
      | some conn =>
          have inactive : (shared.server.links conn).active = false := by
            simpa [Server.closed, connector] using listed.2
          simp [Server.updateSession, connector, inactive]
    rw [if_pos listed, if_pos listed, idle]
    rfl
  · rw [if_neg listed, if_neg listed]
    rfl

theorem walk_alone (clock : Server.Clock) (slots : List Nat) :
    (slots.forM (updateSession clock)).alone shared =
      ({ server := (shared.server.updateSessions clock slots).1
         releaseList :=
           shared.releaseList ++ (shared.server.updateSessions clock slots).2 }, ()) := by
  induction slots generalizing shared with
  | nil => simp [Server.updateSessions]
  | cons slot rest ih =>
      rw [Code.alone_forM_cons, updateSession_alone, ih]
      by_cases listed : (clock.due slot && shared.server.closed slot) = true
      · simp [Server.updateSessions, listed]
      · simp [Server.updateSessions, listed]

theorem release_alone (slot : Nat) :
    (release slot).alone shared =
      ({ shared with server := shared.server.release slot }, ()) := by
  by_cases inZone : (shared.server.sessions slot).nub.pos.zoneId = 0
  · simp only [release, leaveZone, Code.alone_bind, readSession_alone, inZone, ne_eq, not_true,
      if_false, Code.alone_pure, modifyServer_alone, Server.release]
    rfl
  · simp only [release, leaveZone, Code.alone_bind, readSession_alone, inZone, ne_eq,
      not_false_eq_true, if_true, Code.alone_guarded, add_alone, modifyServer_alone,
      Server.release]
    rfl

theorem free_alone (slot : Nat) :
    (free slot).alone shared = ({ shared with server := shared.server.free slot }, ()) := rfl

theorem doUpdate_alone (clock : Server.Clock) (noneListed : shared.releaseList = []) :
    (doUpdate clock).alone shared =
      ({ shared with server := shared.server.doUpdate clock }, ()) := by
  have swapped : ∀ current : Shared, swapReleaseList.alone current =
      ({ current with releaseList := [] }, current.releaseList) := fun _ => rfl
  simp only [doUpdate, updateSessions, Code.alone_bind, Code.alone_guarded, walk_alone, swapped,
    forM_alone _ Server.release release_alone, forM_alone _ Server.free free_alone, noneListed,
    List.nil_append, Server.doUpdate]

/-! The operators. -/

theorem broadcast_alone (cause : Nat) (packet : S2CCall) (entries : List (Int × Nat))
    (server : Server) :
    entries.foldl (fun current entry =>
        current.add cause (.sendPacketToUser (current.sessions entry.2).nub.token packet)) server =
      server.addAll cause
        (entries.map fun entry =>
          .sendPacketToUser (server.sessions entry.2).nub.token packet) := by
  induction entries generalizing server with
  | nil => rfl
  | cons entry rest ih => exact ih _

theorem packetBroadcast_alone (cause : Nat) (zoneId : Int) (packet : S2CCall) :
    (packetBroadcast cause zoneId packet).alone shared =
      ({ shared with
          server := shared.server.addAll cause
            (shared.server.packetBroadcast (shared.server.characterMap zoneId) packet) }, ()) := by
  rw [packetBroadcast, Code.alone_guarded,
    forM_alone shared (fun server entry => server.add cause
      (.sendPacketToUser (server.sessions entry.2).nub.token packet)) (fun _ _ => rfl),
    broadcast_alone]
  rfl

theorem getCharacterDbList_alone (zoneId exceptToken : Int) :
    (getCharacterDbList zoneId exceptToken).alone shared =
      (shared, shared.server.getCharacterDbList (shared.server.characterMap zoneId)
        exceptToken) := by
  have read : ∀ entries : List (Int × Nat), (readDbData entries).alone shared =
      (shared, entries.map fun entry => (shared.server.sessions entry.2).nub.getDbData) := by
    intro entries
    induction entries with
    | nil => rfl
    | cons entry rest ih => simp [readDbData, ih]
  rw [getCharacterDbList, Code.alone_guarded, read]
  rfl

theorem zone_cases (server : Server) (zoneId : Int) :
    (server.zoneMap[zoneId]? = none ∧ server.zoneMap.contains zoneId = false) ∨
      ∃ zone, server.zoneMap[zoneId]? = some zone ∧ server.zoneMap.contains zoneId = true ∧
        server.characterMap zoneId = zone := by
  cases found : server.zoneMap[zoneId]? with
  | none =>
      refine Or.inl ⟨rfl, ?_⟩
      rw [Std.TreeMap.contains_eq_isSome_getElem?, found]
      rfl
  | some zone =>
      refine Or.inr ⟨zone, rfl, ?_, ?_⟩
      · rw [Std.TreeMap.contains_eq_isSome_getElem?, found]
        rfl
      · rw [Server.characterMap, Std.TreeMap.getD_eq_getD_getElem?, found]
        rfl

theorem zoneMgrLeaveCharacter_alone (zoneId token : Int) :
    (zoneMgrLeaveCharacter zoneId token).alone shared =
      ({ shared with server := shared.server.onUnregistCharacter zoneId token }, ()) := by
  rcases zone_cases shared.server zoneId with ⟨missing, absent⟩ | ⟨zone, found, present, -⟩
  · simp only [zoneMgrLeaveCharacter, Code.alone_guarded, absent, Bool.false_eq_true, if_false,
      Code.alone_pure, Server.onUnregistCharacter, missing]
  · simp only [zoneMgrLeaveCharacter, Code.alone_guarded, present, if_true, onUnregistCharacter,
      modifyServer_alone]

theorem operator_alone (cause : Nat) (command : Command) :
    (operator cause command).alone shared =
      ({ shared with server := shared.server.operator cause command }, ()) := by
  cases command with
  | sendBroadcastToAllUser zoneId packet =>
      rcases zone_cases shared.server zoneId with ⟨missing, absent⟩ | ⟨zone, found, present, same⟩
      · simp [operator, Server.operator, missing, absent]
      · simp [operator, Server.operator, found, present, packetBroadcast_alone, same]
  | sendPacketToUser token packet =>
      cases user : shared.server.getUserSession token with
      | none => simp [operator, Server.operator, user]
      | some slot => simp [operator, Server.operator, user]
  | enterCharacter token zoneId posX posY =>
      cases user : shared.server.getUserSession token with
      | none => simp [operator, Server.operator, user]
      | some slot =>
          simp [operator, Server.operator, user, zoneMgrEnterCharacter, onRegistCharacter]
  | leaveCharacter token zoneId =>
      cases user : shared.server.getUserSession token with
      | none =>
          simp [operator, Server.operator, user, resetPos, zoneMgrLeaveCharacter_alone]
      | some slot =>
          simp [operator, Server.operator, user, resetPos, zoneMgrLeaveCharacter_alone]
  | sendCharacterList exceptCharacterToken zoneId =>
      cases user : shared.server.getUserSession exceptCharacterToken with
      | none => simp [operator, Server.operator, user]
      | some slot =>
          rcases zone_cases shared.server zoneId with
            ⟨missing, absent⟩ | ⟨zone, found, present, same⟩
          · simp [operator, Server.operator, user, missing, absent]
          · have sent : ∀ packets : List ScPEnterCharacterList,
                (packets.forM fun packet => add cause
                  (.sendPacketToUser exceptCharacterToken (.enterCharacter packet))).alone shared =
                ({ shared with
                    server := shared.server.addAll cause (packets.map fun packet =>
                      .sendPacketToUser exceptCharacterToken (.enterCharacter packet)) }, ()) := by
              intro packets
              rw [Server.addAll, List.foldl_map]
              exact forM_alone shared (fun server packet => server.add cause
                (.sendPacketToUser exceptCharacterToken (.enterCharacter packet)))
                (fun _ _ => rfl) packets
            simp only [operator, Server.operator, Code.alone_bind, getUserSession_alone, user,
              getZone_alone, present, if_true, getCharacterDbList_alone, same, found, sent]

theorem tick_alone :
    tick.alone shared =
      ({ shared with
          server := shared.server.cmds.foldl
            (fun server queued => server.operator queued.cause queued.command)
            { shared.server with cmds := [] } }, ()) := by
  have swapped : swapOpList.alone shared =
      ({ shared with server := { shared.server with cmds := [] } }, shared.server.cmds) := rfl
  rw [tick, Code.alone_bind, swapped,
    forM_alone _ (fun server queued => server.operator queued.cause queued.command)
      (fun current queued => operator_alone current queued.cause queued.command)]

end Alone

/-! Which lock each thread takes inside which. -/

inductive Nesting : AppThread → LockId → LockId → Prop
  | addUserSessionMap (slot : Nat) : Nesting .process (.userSession slot) .userSessionMgr
  | add (thread : AppThread) (slot : Nat) : Nesting thread (.userSession slot) .commandUnitQueue
  | updateSession (slot : Nat) : Nesting .update .userSessionMgr (.userSession slot)
  | zone (zoneId : Int) : Nesting .update .zoneMgr (.zone zoneId)
  | packetBroadcast (zoneId : Int) : Nesting .update (.zone zoneId) .commandUnitQueue

theorem opposed_nesting {first second : LockId} (process : Nesting .process first second)
    (update : Nesting .update second first) :
    ∃ slot, first = .userSession slot ∧ second = .userSessionMgr := by
  cases process with
  | addUserSessionMap slot => exact ⟨slot, rfl, rfl⟩
  | add _ slot => cases update

section Nests

variable {order : LockId → LockId → Prop} {held : List LockId}

theorem nests_top {α : Type} {lock : LockId} {body : Shared → AppCode α}
    (inner : ∀ shared, (body shared).Nests order [lock] [lock]) :
    (Code.guarded lock body).Nests order [] [] :=
  Code.Nests.guarded (fun _ inside => absurd inside List.not_mem_nil) inner

theorem nests_under {α : Type} {outer lock : LockId} {body : Shared → AppCode α}
    (allowed : order outer lock)
    (inner : ∀ shared, (body shared).Nests order [lock, outer] [lock, outer]) :
    (Code.guarded lock body).Nests order [outer] [outer] :=
  Code.Nests.guarded (List.forall_mem_singleton.mpr allowed) inner

theorem add_nests {outer : LockId} (allowed : order outer .commandUnitQueue) (cause : Nat)
    (command : Command) : (add cause command).Nests order [outer] [outer] :=
  nests_under allowed fun _ => Code.nests_modify _

theorem add_nests_top (cause : Nat) (command : Command) :
    (add cause command).Nests order [] [] :=
  nests_top fun _ => Code.nests_modify _

theorem handle_nests (slot : Nat) (env : Server.Env) (call : C2SCall) :
    (handle slot env call).Nests (Nesting .process) [] [] := by
  have adds := add_nests (Nesting.add .process slot)
  cases call with
  | auth packet =>
      refine Code.Nests.bind (fun _ => rfl) fun serial => nests_top fun _ => ?_
      refine (Code.nests_modify _).bind fun _ => ?_
      refine (nests_under (.addUserSessionMap slot) fun _ => Code.nests_modify _).bind fun _ => ?_
      exact (Code.nests_read _).bind fun _ => Code.nests_modify _
  | enter packet =>
      refine nests_top fun _ => (Code.nests_read _).bind fun session => ?_
      exact (Code.nests_modify _).bind fun _ => adds _ _
  | leave packet => exact nests_top fun _ => (Code.nests_read _).bind fun _ => adds _ _
  | move packet =>
      refine nests_top fun _ => (Code.nests_modify _).bind fun _ => ?_
      exact (Code.nests_read _).bind fun _ => adds _ _
  | interaction packet => exact nests_top fun _ => (Code.nests_read _).bind fun _ => adds _ _
  | heartbeat packet => exact nests_top fun _ => Code.nests_pure ()
  | echo packet => exact nests_top fun _ => (Code.nests_read _).bind fun _ => adds _ _

theorem attach_nests (conn : Nat) : (attach conn).Nests order [] [] := by
  refine (Code.nests_read _).bind fun param => ?_
  cases param with
  | some slot => exact Code.nests_pure slot
  | none =>
      have issued : getFreeObject.Nests order [] [] := nests_top fun _ _ => rfl
      refine issued.bind fun slot => (Code.nests_modify _).bind fun _ => ?_
      exact (Code.nests_modify _).bind fun _ => Code.nests_pure slot

theorem processPacket_nests (conn : Nat) (call : Option C2SCall) (env : Server.Env) :
    (processPacket conn call env).Nests (Nesting .process) [] [] := by
  refine (attach_nests conn).bind fun slot => ?_
  cases call with
  | none => exact Code.nests_pure ()
  | some call => exact handle_nests slot env call

theorem updateSession_nests (clock : Server.Clock) (slot : Nat) :
    (updateSession clock slot).Nests (Nesting .update) [.userSessionMgr] [.userSessionMgr] := by
  refine nests_under (.updateSession slot) fun _ => (Code.nests_read _).bind fun closed => ?_
  split
  · exact Code.nests_modify _
  · exact Code.nests_modify _

theorem release_nests (slot : Nat) : (release slot).Nests (Nesting .update) [] [] := by
  refine (Code.nests_read _).bind fun session => ?_
  have leaves : (leaveZone slot session.nub.pos.zoneId).Nests (Nesting .update) [] [] := by
    unfold leaveZone
    split
    · exact nests_top fun _ => (Code.nests_read _).bind fun _ => add_nests (.add _ slot) _ _
    · exact Code.nests_pure ()
  exact leaves.bind fun _ => Code.nests_modify _

theorem free_nests (slot : Nat) : (free slot).Nests order [] [] :=
  (nests_top fun _ => Code.nests_modify _).bind fun _ => nests_top fun _ => Code.nests_modify _

theorem doUpdate_nests (clock : Server.Clock) :
    (doUpdate clock).Nests (Nesting .update) [] [] := by
  have walk : (updateSessions clock).Nests (Nesting .update) [] [] :=
    nests_top fun shared => Code.Nests.forM (updateSession_nests clock) _
  have swap : swapReleaseList.Nests (Nesting .update) [] [] := nests_top fun _ _ => rfl
  refine walk.bind fun _ => swap.bind fun releaseList => ?_
  exact (Code.Nests.forM release_nests releaseList).bind fun _ =>
    Code.Nests.forM free_nests releaseList

theorem getUserSession_nests (token : Int) : (getUserSession token).Nests order [] [] :=
  nests_top fun _ => Code.nests_pure _

theorem getZone_nests (zoneId : Int) : (getZone zoneId).Nests order [] [] :=
  nests_top fun _ => Code.nests_pure _

theorem packetBroadcast_nests (cause : Nat) (zoneId : Int) (packet : S2CCall) :
    (packetBroadcast cause zoneId packet).Nests (Nesting .update) [] [] := by
  refine nests_top fun shared => Code.Nests.forM (fun entry => ?_) _
  exact (Code.nests_read _).bind fun _ => add_nests (.packetBroadcast zoneId) _ _

theorem readDbData_nests (entries : List (Int × Nat)) :
    (readDbData entries).Nests order held held := by
  induction entries with
  | nil => exact Code.nests_pure []
  | cons entry rest ih =>
      exact (Code.nests_read _).bind fun _ => ih.bind fun _ => Code.nests_pure _

theorem operator_nests (cause : Nat) (command : Command) :
    (operator cause command).Nests (Nesting .update) [] [] := by
  cases command with
  | sendBroadcastToAllUser zoneId packet =>
      refine (getZone_nests zoneId).bind fun found => ?_
      cases found with
      | false => exact Code.nests_pure ()
      | true => exact packetBroadcast_nests cause zoneId packet
  | sendPacketToUser token packet =>
      refine (getUserSession_nests token).bind fun user => ?_
      cases user with
      | none => exact Code.nests_pure ()
      | some slot => exact Code.nests_modify _
  | enterCharacter token zoneId posX posY =>
      refine (getUserSession_nests token).bind fun user => ?_
      cases user with
      | none => exact Code.nests_pure ()
      | some slot =>
          have entered : (zoneMgrEnterCharacter zoneId slot).Nests (Nesting .update) [] [] :=
            nests_top fun _ => nests_under (.zone zoneId) fun _ => Code.nests_modify _
          exact entered.bind fun _ => (add_nests_top _ _).bind fun _ => add_nests_top _ _
  | leaveCharacter token zoneId =>
      refine (getUserSession_nests token).bind fun user => ?_
      have reset : (resetPos user).Nests (Nesting .update) [] [] := by
        cases user with
        | none => exact Code.nests_pure ()
        | some slot => exact Code.nests_modify _
      have left : (zoneMgrLeaveCharacter zoneId token).Nests (Nesting .update) [] [] := by
        refine nests_top fun shared => ?_
        split
        · exact nests_under (.zone zoneId) fun _ => Code.nests_modify _
        · exact Code.nests_pure ()
      exact reset.bind fun _ => left.bind fun _ => add_nests_top _ _
  | sendCharacterList exceptCharacterToken zoneId =>
      refine (getUserSession_nests exceptCharacterToken).bind fun user => ?_
      cases user with
      | none => exact Code.nests_pure ()
      | some slot =>
          refine (getZone_nests zoneId).bind fun found => ?_
          cases found with
          | false => exact Code.nests_pure ()
          | true =>
              refine (nests_top fun _ => readDbData_nests _).bind fun characters => ?_
              exact Code.Nests.forM (fun packet => add_nests_top _ _) _

theorem tick_nests : tick.Nests (Nesting .update) [] [] := by
  have swap : swapOpList.Nests (Nesting .update) [] [] := nests_top fun _ _ => rfl
  exact swap.bind fun firingCmds =>
    Code.Nests.forM (fun queued => operator_nests queued.cause queued.command) firingCmds

end Nests

/-! Where the two orders meet. Of the handlers only `C2S_Auth` goes on to the lock of
`UserSessionMgr` with a session's lock held, and the walk of `DoUpdate` goes on to the locks of
the sessions it has not come to. -/

theorem handle_avoids (slot : Nat) (env : Server.Env) {call : C2SCall}
    (other : ∀ packet, call ≠ .auth packet) : (handle slot env call).Avoids .userSessionMgr := by
  cases call with
  | auth packet => exact absurd rfl (other packet)
  | enter packet | leave packet | move packet | interaction packet | heartbeat packet
  | echo packet =>
      simp [handle, c2sEnter, c2sLeave, c2sMove, c2sInteraction, c2sHeartbeat, c2sEcho, add,
        readSession, modifyServer, Code.guarded, Code.read, Code.modify, Code.Avoids, bind, pure,
        Code.bind]

theorem handle_reaches_iff (slot : Nat) (env : Server.Env) (call : C2SCall) :
    (handle slot env call).Reaches (.userSession slot) .userSessionMgr ↔
      ∃ packet, call = .auth packet := by
  constructor
  · intro reaches
    by_contra other
    exact (handle_avoids slot env fun packet same => other ⟨packet, same⟩).not_reaches reaches
  · rintro ⟨packet, rfl⟩
    exact ⟨{}, Or.inr ⟨{}, {}, Or.inl rfl⟩⟩

theorem updateSession_reaches {clock : Server.Clock} {slot other : Nat}
    (reaches : (updateSession clock slot).Reaches .userSessionMgr (.userSession other)) :
    slot = other := by
  rcases reaches with same | ⟨shared, later⟩
  · exact LockId.userSession.inj same
  · rcases Code.reaches_bind later with inner | ⟨_, -, done⟩
    · rcases Code.reaches_bind inner with ⟨_, done⟩ | ⟨closed, change⟩
      · exact absurd done id
      · split at change
        · exact absurd change.choose_spec id
        · exact absurd change.choose_spec id
    · exact absurd done id

theorem updateSession_passes {clock : Server.Clock} {slot other : Nat} {next : AppCode Unit}
    (reaches : next.Reaches .userSessionMgr (.userSession other)) :
    (updateSession clock slot >>= fun _ => next).Reaches .userSessionMgr (.userSession other) := by
  refine Or.inr ⟨{}, {}, ?_⟩
  dsimp only [Code.bind]
  split
  · exact ⟨{}, nofun, reaches⟩
  · exact ⟨{}, nofun, reaches⟩

theorem walk_reaches_iff (clock : Server.Clock) (slots : List Nat) (slot : Nat) :
    (slots.forM (updateSession clock)).Reaches .userSessionMgr (.userSession slot) ↔
      slot ∈ slots := by
  induction slots with
  | nil => exact ⟨fun reaches => absurd reaches id, fun inside => absurd inside List.not_mem_nil⟩
  | cons first rest ih =>
      constructor
      · intro reaches
        rcases Code.reaches_bind reaches with here | ⟨_, later⟩
        · exact List.mem_cons.mpr (Or.inl (updateSession_reaches here).symm)
        · exact List.mem_cons_of_mem _ (ih.mp later)
      · intro inside
        rcases List.mem_cons.mp inside with rfl | later
        · exact Or.inl rfl
        · exact updateSession_passes (ih.mpr later)

end AppCode

namespace AppMachine

open AppCode

def initial : AppMachine := { data := {} }

/-- The step does not let `C2S_Auth` of a session and a walk of `DoUpdate` that has the session
ahead of it overlap: `ProcessThread` takes no session's lock that it goes on from to the lock of
`UserSessionMgr` while `UpdateThread` holds the latter and goes on to the session, and
`UpdateThread` does not take the lock of `UserSessionMgr` for a walk to a session while
`ProcessThread` holds the lock of the session and goes on to the lock of `UserSessionMgr`. -/
def Apart (machine : AppMachine) : Event → Prop
  | .move .process =>
      ∀ slot, ¬machine.Crosses .process .update (.userSession slot) .userSessionMgr
  | .move .update =>
      ∀ slot, ¬machine.Crosses .update .process .userSessionMgr (.userSession slot)
  | _ => True

structure Ordered (machine : AppMachine) : Prop where
  process : ∃ held, machine.Orderly (Nesting .process) .process held
  update : ∃ held, machine.Orderly (Nesting .update) .update held
  uncrossed : ∀ slot, ¬machine.Crossed .process .update (.userSession slot) .userSessionMgr

theorem initial_ordered : initial.Ordered := by
  refine ⟨⟨[], Machine.idle_orderly _⟩, ⟨[], Machine.idle_orderly _⟩, ?_⟩
  intro slot crossed
  exact absurd crossed.holds nofun

theorem Ordered.not_deadlocked {machine : AppMachine} (ordered : machine.Ordered) :
    ¬machine.Deadlocked .process .update := by
  intro deadlocked
  obtain ⟨mine, theirs, crossed⟩ := deadlocked.crossed
  obtain ⟨held, process⟩ := ordered.process
  obtain ⟨locks, update⟩ := ordered.update
  obtain ⟨nested, otherNested⟩ := crossed.opposed process update
  obtain ⟨slot, rfl, rfl⟩ := opposed_nesting nested otherNested
  exact ordered.uncrossed slot crossed

theorem update_ne_process : AppThread.update ≠ AppThread.process := nofun

theorem Ordered.start_process {machine : AppMachine} (ordered : machine.Ordered)
    {code : AppCode Unit} (nests : code.Nests (Nesting .process) [] []) :
    Ordered (machine.start .process code) := by
  obtain ⟨⟨held, process⟩, ⟨locks, update⟩, uncrossed⟩ := ordered
  refine ⟨process.start_self nests, ⟨locks, update.start_other update_ne_process code⟩, ?_⟩
  intro slot crossed
  exact uncrossed slot (Machine.crossed_of_start process crossed)

theorem Ordered.start_update {machine : AppMachine} (ordered : machine.Ordered)
    {code : AppCode Unit} (nests : code.Nests (Nesting .update) [] []) :
    Ordered (machine.start .update code) := by
  obtain ⟨⟨held, process⟩, ⟨locks, update⟩, uncrossed⟩ := ordered
  refine ⟨⟨held, process.start_other update_ne_process.symm code⟩, update.start_self nests, ?_⟩
  intro slot crossed
  exact uncrossed slot (Machine.crossed_of_start update crossed.symm).symm

theorem Ordered.move {machine : AppMachine} (ordered : machine.Ordered) (thread : AppThread)
    (apart : machine.Apart (.move thread)) : Ordered (machine.move thread) := by
  obtain ⟨⟨held, process⟩, ⟨locks, update⟩, uncrossed⟩ := ordered
  cases thread with
  | process =>
      refine ⟨process.move_self, ⟨locks, update.move_other update_ne_process process⟩, ?_⟩
      intro slot crossed
      rcases Machine.crossed_of_move update_ne_process crossed with before | crosses
      · exact uncrossed slot before
      · exact apart slot crosses
  | update =>
      refine ⟨⟨held, process.move_other update_ne_process.symm update⟩, update.move_self, ?_⟩
      intro slot crossed
      rcases Machine.crossed_of_move update_ne_process.symm crossed.symm with before | crosses
      · exact uncrossed slot before.symm
      · exact apart slot crosses

theorem Ordered.network {machine : AppMachine} (ordered : machine.Ordered)
    (event : Server.Event) : (machine.network event).Ordered := by
  obtain ⟨⟨held, process⟩, ⟨locks, update⟩, uncrossed⟩ := ordered
  refine ⟨⟨held, process.distinct, process.holds, process.nests⟩,
    ⟨locks, update.distinct, update.holds, update.nests⟩, ?_⟩
  intro slot crossed
  exact uncrossed slot ⟨crossed.holds, crossed.wants, crossed.otherHolds, crossed.otherWants⟩

theorem step_ordered (machine : AppMachine) (event : Event) (ordered : machine.Ordered)
    (apart : machine.Apart event) : (machine.step event).Ordered := by
  cases event with
  | connect conn => exact ordered.network (.connect conn)
  | close conn => exact ordered.network (.close conn)
  | packet conn call env => exact ordered.start_process (processPacket_nests conn call env)
  | doUpdate clock => exact ordered.start_update (doUpdate_nests clock)
  | tick => exact ordered.start_update tick_nests
  | move thread => exact ordered.move thread apart

/-- In every interleaving in which no step lets `C2S_Auth` and the walk of `DoUpdate` overlap on
a session, the two threads never wait for each other. -/
theorem no_deadlock_of_apart (events : List Event) (apart : Run.Along step Apart initial events)
    (before after : List Event) (reached : events = before ++ after) :
    ¬(before.foldl step initial).Deadlocked .process .update := by
  subst reached
  exact (Run.Along.invariant step_ordered initial_ordered apart.initial).not_deadlocked

theorem apart_process_of_idle {machine : AppMachine} (idle : machine.code .update = .ret ()) :
    machine.Apart (.move .process) := by
  rintro slot ⟨next, -, -, -, wants⟩
  rw [idle] at wants
  exact wants

/-- Beside code of `ProcessThread` that leaves the lock of `UserSessionMgr` alone, every step is
apart. -/
theorem apart_of_avoids {machine : AppMachine}
    (avoids : (machine.code .process).Avoids .userSessionMgr) (event : Event) :
    machine.Apart event := by
  cases event with
  | move thread =>
      cases thread with
      | process =>
          rintro slot ⟨next, asks, later, -, -⟩
          rw [asks] at avoids
          exact (avoids.2 machine.data).not_reaches later
      | update =>
          rintro slot ⟨next, -, -, -, reaches⟩
          exact avoids.not_reaches reaches
  | _ => trivial

theorem along_of_avoids {machine : AppMachine}
    (avoids : (machine.code .process).Avoids .userSessionMgr) (threads : List AppThread) :
    Run.Along step Apart machine (threads.map .move) := by
  induction threads generalizing machine with
  | nil => trivial
  | cons thread rest ih =>
      exact ⟨apart_of_avoids avoids _, ih (Locks.Machine.move_avoids avoids thread)⟩

def everyoneDue : Server.Clock :=
  { due := fun _ => true, heartbeat := fun _ => false, heartbeatOver := fun _ => false }

/-- `C2S_Auth` of a new session runs to its end before the walk of `DoUpdate` begins. The walk then
waits for the session, which `C2S_Move` has locked. -/
theorem no_deadlock_of_auth_before_walk :
    let auth : List Event := .connect 1 :: .packet 1 (some (.auth {})) {} ::
      List.replicate 15 (.move .process)
    let both : List Event := [.packet 1 (some (.move {})) {}, .move .process,
      .doUpdate everyoneDue] ++ [AppThread.process, .update].map .move
    ((auth ++ both).foldl step initial).WaitsFor .update .process ∧
      ¬((auth ++ both).foldl step initial).Deadlocked .process .update := by
  intro auth both
  have avoids : (handle 99 {} (.move {})).Avoids .userSessionMgr :=
    handle_avoids 99 {} fun _ => C2SCall.noConfusion
  refine ⟨⟨.userSession 99, _, rfl, rfl⟩,
    no_deadlock_of_apart (auth ++ both) ⟨trivial, trivial, ?_⟩ (auth ++ both) [] ?_⟩
  · iterate 15 refine ⟨apart_process_of_idle rfl, ?_⟩
    exact ⟨trivial, apart_process_of_idle rfl, trivial, along_of_avoids avoids _⟩
  · exact (List.append_nil _).symm

/-- The first packet of connection 1 is a `CS_P_AUTH`. `ProcessThread` has the session's lock
when `DoUpdate` takes the lock of `UserSessionMgr`. -/
def authDuringWalk : List Event :=
  [.connect 1, .packet 1 (some (.auth {})) {}] ++ List.replicate 9 (.move .process) ++
    [.doUpdate everyoneDue, .move .update]

theorem auth_during_walk_deadlocks :
    (authDuringWalk.foldl step initial).Deadlocked .process .update := by
  refine ⟨⟨.userSessionMgr, ?_⟩, ⟨.userSession 99, ?_⟩⟩
  · exact ⟨_, rfl, rfl⟩
  · exact ⟨_, rfl, rfl⟩

end AppMachine

end ProjectPl
