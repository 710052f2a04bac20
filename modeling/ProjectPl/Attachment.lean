import ProjectPl.AppCore
import ProjectPl.Server

/-!
Sessions and connectors in pairs. A session is in use from the packet that creates it to its
`Release`; its connector points back to it and is in use itself, as long as no session is
attached to a connector that has already gone back to the pool.
-/

namespace ProjectPl

namespace Server

/-! Steps that leave the links between sessions and connectors alone. -/

structure SameLinks (server next : Server) : Prop where
  mgr : next.mgr = server.mgr
  connector : ∀ slot, (next.sessions slot).pConnector = (server.sessions slot).pConnector
  param : ∀ conn, (next.links conn).param = (server.links conn).param

theorem SameOwners.sameLinks {server next : Server} (same : SameOwners server next) :
    SameLinks server next :=
  ⟨same.mgr, same.connector, same.param⟩

theorem handle_sameLinks (server : Server) (slot : Nat) (env : Env) (call : C2SCall) :
    SameLinks server (server.handle slot env call) := by
  by_cases auth : ∃ packet, call = .auth packet
  · obtain ⟨packet, rfl⟩ := auth
    refine ⟨rfl, ?_, fun _ => rfl⟩
    intro other
    by_cases same : other = slot
    · subst same
      simp [handle, c2sAuth, sendPacket, setSession]
    · simp [handle, c2sAuth, sendPacket, setSession, same]
  · apply (handle_sameOwners server slot env call _).sameLinks
    exact fun packet same => auth ⟨packet, same⟩

end Server

namespace App

def InUse (app : App) (slot : Nat) : Prop :=
  slot ∈ app.server.mgr.usedList ∧ slot ∉ app.released

/-- Every session in use is the one its connector points to, that connector is in use, and no
other session has it. -/
structure Paired (app : App) : Prop where
  attached : ∀ slot, app.InUse slot → ∀ conn, (app.server.sessions slot).pConnector = some conn →
    (app.server.links conn).param = some slot ∧ conn ∈ app.connectorMgr.usedList
  alone : ∀ first second, app.InUse first → app.InUse second →
    ∀ conn, (app.server.sessions first).pConnector = some conn →
      (app.server.sessions second).pConnector = some conn → first = second
  free : ∀ conn ∈ app.connectorMgr.freeList, ∀ slot, app.InUse slot →
    (app.server.sessions slot).pConnector ≠ some conn

structure Matched (app : App) : Prop where
  pool : app.connectorMgr.Kept
  kept : app.server.mgr.Kept
  linked : ∀ conn slot, (app.server.links conn).param = some slot →
    app.InUse slot ∧ (app.server.sessions slot).pConnector = some conn ∧
      conn ∈ app.connectorMgr.usedList
  attached : ∀ slot, app.InUse slot → ∀ conn, (app.server.sessions slot).pConnector = some conn →
    (app.server.links conn).param = some slot
  distinct : (app.releaseList ++ app.released).Nodup
  leaving : ∀ slot ∈ app.releaseList ++ app.released, slot ∈ app.server.mgr.usedList

theorem Matched.paired {app : App} (matched : Matched app) : Paired app := by
  have used : ∀ slot, app.InUse slot → ∀ conn,
      (app.server.sessions slot).pConnector = some conn → conn ∈ app.connectorMgr.usedList :=
    fun slot inUse conn connector =>
      (matched.linked conn slot (matched.attached slot inUse conn connector)).2.2
  refine ⟨?_, ?_, ?_⟩
  · intro slot inUse conn connector
    exact ⟨matched.attached slot inUse conn connector, used slot inUse conn connector⟩
  · intro first second firstInUse secondInUse conn firstConnector secondConnector
    have here := matched.attached first firstInUse conn firstConnector
    have there := matched.attached second secondInUse conn secondConnector
    exact Option.some.inj (here.symm.trans there)
  · intro conn listed slot inUse connector
    have apart := (List.nodup_append'.mp matched.pool.distinct).2.2
    exact apart listed (used slot inUse conn connector)

theorem start_matched : Matched {} := by
  refine ⟨ObjectPoolMgr.new_kept 10, ObjectMgr.new_kept, ?_, ?_, List.nodup_nil, ?_⟩
  · intro conn slot linked
    cases linked
  · intro slot inUse
    cases inUse.1
  · intro slot listed
    cases listed

/-! A step that keeps the links, and takes no connector with a session out of use. -/

theorem Matched.keep {app next : App} (matched : Matched app)
    (links : Server.SameLinks app.server next.server) (pool : next.connectorMgr.Kept)
    (used : ∀ conn ∈ app.connectorMgr.usedList, (app.server.links conn).param ≠ none →
      conn ∈ next.connectorMgr.usedList)
    (released : next.released = app.released)
    (distinct : (next.releaseList ++ next.released).Nodup)
    (leaving : ∀ slot ∈ next.releaseList ++ next.released, slot ∈ app.server.mgr.usedList) :
    Matched next := by
  obtain ⟨mgr, connector, param⟩ := links
  have inUse : ∀ slot, next.InUse slot ↔ app.InUse slot := by
    intro slot
    unfold InUse
    rw [mgr, released]
  refine ⟨pool, mgr ▸ matched.kept, ?_, ?_, distinct, ?_⟩
  · intro conn slot linked
    rw [param] at linked
    obtain ⟨slotInUse, owner, connInUse⟩ := matched.linked conn slot linked
    rw [inUse, connector]
    refine ⟨slotInUse, owner, used conn connInUse ?_⟩
    rw [linked]
    exact Option.some_ne_none slot
  · intro slot slotInUse conn
    rw [inUse] at slotInUse
    rw [connector, param]
    exact matched.attached slot slotInUse conn
  · rw [mgr]
    exact leaving

theorem Matched.keep_lists {app next : App} (matched : Matched app)
    (links : Server.SameLinks app.server next.server) (pool : next.connectorMgr.Kept)
    (used : ∀ conn ∈ app.connectorMgr.usedList, (app.server.links conn).param ≠ none →
      conn ∈ next.connectorMgr.usedList)
    (releaseList : next.releaseList = app.releaseList) (released : next.released = app.released) :
    Matched next := by
  apply matched.keep links pool used released
  · rw [releaseList, released]
    exact matched.distinct
  · rw [releaseList, released]
    exact matched.leaving

/-! `Network` and `TryRelease`. -/

theorem setFreeObject_matched {app : App} (matched : Matched app) {conn : Nat}
    (detached : (app.server.links conn).param = none) : Matched (app.setFreeObject conn) := by
  obtain ⟨pool, used⟩ := ObjectPoolMgr.setFreeObject_kept matched.pool conn
  refine matched.keep_lists ⟨rfl, fun _ => rfl, fun _ => rfl⟩ pool ?_ rfl rfl
  intro other inUse linked
  refine (used other).mpr ⟨inUse, ?_⟩
  rintro rfl
  exact linked detached

theorem closeLink_matched {app : App} (matched : Matched app) (conn : Nat) :
    Matched { app with server := app.server.closeLink conn } :=
  matched.keep_lists (Server.closeLink_sameOwners app.server conn).sameLinks matched.pool
    (fun _ inUse _ => inUse) rfl rfl

theorem tryRelease_matched {app : App} (matched : Matched app) (conn : Nat) :
    Matched (app.tryRelease conn) := by
  have closed := closeLink_matched matched conn
  unfold tryRelease
  split
  next detached =>
    apply setFreeObject_matched closed
    rw [(Server.closeLink_sameOwners app.server conn).param]
    exact detached
  next => exact closed

theorem acceptPrepare_matched {app : App} (matched : Matched app) (opens : Bool) :
    Matched (app.acceptPrepare opens) := by
  obtain ⟨pool, used⟩ := ObjectPoolMgr.getFreeObject_kept matched.pool
  have taken : Matched { app with connectorMgr := app.connectorMgr.getFreeObject.1 } :=
    matched.keep_lists ⟨rfl, fun _ => rfl, fun _ => rfl⟩ pool (fun conn inUse _ => used conn inUse)
      rfl rfl
  simp only [acceptPrepare]
  split
  · exact taken
  next conn _ =>
    split
    · refine taken.keep_lists ?_ pool (fun _ inUse _ => inUse) rfl rfl
      refine ⟨rfl, fun _ => rfl, ?_⟩
      intro other
      by_cases same : other = conn
      · subst same
        simp [Server.setLink]
      · simp [Server.setLink, same]
    · exact taken

/-! A packet is popped. The session it creates is attached to a connector that is in use, or
nothing holds any more. -/

theorem attach_matched {app : App} (matched : Matched app) {conn : Nat}
    (inUse : (app.server.links conn).param = none → conn ∈ app.connectorMgr.usedList) :
    Matched { app with server := (app.server.attach conn).1 } := by
  cases param : (app.server.links conn).param with
  | some slot =>
      rw [Server.attach_known param]
      exact matched
  | none =>
      have attaches := Server.attach_attaches param matched.kept
      generalize (app.server.attach conn).1 = next at attaches ⊢
      generalize (app.server.attach conn).2 = slot at attaches
      have unreleased : slot ∉ app.released :=
        fun listed => attaches.fresh (matched.leaving slot (List.mem_append_right _ listed))
      refine ⟨matched.pool, attaches.kept, ?_, ?_, matched.distinct, ?_⟩
      · intro other known linked
        dsimp only at linked ⊢
        rw [attaches.param] at linked
        unfold InUse
        dsimp only
        rw [attaches.inUse_iff]
        split at linked
        next same =>
          obtain rfl := Option.some.inj linked
          subst same
          rw [attaches.session_new]
          exact ⟨⟨Or.inr rfl, unreleased⟩, rfl, inUse param⟩
        next =>
          obtain ⟨⟨member, kept⟩, owner, connInUse⟩ := matched.linked other known linked
          rw [attaches.session_old member]
          exact ⟨⟨Or.inl member, kept⟩, owner, connInUse⟩
      · intro known knownInUse other connector
        obtain ⟨member, kept⟩ := knownInUse
        dsimp only at member kept connector ⊢
        rw [attaches.param]
        rcases (attaches.inUse_iff known).mp member with before | rfl
        · rw [attaches.session_old before] at connector
          have linked := matched.attached known ⟨before, kept⟩ other connector
          rw [if_neg, linked]
          rintro rfl
          rw [param] at linked
          cases linked
        · rw [attaches.session_new] at connector
          rw [if_pos (Option.some.inj connector).symm]
      · intro known listed
        exact (attaches.inUse_iff known).mpr (Or.inl (matched.leaving known listed))

theorem packet_matched {app : App} (matched : Matched app) {conn : Nat}
    (inUse : (app.server.links conn).param = none → conn ∈ app.connectorMgr.usedList)
    (call : Option C2SCall) (env : Server.Env) :
    Matched { app with server := app.server.packet conn call env } := by
  have attached := attach_matched matched inUse
  simp only [Server.packet]
  cases call with
  | none => exact attached
  | some call =>
      exact attached.keep_lists (Server.handle_sameLinks _ _ env call) attached.pool
        (fun _ inUse _ => inUse) rfl rfl

/-! `DoUpdate`. -/

theorem updateSession_matched {app : App} (matched : Matched app) (clock : Server.Clock)
    (slot : Nat) : Matched (app.updateSession clock slot) := by
  unfold updateSession
  split
  · exact matched
  · split
    · split
      · exact tryRelease_matched matched _
      · exact matched.keep_lists (Server.sendPacket_sameOwners _ _ _ _).sameLinks matched.pool
          (fun _ inUse _ => inUse) rfl rfl
    · exact matched

theorem setReleaseObj_matched {app : App} (matched : Matched app) {slot : Nat}
    (inUse : slot ∈ app.server.mgr.usedList) (fresh : slot ∉ app.releaseList)
    (none : app.released = []) : Matched (app.setReleaseObj slot) := by
  refine matched.keep ⟨rfl, fun _ => rfl, fun _ => rfl⟩ matched.pool (fun _ inUse _ => inUse) rfl
    ?_ ?_
  · have distinct := matched.distinct
    rw [none, List.append_nil] at distinct
    simp only [setReleaseObj, none, List.append_nil]
    exact List.Nodup.append distinct (List.nodup_singleton slot)
      (List.disjoint_singleton.mpr fresh)
  · intro known listed
    simp only [setReleaseObj, none, List.append_nil] at listed
    rcases List.mem_append.mp listed with old | new
    · exact matched.leaving known (List.mem_append_left _ old)
    · rw [List.mem_singleton.mp new]
      exact inUse

theorem updateSession_lists (app : App) (clock : Server.Clock) (slot : Nat) :
    (app.updateSession clock slot).releaseList = app.releaseList ∧
      (app.updateSession clock slot).released = app.released ∧
      (app.updateSession clock slot).server.mgr = app.server.mgr := by
  unfold updateSession tryRelease
  split
  · exact ⟨rfl, rfl, rfl⟩
  · split
    · split
      · split
        · exact ⟨rfl, rfl, rfl⟩
        · exact ⟨rfl, rfl, rfl⟩
      · exact ⟨rfl, rfl, rfl⟩
    · exact ⟨rfl, rfl, rfl⟩

theorem updateSessions_matched {app : App} (matched : Matched app) (clock : Server.Clock)
    {slots : List Nat} (none : app.released = []) (distinct : (app.releaseList ++ slots).Nodup)
    (inUse : ∀ slot ∈ slots, slot ∈ app.server.mgr.usedList) :
    Matched (app.updateSessions clock slots) := by
  induction slots generalizing app with
  | nil => exact matched
  | cons slot rest ih =>
      simp only [updateSessions]
      obtain ⟨listed, fresh, apart⟩ := List.nodup_append'.mp distinct
      have new : slot ∉ app.releaseList := fun old => apart old List.mem_cons_self
      have here := inUse slot List.mem_cons_self
      have later : ∀ known ∈ rest, known ∈ app.server.mgr.usedList :=
        fun known member => inUse known (List.mem_cons_of_mem _ member)
      split
      · obtain ⟨lists, released, mgr⟩ := updateSession_lists (app.setReleaseObj slot) clock slot
        apply ih (updateSession_matched (setReleaseObj_matched matched here new none) clock slot)
        · rw [released]
          exact none
        · rw [lists, setReleaseObj, List.append_assoc]
          exact distinct
        · rw [mgr]
          exact later
      · obtain ⟨lists, released, mgr⟩ := updateSession_lists app clock slot
        apply ih (updateSession_matched matched clock slot)
        · rw [released]
          exact none
        · rw [lists]
          exact List.nodup_append'.mpr ⟨listed, (List.nodup_cons.mp fresh).2,
            fun known old member => apart old (List.mem_cons_of_mem _ member)⟩
        · rw [mgr]
          exact later

theorem leaving_inUse {app : App} (matched : Matched app) {slot : Nat}
    (listed : slot ∈ app.releaseList) : app.InUse slot := by
  refine ⟨matched.leaving slot (List.mem_append_left _ listed), ?_⟩
  exact (List.nodup_append'.mp matched.distinct).2.2 listed

theorem release_parts {app : App} {slot : Nat} {rest : List Nat}
    (listed : app.releaseList = slot :: rest) :
    app.release.server = app.server.release slot ∧ app.release.releaseList = rest ∧
      app.release.released = app.released ++ [slot] := by
  unfold release
  rw [listed]
  dsimp only
  cases (app.server.sessions slot).pConnector with
  | none => exact ⟨rfl, rfl, rfl⟩
  | some conn => exact ⟨rfl, rfl, rfl⟩

theorem release_pool {app : App} (pool : app.connectorMgr.Kept) {slot : Nat} {rest : List Nat}
    (listed : app.releaseList = slot :: rest) :
    app.release.connectorMgr.Kept ∧ ∀ conn ∈ app.connectorMgr.usedList,
      (app.server.sessions slot).pConnector ≠ some conn →
        conn ∈ app.release.connectorMgr.usedList := by
  unfold release
  rw [listed]
  dsimp only
  cases (app.server.sessions slot).pConnector with
  | none => exact ⟨pool, fun _ used _ => used⟩
  | some conn =>
      obtain ⟨kept, used⟩ := ObjectPoolMgr.setFreeObject_kept pool conn
      refine ⟨kept, ?_⟩
      intro other member different
      refine (used other).mpr ⟨member, ?_⟩
      rintro rfl
      exact different rfl

/-- After `Release` the session is out of use, and so is the connector it had. -/
theorem release_matched {app : App} (matched : Matched app) : Matched app.release := by
  cases listed : app.releaseList with
  | nil =>
      unfold release
      rw [listed]
      exact matched
  | cons slot rest =>
      have inUse := leaving_inUse matched (listed ▸ List.mem_cons_self)
      obtain ⟨server, releaseList, released⟩ := release_parts listed
      obtain ⟨pool, used⟩ := release_pool matched.pool listed
      have param : ∀ conn, (app.release.server.links conn).param =
          if (app.server.sessions slot).pConnector = some conn then none
          else (app.server.links conn).param := by
        intro conn
        rw [server, Server.release_eq]
        dsimp only
        split
        · rfl
        · rfl
      have sessions : app.release.server.sessions = app.server.sessions := by
        rw [server, Server.release_eq]
      have mgr : app.release.server.mgr = app.server.mgr := by
        rw [server, Server.release_eq]
      have others : ∀ known, app.release.InUse known ↔ app.InUse known ∧ known ≠ slot := by
        intro known
        unfold InUse
        rw [mgr, released]
        simp only [List.mem_append, List.mem_singleton, not_or, and_assoc]
      have moved : (app.release.releaseList ++ app.release.released).Perm
          (app.releaseList ++ app.released) := by
        rw [releaseList, released, listed, ← List.append_assoc]
        exact List.perm_append_singleton slot (rest ++ app.released)
      refine ⟨pool, mgr ▸ matched.kept, ?_, ?_, moved.nodup_iff.mpr matched.distinct, ?_⟩
      · intro conn known linked
        rw [param] at linked
        split at linked
        · cases linked
        next different =>
          obtain ⟨knownInUse, connector, connInUse⟩ := matched.linked conn known linked
          rw [others, sessions]
          refine ⟨⟨knownInUse, ?_⟩, connector, used conn connInUse different⟩
          rintro rfl
          exact different connector
      · intro known knownInUse conn connector
        rw [others] at knownInUse
        rw [sessions] at connector
        have linked := matched.attached known knownInUse.1 conn connector
        rw [param, if_neg, linked]
        intro same
        have here := matched.attached slot inUse conn same
        rw [linked] at here
        exact knownInUse.2 (Option.some.inj here)
      · intro known member
        rw [moved.mem_iff] at member
        rw [mgr]
        exact matched.leaving known member

theorem free_matched {app : App} (matched : Matched app) : Matched app.free := by
  unfold free
  split
  next slot rest done listed =>
    have inUse : slot ∈ app.server.mgr.usedList := by
      apply matched.leaving
      rw [listed]
      exact List.mem_append_right _ List.mem_cons_self
    obtain ⟨kept, used⟩ := ObjectMgr.setFreeObject_kept matched.kept inUse
    have distinct := matched.distinct
    rw [done, listed, List.nil_append] at distinct
    obtain ⟨fresh, later⟩ := List.nodup_cons.mp distinct
    have others : ∀ known, InUse { app with server := app.server.free slot, released := rest } known ↔
        app.InUse known := by
      intro known
      simp only [InUse, Server.free, used, listed, List.mem_cons, not_or, and_assoc]
    refine ⟨matched.pool, kept, ?_, ?_, ?_, ?_⟩
    · intro conn known linked
      rw [others]
      exact matched.linked conn known linked
    · intro known knownInUse conn connector
      rw [others] at knownInUse
      exact matched.attached known knownInUse conn connector
    · rw [done, List.nil_append]
      exact later
    · intro known member
      rw [done, List.nil_append] at member
      refine (used known).mpr ⟨?_, ?_⟩
      · apply matched.leaving
        rw [listed]
        exact List.mem_append_right _ (List.mem_cons_of_mem _ member)
      · rintro rfl
        exact fresh member
  next => exact matched

/-! Whole runs. -/

/-- A packet of a connector without a session is popped only while that connector is in use, and
an accept fails only before a session is attached. -/
def AttachesInUse (app : App) : Event → Prop
  | .pop _ => ∀ conn call rest, app.recvPackets = (conn, call) :: rest →
      (app.server.links conn).param = none → conn ∈ app.connectorMgr.usedList
  | .acceptFailed conn => (app.server.links conn).param = none
  | _ => True

theorem step_matched (app : App) (event : Event) (matched : Matched app)
    (attaches : AttachesInUse app event) : Matched (app.step event) := by
  cases event with
  | acceptPrepare opens => exact acceptPrepare_matched matched opens
  | acceptFailed conn => exact setFreeObject_matched matched attaches
  | push conn call =>
      exact matched.keep_lists ⟨rfl, fun _ => rfl, fun _ => rfl⟩ matched.pool
        (fun _ inUse _ => inUse) rfl rfl
  | pop env =>
      simp only [step, pop]
      split
      · exact matched
      next conn call rest queued =>
        have popped := packet_matched matched (attaches conn call rest queued) call env
        exact popped.keep_lists ⟨rfl, fun _ => rfl, fun _ => rfl⟩ popped.pool
          (fun _ inUse _ => inUse) rfl rfl
  | noBytes conn => exact tryRelease_matched matched conn
  | disconnect conn => exact closeLink_matched matched conn
  | update clock =>
      simp only [step]
      split
      next idle =>
        apply updateSessions_matched matched clock idle.2.2
        · rw [idle.2.1, List.nil_append]
          exact (List.nodup_append'.mp matched.kept.distinct).2.1
        · exact fun slot inUse => inUse
      next => exact matched
  | release => exact release_matched matched
  | free => exact free_matched matched
  | tick =>
      simp only [step]
      split
      · exact matched.keep_lists (Server.tick_sameOwners app.server).sameLinks matched.pool
          (fun _ inUse _ => inUse) rfl rfl
      · exact matched
  | fire =>
      exact matched.keep_lists (Server.fire_sameOwners app.server).sameLinks matched.pool
        (fun _ inUse _ => inUse) rfl rfl

/-! A step that does not meet the condition leaves a session on a free connector. -/

theorem pop_unpaired {app : App} (matched : Matched app) {conn : Nat} {call : Option C2SCall}
    {rest : List (Nat × Option C2SCall)} (queued : app.recvPackets = (conn, call) :: rest)
    (detached : (app.server.links conn).param = none)
    (unused : conn ∉ app.connectorMgr.usedList) (env : Server.Env) :
    ¬Paired (app.pop env) := by
  intro paired
  have attaches := Server.attach_attaches detached matched.kept
  have links : Server.SameLinks (app.server.attach conn).1 (app.server.packet conn call env) := by
    cases call with
    | none => exact ⟨rfl, fun _ => rfl, fun _ => rfl⟩
    | some call => exact Server.handle_sameLinks _ _ env call
  have next : app.pop env =
      { app with recvPackets := rest, server := app.server.packet conn call env } := by
    unfold pop
    rw [queued]
  have inUse : (app.pop env).InUse (app.server.attach conn).2 := by
    rw [next]
    refine ⟨?_, ?_⟩
    · dsimp only
      rw [links.mgr]
      exact (attaches.inUse_iff _).mpr (Or.inr rfl)
    · exact fun listed => attaches.fresh (matched.leaving _ (List.mem_append_right _ listed))
  have connector : ((app.pop env).server.sessions (app.server.attach conn).2).pConnector =
      some conn := by
    rw [next]
    dsimp only
    rw [links.connector, attaches.session_new]
  have member := (paired.attached _ inUse conn connector).2
  rw [next] at member
  exact unused member

theorem acceptFailed_unpaired {app : App} (matched : Matched app) {conn slot : Nat}
    (linked : (app.server.links conn).param = some slot) : ¬Paired (app.setFreeObject conn) := by
  intro paired
  obtain ⟨inUse, connector, -⟩ := matched.linked conn slot linked
  have member := (paired.attached slot inUse conn connector).2
  have used := (ObjectPoolMgr.setFreeObject_kept matched.pool conn).2 conn
  exact (used.mp member).2 rfl

theorem step_unpaired (app : App) (event : Event) (matched : Matched app)
    (violated : ¬AttachesInUse app event) : ¬Paired (app.step event) := by
  cases event with
  | pop env =>
      simp only [AttachesInUse, not_forall] at violated
      obtain ⟨conn, call, rest, queued, detached, unused⟩ := violated
      exact pop_unpaired matched queued detached unused env
  | acceptFailed conn =>
      obtain ⟨slot, linked⟩ := Option.ne_none_iff_exists'.mp violated
      exact acceptFailed_unpaired matched linked
  | _ => exact absurd trivial violated

/-- Sessions and connectors are in pairs in every state of a run exactly when sessions are only
ever attached to connectors in use. -/
theorem always_paired_iff (events : List Event) :
    (∀ before after, events = before ++ after → Paired (run {} before)) ↔
      Run.Along step AttachesInUse {} events :=
  Run.always_iff_along step_matched (fun _ matched => matched.paired) step_unpaired start_matched
    events

/-- The packet of a connection that closes before the packet is popped: its connector is back in
the pool when a session is attached to it. -/
theorem session_on_free_connector :
    ¬Paired (run {} [.acceptPrepare true, .push 0 (some (.auth { id := 5 })), .noBytes 0,
      .pop {}]) := by
  intro paired
  have member := (paired.attached 99 ⟨by decide, by decide⟩ 0 (by decide)).2
  revert member
  decide

/-! The parts of `DoUpdate` one after the other are the `DoUpdate` of `Server`. -/

theorem tryRelease_server (app : App) (conn : Nat) :
    (app.tryRelease conn).server = app.server.closeLink conn := by
  unfold tryRelease
  split
  · rfl
  · rfl

theorem updateSession_server (app : App) (clock : Server.Clock) (slot : Nat) :
    (app.updateSession clock slot).server = app.server.updateSession clock slot := by
  unfold updateSession Server.updateSession
  cases (app.server.sessions slot).pConnector with
  | none => rfl
  | some conn =>
      dsimp only
      split
      · split
        · exact tryRelease_server app conn
        · rfl
      · rfl

theorem updateSessions_server (app : App) (clock : Server.Clock) (slots : List Nat) :
    (app.updateSessions clock slots).server = (app.server.updateSessions clock slots).1 ∧
      (app.updateSessions clock slots).releaseList =
        app.releaseList ++ (app.server.updateSessions clock slots).2 ∧
      (app.updateSessions clock slots).released = app.released := by
  induction slots generalizing app with
  | nil => simp [updateSessions, Server.updateSessions]
  | cons slot rest ih =>
      simp only [updateSessions, Server.updateSessions]
      split
      · obtain ⟨lists, released, -⟩ := updateSession_lists (app.setReleaseObj slot) clock slot
        have server := updateSession_server (app.setReleaseObj slot) clock slot
        have later := ih ((app.setReleaseObj slot).updateSession clock slot)
        rw [server, lists, released] at later
        simpa [setReleaseObj] using later
      · obtain ⟨lists, released, -⟩ := updateSession_lists app clock slot
        have later := ih (app.updateSession clock slot)
        rw [updateSession_server, lists, released] at later
        exact later

theorem run_releases {app : App} {slots : List Nat} (listed : app.releaseList = slots) :
    (run app (List.replicate slots.length .release)).server =
        slots.foldl Server.release app.server ∧
      (run app (List.replicate slots.length .release)).releaseList = [] ∧
      (run app (List.replicate slots.length .release)).released = app.released ++ slots := by
  induction slots generalizing app with
  | nil => exact ⟨rfl, listed, (List.append_nil _).symm⟩
  | cons slot rest ih =>
      obtain ⟨server, later, released⟩ := release_parts listed
      obtain ⟨servers, none, all⟩ := ih later
      rw [released, List.append_assoc] at all
      rw [server] at servers
      exact ⟨servers, none, all⟩

theorem run_frees {app : App} {slots : List Nat} (done : app.releaseList = [])
    (listed : app.released = slots) :
    (run app (List.replicate slots.length .free)).server = slots.foldl Server.free app.server := by
  induction slots generalizing app with
  | nil => rfl
  | cons slot rest ih =>
      have taken : app.free = { app with server := app.server.free slot, released := rest } := by
        unfold free
        rw [done, listed]
      have later : (run app.free (List.replicate rest.length .free)).server =
          rest.foldl Server.free app.free.server := by
        apply ih
        · rw [taken]
          exact done
        · rw [taken]
      rw [taken] at later
      have unfolded : run app (List.replicate (slot :: rest).length .free) =
          run app.free (List.replicate rest.length .free) := rfl
      rw [unfolded, taken]
      exact later

theorem parts_are_doUpdate {app : App} (clock : Server.Clock)
    (idle : app.server.firingCmds = [] ∧ app.releaseList = [] ∧ app.released = []) :
    (run app (.update clock ::
      (List.replicate (app.server.releaseList clock).length .release ++
        List.replicate (app.server.releaseList clock).length .free))).server =
      app.server.doUpdate clock := by
  obtain ⟨server, listed, released⟩ :=
    updateSessions_server app clock app.server.mgr.usedList
  rw [idle.2.1, List.nil_append] at listed
  rw [idle.2.2] at released
  have updated : app.step (.update clock) = app.updateSessions clock app.server.mgr.usedList :=
    if_pos idle
  rw [run, List.foldl_cons, List.foldl_append, updated]
  obtain ⟨servers, done, all⟩ := run_releases listed
  rw [released, List.nil_append] at all
  have freed := run_frees done all
  rw [servers, server] at freed
  exact freed

end App

end ProjectPl
