import ProjectPl.Server

/-!
The token map. Its key is copied from the session at `CS_P_AUTH` and read from the session
again at the release, so an entry goes stale when a session that the map already refers to
authenticates once more. Without that, every entry is right in every reachable state.
-/

namespace ProjectPl

namespace Server

structure Owned (server : Server) : Prop where
  kept : server.mgr.Kept
  linked : ∀ conn slot, (server.links conn).param = some slot →
    slot ∈ server.mgr.usedList ∧ (server.sessions slot).pConnector = some conn
  mapped : ∀ (token : Int) slot, server.userMap[token]? = some slot →
    slot ∈ server.mgr.usedList ∧ (server.sessions slot).nub.token = token ∧ 0 < token

theorem start_owned : Owned {} := by
  refine ⟨ObjectMgr.new_kept, ?_, ?_⟩
  · intro conn slot linked
    cases linked
  · intro token slot mapped
    simp at mapped

theorem SameOwners.owned {server next : Server} (same : SameOwners server next)
    (owned : Owned server) : Owned next := by
  obtain ⟨mgr, userMap, token, connector, param⟩ := same
  refine ⟨mgr ▸ owned.kept, ?_, ?_⟩
  · intro conn slot linked
    rw [param] at linked
    rw [mgr, connector]
    exact owned.linked conn slot linked
  · intro key slot mapped
    rw [userMap] at mapped
    rw [mgr, token]
    exact owned.mapped key slot mapped

theorem attach_owned {server : Server} (owned : Owned server) (conn : Nat) :
    Owned (server.attach conn).1 ∧
      (server.attach conn).2 ∈ (server.attach conn).1.mgr.usedList := by
  cases param : (server.links conn).param with
  | some slot =>
      rw [attach_known param]
      exact ⟨owned, (owned.linked conn slot param).1⟩
  | none =>
      have attaches := attach_attaches param owned.kept
      generalize (server.attach conn).2 = slot at *
      generalize (server.attach conn).1 = next at *
      refine ⟨⟨attaches.kept, ?_, ?_⟩, (attaches.inUse_iff slot).mpr (Or.inr rfl)⟩
      · intro otherConn known linked
        rw [attaches.param] at linked
        rw [attaches.inUse_iff]
        split at linked
        next same =>
          obtain rfl := Option.some.inj linked
          rw [attaches.session_new, same]
          exact ⟨Or.inr rfl, rfl⟩
        next =>
          obtain ⟨inUse, connector⟩ := owned.linked otherConn known linked
          rw [attaches.session_old inUse]
          exact ⟨Or.inl inUse, connector⟩
      · intro token known mapped
        rw [attaches.userMap] at mapped
        obtain ⟨inUse, tokenEq, positive⟩ := owned.mapped token known mapped
        rw [attaches.inUse_iff, attaches.session_old inUse]
        exact ⟨Or.inl inUse, tokenEq, positive⟩

/-- No token of the map belongs to a session without one. -/
theorem Owned.guest_unmapped {server : Server} (owned : Owned server) {slot : Nat}
    (guest : (server.sessions slot).nub.token = 0) (token : Int) :
    server.userMap[token]? ≠ some slot := by
  intro mapped
  obtain ⟨-, holds, positive⟩ := owned.mapped token slot mapped
  omega

theorem auth_owned {server : Server} (owned : Owned server) {slot : Nat}
    (inUse : slot ∈ server.mgr.usedList)
    (unmapped : ∀ token : Int, server.userMap[token]? ≠ some slot) (env : Env)
    (packet : CsPAuth) : Owned (server.c2sAuth slot env packet) := by
  refine ⟨owned.kept, ?_, ?_⟩
  · intro conn known linked
    obtain ⟨knownInUse, connector⟩ := owned.linked conn known linked
    refine ⟨knownInUse, ?_⟩
    by_cases same : known = slot
    · subst same
      simpa [c2sAuth, sendPacket, setSession] using connector
    · simpa [c2sAuth, sendPacket, setSession, same] using connector
  · intro token known mapped
    have inserted : (server.userMap.insertIfNew
        (env.now * 10000 + (server.uniqueSerialId + 1 : Nat) : Int) slot)[token]? =
          some known := mapped
    rw [Registry.lookup_insertIfNew] at inserted
    split at inserted
    next new =>
      obtain ⟨here, -⟩ := new
      obtain rfl := Option.some.inj inserted
      refine ⟨inUse, ?_, by omega⟩
      simpa [c2sAuth, sendPacket, setSession] using here
    next old =>
      obtain ⟨knownInUse, tokenEq, positive⟩ := owned.mapped token known inserted
      have different : known ≠ slot := by
        rintro rfl
        exact unmapped token inserted
      refine ⟨knownInUse, ?_, positive⟩
      simpa [c2sAuth, sendPacket, setSession, different] using tokenEq

theorem doUpdate_owned {server : Server} (owned : Owned server) (clock : Clock) :
    Owned (server.doUpdate clock) := by
  obtain ⟨inUse, sessions, -, -, -, userMap, kept, used, param⟩ :=
    doUpdate_releases server clock owned.kept
  refine ⟨kept, ?_, ?_⟩
  · intro conn slot linked
    rw [param] at linked
    split at linked
    · cases linked
    next stays =>
      obtain ⟨slotInUse, connector⟩ := owned.linked conn slot linked
      rw [used, sessions]
      refine ⟨⟨slotInUse, ?_⟩, connector⟩
      intro listed
      exact stays ⟨slot, listed, connector⟩
  · intro token slot mapped
    rw [userMap] at mapped
    split at mapped
    · cases mapped
    next stays =>
      obtain ⟨slotInUse, tokenEq, positive⟩ := owned.mapped token slot mapped
      rw [used, sessions]
      refine ⟨⟨slotInUse, ?_⟩, tokenEq, positive⟩
      intro listed
      exact stays ⟨slot, listed, tokenEq⟩

/-! The one packet that breaks it: `CS_P_AUTH` on a session that the map refers to. -/

def AuthsUnmapped (server : Server) : Event → Prop
  | .packet conn (some (.auth _)) _ =>
      ∀ slot, (server.links conn).param = some slot →
        ∀ token : Int, server.userMap[token]? ≠ some slot
  | _ => True

theorem packet_owned {server : Server} (owned : Owned server) (conn : Nat)
    (call : Option C2SCall) (env : Env) (auths : AuthsUnmapped server (.packet conn call env)) :
    Owned (server.packet conn call env) := by
  obtain ⟨attachedOwned, inUse⟩ := attach_owned owned conn
  simp only [packet]
  cases call with
  | none => exact attachedOwned
  | some call =>
      cases call with
      | auth packet =>
          apply auth_owned attachedOwned inUse
          cases param : (server.links conn).param with
          | some slot =>
              rw [attach_known param]
              exact auths slot param
          | none =>
              intro token mapped
              have attaches := attach_attaches param owned.kept
              rw [attaches.userMap] at mapped
              exact attaches.fresh (owned.mapped token _ mapped).1
      | enter packet => exact (handle_sameOwners _ _ _ _ (by simp)).owned attachedOwned
      | leave packet => exact (handle_sameOwners _ _ _ _ (by simp)).owned attachedOwned
      | move packet => exact (handle_sameOwners _ _ _ _ (by simp)).owned attachedOwned
      | interaction packet => exact (handle_sameOwners _ _ _ _ (by simp)).owned attachedOwned
      | heartbeat packet => exact (handle_sameOwners _ _ _ _ (by simp)).owned attachedOwned
      | echo packet => exact (handle_sameOwners _ _ _ _ (by simp)).owned attachedOwned

theorem connect_sameOwners {server : Server} (conn : Nat) :
    SameOwners server (server.step (.connect conn)) := by
  simp only [step]
  split
  next unknown =>
    refine ⟨rfl, rfl, fun _ => rfl, fun _ => rfl, ?_⟩
    intro other
    by_cases same : other = conn
    · subst same
      simp [setLink, unknown]
    · simp [setLink, same]
  · exact SameOwners.refl _

theorem step_owned (server : Server) (event : Event) (owned : Owned server)
    (auths : AuthsUnmapped server event) : Owned (server.step event) := by
  cases event with
  | connect conn => exact (connect_sameOwners conn).owned owned
  | close conn => exact (closeLink_sameOwners server conn).owned owned
  | packet conn call env => exact packet_owned owned conn call env auths
  | doUpdate clock =>
      simp only [step]
      split
      · exact doUpdate_owned owned clock
      · exact owned
  | tick => exact (tick_sameOwners server).owned owned
  | fire => exact (fire_sameOwners server).owned owned

def TokensConsistent (server : Server) : Prop :=
  (∀ (token : Int) slot, server.userMap[token]? = some slot →
    slot ∈ server.mgr.usedList ∧ slot ∉ server.mgr.freeList ∧
      (server.sessions slot).nub.token = token) ∧
  (∀ (first second : Int) slot, server.userMap[first]? = some slot →
    server.userMap[second]? = some slot → first = second) ∧
  ∀ slot ∉ server.mgr.usedList, ∀ token : Int, server.userMap[token]? ≠ some slot

theorem Owned.tokensConsistent {server : Server} (owned : Owned server) :
    TokensConsistent server := by
  have apart := (List.nodup_append'.mp owned.kept.distinct).2.2
  refine ⟨?_, ?_, ?_⟩
  · intro token slot mapped
    obtain ⟨inUse, tokenEq, -⟩ := owned.mapped token slot mapped
    exact ⟨inUse, fun listed => apart listed inUse, tokenEq⟩
  · intro first second slot mappedFirst mappedSecond
    rw [← (owned.mapped first slot mappedFirst).2.1, (owned.mapped second slot mappedSecond).2.1]
  · intro slot freed token mapped
    exact freed (owned.mapped token slot mapped).1

/-- In every state of every run in which no session authenticates while the token map refers
to it, the map is consistent. -/
theorem tokens_consistent_of_auths_unmapped (before after : List Event)
    (along : Run.Along step AuthsUnmapped {} (before ++ after)) :
    TokensConsistent (run {} before) :=
  (Run.Along.invariant step_owned start_owned along.initial).tokensConsistent

theorem tokens_consistent_before_release :
    let before : List Event := [.connect 7, .packet 7 (some (.auth { id := 5 })) {}]
    let after : List Event :=
      [.close 7, .doUpdate ⟨fun _ => true, fun _ => false, fun _ => false⟩]
    Run.Along step AuthsUnmapped {} (before ++ after) ∧ TokensConsistent (run {} before) := by
  intro before after
  have along : Run.Along step AuthsUnmapped {} (before ++ after) := by
    refine ⟨trivial, ?_, trivial, trivial, trivial⟩
    intro slot linked
    cases linked
  exact ⟨along, tokens_consistent_of_auths_unmapped before after along⟩

/-- Two `CS_P_AUTH` on one session leave the first token behind. -/
theorem repeated_auth_leaves_token :
    ¬TokensConsistent (run {} [.connect 7, .packet 7 (some (.auth { id := 5 })) {},
      .packet 7 (some (.auth { id := 5 })) {}]) := by
  rintro ⟨entries, -, -⟩
  have stale := (entries 1 99 (by decide)).2.2
  revert stale
  decide

end Server

end ProjectPl
