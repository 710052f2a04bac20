import ProjectPl.JoinCore
import ProjectPl.Lib.Run

/-!
Joins of world servers over whole runs. The dictionary that `WD_JoinRequest` looks into is filled
by no code, so that every join is answered with zero, a second one for the same world as well. And
the answer has the number of a heartbeat: the world server never runs `DW_JoinResult`.
-/

namespace ProjectPl.Sharp.Join

open Common

/-! What the handshake should keep. -/

/-- At most one live session of a world has the answer zero. -/
def Exclusive (state : State) : Prop :=
  ∀ (session other : Nat) (link otherLink : Link) (worldId : Int),
    state.links[session]? = some link → state.links[other]? = some otherLink →
    link.live = true → otherLink.live = true → (worldId, 0) ∈ link.answered →
    (worldId, 0) ∈ otherLink.answered → session = other

/-- `DW_JoinResult` processed every reply, and stored the session if the result was zero. -/
def Completes (state : State) : Prop :=
  ∀ (session : Nat) (link : Link) (reply : PacketDWJoinResult)
    (function : Option DbPacketHandler.Function), state.links[session]? = some link →
    (reply, function) ∈ link.processed →
      function = some .joinResult ∧
        (reply.result = 0 → link.app.dbSessions reply.dbId = some session)

structure Good (state : State) : Prop where
  exclusive : Exclusive state
  completes : Completes state

/-- No join of a world while another live session has had its join answered, and no reply that
reaches a world server. -/
def Harmless (state : State) : Event → Prop
  | .connect _ _ => True
  | .handle session =>
      ∀ (link : Link) (packet : PacketWDJoinRequest) (rest : List WorldMessage),
        state.links[session]? = some link → link.toDb = .joinRequest packet :: rest →
          link.live = true → ∀ (other : Nat) (otherLink : Link),
            state.links[other]? = some otherLink → otherLink.live = true →
              packet.worldId ∈ otherLink.answered.map Prod.fst → session = other
  | .deliver session => ∀ link : Link, state.links[session]? = some link → link.toWorld = []
  | .close _ => True

/-! The invariant: nothing is remembered, nothing refused, nothing processed. -/

structure Link.Open (link : Link) : Prop where
  accepted : ∀ answer ∈ link.answered, answer.2 = 0
  unprocessed : link.processed = []

structure Joined (state : State) : Prop where
  forgetful : state.db.worldSessions = []
  opened : ∀ (session : Nat) (link : Link), state.links[session]? = some link → link.Open
  exclusive : Exclusive state

theorem start_joined (dbId : Int) : Joined (start dbId) := by
  constructor
  · rfl
  · intro session link found
    cases found
  · intro session other link otherLink worldId found
    cases found

theorem Joined.good {state : State} (joined : Joined state) : Good state := by
  constructor
  · exact joined.exclusive
  · intro session link reply function found processed
    rw [(joined.opened session link found).unprocessed] at processed
    cases processed

section Step

variable {state : State}

theorem setLink_get {session other : Nat} {link before : Link}
    (there : state.links[session]? = some before) :
    (state.setLink session link).links[other]? =
      if other = session then some link else state.links[other]? := by
  have inside := (List.getElem?_eq_some_iff.mp there).1
  by_cases same : other = session
  · subst same
    rw [if_pos rfl]
    exact List.getElem?_set_self inside
  · rw [if_neg same]
    exact List.getElem?_set_ne (Ne.symm same)

theorem Joined.setLink (joined : Joined state) {session : Nat} {link next : Link}
    (there : state.links[session]? = some link) (opened : next.Open)
    (apart : next.live = true → ∀ worldId, (worldId, 0) ∈ next.answered →
      ∀ (other : Nat) (otherLink : Link), state.links[other]? = some otherLink →
        otherLink.live = true → (worldId, 0) ∈ otherLink.answered → session = other) :
    Joined (state.setLink session next) := by
  constructor
  · exact joined.forgetful
  · intro other otherLink found
    rw [setLink_get there] at found
    split at found
    · cases found
      exact opened
    · exact joined.opened other otherLink found
  · intro one two oneLink twoLink worldId oneFound twoFound oneLive twoLive oneHas twoHas
    rw [setLink_get there] at oneFound twoFound
    split at oneFound <;> split at twoFound
    · next first second => rw [first, second]
    · next first second =>
        cases oneFound
        rw [first]
        exact apart oneLive worldId oneHas two twoLink twoFound twoLive twoHas
    · next first second =>
        cases twoFound
        rw [second]
        exact (apart twoLive worldId twoHas one oneLink oneFound oneLive oneHas).symm
    · exact joined.exclusive one two oneLink twoLink worldId oneFound twoFound oneLive twoLive
        oneHas twoHas

end Step

theorem handle_join {db : DbServerApp} (forgetful : db.worldSessions = []) {link : Link}
    {packet : PacketWDJoinRequest} {rest : List WorldMessage}
    (next : link.toDb = .joinRequest packet :: rest) :
    link.handle db =
      { link with
        toDb := rest
        toWorld := link.toWorld ++ [{ result := 0, dbId := db.dbId }]
        answered := link.answered ++ [(packet.worldId, 0)] } := by
  have unknown : db.getWorldSession packet.worldId = none := by
    rw [DbServerApp.getWorldSession, forgetful]
    rfl
  have reply : WorldPacketHandler.packetProcess db (.joinRequest packet) =
      some { result := 0, dbId := db.dbId } := by
    have answer : WorldPacketHandler.wdJoinRequest db packet =
        { result := 0, dbId := db.dbId } := by
      rw [WorldPacketHandler.wdJoinRequest, unknown]
      rfl
    rw [← answer]
    rfl
  rw [Link.handle, next]
  dsimp only
  rw [reply]

theorem handle_other (db : DbServerApp) {link : Link}
    (other : ∀ packet rest, link.toDb ≠ .joinRequest packet :: rest) :
    ∃ rest, link.handle db = { link with toDb := rest } := by
  cases next : link.toDb with
  | nil =>
      refine ⟨link.toDb, ?_⟩
      rw [Link.handle, next]
      simp only [← next]
  | cons message rest =>
      cases message with
      | joinRequest packet => exact absurd next (other packet rest)
      | heartbeat packet =>
          refine ⟨rest, ?_⟩
          rw [Link.handle, next]
          rfl

theorem deliver_reply (session : Nat) {link : Link} {reply : PacketDWJoinResult}
    {rest : List PacketDWJoinResult} (next : link.toWorld = reply :: rest) :
    (link.deliver session).processed = link.processed ++ [(reply, some .heartbeat)] := by
  rw [Link.deliver, next]
  rfl

theorem deliver_nothing (session : Nat) {link : Link} (next : link.toWorld = []) :
    link.deliver session = link := by
  rw [Link.deliver, next]

theorem Joined.connect {state : State} (joined : Joined state) (worldId dbServerId : Int) :
    Joined (step state (.connect worldId dbServerId)) := by
  -- the new session has answered nothing and processed nothing
  have cases_of : ∀ (session : Nat) (link : Link),
      (step state (.connect worldId dbServerId)).links[session]? = some link →
        state.links[session]? = some link ∨ link.answered = [] ∧ link.processed = [] := by
    intro session link found
    rw [step, List.getElem?_append] at found
    split at found
    · exact .inl found
    · refine .inr ?_
      obtain rfl := List.mem_singleton.mp (List.mem_of_getElem? found)
      exact ⟨rfl, rfl⟩
  constructor
  · exact joined.forgetful
  · intro session link found
    rcases cases_of session link found with old | ⟨silent, unprocessed⟩
    · exact joined.opened session link old
    · refine ⟨?_, unprocessed⟩
      rw [silent]
      simp
  · intro one two oneLink twoLink world oneFound twoFound oneLive twoLive oneHas twoHas
    rcases cases_of one oneLink oneFound with oneOld | ⟨silent, -⟩
    · rcases cases_of two twoLink twoFound with twoOld | ⟨silent, -⟩
      · exact joined.exclusive one two oneLink twoLink world oneOld twoOld oneLive twoLive oneHas
          twoHas
      · rw [silent] at twoHas
        cases twoHas
    · rw [silent] at oneHas
      cases oneHas

theorem Joined.step {state : State} {event : Event} (joined : Joined state)
    (harmless : Harmless state event) : Joined (step state event) := by
  cases event with
  | connect worldId dbServerId => exact joined.connect worldId dbServerId
  | handle session =>
      rw [Join.step]
      split
      · exact joined
      · next link there =>
          have opened := joined.opened session link there
          by_cases join : ∃ packet rest, link.toDb = .joinRequest packet :: rest
          · obtain ⟨packet, rest, next⟩ := join
            rw [handle_join joined.forgetful next]
            refine joined.setLink there ⟨?_, opened.unprocessed⟩ ?_
            · intro answer among
              rcases List.mem_append.mp among with before | now
              · exact opened.accepted answer before
              · obtain rfl := List.mem_singleton.mp now
                rfl
            · intro live worldId among other otherLink found otherLive has
              rcases List.mem_append.mp among with before | now
              · exact joined.exclusive session other link otherLink worldId there found live
                  otherLive before has
              · cases List.mem_singleton.mp now
                exact harmless link packet rest there next live other otherLink found otherLive
                  (List.mem_map_of_mem has)
          · obtain ⟨rest, same⟩ := handle_other state.db fun packet rest next =>
              join ⟨packet, rest, next⟩
            rw [same]
            refine joined.setLink there ⟨opened.accepted, opened.unprocessed⟩ ?_
            intro live worldId among other otherLink found otherLive has
            exact joined.exclusive session other link otherLink worldId there found live
              otherLive among has
  | deliver session =>
      rw [Join.step]
      split
      · exact joined
      · next link there =>
          rw [deliver_nothing session (harmless link there)]
          refine joined.setLink there (joined.opened session link there) ?_
          intro live worldId among other otherLink found otherLive has
          exact joined.exclusive session other link otherLink worldId there found live otherLive
            among has
  | close session =>
      rw [Join.step]
      split
      · exact joined
      · next link there =>
          have opened := joined.opened session link there
          refine joined.setLink there ⟨opened.accepted, opened.unprocessed⟩ ?_
          intro live
          cases live

theorem Joined.breaks {state : State} {event : Event} (joined : Joined state)
    (harms : ¬Harmless state event) : ¬Good (Join.step state event) := by
  intro good
  cases event with
  | connect worldId dbServerId => exact harms trivial
  | handle session =>
      apply harms
      intro link packet rest there next live other otherLink found otherLive among
      by_contra different
      have stepped : Join.step state (.handle session) =
          state.setLink session (link.handle state.db) := by
        rw [Join.step, there]
      have own : (state.setLink session (link.handle state.db)).links[session]? =
          some (link.handle state.db) := by
        rw [setLink_get there, if_pos rfl]
      have kept : (state.setLink session (link.handle state.db)).links[other]? =
          some otherLink := by
        rw [setLink_get there, if_neg (Ne.symm different), found]
      obtain ⟨⟨world, result⟩, answered, rfl⟩ := List.mem_map.mp among
      obtain rfl : result = 0 := (joined.opened other otherLink found).accepted _ answered
      rw [stepped] at good
      rw [handle_join joined.forgetful next] at good own kept
      exact different (good.exclusive session other _ otherLink packet.worldId own kept live
        otherLive (by simp) answered)
  | deliver session =>
      apply harms
      intro link there
      cases next : link.toWorld with
      | nil => rfl
      | cons reply rest =>
          have own : (Join.step state (.deliver session)).links[session]? =
              some (link.deliver session) := by
            rw [Join.step, there]
            exact (setLink_get there).trans (if_pos rfl)
          have among : (reply, some .heartbeat) ∈ (link.deliver session).processed := by
            rw [deliver_reply session next]
            simp
          cases (good.completes session _ reply _ own among).1
  | close session => exact harms trivial

/-- The handshake is good all along a run exactly if every step of it is harmless. -/
theorem handshake_good_iff (dbId : Int) (events : List Event) :
    (∀ before after, events = before ++ after → Good (before.foldl step (start dbId))) ↔
      Run.Along step Harmless (start dbId) events :=
  Run.always_iff_along (fun _ _ joined harmless => joined.step harmless)
    (fun _ joined => joined.good) (fun _ _ joined harms => joined.breaks harms)
    (start_joined dbId) events

/-- Two sessions of world 1 are both accepted, and a first join never reaches its handler. -/
theorem second_join_accepted :
    ¬Exclusive ([.connect 1 7, .connect 1 7, .handle 0, .handle 1].foldl step (start 5)) ∧
      ¬Completes ([.connect 1 7, .handle 0, .deliver 0].foldl step (start 5)) := by
  constructor
  · intro exclusive
    have answered : ((1 : Int), (0 : Int)) ∈ [((1 : Int), (0 : Int))] := List.mem_singleton.mpr rfl
    cases exclusive 0 1 _ _ 1 rfl rfl rfl rfl answered answered
  · intro completes
    cases (completes 0 _ _ _ rfl (List.mem_singleton.mpr rfl)).1

end ProjectPl.Sharp.Join
