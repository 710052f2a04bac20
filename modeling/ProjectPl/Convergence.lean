import ProjectPl.Roster

/-!
The characters a client sees against the characters in the zone. An announcement goes through
three queues and reaches whoever is in the zone when it is taken out of the second; the list a
new client gets is a snapshot taken at the second. The last announcement on its way about a
token always tells the truth about it, and once there is none, the client has the truth, or its
list is still to be made.
-/

namespace ProjectPl

namespace World

variable {world next : World} {rules : Rules} {client : Int}

structure Follows (client : Int) (world : World) : Prop where
  out : ¬world.member client → (∀ token, world.view client token = none) ∧
    ∀ zoneId, .sendCharacterList client zoneId ∉ world.queue
  gone : world.member client → ∀ token ≠ client, world.notices token = [] →
    ¬world.member token → world.view client token = none
  known : world.member client → ∀ token ≠ client, world.notices token = [] →
    world.member token → (world.view client token).isSome ∨
      .sendCharacterList client 1 ∈ world.queue

/-- A move that shows the client nothing: a token about which nothing is announced after it was
not announced before either and has not come or gone, and a client that comes gets its list. -/
theorem Follows.change (follows : world.Follows client)
    (view : next.view client = world.view client)
    (kept : ∀ token ≠ client, next.notices token = [] →
      world.notices token = [] ∧ (next.member token ↔ world.member token))
    (out : ¬next.member client → ¬world.member client ∧ ∀ zoneId,
      .sendCharacterList client zoneId ∈ next.queue → .sendCharacterList client zoneId ∈ world.queue)
    (entered : next.member client → ¬world.member client →
      .sendCharacterList client 1 ∈ next.queue)
    (lists : .sendCharacterList client 1 ∈ world.queue → .sendCharacterList client 1 ∈ next.queue) :
    next.Follows client := by
  refine ⟨?_, ?_, ?_⟩
  · intro outside
    obtain ⟨before, unlisted⟩ := out outside
    obtain ⟨unseen, none⟩ := follows.out before
    rw [view]
    exact ⟨unseen, fun zoneId listed => none zoneId (unlisted zoneId listed)⟩
  · intro _ token other silent absent
    obtain ⟨before, same⟩ := kept token other silent
    rw [same] at absent
    rw [view]
    by_cases inside : world.member client
    · exact follows.gone inside token other before absent
    · exact (follows.out inside).1 token
  · intro here token other silent present
    obtain ⟨before, same⟩ := kept token other silent
    rw [same] at present
    rw [view]
    by_cases inside : world.member client
    · exact (follows.known inside token other before present).imp_right lists
    · exact Or.inr (entered here inside)

theorem Follows.congr (follows : world.Follows client)
    (member : ∀ token, next.member token ↔ world.member token)
    (notices : ∀ token, next.notices token = world.notices token)
    (view : next.view client = world.view client)
    (lists : ∀ zoneId, .sendCharacterList client zoneId ∈ next.queue ↔
      .sendCharacterList client zoneId ∈ world.queue) : next.Follows client := by
  apply follows.change view
  · intro token _ silent
    rw [notices] at silent
    exact ⟨silent, member token⟩
  · intro outside
    rw [member] at outside
    exact ⟨outside, fun zoneId => (lists zoneId).mp⟩
  · intro inside outside
    exact absurd ((member client).mp inside) outside
  · exact (lists 1).mpr

/-! Commands that say nothing about who is in the zone. -/

structure Quiet (client : Int) (command : Command) : Prop where
  letter : letter client command = none
  notice : ∀ token, notice token command = none
  list : ∀ zoneId, command ≠ .sendCharacterList client zoneId

theorem Follows.append (follows : world.Follows client) {command : Command}
    (quiet : Quiet client command) {pos : Int → Position} :
    Follows client { world with pos := pos, queue := world.queue ++ [command] } := by
  apply follows.congr
  · exact fun token => Iff.rfl
  · intro token
    rw [show notices { world with pos := pos, queue := world.queue ++ [command] } token =
      notices { world with queue := world.queue ++ [command] } token from rfl, notices_append]
    simp [quiet.notice token]
  · rw [show view { world with pos := pos, queue := world.queue ++ [command] } client =
      view { world with queue := world.queue ++ [command] } client from rfl, view_append]
    simp [quiet.letter]
  · intro zoneId
    simp [Ne.symm (quiet.list zoneId)]

theorem Follows.pop (follows : world.Follows client) {command : Command} {rest : List Command}
    (first : world.queue = command :: rest) (quiet : Quiet client command) :
    Follows client { world with queue := rest } := by
  apply follows.congr
  · exact fun token => Iff.rfl
  · exact fun token => notices_pop first (quiet.notice token)
  · exact view_pop first quiet.letter
  · intro zoneId
    simp [first, Ne.symm (quiet.list zoneId)]

/-! Firing an announcement: the clients in the zone get it behind everything else. -/

theorem broadcast_view (client : Int) {packet : S2CCall} {rest : List Command}
    (first : world.queue = .sendBroadcastToAllUser 1 packet :: rest) {recipients : List Int}
    (once : recipients.Nodup) (all : ∀ token, token ∈ recipients ↔ world.member token)
    [Decidable (world.member client)] :
    view { world with
      queue := rest ++ recipients.map fun token => .sendPacketToUser token packet } client =
      if world.member client then (world.view client).see client packet
      else world.view client := by
  have popped : view { world with queue := rest } client = world.view client :=
    view_pop first rfl
  have added := view_append { world with queue := rest }
    (recipients.map fun token => .sendPacketToUser token packet) client
  rw [recipients_letters once client packet, popped] at added
  refine added.trans ?_
  simp only [all]
  split
  · rfl
  · rfl

theorem broadcast_notices {packet : S2CCall} {rest : List Command}
    (first : world.queue = .sendBroadcastToAllUser 1 packet :: rest) (recipients : List Int)
    (token : Int) :
    world.notices token = (notice token (.sendBroadcastToAllUser 1 packet)).toList ++
      notices { world with
        queue := rest ++ recipients.map fun token => .sendPacketToUser token packet } token := by
  have none : (recipients.map fun token => Command.sendPacketToUser token packet).filterMap
      (notice token) = [] := by
    apply List.filterMap_eq_nil_iff.mpr
    intro command member
    obtain ⟨other, -, rfl⟩ := List.mem_map.mp member
    rfl
  simp only [notices, first, List.filterMap_append, none, List.append_nil, List.filterMap_cons]
  cases notice token (.sendBroadcastToAllUser 1 packet) with
  | none => rfl
  | some here => rfl

/-- The announcement that is fired about a token, when no other is on its way. -/
theorem see_notice {packet : S2CCall} {token : Int} {here : Bool} (other : token ≠ client)
    (announces : notice token (.sendBroadcastToAllUser 1 packet) = some here) (seen : View) :
    (seen.see client packet token).isSome = here := by
  cases packet with
  | enter packet =>
      simp only [notice, true_and, Option.ite_none_right_eq_some, Option.some.injEq] at announces
      obtain ⟨rfl, rfl⟩ := announces
      simp [View.see, other]
  | leave packet =>
      simp only [notice, true_and, Option.ite_none_right_eq_some, Option.some.injEq] at announces
      obtain ⟨rfl, rfl⟩ := announces
      simp [View.see, other]
  | _ => cases announces

theorem broadcast_follows (follows : world.Follows client) (consistent : world.Consistent)
    {packet : S2CCall} {rest : List Command}
    (first : world.queue = .sendBroadcastToAllUser 1 packet :: rest) {recipients : List Int}
    (once : recipients.Nodup) (all : ∀ token, token ∈ recipients ↔ world.member token) :
    Follows client { world with
      queue := rest ++ recipients.map fun token => .sendPacketToUser token packet } := by
  classical
  have spoken : Spoken packet := consistent.spoken 1 packet (by simp [first])
  have seen := broadcast_view client first once all
  have notices := broadcast_notices first recipients
  generalize after : ({ world with
      queue := rest ++ recipients.map fun token => .sendPacketToUser token packet } : World) = next
    at seen notices
  have member : next.member = world.member := by rw [← after]
  have lists : ∀ zoneId, .sendCharacterList client zoneId ∈ next.queue ↔
      .sendCharacterList client zoneId ∈ world.queue := by
    intro zoneId
    rw [← after]
    simp [first]
  -- either nothing was announced about the token, or this was the last announcement
  have step : world.member client → ∀ token ≠ client, next.notices token = [] →
      (next.view client token).isSome = (world.view client token).isSome ∧
        world.notices token = [] ∨
      ((next.view client token).isSome = true ↔ world.member token) := by
    intro inside token other none
    have before := notices token
    rw [none, List.append_nil] at before
    rw [seen, if_pos inside]
    cases announces : notice token (.sendBroadcastToAllUser 1 packet) with
    | none =>
        rw [announces] at before
        refine Or.inl ⟨see_other spoken ?_ _, before⟩
        simp [announces]
    | some here =>
        rw [announces] at before
        right
        rw [see_notice other announces, consistent.announced token here (by rw [before]; rfl)]
  refine ⟨?_, ?_, ?_⟩
  · intro out
    rw [member] at out
    obtain ⟨unseen, unlisted⟩ := follows.out out
    rw [seen, if_neg out]
    exact ⟨unseen, fun zoneId => (lists zoneId).not.mpr (unlisted zoneId)⟩
  · intro inside token other none absent
    rw [member] at inside absent
    apply Option.not_isSome_iff_eq_none.mp
    rcases step inside token other none with ⟨same, before⟩ | truth
    · rw [same, follows.gone inside token other before absent]
      simp
    · rw [truth]
      exact absent
  · intro inside token other none present
    rw [member] at inside present
    rw [lists]
    rcases step inside token other none with ⟨same, before⟩ | truth
    · rw [same]
      exact follows.known inside token other before present
    · exact Or.inl (truth.mpr present)

/-! Firing a letter moves it from the queue to the mail. -/

theorem packet_view {token : Int} {packet : S2CCall} {rest : List Command}
    (first : world.queue = .sendPacketToUser token packet :: rest) :
    view { world with
      queue := rest
      mail := Function.update world.mail token (world.mail token ++ [packet]) } client =
      world.view client := by
  by_cases same : token = client
  · subst same
    simp only [view, letters, first, Function.update_self, List.filterMap_cons, letter,
      ↓reduceIte, List.append_assoc, List.singleton_append]
  · simp only [view, letters, first, Function.update_of_ne (Ne.symm same),
      List.filterMap_cons, letter, same, ↓reduceIte]

theorem packet_follows (follows : world.Follows client) {token : Int} {packet : S2CCall}
    {rest : List Command} (first : world.queue = .sendPacketToUser token packet :: rest) :
    Follows client { world with
      queue := rest
      mail := Function.update world.mail token (world.mail token ++ [packet]) } := by
  apply follows.congr
  · exact fun other => Iff.rfl
  · exact fun other => notices_pop first rfl
  · exact packet_view first
  · intro zoneId
    simp [first]

/-! Firing `EnterCharacter` announces the token; if it is the client itself that enters, its
list is on the way from now on. -/

theorem enter_follows (follows : world.Follows client) {token posX posY : Int}
    {rest : List Command} (first : world.queue = .enterCharacter token 1 posX posY :: rest) :
    Follows client { world with
      member := fun other => other = token ∨ world.member other
      queue := rest ++
        [.sendBroadcastToAllUser 1 (.enter { token := token, x := posX, y := posY }),
          .sendCharacterList token 1] } := by
  apply follows.change
  · apply view_congr
    · rfl
    · simp [letters, first, letter, List.filterMap_cons]
  · intro other different silent
    have apart : token ≠ other := by
      rintro rfl
      simp [notices, notice, List.filterMap_cons] at silent
    refine ⟨?_, by simp [Ne.symm apart]⟩
    simpa [notices, first, notice, apart, List.filterMap_cons] using silent
  · intro outside
    simp only [not_or] at outside
    refine ⟨outside.2, ?_⟩
    intro zoneId listed
    rw [first]
    simpa [outside.1] using listed
  · intro inside outside
    have mine := inside.resolve_right outside
    simp [mine]
  · intro listed
    rw [first] at listed
    exact List.mem_append_left _ (by simpa using listed)

/-! Firing `LeaveCharacter` of another token announces that as well. -/

theorem leave_follows (follows : world.Follows client) {token zoneId : Int}
    (other : token ≠ client) {rest : List Command}
    (first : world.queue = .leaveCharacter token zoneId :: rest) {pos : Int → Position} :
    Follows client { world with
      pos := pos
      member := fun other => world.member other ∧ ¬(zoneId = 1 ∧ other = token)
      queue := rest ++ [.sendBroadcastToAllUser zoneId (.leave { token := token })] } := by
  apply follows.change
  · apply view_congr
    · rfl
    · simp [letters, first, letter, List.filterMap_cons]
  · intro key _ silent
    have apart : ¬(zoneId = 1 ∧ token = key) := by
      rintro ⟨rfl, rfl⟩
      simp [notices, notice] at silent
    have stays : ¬(zoneId = 1 ∧ key = token) := by
      rintro ⟨here, rfl⟩
      exact apart ⟨here, rfl⟩
    refine ⟨?_, by simp [stays]⟩
    simpa [notices, first, notice, apart, List.filterMap_cons] using silent
  · intro outside
    refine ⟨fun inside => outside ⟨inside, fun left => other left.2.symm⟩, ?_⟩
    intro zone listed
    rw [first]
    simpa using listed
  · intro inside outside
    exact absurd inside.1 outside
  · simp [first]

/-! Firing `SendCharacterList` of the client: it will see everyone who is in the zone now. -/

theorem see_list_of_one (own : Int) (seen : View) (info : CharacterDbData) :
    seen.see own (.enterCharacter (ScPEnterCharacterList.setData {} info).1) =
      seen.put own info := rfl

theorem foldl_put {own : Int} (others : List Int) (pos : Int → Position) (seen : View)
    (token : Int) :
    (others.map fun other => ({ token := other, pos := pos other } : CharacterDbData)).foldl
        (View.put own) seen token =
      if token ∈ others ∧ token ≠ own then some ((pos token).posX, (pos token).posY)
      else seen token := by
  induction others generalizing seen with
  | nil => simp
  | cons other rest ih =>
      rw [List.map_cons, List.foldl_cons, ih]
      by_cases later : token ∈ rest ∧ token ≠ own
      · simp [later]
      · rw [if_neg later]
        by_cases mine : other = own
        · subst mine
          simp only [View.put, ↓reduceIte, List.mem_cons]
          rw [if_neg]
          rintro ⟨same | listed, different⟩
          · exact different same
          · exact later ⟨listed, different⟩
        · simp only [View.put, if_neg mine, List.mem_cons]
          by_cases same : token = other
          · subst same
            simp [mine]
          · rw [Function.update_of_ne same, if_neg]
            rintro ⟨here | listed, different⟩
            · exact same here
            · exact later ⟨listed, different⟩

theorem list_view {rest : List Command}
    (first : world.queue = .sendCharacterList client 1 :: rest) (others : List Int)
    (token : Int) :
    view { world with
      queue := rest ++ (Server.characterListPackets
        (others.map fun other => { token := other, pos := world.pos other }) {}).map
          fun packet => .sendPacketToUser client (.enterCharacter packet) } client token =
      if token ∈ others ∧ token ≠ client then
        some ((world.pos token).posX, (world.pos token).posY)
      else world.view client token := by
  have popped : view { world with queue := rest } client = world.view client :=
    view_pop first rfl
  have added := view_append { world with queue := rest }
    ((Server.characterListPackets
      (others.map fun other => { token := other, pos := world.pos other }) {}).map
        fun packet => .sendPacketToUser client (.enterCharacter packet)) client
  refine (congrFun added token).trans ?_
  rw [popped, ← foldl_put others world.pos (world.view client) token]
  rw [characterListPackets_eq]
  generalize (others.map fun other =>
    ({ token := other, pos := world.pos other } : CharacterDbData)) = data
  generalize world.view client = seen
  induction data generalizing seen with
  | nil => rfl
  | cons info later ih =>
      simp only [List.map_cons, List.filterMap_cons, letter, ↓reduceIte, List.foldl_cons,
        see_list_of_one]
      exact ih _

theorem list_view_other {token : Int} {rest : List Command}
    (first : world.queue = .sendCharacterList token 1 :: rest) (other : client ≠ token)
    (packets : List ScPEnterCharacterList) :
    view { world with
      queue := rest ++ packets.map fun packet =>
        .sendPacketToUser token (.enterCharacter packet) } client = world.view client := by
  have none : (packets.map fun packet =>
      Command.sendPacketToUser token (.enterCharacter packet)).filterMap (letter client) = [] := by
    apply List.filterMap_eq_nil_iff.mpr
    intro command member
    obtain ⟨packet, -, rfl⟩ := List.mem_map.mp member
    simp [letter, Ne.symm other]
  simp only [view, letters, first, List.filterMap_append, none, List.append_nil,
    List.filterMap_cons, letter]

theorem list_notices {token : Int} {rest : List Command}
    (first : world.queue = .sendCharacterList token 1 :: rest)
    (packets : List ScPEnterCharacterList) (other : Int) :
    notices { world with
      queue := rest ++ packets.map fun packet =>
        .sendPacketToUser token (.enterCharacter packet) } other = world.notices other := by
  have none : (packets.map fun packet =>
      Command.sendPacketToUser token (.enterCharacter packet)).filterMap (notice other) = [] := by
    apply List.filterMap_eq_nil_iff.mpr
    intro command member
    obtain ⟨packet, -, rfl⟩ := List.mem_map.mp member
    rfl
  simp only [notices, first, List.filterMap_append, none, List.append_nil, List.filterMap_cons,
    notice]

theorem list_follows (follows : world.Follows client) {token : Int} {rest : List Command}
    (first : world.queue = .sendCharacterList token 1 :: rest) {others : List Int}
    (all : ∀ other, other ∈ others ↔ world.member other ∧ other ≠ token) :
    Follows client { world with
      queue := rest ++ (Server.characterListPackets
        (others.map fun other => { token := other, pos := world.pos other }) {}).map
          fun packet => .sendPacketToUser token (.enterCharacter packet) } := by
  have notices := list_notices first (Server.characterListPackets
    (others.map fun other => { token := other, pos := world.pos other }) {})
  by_cases mine : token = client
  · subst mine
    have seen := list_view first others
    have inside : world.member token := by
      by_contra out
      exact (follows.out out).2 1 (by simp [first])
    refine ⟨fun out => absurd inside out, ?_, ?_⟩
    · intro _ other different none absent
      rw [notices] at none
      rw [seen, if_neg]
      · exact follows.gone inside other different none absent
      · rw [all]
        exact fun listed => absent listed.1.1
    · intro _ other different none present
      rw [seen, if_pos ⟨(all other).mpr ⟨present, different⟩, different⟩]
      exact Or.inl rfl
  · apply follows.congr
    · exact fun other => Iff.rfl
    · exact notices
    · exact list_view_other first (Ne.symm mine) _
    · intro zoneId
      simp [first, Ne.symm mine]

theorem Fires.follows {command : Command} {rest : List Command}
    (fires : Fires { world with queue := rest } command next)
    (first : world.queue = command :: rest) (consistent : world.Consistent)
    (follows : world.Follows client)
    (stays : ∀ zoneId, command ≠ .leaveCharacter client zoneId) : next.Follows client := by
  cases fires with
  | nowhere zoneId packet elsewhere =>
      refine follows.pop first ⟨rfl, ?_, by simp⟩
      intro token
      cases packet with
      | enter packet => simp [notice, elsewhere]
      | leave packet => simp [notice, elsewhere]
      | _ => rfl
  | broadcast packet recipients once all => exact broadcast_follows follows consistent first once all
  | packet token packet user => exact packet_follows follows first
  | enter token posX posY user => exact enter_follows follows first
  | guest zoneId posX posY => exact follows.pop first ⟨rfl, fun _ => rfl, by simp⟩
  | leave token zoneId =>
      refine leave_follows follows ?_ first
      rintro rfl
      exact stays zoneId rfl
  | list token others user all => exact list_follows follows first all

/-! A user who has just got its token has no mail but the answer. -/

theorem auth_follows (consistent : world.Consistent) {token id : Int} {pos : Int → Position}
    {beats : List S2CCall} (fresh : ¬world.user token)
    (beating : ∀ packet ∈ beats, packet = .heartbeat {}) :
    Follows token { world with
      user := fun other => other = token ∨ world.user other
      pos := pos
      mail := Function.update world.mail token (beats ++ [.authResult ⟨id, token⟩]) } := by
  have out : ¬world.member token := fun inside => fresh (consistent.enrolled token inside)
  have unsent : world.queue.filterMap (letter token) = [] := by
    apply List.filterMap_eq_nil_iff.mpr
    intro command waiting
    cases command with
    | sendPacketToUser other packet =>
        have different : other ≠ token := by
          rintro rfl
          exact fresh (consistent.addressed other packet waiting).1
        simp [letter, different]
    | _ => rfl
  refine ⟨fun _ => ⟨?_, ?_⟩, fun inside => absurd inside out, fun inside => absurd inside out⟩
  · intro other
    simp only [view, letters, unsent, Function.update_self, List.append_nil,
      List.foldl_append, View.foldl_see_beats beating]
    rfl
  · intro zoneId listed
    exact fresh (consistent.listed token zoneId listed)

theorem Moves.follows (moves : Moves rules world next) (consistent : world.Consistent)
    (follows : world.user client → world.Follows client)
    (stays : ∀ command, rules.mayFire command →
      ∀ zoneId, command ≠ .leaveCharacter client zoneId) :
    next.user client → next.Follows client := by
  cases moves with
  | stays => exact follows
  | auth token id pos beats fresh nonzero beating =>
      intro known
      by_cases same : client = token
      · subst same
        exact auth_follows consistent fresh beating
      · refine (follows (known.resolve_left same)).congr (fun _ => Iff.rfl) (fun _ => rfl) ?_
          fun _ => Iff.rfl
        simp only [view, letters, Function.update_of_ne same]
  | beat count =>
      intro known
      exact (follows known).congr (fun _ => Iff.rfl) (fun _ => rfl) (view_beat world count client)
        fun _ => Iff.rfl
  | enter token posX posY user allowed =>
      exact fun known => (follows known).append ⟨rfl, fun _ => rfl, by simp⟩
  | leave token user =>
      exact fun known => (follows known).append ⟨rfl, fun _ => rfl, by simp⟩
  | move token x y user allowed =>
      exact fun known => (follows known).append ⟨rfl, fun _ => rfl, by simp⟩
  | post command idle =>
      intro known
      refine (follows known).append ⟨(idle.quiet client).2, fun token => (idle.quiet token).1, ?_⟩
      rintro zoneId rfl
      exact idle
  | fire command rest next first allowed fires =>
      intro known
      have user : world.user client := by
        cases fires <;> exact known
      exact fires.follows first consistent (follows user) (stays command allowed)

end World

namespace World

/-! Who has entered stays in, if nobody fires its `LeaveCharacter`. -/

theorem Fires.entered {world next : World} {token zoneId posX posY : Int}
    (fires : Fires world (.enterCharacter token zoneId posX posY) next) (nonzero : token ≠ 0) :
    next.member token := by
  cases fires with
  | enter token posX posY user => exact Or.inl rfl
  | guest zoneId posX posY => exact absurd rfl nonzero

theorem Moves.member {rules : Rules} {world next : World} {client : Int}
    (moves : Moves rules world next)
    (stays : ∀ command, rules.mayFire command →
      ∀ zoneId, command ≠ .leaveCharacter client zoneId)
    (inside : world.member client) : next.member client := by
  cases moves with
  | fire command rest next first allowed fires =>
      cases fires with
      | enter token posX posY user => exact Or.inr inside
      | leave token zoneId =>
          refine ⟨inside, ?_⟩
          rintro ⟨-, rfl⟩
          exact stays _ allowed zoneId rfl
      | _ => exact inside
  | _ => exact inside

end World

namespace Server

def NeverLeaves (client : Int) (server : Server) : Event → Prop
  | .fire => ∀ zoneId, server.fired ≠ some (.leaveCharacter client zoneId)
  | _ => True

theorem neverLeaves_of_fired {client : Int} {server : Server}
    (enters : ∀ command ∈ server.fired, command.registersFor client = true →
      command.isEnter = true) : NeverLeaves client server .fire := by
  intro zoneId leaves
  exact absurd (enters _ leaves (by simp [Command.registersFor])) (by simp [Command.isEnter])

def Entered (client : Int) (events : List Event) : Prop :=
  ∃ before after zoneId posX posY, events = before ++ .fire :: after ∧
    (run {} before).fired = some (.enterCharacter client zoneId posX posY)

structure Watched (client : Int) (server : Server) : Prop where
  enrolled : Enrolled server
  consistent : server.world.Consistent
  follows : server.world.user client → server.world.Follows client

def staysIn (client : Int) : World.Rules where
  mayEnter := fun _ => True
  mayMove := fun _ => True
  mayFire := fun command => ∀ zoneId, command ≠ .leaveCharacter client zoneId

theorem start_watched (client : Int) : Watched client {} := by
  have nobody : ∀ token, ¬(world {}).user token := by
    rintro token ⟨slot, mapped⟩
    simp at mapped
  have outside : ∀ token, ¬(world {}).member token := by
    rintro token ⟨slot, registered⟩
    simp [characterMap] at registered
  refine ⟨start_enrolled, ⟨?_, ?_, ?_, ?_, ?_, ?_, ?_⟩, fun user => absurd user (nobody client)⟩
  · exact fun token user => absurd user (nobody token)
  · exact fun token member => absurd member (outside token)
  · intro token packet waiting
    cases waiting
  · intro token zoneId waiting
    cases waiting
  · intro zoneId packet waiting
    cases waiting
  · exact fun token user => absurd user (nobody token)
  · intro token here last
    cases last

theorem permitted_staysIn {client : Int} {server : Server} {event : Event}
    (never : NeverLeaves client server event) : Permitted (staysIn client) server event := by
  unfold Permitted
  split
  · exact fun _ => trivial
  · exact fun _ => trivial
  · rintro command fired zoneId rfl
    exact never zoneId fired
  · trivial

theorem step_watched (client : Int) (server : Server) (event : Event)
    (watched : Watched client server)
    (allowed : Steady server event ∧ NeverLeaves client server event) :
    Watched client (server.step event) := by
  obtain ⟨enrolled, moves⟩ :=
    step_moves_world watched.enrolled allowed.1 (permitted_staysIn allowed.2)
  exact ⟨enrolled, moves.consistent watched.consistent,
    moves.follows watched.consistent watched.follows fun _ stays => stays⟩

theorem step_member (client : Int) (server : Server) (event : Event)
    (inside : Watched client server ∧ server.world.member client)
    (allowed : Steady server event ∧ NeverLeaves client server event) :
    Watched client (server.step event) ∧ (server.step event).world.member client := by
  refine ⟨step_watched client server event inside.1 allowed, ?_⟩
  obtain ⟨-, moves⟩ :=
    step_moves_world inside.1.enrolled allowed.1 (permitted_staysIn allowed.2)
  exact moves.member (fun _ stays => stays) inside.2

theorem Watched.fire_entered {client : Int} {server : Server} (watched : Watched client server)
    (nonzero : client ≠ 0) {zoneId posX posY : Int}
    (fired : server.fired = some (.enterCharacter client zoneId posX posY)) :
    server.fire.world.member client := by
  unfold Server.fired at fired
  cases firing : server.firingCmds with
  | nil =>
      rw [firing] at fired
      cases fired
  | cons queued rest =>
      rw [firing] at fired
      have command := Option.some.inj fired
      obtain ⟨-, -, fires⟩ := fire_fires watched.enrolled firing
      rw [command] at fires
      exact fires.entered nonzero

theorem member_of_entered {client : Int} (nonzero : client ≠ 0) {events : List Event}
    (along : Run.Along step
      (fun server event => Steady server event ∧ NeverLeaves client server event) {} events)
    (entered : Entered client events) : (run {} events).world.member client := by
  obtain ⟨before, after, zoneId, posX, posY, rfl, fired⟩ := entered
  have here : Watched client (run {} before) :=
    Run.Along.invariant (step_watched client) (start_watched client) along.initial
  obtain ⟨allowed, later⟩ := along.final
  have watched := step_watched client _ _ here allowed
  have inside : (run {} before).fire.world.member client := here.fire_entered nonzero fired
  have last := Run.Along.invariant (step_member client) ⟨watched, inside⟩ later
  rw [run, List.foldl_append]
  exact last.2

/-! What the session of `client` has been sent, once nothing waits. -/

theorem Watched.client_view {client : Int} {server : Server} (watched : Watched client server)
    {slot : Nat} (mapped : server.userMap[client]? = some slot) (idle : server.pending = []) :
    (CharacterMgr.run (packetsTo (server.sessions slot).uid server)).view =
      server.world.view client := by
  have mail : server.world.mail client = packetsTo (server.sessions slot).uid server := by
    simp only [world, mapped]
  have letters : server.world.letters client = [] := by
    rw [World.letters, show server.world.queue = [] from idle]
    rfl
  rw [CharacterMgr.run_view (mail ▸ watched.consistent.mailbox client ⟨slot, mapped⟩)]
  rw [World.view, letters, List.append_nil, mail]

theorem Watched.holds_zone {client : Int} {server : Server} (watched : Watched client server)
    {slot : Nat} (mapped : server.userMap[client]? = some slot)
    (inside : server.world.member client) (idle : server.cmds = [] ∧ server.firingCmds = [])
    (token : Int) :
    token ∈ (CharacterMgr.run (packetsTo (server.sessions slot).uid server)).characterMap ↔
      token ∈ server.characterMap 1 ∧ token ≠ client := by
  have queue : server.world.queue = [] := by
    simp [world, pending, idle.1, idle.2]
  have follows := watched.follows ⟨slot, mapped⟩
  have view := watched.client_view mapped queue
  have held : token ∈ (CharacterMgr.run
      (packetsTo (server.sessions slot).uid server)).characterMap ↔
      (server.world.view client token).isSome := by
    rw [← view, CharacterMgr.view, Option.isSome_map, Std.TreeMap.mem_iff_isSome_getElem?]
  have present : token ∈ server.characterMap 1 ↔ server.world.member token := by
    rw [Std.TreeMap.mem_iff_isSome_getElem?]
    exact Option.isSome_iff_exists
  have announced : server.world.notices token = [] := by
    rw [World.notices, queue]
    rfl
  rw [held, present]
  by_cases mine : token = client
  · subst mine
    rw [World.view, View.foldl_see_own]
    simp
  by_cases member : server.world.member token
  · have known := follows.known inside token mine announced member
    rw [queue] at known
    simpa [member, mine] using known
  · rw [follows.gone inside token mine announced member]
    simp [member]

/-- Whenever no command waits and no tick is in progress, a client that has entered and never
left holds exactly the other characters of the zone. -/
theorem client_holds_zone (client : Int) (slot : Nat) (events : List Event)
    (along : Run.Along step
      (fun server event => Steady server event ∧ NeverLeaves client server event) {} events)
    (mapped : (run {} events).userMap[client]? = some slot) (entered : Entered client events)
    (idle : (run {} events).cmds = [] ∧ (run {} events).firingCmds = []) :
    ∀ token : Int,
      token ∈ (CharacterMgr.run
        (packetsTo ((run {} events).sessions slot).uid (run {} events))).characterMap ↔
      token ∈ (run {} events).characterMap 1 ∧ token ≠ client := by
  have watched : Watched client (run {} events) :=
    Run.Along.invariant (step_watched client) (start_watched client) along
  have positive := (watched.enrolled.owned.mapped client slot mapped).2.2
  have inside := member_of_entered (by omega) along entered
  exact watched.holds_zone mapped inside idle

theorem client_holds_zone_of_two :
    let events : List Event := [.connect 7, .packet 7 (some (.auth { id := 5 })) {}, .connect 8,
      .packet 8 (some (.auth { id := 6 })) {}, .packet 7 (some (.enter {})) {},
      .packet 8 (some (.enter {})) {}, .tick, .fire, .fire, .tick, .fire, .fire, .fire, .fire,
      .tick, .fire, .fire, .fire, .fire, .fire, .fire]
    Run.Along step
        (fun server event => Steady server event ∧ NeverLeaves 1 server event) {} events ∧
      (run {} events).userMap[(1 : Int)]? = some 99 ∧ Entered 1 events ∧
      ((run {} events).cmds = [] ∧ (run {} events).firingCmds = []) ∧
      ∀ token : Int,
        token ∈ (CharacterMgr.run
          (packetsTo ((run {} events).sessions 99).uid (run {} events))).characterMap ↔
        token ∈ (run {} events).characterMap 1 ∧ token ≠ 1 := by
  intro events
  have fires : ∀ server : Server, (∀ command ∈ server.fired, command.registersFor 1 = true →
      command.isEnter = true) → Steady server .fire ∧ NeverLeaves 1 server .fire :=
    fun server enters => ⟨trivial, neverLeaves_of_fired enters⟩
  have along : Run.Along step
      (fun server event => Steady server event ∧ NeverLeaves 1 server event) {} events := by
    refine ⟨⟨trivial, trivial⟩, ⟨⟨by decide, by decide⟩, trivial⟩, ⟨trivial, trivial⟩,
      ⟨⟨by decide, by decide⟩, trivial⟩, ⟨trivial, trivial⟩, ⟨trivial, trivial⟩,
      ⟨trivial, trivial⟩, fires _ (by decide), fires _ (by decide), ⟨trivial, trivial⟩,
      fires _ (by decide), fires _ (by decide),
      fires _ (by decide), fires _ (by decide), ⟨trivial, trivial⟩, fires _ (by decide),
      fires _ (by decide), fires _ (by decide), fires _ (by decide), fires _ (by decide),
      fires _ (by decide), trivial⟩
  have mapped : (run {} events).userMap[(1 : Int)]? = some 99 := by decide
  have entered : Entered 1 events := ⟨events.take 7, events.drop 8, 1, 0, 0, rfl, by decide⟩
  have idle : (run {} events).cmds = [] ∧ (run {} events).firingCmds = [] := by decide
  exact ⟨along, mapped, entered, idle, client_holds_zone 1 99 events along mapped entered idle⟩

end Server

end ProjectPl
