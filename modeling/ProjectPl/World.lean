import ProjectPl.Client
import ProjectPl.Membership

/-!
The server as its clients see it, without slots, links and pools: which tokens belong to users,
which of them are in the zone, where each one is, the commands that wait, and what was sent to
each user. `Moves` says once what can happen to it.
-/

namespace ProjectPl

@[ext]
structure World where
  user : Int → Prop
  member : Int → Prop
  pos : Int → Position
  queue : List Command
  mail : Int → List S2CCall

namespace World

/-! Commands that sessions without a token add, and talk that changes nothing a view holds. -/

def Idle : Command → Prop
  | .enterCharacter token _ _ _ => token = 0
  | .leaveCharacter token _ => token = 0
  | .sendBroadcastToAllUser _ (.move packet) => packet.token = 0
  | .sendBroadcastToAllUser _ (.interaction _) => True
  | .sendBroadcastToAllUser _ (.echo _) => True
  | _ => False

inductive Fires (world : World) : Command → World → Prop
  | nowhere (zoneId : Int) (packet : S2CCall) (elsewhere : zoneId ≠ 1) :
      Fires world (.sendBroadcastToAllUser zoneId packet) world
  | broadcast (packet : S2CCall) (recipients : List Int) (once : recipients.Nodup)
      (all : ∀ token, token ∈ recipients ↔ world.member token) :
      Fires world (.sendBroadcastToAllUser 1 packet) { world with
        queue := world.queue ++ recipients.map fun token => .sendPacketToUser token packet }
  | packet (token : Int) (packet : S2CCall) (user : world.user token) :
      Fires world (.sendPacketToUser token packet) { world with
        mail := Function.update world.mail token (world.mail token ++ [packet]) }
  | enter (token posX posY : Int) (user : world.user token) :
      Fires world (.enterCharacter token 1 posX posY) { world with
        member := fun other => other = token ∨ world.member other
        queue := world.queue ++
          [.sendBroadcastToAllUser 1 (.enter { token := token, x := posX, y := posY }),
            .sendCharacterList token 1] }
  | guest (zoneId posX posY : Int) : Fires world (.enterCharacter 0 zoneId posX posY) world
  | leave (token zoneId : Int) :
      Fires world (.leaveCharacter token zoneId) { world with
        pos := Function.update world.pos token {}
        member := fun other => world.member other ∧ ¬(zoneId = 1 ∧ other = token)
        queue := world.queue ++
          [.sendBroadcastToAllUser zoneId (.leave { token := token })] }
  | list (token : Int) (others : List Int) (user : world.user token)
      (all : ∀ other, other ∈ others ↔ world.member other ∧ other ≠ token) :
      Fires world (.sendCharacterList token 1) { world with
        queue := world.queue ++
          (Server.characterListPackets
            (others.map fun other => { token := other, pos := world.pos other }) {}).map
              fun packet => .sendPacketToUser token (.enterCharacter packet) }

/-! Who may enter, who may move, and which commands the next step may fire. -/

structure Rules where
  mayEnter : Int → Prop
  mayMove : Int → Prop
  mayFire : Command → Prop

inductive Moves (rules : Rules) (world : World) : World → Prop
  | stays : Moves rules world world
  | auth (token id : Int) (pos : Position) (beats : List S2CCall) (fresh : ¬world.user token)
      (nonzero : token ≠ 0) (beating : ∀ packet ∈ beats, packet = .heartbeat {}) :
      Moves rules world { world with
        user := fun other => other = token ∨ world.user other
        pos := Function.update world.pos token pos
        mail := Function.update world.mail token (beats ++ [.authResult ⟨id, token⟩]) }
  | beat (count : Int → Nat) :
      Moves rules world { world with
        mail := fun token => world.mail token ++ List.replicate (count token) (.heartbeat {}) }
  | enter (token posX posY : Int) (user : world.user token) (allowed : rules.mayEnter token) :
      Moves rules world { world with
        pos := Function.update world.pos token { zoneId := 1, posX := posX, posY := posY }
        queue := world.queue ++ [.enterCharacter token 1 posX posY] }
  | leave (token : Int) (user : world.user token) :
      Moves rules world { world with
        queue := world.queue ++ [.leaveCharacter token (world.pos token).zoneId] }
  | move (token x y : Int) (user : world.user token) (allowed : rules.mayMove token) :
      Moves rules world { world with
        pos := Function.update world.pos token { world.pos token with posX := x, posY := y }
        queue := world.queue ++ [.sendBroadcastToAllUser (world.pos token).zoneId
          (.move { token := token, x := x, y := y })] }
  | post (command : Command) (idle : Idle command) :
      Moves rules world { world with queue := world.queue ++ [command] }
  | fire (command : Command) (rest : List Command) (next : World)
      (first : world.queue = command :: rest) (allowed : rules.mayFire command)
      (fires : Fires { world with queue := rest } command next) : Moves rules world next

/-! The lists of `SendCharacterList` hold one character each: `SetData` says full at once. -/

theorem characterListPackets_eq (data : List CharacterDbData) :
    Server.characterListPackets data {} =
      data.map fun info => (ScPEnterCharacterList.setData {} info).1 := by
  induction data with
  | nil => rfl
  | cons info rest ih =>
      rw [Server.characterListPackets, List.map_cons, ← ih]
      rfl

/-! The packets of the commands. A letter is a packet on its way to one user; a notice is the
announcement, on its way to the whole zone, that a token came or left. -/

def letter (token : Int) : Command → Option S2CCall
  | .sendPacketToUser other packet => if other = token then some packet else none
  | _ => none

def notice (token : Int) : Command → Option Bool
  | .sendBroadcastToAllUser zoneId (.enter packet) =>
      if zoneId = 1 ∧ packet.token = token then some true else none
  | .sendBroadcastToAllUser zoneId (.leave packet) =>
      if zoneId = 1 ∧ packet.token = token then some false else none
  | _ => none

def Spoken : S2CCall → Prop
  | .enter _ | .leave _ | .move _ | .interaction _ | .echo _ => True
  | _ => False

def letters (world : World) (token : Int) : List S2CCall := world.queue.filterMap (letter token)

def notices (world : World) (token : Int) : List Bool := world.queue.filterMap (notice token)

/-- What the client of `token` sees once it has got everything that is on its way to it. -/
def view (world : World) (token : Int) : View :=
  (world.mail token ++ world.letters token).foldl (View.see token) fun _ => none

structure Consistent (world : World) : Prop where
  nonzero : ∀ token, world.user token → token ≠ 0
  enrolled : ∀ token, world.member token → world.user token
  addressed : ∀ token packet, .sendPacketToUser token packet ∈ world.queue →
    world.user token ∧ ∀ answer, packet ≠ .authResult answer
  listed : ∀ token zoneId, .sendCharacterList token zoneId ∈ world.queue → world.user token
  spoken : ∀ zoneId packet, .sendBroadcastToAllUser zoneId packet ∈ world.queue → Spoken packet
  mailbox : ∀ token, world.user token → CharacterMgr.Mailbox token (world.mail token)
  announced : ∀ token here, (world.notices token).getLast? = some here →
    (world.member token ↔ here = true)

variable {world next : World} {rules : Rules}

/-! Commands added at the end, and the first one taken. -/

theorem view_congr {client : Int} (mail : next.mail client = world.mail client)
    (letters : next.letters client = world.letters client) :
    next.view client = world.view client := by
  rw [World.view, World.view, mail, letters]

theorem view_append (world : World) (more : List Command) (token : Int) :
    view { world with queue := world.queue ++ more } token =
      (more.filterMap (letter token)).foldl (View.see token) (world.view token) := by
  simp only [view, letters, List.filterMap_append, ← List.append_assoc, List.foldl_append]

theorem notices_append (world : World) (more : List Command) (token : Int) :
    notices { world with queue := world.queue ++ more } token =
      world.notices token ++ more.filterMap (notice token) := by
  simp only [notices, List.filterMap_append]

theorem view_pop {command : Command} {rest : List Command}
    (first : world.queue = command :: rest) {token : Int} (none : letter token command = none) :
    view { world with queue := rest } token = world.view token := by
  simp only [view, letters, first, List.filterMap_cons, none]

theorem notices_pop {command : Command} {rest : List Command}
    (first : world.queue = command :: rest) {token : Int} (none : notice token command = none) :
    notices { world with queue := rest } token = world.notices token := by
  simp only [notices, first, List.filterMap_cons, none]

theorem view_beat (world : World) (count : Int → Nat) (token : Int) :
    view { world with
      mail := fun other => world.mail other ++ List.replicate (count other) (.heartbeat {}) } token =
      world.view token := by
  simp only [view, letters, List.foldl_append]
  rw [View.foldl_see_beats fun packet member => (List.mem_replicate.mp member).2]

/-! One packet more: who sees what of it. -/

theorem see_other {own : Int} {packet : S2CCall} (spoken : Spoken packet) {token : Int}
    (others : ∀ here, notice token (.sendBroadcastToAllUser 1 packet) ≠ some here)
    (seen : View) : (seen.see own packet token).isSome = (seen token).isSome := by
  cases packet with
  | enter packet =>
      have different : packet.token ≠ token := by
        rintro rfl
        exact others true (by simp [notice])
      simp only [View.see]
      split
      · rfl
      · rw [Function.update_of_ne (Ne.symm different)]
  | leave packet =>
      have different : packet.token ≠ token := by
        rintro rfl
        exact others false (by simp [notice])
      simp only [View.see]
      split
      · rfl
      · rw [Function.update_of_ne (Ne.symm different)]
  | move packet =>
      simp only [View.see]
      split
      · rfl
      · by_cases same : token = packet.token
        · subst same
          simp
        · rw [Function.update_of_ne same]
  | interaction packet => rfl
  | echo packet => rfl
  | _ => cases spoken

theorem recipients_letters {recipients : List Int} (once : recipients.Nodup) (token : Int)
    (packet : S2CCall) :
    (recipients.map fun other => Command.sendPacketToUser other packet).filterMap (letter token) =
      if token ∈ recipients then [packet] else [] := by
  induction recipients with
  | nil => rfl
  | cons other rest ih =>
      obtain ⟨fresh, later⟩ := List.nodup_cons.mp once
      rw [List.map_cons, List.filterMap_cons, ih later]
      by_cases same : other = token
      · subst same
        simp [letter, fresh]
      · simp [letter, same, Ne.symm same]

/-! Every move keeps a world consistent. -/

structure Proper (world : World) (command : Command) : Prop where
  addressed : ∀ token packet, command = .sendPacketToUser token packet →
    world.user token ∧ ∀ answer, packet ≠ .authResult answer
  listed : ∀ token zoneId, command = .sendCharacterList token zoneId → world.user token
  spoken : ∀ zoneId packet, command = .sendBroadcastToAllUser zoneId packet → Spoken packet

theorem Consistent.proper (consistent : world.Consistent) {command : Command}
    (member : command ∈ world.queue) : Proper world command := by
  refine ⟨?_, ?_, ?_⟩
  · rintro token packet rfl
    exact consistent.addressed token packet member
  · rintro token zoneId rfl
    exact consistent.listed token zoneId member
  · rintro zoneId packet rfl
    exact consistent.spoken zoneId packet member

namespace Proper

theorem packet {token : Int} {packet : S2CCall} (user : world.user token)
    (noAnswer : ∀ answer, packet ≠ .authResult answer) :
    Proper world (.sendPacketToUser token packet) := by
  refine ⟨?_, by simp, by simp⟩
  intro other same equal
  obtain ⟨rfl, rfl⟩ := Command.sendPacketToUser.inj equal
  exact ⟨user, noAnswer⟩

theorem list {token : Int} (user : world.user token) (zoneId : Int) :
    Proper world (.sendCharacterList token zoneId) := by
  refine ⟨by simp, ?_, by simp⟩
  intro other zone equal
  obtain ⟨rfl, -⟩ := Command.sendCharacterList.inj equal
  exact user

theorem broadcast {packet : S2CCall} (spoken : Spoken packet) (zoneId : Int) :
    Proper world (.sendBroadcastToAllUser zoneId packet) := by
  refine ⟨by simp, by simp, ?_⟩
  intro zone other equal
  obtain ⟨-, rfl⟩ := Command.sendBroadcastToAllUser.inj equal
  exact spoken

end Proper

/-- The queue and the zone may change together, as long as the announcements still agree. -/
theorem Consistent.change (consistent : world.Consistent) {queue : List Command}
    {member : Int → Prop} {pos : Int → Position}
    (proper : ∀ command ∈ queue, command ∈ world.queue ∨ Proper world command)
    (enrolled : ∀ token, member token → world.user token)
    (announced : ∀ token here, (queue.filterMap (notice token)).getLast? = some here →
      (member token ↔ here = true)) :
    Consistent { world with queue := queue, member := member, pos := pos } := by
  have all : ∀ command ∈ queue, Proper world command := by
    intro command listed
    rcases proper command listed with old | new
    · exact consistent.proper old
    · exact new
  refine ⟨consistent.nonzero, enrolled, ?_, ?_, ?_, consistent.mailbox, announced⟩
  · exact fun token packet listed => (all _ listed).addressed token packet rfl
  · exact fun token zoneId listed => (all _ listed).listed token zoneId rfl
  · exact fun zoneId packet listed => (all _ listed).spoken zoneId packet rfl

theorem Consistent.pop (consistent : world.Consistent) {command : Command} {rest : List Command}
    (first : world.queue = command :: rest) : Consistent { world with queue := rest } := by
  apply consistent.change
  · intro other member
    rw [first]
    exact Or.inl (List.mem_cons_of_mem _ member)
  · exact consistent.enrolled
  · intro token here last
    apply consistent.announced token here
    rw [notices, first, List.filterMap_cons]
    split
    · exact last
    · rw [List.getLast?_cons, last]
      rfl

theorem Consistent.append (consistent : world.Consistent) {more : List Command}
    {pos : Int → Position} (proper : ∀ command ∈ more, Proper world command)
    (quiet : ∀ command ∈ more, ∀ token, notice token command = none) :
    Consistent { world with queue := world.queue ++ more, pos := pos } := by
  apply consistent.change
  · intro command member
    exact (List.mem_append.mp member).imp_right (proper command)
  · exact consistent.enrolled
  · intro token here last
    have none : more.filterMap (notice token) = [] := by
      apply List.filterMap_eq_nil_iff.mpr
      exact fun command member => quiet command member token
    rw [List.filterMap_append, none, List.append_nil] at last
    exact consistent.announced token here last

theorem Consistent.append_one (consistent : world.Consistent) {command : Command}
    {pos : Int → Position} (proper : Proper world command)
    (quiet : ∀ token, notice token command = none) :
    Consistent { world with queue := world.queue ++ [command], pos := pos } := by
  apply consistent.append
  · intro other member
    rw [List.mem_singleton.mp member]
    exact proper
  · intro other member
    rw [List.mem_singleton.mp member]
    exact quiet

/-- An announcement goes to the queue with the change of the zone that it tells. -/
theorem Consistent.announce (consistent : world.Consistent) {command : Command}
    {more : List Command} {member : Int → Prop} {pos : Int → Position}
    (proper : ∀ other ∈ command :: more, Proper world other)
    (quiet : ∀ other ∈ more, ∀ token, notice token other = none)
    (enrolled : ∀ token, member token → world.user token)
    (told : ∀ token here, notice token command = some here → (member token ↔ here = true))
    (kept : ∀ token, notice token command = none → (member token ↔ world.member token)) :
    Consistent { world with
      queue := world.queue ++ command :: more, member := member, pos := pos } := by
  apply consistent.change
  · intro other among
    exact (List.mem_append.mp among).imp_right (proper other)
  · exact enrolled
  · intro token here last
    have nothing : more.filterMap (notice token) = [] := by
      apply List.filterMap_eq_nil_iff.mpr
      exact fun other among => quiet other among token
    rw [List.filterMap_append, List.filterMap_cons, nothing] at last
    cases announced : notice token command with
    | none =>
        rw [announced, List.append_nil] at last
        rw [kept token announced]
        exact consistent.announced token here last
    | some there =>
        rw [announced, List.getLast?_concat] at last
        obtain rfl := Option.some.inj last
        exact told token there announced

theorem Fires.consistent {command : Command} (fires : Fires world command next)
    (consistent : world.Consistent) (proper : Proper world command) : next.Consistent := by
  cases fires with
  | nowhere zoneId packet elsewhere => exact consistent
  | broadcast packet recipients once all =>
      have spoken := proper.spoken 1 packet rfl
      apply consistent.append
      · intro command member
        obtain ⟨token, listed, rfl⟩ := List.mem_map.mp member
        apply Proper.packet (consistent.enrolled _ ((all _).mp listed))
        rintro answer rfl
        exact spoken
      · intro command member token
        obtain ⟨other, -, rfl⟩ := List.mem_map.mp member
        rfl
  | packet token packet user =>
      obtain ⟨nonzero, enrolled, addressed, listed, spoken, mailbox, announced⟩ := consistent
      refine ⟨nonzero, enrolled, addressed, listed, spoken, ?_, announced⟩
      intro other known
      by_cases same : other = token
      · subst same
        dsimp only
        rw [Function.update_self]
        apply (mailbox other known).append
        intro later member
        rw [List.mem_singleton.mp member]
        exact (proper.addressed other packet rfl).2
      · dsimp only
        rw [Function.update_of_ne same]
        exact mailbox other known
  | enter token posX posY user =>
      apply consistent.announce
      · intro command member
        rcases List.mem_cons.mp member with rfl | member
        · exact Proper.broadcast (by trivial) 1
        · rw [List.mem_singleton.mp member]
          exact Proper.list user 1
      · intro command member other
        rw [List.mem_singleton.mp member]
        rfl
      · rintro other (rfl | known)
        · exact user
        · exact consistent.enrolled other known
      · intro other here told
        simp only [notice, true_and, Option.ite_none_right_eq_some, Option.some.injEq] at told
        obtain ⟨rfl, rfl⟩ := told
        simp
      · intro other silent
        have apart : other ≠ token := by
          rintro rfl
          simp [notice] at silent
        exact or_iff_right apart
  | guest zoneId posX posY => exact consistent
  | leave token zoneId =>
      apply consistent.announce
      · intro command member
        rw [List.mem_singleton.mp member]
        exact Proper.broadcast (by trivial) zoneId
      · intro command member
        cases member
      · exact fun other known => consistent.enrolled other known.1
      · intro other here told
        simp only [notice, Option.ite_none_right_eq_some, Option.some.injEq] at told
        obtain ⟨⟨rfl, rfl⟩, rfl⟩ := told
        simp
      · intro other silent
        have apart : ¬(zoneId = 1 ∧ other = token) := by
          rintro ⟨rfl, rfl⟩
          simp [notice] at silent
        exact and_iff_left apart
  | list token others user all =>
      apply consistent.append
      · intro command member
        obtain ⟨packet, -, rfl⟩ := List.mem_map.mp member
        exact Proper.packet user (by simp)
      · intro command member other
        obtain ⟨packet, -, rfl⟩ := List.mem_map.mp member
        rfl

theorem Idle.proper {command : Command} (idle : Idle command) (world : World) :
    Proper world command := by
  unfold Idle at idle
  split at idle
  · exact ⟨by simp, by simp, by simp⟩
  · exact ⟨by simp, by simp, by simp⟩
  · exact Proper.broadcast (by trivial) _
  · exact Proper.broadcast (by trivial) _
  · exact Proper.broadcast (by trivial) _
  · exact idle.elim

theorem Idle.quiet {command : Command} (idle : Idle command) (token : Int) :
    notice token command = none ∧ letter token command = none := by
  unfold Idle at idle
  split at idle
  · exact ⟨rfl, rfl⟩
  · exact ⟨rfl, rfl⟩
  · exact ⟨rfl, rfl⟩
  · exact ⟨rfl, rfl⟩
  · exact ⟨rfl, rfl⟩
  · exact idle.elim

theorem Moves.consistent (moves : Moves rules world next) (consistent : world.Consistent) :
    next.Consistent := by
  cases moves with
  | stays => exact consistent
  | auth token id pos beats fresh nonzero beating =>
      refine ⟨?_, ?_, ?_, ?_, consistent.spoken, ?_, consistent.announced⟩
      · rintro other (rfl | known)
        · exact nonzero
        · exact consistent.nonzero other known
      · exact fun other member => Or.inr (consistent.enrolled other member)
      · intro other packet listed
        obtain ⟨known, noAnswer⟩ := consistent.addressed other packet listed
        exact ⟨Or.inr known, noAnswer⟩
      · exact fun other zoneId listed => Or.inr (consistent.listed other zoneId listed)
      · intro other known
        by_cases same : other = token
        · subst same
          dsimp only
          rw [Function.update_self]
          exact ⟨beats, id, [], rfl, beating, by simp⟩
        · dsimp only
          rw [Function.update_of_ne same]
          exact consistent.mailbox other (known.resolve_left same)
  | beat count =>
      obtain ⟨nonzero, enrolled, addressed, listed, spoken, mailbox, announced⟩ := consistent
      refine ⟨nonzero, enrolled, addressed, listed, spoken, ?_, announced⟩
      intro token known
      apply (mailbox token known).append
      intro packet member
      rw [(List.mem_replicate.mp member).2]
      simp
  | enter token posX posY user allowed =>
      exact consistent.append_one ⟨by simp, by simp, by simp⟩ fun _ => rfl
  | leave token user =>
      exact consistent.append_one ⟨by simp, by simp, by simp⟩ fun _ => rfl
  | move token x y user allowed =>
      exact consistent.append_one (Proper.broadcast (by trivial) _) fun _ => rfl
  | post command idle =>
      exact consistent.append_one (idle.proper world) fun token => (idle.quiet token).1
  | fire command rest next first allowed fires =>
      apply fires.consistent (consistent.pop first)
      have waiting : command ∈ world.queue := by simp [first]
      have proper := consistent.proper waiting
      exact ⟨proper.addressed, proper.listed, proper.spoken⟩

end World

end ProjectPl
