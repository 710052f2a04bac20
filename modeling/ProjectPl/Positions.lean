import ProjectPl.Convergence

/-!
The positions a client holds against the positions in the sessions. A move is announced as it is
handled, two queues away from the clients; an enter is announced when its command is fired, three
queues away, with the position of the moment it was handled. A move handled between the two
arrives first and is overwritten.
-/

namespace ProjectPl

def Position.getPos (pos : Position) : Int × Int := (pos.posX, pos.posY)

/-! What matters of the position of one session: its seat, where it is, and the positions that
are announced and not yet on their way to the clients. -/

structure Track where
  seat : Seat
  spot : Int × Int
  reports : List (Int × Int)

namespace Track

inductive Moves (token : Int) (track : Track) : Track → Prop
  | stays : Moves token track track
  | enter (posX posY : Int) (noLeave : ∀ zoneId, .leaveCharacter token zoneId ∉ track.seat.own) :
      Moves token track
        ⟨⟨1, track.seat.registered, track.seat.own ++ [.enterCharacter token 1 posX posY]⟩,
          (posX, posY), track.reports⟩
  | leave : Moves token track
      ⟨⟨track.seat.zoneId, track.seat.registered,
        track.seat.own ++ [.leaveCharacter token track.seat.zoneId]⟩, track.spot, track.reports⟩
  | move (x y : Int) (noEnter : ∀ command ∈ track.seat.own, command.isEnter = false) :
      Moves token track
        ⟨track.seat, (x, y), track.reports ++ if track.seat.zoneId = 1 then [(x, y)] else []⟩
  | fireEnter (zoneId posX posY : Int) (rest : List Command)
      (own : track.seat.own = .enterCharacter token zoneId posX posY :: rest) :
      Moves token track
        ⟨⟨track.seat.zoneId, True, rest⟩, track.spot, track.reports ++ [(posX, posY)]⟩
  | fireLeave (zoneId : Int) (rest : List Command)
      (own : track.seat.own = .leaveCharacter token zoneId :: rest) :
      Moves token track
        ⟨⟨0, zoneId ≠ 1 ∧ track.seat.registered, rest⟩, (0, 0), track.reports⟩
  | report (xy : Int × Int) (rest : List (Int × Int)) (first : track.reports = xy :: rest) :
      Moves token track ⟨track.seat, track.spot, rest⟩

/-- The last command that enters carries the position, and once there is none, the last
announcement of a registered session does. -/
structure Told (token : Int) (track : Track) : Prop where
  located : track.seat.Located token
  entering : ∀ zoneId posX posY,
    (track.seat.own.filter Command.isEnter).getLast? =
      some (.enterCharacter token zoneId posX posY) → (posX, posY) = track.spot
  told : (∀ command ∈ track.seat.own, command.isEnter = false) → track.seat.registered →
    ∀ xy, track.reports.getLast? = some xy → xy = track.spot

variable {token : Int} {track next : Track}

theorem Moves.seat (moves : Moves token track next) : Seat.Moves token track.seat next.seat := by
  cases moves with
  | stays => exact .stays
  | enter posX posY noLeave => exact .enter posX posY noLeave
  | leave => exact .leave
  | move x y noEnter => exact .stays
  | fireEnter zoneId posX posY rest own => exact .fireEnter zoneId posX posY rest own
  | fireLeave zoneId rest own => exact .fireLeave zoneId rest own
  | report xy rest first => exact .stays

theorem no_enters {own : List Command} (noEnter : ∀ command ∈ own, command.isEnter = false) :
    own.filter Command.isEnter = [] := by
  apply List.filter_eq_nil_iff.mpr
  intro command member
  simp [noEnter command member]

/-- A session whose `LeaveCharacter` has been fired is not registered. -/
theorem left_unregistered {zoneId : Int} {rest : List Command}
    (own : track.seat.own = .leaveCharacter token zoneId :: rest)
    (located : track.seat.Located token) :
    (∀ command ∈ rest, command.isEnter = false) ∧ ¬(zoneId ≠ 1 ∧ track.seat.registered) := by
  have later := (Seat.Moves.fireLeave zoneId rest own).located located
  have order := located.order
  rw [own] at order
  have noEnter : ∀ command ∈ rest, command.isEnter = false :=
    fun command member => (List.pairwise_cons.mp order).1 command member rfl
  exact ⟨noEnter, fun registered => absurd (later.inside noEnter registered) zero_ne_one⟩

theorem Moves.told (moves : Moves token track next) (told : track.Told token) :
    next.Told token := by
  refine ⟨moves.seat.located told.located, ?_, ?_⟩
  · cases moves with
    | stays => exact told.entering
    | enter posX posY noLeave =>
        intro zoneId x y last
        simp only [List.filter_append, List.filter_cons, Command.isEnter, ↓reduceIte,
          List.filter_nil, List.getLast?_append, List.getLast?_singleton, Option.some_or,
          Option.some.injEq, Command.enterCharacter.injEq] at last
        rw [last.2.2.1, last.2.2.2]
    | leave =>
        intro zoneId x y last
        apply told.entering zoneId x y
        simpa [Command.isEnter] using last
    | move x y noEnter =>
        intro zoneId posX posY last
        rw [no_enters noEnter] at last
        cases last
    | fireEnter zoneId posX posY rest own =>
        intro other x y last
        apply told.entering other x y
        rw [own, List.filter_cons_of_pos rfl, List.getLast?_cons, last]
        rfl
    | fireLeave zoneId rest own =>
        intro other x y last
        rw [no_enters (left_unregistered own told.located).1] at last
        cases last
    | report xy rest first => exact told.entering
  · cases moves with
    | stays => exact told.told
    | enter posX posY noLeave =>
        intro noEnter
        exact absurd (noEnter _ (List.mem_append_right _ List.mem_cons_self))
          (by simp [Command.isEnter])
    | leave =>
        intro noEnter
        exact told.told fun command member => noEnter command (List.mem_append_left _ member)
    | move x y noEnter =>
        intro _ registered xy last
        have here := told.located.inside noEnter registered
        dsimp only at last
        rw [if_pos here, List.getLast?_concat] at last
        exact (Option.some.inj last).symm
    | fireEnter zoneId posX posY rest own =>
        intro noEnter _ xy last
        dsimp only at last
        rw [List.getLast?_concat] at last
        rw [← Option.some.inj last]
        apply told.entering zoneId
        rw [own, List.filter_cons_of_pos rfl, no_enters noEnter]
        rfl
    | fireLeave zoneId rest own =>
        exact fun _ registered => absurd registered (left_unregistered own told.located).2
    | report xy rest first =>
        intro noEnter registered last found
        apply told.told noEnter registered
        rw [first, List.getLast?_cons, found]
        rfl

/-! A registered session of which nothing waits. -/

structure Calm (track : Track) : Prop where
  registered : track.seat.registered
  noEnter : ∀ command ∈ track.seat.own, command.isEnter = false
  silent : track.reports = []

theorem Moves.calm (moves : Moves token track next) (told : track.Told token) (calm : next.Calm)
    (silent : track.reports = []) : track.Calm ∧ next.spot = track.spot := by
  cases moves with
  | stays => exact ⟨calm, rfl⟩
  | enter posX posY noLeave =>
      exact absurd (calm.noEnter _ (List.mem_append_right _ List.mem_cons_self))
        (by simp [Command.isEnter])
  | leave =>
      refine ⟨⟨calm.registered, ?_, silent⟩, rfl⟩
      exact fun command member => calm.noEnter command (List.mem_append_left _ member)
  | move x y noEnter =>
      have here := told.located.inside noEnter calm.registered
      have none := calm.silent
      simp [here] at none
  | fireEnter zoneId posX posY rest own =>
      have none := calm.silent
      simp at none
  | fireLeave zoneId rest own =>
      exact absurd calm.registered (left_unregistered own told.located).2
  | report xy rest first =>
      rw [silent] at first
      cases first

end Track

namespace World

def report (token : Int) : Command → Option (Int × Int)
  | .sendBroadcastToAllUser zoneId (.enter packet) =>
      if zoneId = 1 ∧ packet.token = token then some (packet.x, packet.y) else none
  | .sendBroadcastToAllUser zoneId (.move packet) =>
      if zoneId = 1 ∧ packet.token = token then some (packet.x, packet.y) else none
  | _ => none

def reports (world : World) (token : Int) : List (Int × Int) :=
  world.queue.filterMap (report token)

def track (world : World) (token : Int) : Track where
  seat :=
    { zoneId := (world.pos token).zoneId
      registered := world.member token
      own := world.queue.filter (·.registersFor token) }
  spot := ((world.pos token).posX, (world.pos token).posY)
  reports := world.reports token

/-- A session enters when no `LeaveCharacter` of its own waits, and moves when no
`EnterCharacter` of its own does. -/
def careful (client : Int) (world : World) : Rules where
  mayEnter := fun token => ∀ zoneId, .leaveCharacter token zoneId ∉ world.queue
  mayMove := fun token => ∀ zoneId posX posY, .enterCharacter token zoneId posX posY ∉ world.queue
  mayFire := fun command => ∀ zoneId, command ≠ .leaveCharacter client zoneId

variable {world next : World} {client token : Int}

/-! A move that leaves the position, the zone and the commands about a token alone. -/

theorem track_congr (pos : next.pos token = world.pos token)
    (member : next.member token ↔ world.member token)
    (own : next.queue.filter (·.registersFor token) = world.queue.filter (·.registersFor token))
    (reports : next.reports token = world.reports token) : next.track token = world.track token := by
  unfold track
  rw [pos, own, reports, member]

structure Aside (token : Int) (command : Command) : Prop where
  own : command.registersFor token = false
  report : report token command = none

theorem track_append (world : World) {more : List Command}
    (aside : ∀ command ∈ more, Aside token command) {pos : Int → Position}
    {member : Int → Prop} {mail : Int → List S2CCall} (samePos : pos token = world.pos token)
    (sameMember : member token ↔ world.member token) :
    track { world with queue := world.queue ++ more, pos := pos, member := member, mail := mail }
      token = world.track token := by
  apply track_congr samePos sameMember
  · have none : more.filter (·.registersFor token) = [] := by
      apply List.filter_eq_nil_iff.mpr
      intro command listed
      simp [(aside command listed).own]
    rw [List.filter_append, none, List.append_nil]
  · have none : more.filterMap (report token) = [] :=
      List.filterMap_eq_nil_iff.mpr fun command listed => (aside command listed).report
    rw [reports, List.filterMap_append, none, List.append_nil, reports]

theorem track_pop {command : Command} {rest : List Command}
    (first : world.queue = command :: rest) (aside : Aside token command) :
    track { world with queue := rest } token = world.track token := by
  apply track_congr
  · rfl
  · exact Iff.rfl
  · rw [first, List.filter_cons_of_neg (by simp [aside.own])]
  · rw [reports, reports, first, List.filterMap_cons, aside.report]

theorem Idle.aside {command : Command} (idle : Idle command) (nonzero : token ≠ 0) :
    Aside token command := by
  unfold Idle at idle
  split at idle
  · exact ⟨by simp [Command.registersFor, idle, Ne.symm nonzero], rfl⟩
  · exact ⟨by simp [Command.registersFor, idle, Ne.symm nonzero], rfl⟩
  · exact ⟨rfl, by simp [report, idle, Ne.symm nonzero]⟩
  · exact ⟨rfl, rfl⟩
  · exact ⟨rfl, rfl⟩
  · exact idle.elim

/-! Each move of the world is one of the track of every user. -/

theorem broadcast_track {packet : S2CCall} {rest : List Command}
    (first : world.queue = .sendBroadcastToAllUser 1 packet :: rest) (recipients : List Int)
    (token : Int) :
    Track.Moves token (world.track token) (track { world with
      queue := rest ++ recipients.map fun other => .sendPacketToUser other packet } token) := by
  have letters : ∀ command ∈ recipients.map fun other => Command.sendPacketToUser other packet,
      Aside token command := by
    intro command listed
    obtain ⟨other, -, rfl⟩ := List.mem_map.mp listed
    exact ⟨rfl, rfl⟩
  have added : track { world with
      queue := rest ++ recipients.map fun other => .sendPacketToUser other packet } token =
      track { world with queue := rest } token :=
    track_append { world with queue := rest } letters rfl Iff.rfl
  rw [added]
  cases told : report token (.sendBroadcastToAllUser 1 packet) with
  | none =>
      rw [track_pop first ⟨rfl, told⟩]
      exact .stays
  | some xy =>
      have reports : (world.track token).reports = xy :: rest.filterMap (report token) := by
        simp only [track, World.reports, first, List.filterMap_cons, told]
      have next : track { world with queue := rest } token =
          ⟨(world.track token).seat, (world.track token).spot, rest.filterMap (report token)⟩ := by
        simp only [track, first, World.reports,
          List.filter_cons_of_neg (show ¬Command.registersFor token
            (.sendBroadcastToAllUser 1 packet) = true by simp [Command.registersFor])]
      rw [next]
      exact .report xy _ reports

theorem enter_track {entered posX posY : Int} {rest : List Command}
    (first : world.queue = .enterCharacter entered 1 posX posY :: rest) (token : Int) :
    Track.Moves token (world.track token) (track { world with
      member := fun other => other = entered ∨ world.member other
      queue := rest ++
        [.sendBroadcastToAllUser 1 (.enter { token := entered, x := posX, y := posY }),
          .sendCharacterList entered 1] } token) := by
  by_cases mine : entered = token
  · subst mine
    have next : track { world with
        member := fun other => other = entered ∨ world.member other
        queue := rest ++
          [.sendBroadcastToAllUser 1 (.enter { token := entered, x := posX, y := posY }),
            .sendCharacterList entered 1] } entered =
        ⟨⟨(world.track entered).seat.zoneId, True, rest.filter (·.registersFor entered)⟩,
          (world.track entered).spot, (world.track entered).reports ++ [(posX, posY)]⟩ := by
      simp [track, reports, first, report, Command.registersFor, List.filterMap_cons]
    rw [next]
    apply Track.Moves.fireEnter 1 posX posY
    simp [track, first, Command.registersFor]
  · have quiet : Aside token (.enterCharacter entered 1 posX posY) :=
      ⟨by simp [Command.registersFor, mine], rfl⟩
    have more : ∀ command ∈
        [Command.sendBroadcastToAllUser 1 (.enter { token := entered, x := posX, y := posY }),
          .sendCharacterList entered 1], Aside token command := by
      intro command listed
      simp only [List.mem_cons, List.not_mem_nil, or_false] at listed
      rcases listed with rfl | rfl
      · exact ⟨rfl, by simp [report, mine]⟩
      · exact ⟨rfl, rfl⟩
    have next : track { world with
        member := fun other => other = entered ∨ world.member other
        queue := rest ++
          [.sendBroadcastToAllUser 1 (.enter { token := entered, x := posX, y := posY }),
            .sendCharacterList entered 1] } token = track { world with queue := rest } token :=
      track_append { world with queue := rest } more rfl (by simp [Ne.symm mine])
    rw [next, track_pop first quiet]
    exact .stays

theorem leave_track {left zoneId : Int} {rest : List Command}
    (first : world.queue = .leaveCharacter left zoneId :: rest) (token : Int) :
    Track.Moves token (world.track token) (track { world with
      pos := Function.update world.pos left {}
      member := fun other => world.member other ∧ ¬(zoneId = 1 ∧ other = left)
      queue := rest ++ [.sendBroadcastToAllUser zoneId (.leave { token := left })] } token) := by
  by_cases mine : left = token
  · subst mine
    have next : track { world with
        pos := Function.update world.pos left {}
        member := fun other => world.member other ∧ ¬(zoneId = 1 ∧ other = left)
        queue := rest ++ [.sendBroadcastToAllUser zoneId (.leave { token := left })] } left =
        ⟨⟨0, zoneId ≠ 1 ∧ (world.track left).seat.registered, rest.filter (·.registersFor left)⟩,
          (0, 0), (world.track left).reports⟩ := by
      simp [track, reports, first, report, Command.registersFor, List.filterMap_cons, and_comm]
    rw [next]
    apply Track.Moves.fireLeave zoneId
    simp [track, first, Command.registersFor]
  · have quiet : Aside token (.leaveCharacter left zoneId) :=
      ⟨by simp [Command.registersFor, mine], rfl⟩
    have more : ∀ command ∈ [Command.sendBroadcastToAllUser zoneId (.leave { token := left })],
        Aside token command := by
      intro command listed
      rw [List.mem_singleton.mp listed]
      exact ⟨rfl, rfl⟩
    have next : track { world with
        pos := Function.update world.pos left {}
        member := fun other => world.member other ∧ ¬(zoneId = 1 ∧ other = left)
        queue := rest ++ [.sendBroadcastToAllUser zoneId (.leave { token := left })] } token =
        track { world with queue := rest } token := by
      apply track_append { world with queue := rest } more
      · exact Function.update_of_ne (Ne.symm mine) _ _
      · simp [Ne.symm mine]
    rw [next, track_pop first quiet]
    exact .stays

theorem Fires.track {command : Command} {rest : List Command}
    (fires : Fires { world with queue := rest } command next)
    (first : world.queue = command :: rest) (nonzero : token ≠ 0) :
    Track.Moves token (world.track token) (next.track token) := by
  cases fires with
  | nowhere zoneId packet elsewhere =>
      rw [track_pop first ⟨rfl, ?_⟩]
      · exact .stays
      · cases packet with
        | enter packet => simp [report, elsewhere]
        | move packet => simp [report, elsewhere]
        | _ => rfl
  | broadcast packet recipients once all => exact broadcast_track first recipients token
  | packet other packet user =>
      have next : World.track { world with
          queue := rest
          mail := Function.update world.mail other (world.mail other ++ [packet]) } token =
          world.track token := track_pop first ⟨rfl, rfl⟩
      rw [next]
      exact .stays
  | enter entered posX posY user => exact enter_track first token
  | guest zoneId posX posY =>
      rw [track_pop first ⟨by simp [Command.registersFor, Ne.symm nonzero], rfl⟩]
      exact .stays
  | leave left zoneId => exact leave_track first token
  | list other others user all =>
      have letters : ∀ packets : List ScPEnterCharacterList, ∀ command ∈ packets.map
          fun packet => Command.sendPacketToUser other (.enterCharacter packet),
          Aside token command := by
        intro packets command listed
        obtain ⟨packet, -, rfl⟩ := List.mem_map.mp listed
        exact ⟨rfl, rfl⟩
      rw [track_append { world with queue := rest } (letters _) rfl Iff.rfl,
        track_pop first ⟨rfl, rfl⟩]
      exact .stays

theorem append_track {command : Command} (aside : Aside token command) {pos : Int → Position}
    (samePos : pos token = world.pos token) :
    Track.Moves token (world.track token)
      (World.track { world with pos := pos, queue := world.queue ++ [command] } token) := by
  have next : World.track { world with pos := pos, queue := world.queue ++ [command] } token =
      world.track token := by
    apply track_append world _ samePos Iff.rfl
    intro other listed
    rw [List.mem_singleton.mp listed]
    exact aside
  rw [next]
  exact .stays

theorem Moves.track (moves : Moves (careful client world) world next) (nonzero : token ≠ 0)
    (user : world.user token) : Track.Moves token (world.track token) (next.track token) := by
  cases moves with
  | stays => exact .stays
  | auth fresh id pos beats new _ beating =>
      have other : token ≠ fresh := by
        rintro rfl
        exact new user
      have next : World.track { world with
          user := fun other => other = fresh ∨ world.user other
          pos := Function.update world.pos fresh pos
          mail := Function.update world.mail fresh (beats ++ [.authResult ⟨id, fresh⟩]) } token =
          world.track token :=
        track_congr (Function.update_of_ne other _ _) Iff.rfl rfl rfl
      rw [next]
      exact .stays
  | beat count => exact .stays
  | enter entered posX posY known allowed =>
      by_cases mine : entered = token
      · subst mine
        have next : World.track { world with
            pos := Function.update world.pos entered { zoneId := 1, posX := posX, posY := posY }
            queue := world.queue ++ [.enterCharacter entered 1 posX posY] } entered =
            ⟨⟨1, (world.track entered).seat.registered, (world.track entered).seat.own ++
              [.enterCharacter entered 1 posX posY]⟩, (posX, posY),
                (world.track entered).reports⟩ := by
          simp [World.track, reports, report, Command.registersFor, List.filterMap_cons]
        rw [next]
        apply Track.Moves.enter posX posY
        exact fun zoneId waits => allowed zoneId (List.mem_filter.mp waits).1
      · exact append_track ⟨by simp [Command.registersFor, mine], rfl⟩
          (Function.update_of_ne (Ne.symm mine) _ _)
  | leave left known =>
      by_cases mine : left = token
      · subst mine
        have next : World.track { world with
            queue := world.queue ++ [.leaveCharacter left (world.pos left).zoneId] } left =
            ⟨⟨(world.track left).seat.zoneId, (world.track left).seat.registered,
              (world.track left).seat.own ++
                [.leaveCharacter left (world.track left).seat.zoneId]⟩,
                (world.track left).spot, (world.track left).reports⟩ := by
          simp [World.track, reports, report, Command.registersFor, List.filterMap_cons]
        rw [next]
        exact .leave
      · exact append_track ⟨by simp [Command.registersFor, mine], rfl⟩ rfl
  | move moved x y known allowed =>
      by_cases mine : moved = token
      · subst mine
        have next : World.track { world with
            pos := Function.update world.pos moved { world.pos moved with posX := x, posY := y }
            queue := world.queue ++ [.sendBroadcastToAllUser (world.pos moved).zoneId
              (.move { token := moved, x := x, y := y })] } moved =
            ⟨(world.track moved).seat, (x, y), (world.track moved).reports ++
              if (world.track moved).seat.zoneId = 1 then [(x, y)] else []⟩ := by
          by_cases here : (world.pos moved).zoneId = 1
          · simp [World.track, reports, report, Command.registersFor, here]
          · simp [World.track, reports, report, Command.registersFor, here]
        rw [next]
        apply Track.Moves.move x y
        intro command listed
        obtain ⟨waits, own⟩ := List.mem_filter.mp listed
        cases command with
        | enterCharacter other zoneId posX posY =>
            have same : other = moved := by simpa [Command.registersFor] using own
            subst same
            exact absurd waits (allowed zoneId posX posY)
        | _ => rfl
      · exact append_track ⟨rfl, by simp [report, mine]⟩ (Function.update_of_ne (Ne.symm mine) _ _)
  | post command idle => exact append_track (idle.aside nonzero) rfl
  | fire command rest next first allowed fires => exact fires.track first nonzero

theorem Moves.told (moves : Moves (careful client world) world next)
    (consistent : world.Consistent)
    (unnamed : ∀ token ≠ 0, ¬world.user token →
      world.queue.filter (·.registersFor token) = [])
    (told : ∀ token, world.user token → (world.track token).Told token) :
    ∀ token, next.user token → (next.track token).Told token := by
  intro token user
  by_cases known : world.user token
  · exact (moves.track (consistent.nonzero token known) known).told (told token known)
  · cases moves with
    | auth fresh id pos beats new nonzero beating =>
        obtain rfl := user.resolve_right known
        have own : world.queue.filter (·.registersFor token) = [] := unnamed token nonzero new
        have out : ¬world.member token := fun inside => new (consistent.enrolled token inside)
        refine ⟨⟨?_, ?_, fun _ inside => absurd inside out, ?_, ?_⟩, ?_,
          fun _ inside => absurd inside out⟩
        · simp [World.track, own]
        · simp [World.track, own]
        · simp [World.track, own]
        · simp [World.track, own]
        · simp [World.track, own]
    | fire command rest next first allowed fires =>
        cases fires <;> exact absurd user known
    | _ => exact absurd user known

/-! What the client sees of the others once nothing is announced any more. -/

def Sees (client : Int) (world : World) : Prop :=
  world.member client → ∀ token ≠ client, (world.track token).Calm →
    world.view client token = some (world.track token).spot ∨
      .sendCharacterList client 1 ∈ world.queue

theorem Sees.keep (sees : world.Sees client) (consistent : world.Consistent)
    (told : ∀ token, world.user token → (world.track token).Told token)
    (tracks : ∀ token ≠ 0, world.user token →
      Track.Moves token (world.track token) (next.track token))
    (users : ∀ token, next.member token → world.user token)
    (inside : next.member client → world.member client)
    (view : next.view client = world.view client)
    (lists : .sendCharacterList client 1 ∈ world.queue → .sendCharacterList client 1 ∈ next.queue)
    (silent : ∀ token, next.reports token = [] → world.reports token = []) :
    next.Sees client := by
  intro here token other calm
  have user := users token calm.registered
  have moves := tracks token (consistent.nonzero token user) user
  obtain ⟨before, spot⟩ := moves.calm (told token user) calm (silent token calm.silent)
  rw [view, spot]
  exact (sees (inside here) token other before).imp_right lists

theorem reports_append (world : World) {more : List Command}
    (silent : (world.queue ++ more).filterMap (report token) = []) : world.reports token = [] := by
  rw [List.filterMap_append] at silent
  exact (List.append_eq_nil_iff.mp silent).1

/-! A token in the zone of which no enter is announced is not announced at all. -/

theorem Consistent.unannounced (consistent : world.Consistent) (member : world.member token)
    (none : true ∉ world.notices token) : world.notices token = [] := by
  cases last : (world.notices token).getLast? with
  | none => exact List.getLast?_eq_none_iff.mp last
  | some here =>
      have true : here = true := (consistent.announced token here last).mp member
      rw [true] at last
      exact absurd (List.mem_of_getLast? last) none

theorem notice_of_report {command : Command} (unreported : report token command = none) :
    notice token command ≠ some true := by
  cases command with
  | sendBroadcastToAllUser zoneId packet =>
      cases packet with
      | enter packet => simpa [report, notice] using unreported
      | leave packet => simp [notice]
      | _ => simp [notice]
  | _ => simp [notice]

theorem no_enter_announced {queue : List Command} (silent : queue.filterMap (report token) = []) :
    true ∉ queue.filterMap (notice token) := by
  intro announced
  obtain ⟨command, waits, here⟩ := List.mem_filterMap.mp announced
  exact notice_of_report (List.filterMap_eq_nil_iff.mp silent command waits) here

theorem see_unannounced {packet : S2CCall} (spoken : Spoken packet)
    (unreported : report token (.sendBroadcastToAllUser 1 packet) = none)
    (unannounced : notice token (.sendBroadcastToAllUser 1 packet) = none) (own : Int)
    (seen : View) : seen.see own packet token = seen token := by
  cases packet with
  | enter packet =>
      have other : token ≠ packet.token := by
        rintro rfl
        simp [report] at unreported
      simp only [View.see]
      split
      · rfl
      · rw [Function.update_of_ne other]
  | leave packet =>
      have other : token ≠ packet.token := by
        rintro rfl
        simp [notice] at unannounced
      simp only [View.see]
      split
      · rfl
      · rw [Function.update_of_ne other]
  | move packet =>
      have other : token ≠ packet.token := by
        rintro rfl
        simp [report] at unreported
      simp only [View.see]
      split
      · rfl
      · rw [Function.update_of_ne other]
  | interaction packet => rfl
  | echo packet => rfl
  | _ => cases spoken

theorem see_report {packet : S2CCall} {xy : Int × Int} {own : Int} (other : token ≠ own)
    (reported : report token (.sendBroadcastToAllUser 1 packet) = some xy) (seen : View) :
    seen.see own packet token = some xy ∨
      notice token (.sendBroadcastToAllUser 1 packet) = none ∧
        seen.see own packet token = (seen token).map fun _ => xy := by
  cases packet with
  | enter packet =>
      left
      simp only [report, true_and, Option.ite_none_right_eq_some, Option.some.injEq] at reported
      obtain ⟨rfl, rfl⟩ := reported
      simp [View.see, other]
  | move packet =>
      right
      simp only [report, true_and, Option.ite_none_right_eq_some, Option.some.injEq] at reported
      obtain ⟨rfl, rfl⟩ := reported
      simp [View.see, other, notice]
  | _ => cases reported

/-- The one announcement left about a registered token carries its position. -/
theorem spot_of_first {packet : S2CCall} {rest : List Command} {xy : Int × Int}
    (told : (world.track token).Told token)
    (first : world.queue = .sendBroadcastToAllUser 1 packet :: rest)
    (registered : world.member token)
    (reported : report token (.sendBroadcastToAllUser 1 packet) = some xy)
    (later : rest.filterMap (report token) = [])
    (noEnter : ∀ command ∈ rest, command.registersFor token → command.isEnter = false) :
    xy = (world.track token).spot := by
  apply told.told _ registered
  · show (world.reports token).getLast? = some xy
    rw [reports, first, List.filterMap_cons, reported]
    simp [later]
  · intro command waits
    obtain ⟨queued, own⟩ := List.mem_filter.mp waits
    rw [first] at queued
    rcases List.mem_cons.mp queued with rfl | old
    · cases own
    · exact noEnter command old own

/-- The client that gets the announcement has the token in its map already or gets it along. -/
theorem broadcast_sees (sees : world.Sees client) (consistent : world.Consistent)
    (follows : world.Follows client)
    (told : ∀ token, world.user token → (world.track token).Told token) {packet : S2CCall}
    {rest : List Command} (first : world.queue = .sendBroadcastToAllUser 1 packet :: rest)
    {recipients : List Int} (once : recipients.Nodup)
    (all : ∀ token, token ∈ recipients ↔ world.member token) :
    Sees client { world with
      queue := rest ++ recipients.map fun token => .sendPacketToUser token packet } := by
  classical
  have seen := broadcast_view client first once all
  have moves := broadcast_track first recipients
  generalize after : ({ world with
      queue := rest ++ recipients.map fun token => .sendPacketToUser token packet } : World) = next
    at seen moves
  have member : next.member = world.member := by rw [← after]
  have pos : next.pos = world.pos := by rw [← after]
  have lists : .sendCharacterList client 1 ∈ world.queue →
      .sendCharacterList client 1 ∈ next.queue := by
    rw [← after, first]
    simp
  intro inside token other calm
  rw [member] at inside
  have registered : world.member token := member ▸ calm.registered
  have user := consistent.enrolled token registered
  have later : rest.filterMap (report token) = [] := by
    have silent : next.reports token = [] := calm.silent
    rw [← after, reports, List.filterMap_append] at silent
    exact (List.append_eq_nil_iff.mp silent).1
  have noEnter := no_enter_announced later
  have notices : world.notices token =
      (notice token (.sendBroadcastToAllUser 1 packet)).toList ++
        rest.filterMap (notice token) := by
    rw [World.notices, first, List.filterMap_cons]
    cases notice token (.sendBroadcastToAllUser 1 packet) <;> rfl
  rw [seen, if_pos inside]
  cases reported : report token (.sendBroadcastToAllUser 1 packet) with
  | none =>
      have silent : world.reports token = [] := by
        rw [reports, first, List.filterMap_cons, reported]
        exact later
      have unannounced : world.notices token = [] := by
        apply consistent.unannounced registered
        rw [World.notices]
        exact no_enter_announced silent
      rw [unannounced] at notices
      have head := (List.append_eq_nil_iff.mp notices.symm).1
      obtain ⟨before, spot⟩ := (moves token).calm (told token user) calm silent
      rw [see_unannounced (consistent.spoken 1 packet (by simp [first])) reported
        (Option.toList_eq_nil_iff.mp head), spot]
      exact (sees inside token other before).imp_right lists
  | some xy =>
      have same : (next.track token).spot = (world.track token).spot := by
        simp only [track, pos]
      have waiting : ∀ command ∈ rest, command.registersFor token → command.isEnter = false := by
        intro command waits own
        apply calm.noEnter
        rw [← after]
        exact List.mem_filter.mpr ⟨List.mem_append_left _ waits, own⟩
      have spot : xy = (next.track token).spot :=
        (spot_of_first (told token user) first registered reported later waiting).trans same.symm
      rcases see_report other reported (world.view client) with shown | ⟨unannounced, moved⟩
      · rw [shown, spot]
        exact Or.inl rfl
      · rw [unannounced] at notices
        have none := consistent.unannounced registered (by rw [notices]; exact noEnter)
        rcases follows.known inside token other none registered with known | listed
        · obtain ⟨old, held⟩ := Option.isSome_iff_exists.mp known
          rw [moved, held, spot]
          exact Or.inl rfl
        · exact Or.inr (lists listed)

theorem Fires.sees {command : Command} {rest : List Command}
    (fires : Fires { world with queue := rest } command next)
    (first : world.queue = command :: rest) (sees : world.Sees client)
    (consistent : world.Consistent) (follows : world.Follows client)
    (told : ∀ token, world.user token → (world.track token).Told token) : next.Sees client := by
  have tracks : ∀ token ≠ 0, world.user token →
      Track.Moves token (world.track token) (next.track token) :=
    fun token nonzero _ => fires.track first nonzero
  cases fires with
  | nowhere zoneId packet elsewhere =>
      apply sees.keep consistent told tracks consistent.enrolled id (view_pop first rfl)
      · simp [first]
      · intro token silent
        have unreported : report token (.sendBroadcastToAllUser zoneId packet) = none := by
          cases packet with
          | enter packet => simp [report, elsewhere]
          | move packet => simp [report, elsewhere]
          | _ => rfl
        rw [reports, first, List.filterMap_cons, unreported]
        exact silent
  | broadcast packet recipients once all =>
      exact broadcast_sees sees consistent follows told first once all
  | packet token packet user =>
      apply sees.keep consistent told tracks consistent.enrolled id (packet_view first)
      · simp [first]
      · intro other silent
        rw [reports, first]
        exact silent
  | enter token posX posY user =>
      by_cases mine : client = token
      · subst mine
        intro _ other different calm
        exact Or.inr (by simp)
      · apply sees.keep consistent told tracks
        · rintro other (rfl | member)
          · exact user
          · exact consistent.enrolled other member
        · exact fun inside => inside.resolve_left mine
        · apply view_congr
          · rfl
          · simp [letters, first, letter, List.filterMap_cons]
        · intro listed
          rw [first] at listed
          exact List.mem_append_left _ (by simpa using listed)
        · intro other silent
          rw [reports, first]
          exact reports_append { world with queue := rest } silent
  | guest zoneId posX posY =>
      apply sees.keep consistent told tracks consistent.enrolled id (view_pop first rfl)
      · simp [first]
      · intro token silent
        rw [reports, first]
        exact silent
  | leave token zoneId =>
      apply sees.keep consistent told tracks
      · exact fun other member => consistent.enrolled other member.1
      · exact fun inside => inside.1
      · apply view_congr
        · rfl
        · simp [letters, first, letter, List.filterMap_cons]
      · simp [first]
      · intro other silent
        rw [reports, first]
        exact reports_append { world with queue := rest } silent
  | list token others user all =>
      by_cases mine : token = client
      · subst mine
        intro _ other different calm
        left
        rw [list_view first, if_pos ⟨(all other).mpr ⟨calm.registered, different⟩, different⟩]
        rfl
      · apply sees.keep consistent told tracks consistent.enrolled id
        · exact list_view_other first (Ne.symm mine) _
        · simp [first, Ne.symm mine]
        · intro other silent
          rw [reports, first]
          exact reports_append { world with queue := rest } silent

theorem append_sees (sees : world.Sees client) (consistent : world.Consistent)
    (told : ∀ token, world.user token → (world.track token).Told token) {command : Command}
    (unsent : letter client command = none) {pos : Int → Position}
    (tracks : ∀ token ≠ 0, world.user token → Track.Moves token (world.track token)
      (World.track { world with pos := pos, queue := world.queue ++ [command] } token)) :
    Sees client { world with pos := pos, queue := world.queue ++ [command] } := by
  apply sees.keep consistent told tracks consistent.enrolled id
  · apply view_congr
    · rfl
    · simp [letters, unsent]
  · exact fun listed => List.mem_append_left _ listed
  · exact fun token silent => reports_append world silent

theorem Moves.sees (moves : Moves (careful client world) world next) (sees : world.Sees client)
    (consistent : world.Consistent) (follows : world.user client → world.Follows client)
    (told : ∀ token, world.user token → (world.track token).Told token) : next.Sees client := by
  have tracks : ∀ token ≠ 0, world.user token →
      Track.Moves token (world.track token) (next.track token) :=
    fun token nonzero user => moves.track nonzero user
  have later := moves.consistent consistent
  cases moves with
  | stays => exact sees
  | auth fresh id pos beats new nonzero beating =>
      intro inside token other calm
      have apart : client ≠ fresh := by
        rintro rfl
        exact new (consistent.enrolled client inside)
      apply sees.keep consistent told tracks consistent.enrolled (fun inside => inside) _
        (fun listed => listed) (fun token silent => silent) inside token other calm
      apply view_congr
      · exact Function.update_of_ne apart _ _
      · rfl
  | beat count =>
      exact sees.keep consistent told tracks consistent.enrolled (fun inside => inside)
        (view_beat world count client) (fun listed => listed) fun token silent => silent
  | enter token posX posY user allowed => exact append_sees sees consistent told rfl tracks
  | leave token user => exact append_sees sees consistent told rfl tracks
  | move token x y user allowed => exact append_sees sees consistent told rfl tracks
  | post command idle => exact append_sees sees consistent told (idle.quiet client).2 tracks
  | fire command rest next first allowed fires =>
      intro inside
      have user : world.user client := by
        have known := later.enrolled client inside
        cases fires <;> exact known
      exact fires.sees first sees consistent (follows user) told inside

end World

namespace Server

/-- `CS_P_ENTER` only while no `LeaveCharacter` of the sender waits, `CS_P_MOVE` only while no
`EnterCharacter` of the sender does. -/
def Careful (server : Server) : Event → Prop
  | .packet conn (some (.enter _)) _ =>
      (server.sender conn).nub.token ≠ 0 →
        ∀ zoneId, .leaveCharacter (server.sender conn).nub.token zoneId ∉ server.pending
  | .packet conn (some (.move _)) _ =>
      (server.sender conn).nub.token ≠ 0 →
        ∀ zoneId posX posY,
          .enterCharacter (server.sender conn).nub.token zoneId posX posY ∉ server.pending
  | _ => True

structure Placed (client : Int) (server : Server) : Prop where
  watched : Watched client server
  told : ∀ token, server.world.user token → (server.world.track token).Told token
  sees : server.world.Sees client

theorem permitted_careful {client : Int} {server : Server} {event : Event}
    (careful : Careful server event) (never : NeverLeaves client server event) :
    Permitted (server.world.careful client) server event := by
  unfold Permitted
  split
  · exact careful
  · exact careful
  · rintro command fired zoneId rfl
    exact never zoneId fired
  · trivial

theorem Enrolled.unnamed {server : Server} (enrolled : Enrolled server) {token : Int}
    (nonzero : token ≠ 0) (fresh : ¬server.world.user token) :
    server.world.queue.filter (·.registersFor token) = [] := by
  apply List.filter_eq_nil_iff.mpr
  intro command waits own
  have named := enrolled.named command waits
  cases command with
  | enterCharacter other zoneId posX posY =>
      have same : other = token := by simpa [Command.registersFor] using own
      subst same
      exact named.2.elim nonzero fresh
  | leaveCharacter other zoneId =>
      have same : other = token := by simpa [Command.registersFor] using own
      subst same
      exact named.elim nonzero fresh
  | _ => cases own

theorem start_placed (client : Int) : Placed client {} := by
  refine ⟨start_watched client, ?_, ?_⟩
  · rintro token ⟨slot, mapped⟩
    simp at mapped
  · rintro ⟨slot, registered⟩
    simp [characterMap] at registered

theorem step_placed (client : Int) (server : Server) (event : Event)
    (placed : Placed client server)
    (allowed : (Steady server event ∧ NeverLeaves client server event) ∧ Careful server event) :
    Placed client (server.step event) := by
  obtain ⟨watched, told, sees⟩ := placed
  obtain ⟨-, moves⟩ := step_moves_world watched.enrolled allowed.1.1
    (permitted_careful allowed.2 allowed.1.2)
  refine ⟨step_watched client server event watched allowed.1, ?_, ?_⟩
  · exact moves.told watched.consistent
      (fun token nonzero fresh => watched.enrolled.unnamed nonzero fresh) told
  · exact moves.sees sees watched.consistent watched.follows told

def PositionsMatch (client : Int) (mgr : CharacterMgr) (server : Server) : Prop :=
  ∀ (token : Int) known, (server.characterMap 1)[token]? = some known → token ≠ client →
    ∃ obj, mgr.characterMap[token]? = some obj ∧
      (mgr.characters obj).pos.getPos = (server.sessions known).nub.pos.getPos

/-- Whenever no command waits and no tick is in progress, a client that has entered and never
left holds the position of every other character of the zone, if all sessions entered and moved
only as `Careful` says. -/
theorem positions_match_when_careful (client : Int) (slot : Nat) (events : List Event)
    (along : Run.Along step (fun server event =>
      (Steady server event ∧ NeverLeaves client server event) ∧ Careful server event) {} events)
    (mapped : (run {} events).userMap[client]? = some slot) (entered : Entered client events)
    (idle : (run {} events).cmds = [] ∧ (run {} events).firingCmds = []) :
    PositionsMatch client (CharacterMgr.run
      (packetsTo ((run {} events).sessions slot).uid (run {} events))) (run {} events) := by
  have placed : Placed client (run {} events) :=
    Run.Along.invariant (step_placed client) (start_placed client) along
  have positive := (placed.watched.enrolled.owned.mapped client slot mapped).2.2
  have inside := member_of_entered (by omega) (along.mono fun _ _ allowed => allowed.1) entered
  generalize run {} events = server at *
  have queue : server.world.queue = [] := by
    simp [world, pending, idle.1, idle.2]
  have view := placed.watched.client_view mapped queue
  intro token known registered other
  have calm : (server.world.track token).Calm := by
    refine ⟨⟨known, registered⟩, ?_, ?_⟩
    · simp [World.track, queue]
    · simp [World.track, World.reports, queue]
  have seen := placed.sees inside token other calm
  have spot : (server.world.track token).spot = (server.sessions known).nub.pos.getPos := by
    simp only [World.track, world, placed.watched.enrolled.entries token known registered]
    rfl
  rw [queue, ← view, spot] at seen
  have held := seen.resolve_right (by simp)
  exact Option.map_eq_some_iff.mp held

theorem positions_match_after_move :
    let events : List Event := [.connect 7, .packet 7 (some (.auth { id := 5 })) {}, .connect 8,
      .packet 8 (some (.auth { id := 6 })) {}, .packet 7 (some (.enter {})) {},
      .packet 8 (some (.enter {})) { rand1 := 5, rand2 := 6 }, .tick, .fire, .fire,
      .packet 8 (some (.move { x := 50, y := 60 })) {}, .tick, .fire, .fire, .fire, .fire, .fire,
      .tick, .fire, .fire, .fire, .fire, .fire, .fire, .fire, .fire]
    Run.Along step (fun server event =>
        (Steady server event ∧ NeverLeaves 1 server event) ∧ Careful server event) {} events ∧
      (run {} events).userMap[(1 : Int)]? = some 99 ∧ Entered 1 events ∧
      ((run {} events).cmds = [] ∧ (run {} events).firingCmds = []) ∧
      PositionsMatch 1 (CharacterMgr.run
        (packetsTo ((run {} events).sessions 99).uid (run {} events))) (run {} events) := by
  intro events
  have fires : ∀ server : Server, (∀ command ∈ server.fired, command.registersFor 1 = true →
      command.isEnter = true) →
      (Steady server .fire ∧ NeverLeaves 1 server .fire) ∧ Careful server .fire :=
    fun server enters => ⟨⟨trivial, neverLeaves_of_fired enters⟩, trivial⟩
  have enters : ∀ (server : Server) conn env, (∀ command ∈ server.pending,
      command.isEnter = true) → Careful server (.packet conn (some (.enter {})) env) := by
    intro server conn env enters _ zoneId waits
    exact absurd (enters _ waits) (by simp [Command.isEnter])
  have moves : ∀ (server : Server) conn packet env, (∀ command ∈ server.pending,
      command.isEnter = false) → Careful server (.packet conn (some (.move packet)) env) := by
    intro server conn packet env quiet _ zoneId posX posY waits
    exact absurd (quiet _ waits) (by simp [Command.isEnter])
  have along : Run.Along step (fun server event =>
      (Steady server event ∧ NeverLeaves 1 server event) ∧ Careful server event) {} events := by
    refine ⟨⟨⟨trivial, trivial⟩, trivial⟩, ⟨⟨⟨by decide, by decide⟩, trivial⟩, trivial⟩,
      ⟨⟨trivial, trivial⟩, trivial⟩, ⟨⟨⟨by decide, by decide⟩, trivial⟩, trivial⟩,
      ⟨⟨trivial, trivial⟩, enters _ _ _ (by decide)⟩,
      ⟨⟨trivial, trivial⟩, enters _ _ _ (by decide)⟩, ⟨⟨trivial, trivial⟩, trivial⟩,
      fires _ (by decide), fires _ (by decide), ⟨⟨trivial, trivial⟩, moves _ _ _ _ (by decide)⟩,
      ⟨⟨trivial, trivial⟩, trivial⟩, fires _ (by decide), fires _ (by decide),
      fires _ (by decide), fires _ (by decide), fires _ (by decide), ⟨⟨trivial, trivial⟩, trivial⟩,
      fires _ (by decide), fires _ (by decide), fires _ (by decide), fires _ (by decide),
      fires _ (by decide), fires _ (by decide), fires _ (by decide), fires _ (by decide), trivial⟩
  have mapped : (run {} events).userMap[(1 : Int)]? = some 99 := by decide
  have entered : Entered 1 events := ⟨events.take 7, events.drop 8, 1, 0, 0, rfl, by decide⟩
  have idle : (run {} events).cmds = [] ∧ (run {} events).firingCmds = [] := by decide
  exact ⟨along, mapped, entered, idle,
    positions_match_when_careful 1 99 events along mapped entered idle⟩

/-- The move that is handled before the `EnterCharacter` is fired reaches the other client before
the announcement of the enter, which puts the character back. -/
theorem move_before_enter_lost :
    let events : List Event := [.connect 7, .packet 7 (some (.auth { id := 5 })) {}, .connect 8,
      .packet 8 (some (.auth { id := 6 })) {}, .packet 7 (some (.enter {})) {},
      .packet 8 (some (.enter {})) { rand1 := 5, rand2 := 6 },
      .packet 8 (some (.move { x := 50, y := 60 })) {}, .tick, .fire, .fire, .fire, .tick, .fire,
      .fire, .fire, .fire, .fire, .fire, .tick, .fire, .fire, .fire, .fire, .fire, .fire]
    Run.Along step (fun server event =>
        Steady server event ∧ NeverLeaves 1 server event) {} events ∧
      (run {} events).userMap[(1 : Int)]? = some 99 ∧ Entered 1 events ∧
      ((run {} events).cmds = [] ∧ (run {} events).firingCmds = []) ∧
      ¬PositionsMatch 1 (CharacterMgr.run
        (packetsTo ((run {} events).sessions 99).uid (run {} events))) (run {} events) := by
  intro events
  have fires : ∀ server : Server, (∀ command ∈ server.fired, command.registersFor 1 = true →
      command.isEnter = true) → Steady server .fire ∧ NeverLeaves 1 server .fire :=
    fun server enters => ⟨trivial, neverLeaves_of_fired enters⟩
  refine ⟨?_, by decide, ⟨events.take 8, events.drop 9, 1, 0, 0, rfl, by decide⟩, by decide, ?_⟩
  · refine ⟨⟨trivial, trivial⟩, ⟨⟨by decide, by decide⟩, trivial⟩, ⟨trivial, trivial⟩,
      ⟨⟨by decide, by decide⟩, trivial⟩, ⟨trivial, trivial⟩, ⟨trivial, trivial⟩,
      ⟨trivial, trivial⟩, ⟨trivial, trivial⟩, fires _ (by decide), fires _ (by decide),
      fires _ (by decide), ⟨trivial, trivial⟩, fires _ (by decide), fires _ (by decide),
      fires _ (by decide), fires _ (by decide), fires _ (by decide), fires _ (by decide),
      ⟨trivial, trivial⟩, fires _ (by decide), fires _ (by decide), fires _ (by decide),
      fires _ (by decide), fires _ (by decide), fires _ (by decide), trivial⟩
  · intro holds
    obtain ⟨obj, held, same⟩ := holds 2 98 (by decide) (by decide)
    have first : (CharacterMgr.run (packetsTo ((run {} events).sessions 99).uid
        (run {} events))).characterMap[(2 : Int)]? = some 98 := by decide
    rw [first] at held
    obtain rfl := Option.some.inj held
    revert same
    decide

end Server

end ProjectPl
