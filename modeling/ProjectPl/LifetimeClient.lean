import ProjectPl.Lifetime

/-! The same for the client, where `main` calls `App::Stop` behind the thread that did it first. -/

namespace ProjectPl

namespace Lifetime

namespace Cli

variable {α : Type}

def phase : OtherState → Phase
  | .suspended => .before
  | .looping => .before
  | .turning => .before
  | .requesting => .requesting
  | .stopping stop => .stopping stop
  | .forcing => .forcing
  | .ended => .behind

def mainJoined (count : Nat) : MainState → Nat
  | .stopping stop => stop.joined count
  | .forcing => count
  | .returning => count
  | _ => 0

/-- The threads of `App` that `main` has waited for. -/
def awaited : MainState → Nat
  | .starting => 0
  | .reading => 0
  | .joining count => count
  | _ => 2

structure Alive (life : Lifetime α) : Prop where
  held : Held life (phase life.other) (mainJoined life.threads.length life.main)
  within : ∀ stop, life.main = .stopping stop → stop.Within life.threads.length
  fresh : life.appStop = true → (phase life.other).requested = true
  started : life.main = .starting ↔ life.appSuspended = true
  reading : life.main ≠ .reading
  commands : life.other ≠ .suspended → life.appSuspended = false
  process : 1 ≤ awaited life.main → life.process = .ended
  other : 2 ≤ awaited life.main → life.other = .ended
  looping : ∀ stop, life.process ≠ .stopping stop
  outcome : life.outcome ≠ .returned

theorem start_alive (config : NetworkConfig) (listening : Bool) :
    Alive (start config listening : CliLifetime α).toLifetime :=
  ⟨start_held config listening, fun _ stops => MainState.noConfusion stops,
    fun stops => absurd stops Bool.false_ne_true, iff_of_true rfl rfl, MainState.noConfusion,
    fun going => absurd rfl going, fun one => absurd one (Nat.not_succ_le_zero 0),
    fun two => absurd two (Nat.not_succ_le_zero 1), fun _ => ProcessState.noConfusion,
    Outcome.noConfusion⟩

theorem Alive.main_joined {life : Lifetime α} (alive : Alive life)
    (behind : life.other = .ended) : mainJoined life.threads.length life.main = 0 := by
  have alone := alive.held.joins.alone
  rw [behind] at alone
  exact alone.resolve_left (Nat.ne_of_gt alive.held.inhabited)

theorem Alive.untouched {life next : Lifetime α} (alive : Alive life)
    (same : Untouched life next)
    (held : Held next (phase life.other) (mainJoined life.threads.length life.main)) :
    Alive next := by
  refine ⟨?_, ?_, ?_, ?_, ?_, ?_, ?_, ?_, ?_, ?_⟩
  · rw [same.main, same.length, same.other]
    exact held
  · rw [same.main, same.length]
    exact alive.within
  · rw [same.appStop, same.other]
    exact alive.fresh
  · rw [same.main, same.appSuspended]
    exact alive.started
  · rw [same.main]
    exact alive.reading
  · rw [same.other, same.appSuspended]
    exact alive.commands
  · rw [same.main, same.process]
    exact alive.process
  · rw [same.main, same.other]
    exact alive.other
  · rw [same.process]
    exact alive.looping
  · rw [same.outcome]
    exact alive.outcome

theorem processThread_alive {life : Lifetime α} (alive : Alive life) :
    Alive (processThread life) := by
  have held : Held (processThread life) _ _ :=
    processThread_held alive.held alive.looping ProcessState.noConfusion
  have moved := processThread_moved .ended alive.looping
  have main : (processThread life).main = life.main := moved.main
  have other : (processThread life).other = life.other := moved.other
  have threads : (processThread life).threads = life.threads := moved.threads
  have appStop : (processThread life).appStop = life.appStop := moved.appStop
  have suspended : (processThread life).appSuspended = life.appSuspended := moved.appSuspended
  refine ⟨?_, ?_, ?_, ?_, ?_, ?_, ?_, ?_, ?_, ?_⟩
  · rw [main, threads, other]
    exact held
  · rw [main, threads]
    exact alive.within
  · rw [appStop, other]
    exact alive.fresh
  · rw [main, suspended]
    exact alive.started
  · rw [main]
    exact alive.reading
  · rw [other, suspended]
    exact alive.commands
  · intro one
    exact moved.ended (alive.process (main ▸ one))
  · rw [main, other]
    exact alive.other
  · intro stop stops
    rcases moved.process with same | ⟨ended, -⟩ | starts | loops | pops
    · exact alive.looping stop (same.symm.trans stops)
    · exact ProcessState.noConfusion (ended.symm.trans stops)
    · exact ProcessState.noConfusion (starts.symm.trans stops)
    · exact ProcessState.noConfusion (loops.symm.trans stops)
    · exact ProcessState.noConfusion (pops.symm.trans stops)
  · rw [show (processThread life).outcome = _ from moved.outcome]
    exact alive.outcome

theorem Alive.moves {life next : Lifetime α} (alive : Alive life)
    (going : life.other ≠ .ended)
    (held : Held next (phase next.other) (mainJoined life.threads.length life.main))
    (length : next.threads.length = life.threads.length) (main : next.main = life.main)
    (suspended : next.appSuspended = life.appSuspended)
    (process : next.process = life.process)
    (fresh : next.appStop = true → (phase next.other).requested = true)
    (open_ : life.appSuspended = false) (outcome : next.outcome ≠ .returned) : Alive next := by
  refine ⟨?_, ?_, fresh, ?_, ?_, ?_, ?_, ?_, ?_, outcome⟩
  · rw [main, length]
    exact held
  · rw [main, length]
    exact alive.within
  · rw [main, suspended]
    exact alive.started
  · rw [main]
    exact alive.reading
  · intro
    exact suspended.trans open_
  · rw [main, process]
    exact alive.process
  · intro two
    exact absurd (alive.other (main ▸ two)) going
  · rw [process]
    exact alive.looping

theorem commandThread_stopping {client : CliLifetime α} {now : StopState}
    (stops : client.other = .stopping now) (going : now ≠ .finished) (line : Console.Line) :
    (commandThread client line).toLifetime =
      { (client.toLifetime.stop now).1 with
        other := .stopping (client.toLifetime.stop now).2 } := by
  rw [commandThread, stops]
  cases now with
  | finished => exact absurd rfl going
  | request => rfl
  | close => rfl
  | join index => rfl
  | wait index => rfl

theorem commandThread_alive {client : CliLifetime α} (alive : Alive client.toLifetime)
    (line : Console.Line) : Alive (commandThread client line).toLifetime := by
  have held := alive.held
  have stays (out : (phase client.other).requested ≠ true) : client.appStop ≠ true :=
    fun stops => out (alive.fresh stops)
  cases here : client.other with
  | suspended =>
      rw [here] at held
      have notYet := stays (by rw [here]; exact Bool.false_ne_true)
      rw [commandThread, here]
      dsimp only
      split
      · exact alive
      · rename_i open_
        exact alive.moves (by simp [here]) { held with } rfl rfl rfl rfl
          (fun stops => absurd stops notYet) (by simpa using open_) alive.outcome
  | looping =>
      rw [here] at held
      have notYet := stays (by rw [here]; exact Bool.false_ne_true)
      have open_ := alive.commands (by simp [here])
      rw [commandThread, here]
      dsimp only
      rw [if_neg notYet]
      exact alive.moves (by simp [here]) { held with } rfl rfl rfl rfl
        (fun stops => absurd stops notYet) open_ alive.outcome
  | turning =>
      rw [here] at held
      have notYet := stays (by rw [here]; exact Bool.false_ne_true)
      have open_ := alive.commands (by simp [here])
      rw [commandThread, here]
      dsimp only
      split
      · exact alive.moves (by simp [here]) { held with } rfl rfl rfl rfl
          (fun stops => absurd stops notYet) open_ alive.outcome
      · exact alive.moves (by simp [here]) { held.reads with } rfl rfl rfl rfl
          (fun stops => absurd stops notYet) open_ alive.outcome
      · refine alive.moves (by simp [here]) ?_ rfl rfl rfl rfl ?_ open_ Outcome.noConfusion
        · exact { held with }
        · exact fun stops => absurd stops notYet
  | requesting =>
      rw [here] at held
      rw [commandThread, here]
      exact alive.moves (by simp [here]) { held.request with } rfl rfl rfl rfl (fun _ => rfl)
        (alive.commands (by simp [here])) alive.outcome
  | stopping now =>
      rw [here] at held
      have open_ := alive.commands (by simp [here])
      by_cases last : now = .finished
      · subst last
        rw [commandThread, here]
        exact alive.moves (by simp [here]) { held.finish with } rfl rfl rfl rfl (fun _ => rfl)
          open_ alive.outcome
      · have length := (held.joins.stop held.within).2.2
        have same {β : Type} (field : Lifetime α → β) :=
          congrArg field (stop_effect client.toLifetime now).rest
        have main : (client.toLifetime.stop now).1.main = client.main := same Lifetime.main
        have process : (client.toLifetime.stop now).1.process = client.process :=
          same Lifetime.process
        have suspended : (client.toLifetime.stop now).1.appSuspended = client.appSuspended :=
          same Lifetime.appSuspended
        rw [commandThread_stopping here last]
        exact alive.moves (by simp [here]) { stop_held_first held with } length main suspended
          process (fun _ => rfl) open_ (stop_outcome alive.outcome)
  | forcing =>
      rw [here] at held
      rw [commandThread, here]
      exact alive.moves (by simp [here]) { held.force with } rfl rfl rfl rfl (fun _ => rfl)
        (alive.commands (by simp [here])) alive.outcome
  | ended =>
      rw [commandThread, here]
      exact alive

theorem Alive.behind {life : Lifetime α} (alive : Alive life) (past : 2 ≤ awaited life.main) :
    Held life .behind (mainJoined life.threads.length life.main) ∧
      mainJoined life.threads.length life.main = 0 := by
  have ended := alive.other past
  have held := alive.held
  rw [ended] at held
  exact ⟨held, alive.main_joined ended⟩

theorem Alive.main_going {life : Lifetime α} (alive : Alive life) :
    life.main ≠ .stopping .finished ∧ life.main ≠ .forcing ∧ life.main ≠ .returning := by
  have stuck {now : MainState} (past : 2 ≤ awaited now)
      (all : mainJoined life.threads.length now = life.threads.length) : life.main ≠ now := by
    intro here
    have none := (alive.behind (here ▸ past)).2
    rw [here, all] at none
    exact absurd none (Nat.ne_of_gt alive.held.inhabited)
  exact ⟨stuck (Nat.le_refl 2) rfl, stuck (Nat.le_refl 2) rfl, stuck (Nat.le_refl 2) rfl⟩

theorem main_stopping {life : Lifetime α} {now : StopState} (stops : life.main = .stopping now)
    (going : now ≠ .finished) :
    main life = { (life.stop now).1 with main := .stopping (life.stop now).2 } := by
  rw [main, stops]
  cases now with
  | finished => exact absurd rfl going
  | request => rfl
  | close => rfl
  | join index => rfl
  | wait index => rfl

theorem main_alive {life : Lifetime α} (alive : Alive life) : Alive (main life) := by
  have held := alive.held
  obtain ⟨notFinished, notForcing, notReturning⟩ := alive.main_going
  cases here : life.main with
  | starting =>
      rw [here] at held
      rw [main, here]
      exact ⟨{ held with }, fun _ stops => MainState.noConfusion stops, alive.fresh,
        ⟨fun starts => MainState.noConfusion starts,
          fun closed => absurd closed Bool.false_ne_true⟩,
        MainState.noConfusion, fun _ => rfl, fun one => absurd one (Nat.not_succ_le_zero 0),
        fun two => absurd two (Nat.not_succ_le_zero 1), alive.looping, alive.outcome⟩
  | reading => exact absurd here alive.reading
  | joining count =>
      rw [here] at held
      have open_ : life.appSuspended ≠ true := fun closed =>
        MainState.noConfusion (here.symm.trans (alive.started.mpr closed))
      rw [main, here]
      dsimp only
      split
      · rename_i joined
        cases count with
        | zero =>
            have ended : life.process = .ended := by simpa [Lifetime.joined] using joined
            exact ⟨{ held with }, fun _ stops => MainState.noConfusion stops, alive.fresh,
              ⟨fun starts => MainState.noConfusion starts, fun closed => absurd closed open_⟩,
              MainState.noConfusion, alive.commands, fun _ => ended,
              fun two => absurd two (Nat.not_succ_le_self 1), alive.looping, alive.outcome⟩
        | succ count =>
            have ended : life.other = .ended := by simpa [Lifetime.joined] using joined
            have before : life.process = .ended :=
              alive.process (by rw [here]; exact Nat.succ_le_succ (Nat.zero_le count))
            rw [if_neg (by omega)]
            exact ⟨{ held with }, fun _ stops => MainState.noConfusion stops, alive.fresh,
              ⟨fun starts => MainState.noConfusion starts, fun closed => absurd closed open_⟩,
              MainState.noConfusion, alive.commands, fun _ => before, fun _ => ended,
              alive.looping, alive.outcome⟩
      · exact alive
  | requesting =>
      have past : 2 ≤ awaited life.main := by rw [here]; exact Nat.le_refl 2
      have ended := alive.other past
      have behind : (phase life.other).requested = true := by rw [ended]; rfl
      rw [here] at held
      rw [main, here]
      have open_ : life.appSuspended ≠ true := fun closed =>
        MainState.noConfusion (here.symm.trans (alive.started.mpr closed))
      exact ⟨{ held.asked with }, fun _ stops => (MainState.stopping.inj stops) ▸ trivial,
        fun _ => behind,
        ⟨fun starts => MainState.noConfusion starts, fun closed => absurd closed open_⟩,
        MainState.noConfusion, alive.commands,
        fun _ => alive.process (Nat.le_trans (Nat.le_succ 1) past), fun _ => ended, alive.looping,
        alive.outcome⟩
  | stopping now =>
      have past : 2 ≤ awaited life.main := by rw [here]; exact Nat.le_refl 2
      have last : now ≠ .finished := fun last => notFinished (last ▸ here)
      have within := alive.within now here
      rw [here] at held
      obtain ⟨next, still, length⟩ := stop_held_second held within
      have same {β : Type} (field : Lifetime α → β) :=
        congrArg field (stop_effect life now).rest
      have other : (life.stop now).1.other = life.other := same Lifetime.other
      have process : (life.stop now).1.process = life.process := same Lifetime.process
      have appStop : (life.stop now).1.appStop = life.appStop := same Lifetime.appStop
      have suspended : (life.stop now).1.appSuspended = life.appSuspended :=
        same Lifetime.appSuspended
      have open_ : life.appSuspended ≠ true := fun closed =>
        MainState.noConfusion (here.symm.trans (alive.started.mpr closed))
      rw [main_stopping here last]
      refine ⟨?_, ?_, ?_, ?_, MainState.noConfusion, ?_, ?_, ?_, ?_, stop_outcome alive.outcome⟩
      · dsimp only
        rw [other, length]
        exact { next with }
      · rintro stop ⟨⟩
        exact length ▸ still
      · dsimp only
        rw [appStop, other]
        exact alive.fresh
      · refine ⟨fun starts => MainState.noConfusion starts, fun closed => ?_⟩
        exact absurd (suspended.symm.trans closed) open_
      · dsimp only
        rw [other, suspended]
        exact alive.commands
      · intro
        exact process.trans (alive.process (Nat.le_trans (Nat.le_succ 1) past))
      · intro
        exact other.trans (alive.other past)
      · intro stop stops
        exact alive.looping stop (process.symm.trans stops)
  | forcing => exact absurd here notForcing
  | returning => exact absurd here notReturning

theorem step_alive {client : CliLifetime α} (alive : Alive client.toLifetime) (event : Event α) :
    Alive (step client event).toLifetime := by
  unfold step
  split
  · cases event with
    | net index succeeds packet =>
        exact alive.untouched (netThread_untouched _ index succeeds packet)
          (netThread_held alive.held index succeeds packet)
    | process => exact processThread_alive alive
    | command line => exact commandThread_alive alive line
    | main => exact main_alive alive
  · exact alive

theorem run_alive (config : NetworkConfig) (listening : Bool) (events : List (Event α)) :
    Alive (run (start config listening : CliLifetime α) events).toLifetime :=
  List.foldlRecOn (motive := fun client : CliLifetime α => Alive client.toLifetime) events step
    (start_alive config listening) fun _ alive event _ => step_alive alive event

/-- The client's `main` never returns. -/
theorem client_never_returns (config : NetworkConfig) (listening : Bool)
    (events : List (Event α)) :
    (run (start config listening : CliLifetime α) events).outcome ≠ .returned :=
  (run_alive config listening events).outcome

/-! That it ends. -/

inductive Mover
  | net (index : Nat)
  | process
  | command
  | main

def Moves : Mover → Event α → Prop
  | .net index, event => ∃ succeeds packet, event = .net index succeeds packet
  | .process, event => event = .process
  | .command, event => ∃ line, event = .command line
  | .main, event => event = .main

def otherRank (count : Nat) : OtherState → Nat
  | .suspended => 0
  | .looping => 0
  | .turning => 0
  | .requesting => 2 * count + 17
  | .stopping stop => stop.rank count + 12
  | .forcing => 11
  | .ended => 10

def mainRank (count : Nat) : MainState → Nat
  | .starting => 0
  | .reading => 0
  | .joining 0 => 2 * count + 20
  | .joining (_ + 1) => 2 * count + 19
  | .requesting => 2 * count + 10
  | .stopping stop => stop.rank count + 5
  | .forcing => 4
  | .returning => 3

def measure (life : Lifetime α) : Nat :=
  otherRank life.threads.length life.other + mainRank life.threads.length life.main + rank life

/-- `CommandThread` has taken an `/exit`. -/
def Leaving (life : Lifetime α) : Prop :=
  life.other ≠ .suspended ∧ life.other ≠ .looping ∧ life.other ≠ .turning

theorem step_running {client : CliLifetime α} (running : client.outcome = .running) :
    (∀ index succeeds packet, (step client (.net index succeeds packet)).toLifetime =
      client.netThread index succeeds packet) ∧
      (step client .process).toLifetime = processThread client.toLifetime ∧
      (∀ line, step client (.command line) = commandThread client line) ∧
      (step client .main).toLifetime = main client.toLifetime :=
  ⟨fun _ _ _ => congrArg CliLifetime.toLifetime (if_pos running),
    congrArg CliLifetime.toLifetime (if_pos running), fun _ => if_pos running,
    congrArg CliLifetime.toLifetime (if_pos running)⟩

theorem process_closer {life : Lifetime α} (alive : Alive life)
    (started : life.appSuspended = false) (live : life.process ≠ .ended)
    (ready : life.process = .suspended ∨ life.process = .starting ∨ phase life.other = .behind) :
    measure (processThread life) < measure life := by
  have moved := processThread_moved .ended alive.looping
  have closer : rank (processThread life) < rank life :=
    processThread_closer alive.held started ready alive.looping live
      (Nat.succ_pos (2 * life.threads.length + 5))
  have main : (processThread life).main = life.main := moved.main
  have other : (processThread life).other = life.other := moved.other
  have threads : (processThread life).threads = life.threads := moved.threads
  rw [measure, measure, main, other, threads]
  omega

theorem stopping_closer {client : CliLifetime α} {now : StopState}
    (alive : Alive client.toLifetime) (here : client.other = .stopping now)
    (running : client.outcome = .running) :
    ∃ mover, ∀ event, Moves mover event → Broken (step client event).toLifetime ∨
      measure (step client event).toLifetime < measure client.toLifetime := by
  obtain ⟨nets, process, commands, -⟩ := step_running running
  have started : client.appSuspended = false := alive.commands (by simp [here])
  have held := alive.held
  rw [here] at held
  by_cases last : now = .finished
  · subst last
    refine ⟨.command, ?_⟩
    rintro event ⟨line, rfl⟩
    refine Or.inr ?_
    rw [commands, commandThread, here]
    simp only [measure, rank, here, otherRank, StopState.rank]
    omega
  rcases held.stopping_cases with ready | suspended | ⟨index, thread, rfl, found, live, open_⟩
  · refine ⟨.command, ?_⟩
    rintro event ⟨line, rfl⟩
    have length := (held.joins.stop held.within).2.2
    rw [commands, commandThread_stopping here last]
    rcases stop_closer last held.within ready with broken | less
    · exact Or.inl broken
    · have rest := (stop_effect client.toLifetime now).rank_eq length
      have same {β : Type} (field : Lifetime α → β) :=
        congrArg field (stop_effect client.toLifetime now).rest
      have main : (client.toLifetime.stop now).1.main = client.main := same Lifetime.main
      refine Or.inr ?_
      rw [rank, rank] at rest
      simp only [measure, rank, here, otherRank, length, main] at rest ⊢
      omega
  · refine ⟨.process, ?_⟩
    rintro event rfl
    rw [process]
    refine Or.inr (process_closer alive started ?_ (suspended.imp_right Or.inl))
    rcases suspended with same | same
    · simp [same]
    · simp [same]
  · refine ⟨.net index, ?_⟩
    rintro event ⟨succeeds, packet, rfl⟩
    rw [nets]
    obtain ⟨state, moved, closer⟩ :=
      netThread_closer held rfl open_ found live succeeds packet
    have less := moved.rank_lt closer
    refine Or.inr ?_
    rw [measure, measure, moved.untouched.main, moved.untouched.other, moved.untouched.length]
    omega

/-- Behind `CommandThread`, with the process thread at its end, `main` is on its own. -/
theorem main_closer {life : Lifetime α} (alive : Alive life) (behind : life.other = .ended)
    (ended : life.process = .ended) :
    Broken (main life) ∨ measure (main life) < measure life := by
  obtain ⟨notFinished, notForcing, notReturning⟩ := alive.main_going
  cases here : life.main with
  | starting =>
      have open_ := alive.commands (by simp [behind])
      exact absurd (open_.symm.trans (alive.started.mp here)) Bool.false_ne_true
  | reading => exact absurd here alive.reading
  | joining count =>
      refine Or.inr ?_
      cases count with
      | zero =>
          simp only [main, here, joined, ended, measure, rank, mainRank]
          simp
      | succ count =>
          simp only [main, here, joined, behind, measure, rank, mainRank]
          simp
  | requesting =>
      refine Or.inr ?_
      simp only [main, here, measure, rank, mainRank, StopState.rank]
      omega
  | stopping now =>
      have past : 2 ≤ awaited life.main := by rw [here]; exact Nat.le_refl 2
      have last : now ≠ .finished := fun last => notFinished (last ▸ here)
      have within := alive.within now here
      have held := (alive.behind past).1
      rw [here] at held
      have length := (stop_held_second held within).2.2
      rw [main_stopping here last]
      rcases stop_closer last within fun index thread _ found =>
        held.joins.ended_of_all rfl found with broken | less
      · exact Or.inl broken
      · have rest := (stop_effect life now).rank_eq length
        have same {β : Type} (field : Lifetime α → β) :=
          congrArg field (stop_effect life now).rest
        have other : (life.stop now).1.other = life.other := same Lifetime.other
        refine Or.inr ?_
        rw [rank, rank] at rest
        simp only [measure, rank, here, mainRank, length, other] at rest ⊢
        omega
  | forcing => exact absurd here notForcing
  | returning => exact absurd here notReturning

theorem progress {client : CliLifetime α} (alive : Alive client.toLifetime)
    (leaving : Leaving client.toLifetime) :
    Broken client.toLifetime ∨ ∃ mover, ∀ event, Moves mover event →
      Broken (step client event).toLifetime ∨
        measure (step client event).toLifetime < measure client.toLifetime := by
  cases running : client.outcome with
  | returned => exact absurd running alive.outcome
  | terminated => exact Or.inl (Or.inl running)
  | undefined => exact Or.inl (Or.inr running)
  | running =>
      obtain ⟨nets, process, commands, mains⟩ := step_running running
      refine Or.inr ?_
      cases here : client.other with
      | suspended => exact absurd here leaving.1
      | looping => exact absurd here leaving.2.1
      | turning => exact absurd here leaving.2.2
      | requesting =>
          refine ⟨.command, ?_⟩
          rintro event ⟨line, rfl⟩
          refine Or.inr ?_
          rw [commands, commandThread, here]
          simp only [measure, rank, here, otherRank, StopState.rank]
          omega
      | stopping now => exact stopping_closer alive here running
      | forcing =>
          refine ⟨.command, ?_⟩
          rintro event ⟨line, rfl⟩
          refine Or.inr ?_
          rw [commands, commandThread, here]
          simp only [measure, rank, force, here, otherRank]
          omega
      | ended =>
          by_cases live : client.process = .ended
          · refine ⟨.main, ?_⟩
            rintro event rfl
            rw [mains]
            exact main_closer alive here live
          · refine ⟨.process, ?_⟩
            rintro event rfl
            rw [process]
            exact Or.inr (process_closer alive (alive.commands (by simp [here])) live
              (Or.inr (Or.inr (by rw [here]; rfl))))

theorem step_leaving {client : CliLifetime α} (alive : Alive client.toLifetime)
    (leaving : Leaving client.toLifetime) (event : Event α) :
    Leaving (step client event).toLifetime := by
  have kept {next : Lifetime α} (same : next.other = client.other) : Leaving next := by
    rw [Leaving, same]
    exact leaving
  have stopped (now : StopState) : (client.toLifetime.stop now).1.other = client.other := by
    have same {β : Type} (field : Lifetime α → β) :=
      congrArg field (stop_effect client.toLifetime now).rest
    exact same Lifetime.other
  unfold step
  split
  · cases event with
    | net index succeeds packet => exact kept (netThread_untouched _ index succeeds packet).other
    | process => exact kept (processThread_moved .ended alive.looping).other
    | command line =>
        dsimp only
        rw [commandThread]
        split
        · rename_i here
          exact absurd here leaving.1
        · rename_i here
          exact absurd here leaving.2.1
        · rename_i here
          exact absurd here leaving.2.2
        · exact ⟨OtherState.noConfusion, OtherState.noConfusion, OtherState.noConfusion⟩
        · exact ⟨OtherState.noConfusion, OtherState.noConfusion, OtherState.noConfusion⟩
        · exact ⟨OtherState.noConfusion, OtherState.noConfusion, OtherState.noConfusion⟩
        · exact ⟨OtherState.noConfusion, OtherState.noConfusion, OtherState.noConfusion⟩
        · exact leaving
    | main =>
        refine kept ?_
        dsimp only
        rw [main]
        split
        · rfl
        · rfl
        · split
          · rfl
          · rfl
        · rfl
        · rfl
        · exact stopped _
        · rfl
        · rfl
  · exact leaving

def Ending (client : CliLifetime α) : Prop :=
  Alive client.toLifetime ∧ Leaving client.toLifetime

theorem Ending.progress {client : CliLifetime α} (ending : Ending client) :
    Broken client.toLifetime ∨ ∃ mover, ∀ event, Moves mover event →
      Broken (step client event).toLifetime ∨ Ending (step client event) ∧
        measure (step client event).toLifetime < measure client.toLifetime := by
  obtain ⟨alive, leaves⟩ := ending
  rcases Cli.progress alive leaves with done | ⟨mover, closer⟩
  · exact Or.inl done
  · refine Or.inr ⟨mover, fun event moves => ?_⟩
    exact (closer event moves).imp_right fun less =>
      ⟨⟨step_alive alive event, step_leaving alive leaves event⟩, less⟩

/-- The same for an `/exit` that `CommandThread` has taken. -/
theorem client_exit_ends (config : NetworkConfig) (listening : Bool) (events : List (Event α))
    (leaving : Leaving (run (start config listening : CliLifetime α) events).toLifetime) :
    Run.Forces step Moves (fun client => Broken client.toLifetime)
      (run (start config listening : CliLifetime α) events) :=
  Run.Forces.of_measure (fun client => measure client.toLifetime) (fun _ => Ending.progress)
    ⟨run_alive config listening events, leaving⟩

open Certify (chars) in
theorem client_exit_ends_atOnce : Run.Forces step Moves
    (fun client : CliLifetime Unit => Broken client.toLifetime)
    (run (start { workerThreadCount := 2, doListen := false, useAcceptEx := false } false)
      [.main, .command { text := [] }, .command { text := [] },
        .command { text := chars "/exit" }]) :=
  client_exit_ends _ _ _ ⟨by decide, by decide, by decide⟩

end Cli

end Lifetime

end ProjectPl
