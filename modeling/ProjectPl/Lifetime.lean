import ProjectPl.LifetimeStop

/-!
The two programs end badly: both call `Network::Stop` twice, and its second round of joins throws.
In the server `main` and `ProcessThread` call it, in the client `CommandThread` and then `main`.
What can be said for them is that they end.
-/

namespace ProjectPl

namespace Lifetime

variable {α : Type}

theorem netThreads_kinds (config : NetworkConfig) : Kinds (netThreads config) := by
  have accept (index : Nat) (thread : NetThread) (here : (netThreads config)[index]? = some thread)
      (kind : thread.kind = .accept) : index = config.workerThreadCount.toNat := by
    rw [netThreads, List.append_assoc, List.getElem?_append, List.length_replicate] at here
    split at here
    · have worker := List.eq_of_mem_replicate (List.mem_of_getElem? here)
      subst worker
      cases kind
    · rename_i beyond
      split at here
      · rw [List.getElem?_append, List.length_singleton] at here
        split at here
        · omega
        · have last := List.mem_of_getElem? here
          rw [List.mem_singleton] at last
          subst last
          cases kind
      · have last := List.mem_of_getElem? here
        rw [List.nil_append, List.mem_singleton] at last
        subst last
        cases kind
  refine ⟨fun thread member opens => ?_, fun one two first second here there accepts also => ?_⟩
  · have suspended : thread.state = .suspended := by
      rw [netThreads, List.mem_append, List.mem_append, List.mem_singleton] at member
      rcases member with (worker | listener) | rfl
      · rw [List.eq_of_mem_replicate worker]
      · split at listener
        · rw [List.mem_singleton.mp listener]
        · cases listener
      · rfl
    exact NetState.noConfusion (suspended.symm.trans opens)
  · rw [accept one first here accepts, accept two second there also]

theorem start_held (config : NetworkConfig) (listening : Bool) :
    Held (start config listening : Lifetime α) .before 0 := by
  have fresh : ∀ thread ∈ netThreads config, thread.joinable = true := by
    intro thread member
    rw [netThreads, List.mem_append, List.mem_append, List.mem_singleton] at member
    rcases member with (worker | listener) | rfl
    · rw [List.eq_of_mem_replicate worker]
    · split at listener
      · rw [List.mem_singleton.mp listener]
      · cases listener
    · rfl
  refine ⟨⟨?_, Or.inl rfl, ?_⟩, trivial, ?_, netThreads_kinds config, nofun, nofun, nofun,
    fun going => absurd rfl going, ⟨[], RecvPacketQueue.initial_handsOver⟩, fun _ => rfl, nofun⟩
  · intro index thread here
    rw [fresh thread (List.mem_of_getElem? here)]
    simp [Phase.joined]
  · intro thread member joined
    exact absurd ((fresh thread member).symm.trans joined) Bool.false_ne_true.symm
  · simp [start, netThreads]

theorem stop_outcome {life : Lifetime α} {now : StopState} (alive : life.outcome ≠ .returned) :
    (life.stop now).1.outcome ≠ .returned := by
  rcases (stop_effect life now).outcome with same | ended | ended
  · rw [same]
    exact alive
  · rw [ended]
    exact Outcome.noConfusion
  · rw [ended]
    exact Outcome.noConfusion

/-- The process has ended without `main`. -/
def Broken (life : Lifetime α) : Prop :=
  life.outcome = .terminated ∨ life.outcome = .undefined

/-! The server. -/

namespace Svr

def phase : MainState → Phase
  | .starting => .before
  | .reading => .before
  | .requesting => .requesting
  | .stopping stop => .stopping stop
  | .forcing => .forcing
  | .joining _ => .behind
  | .returning => .behind

def processJoined (count : Nat) : ProcessState → Nat
  | .stopping stop => stop.joined count
  | .ended => count
  | _ => 0

structure Alive (life : Lifetime α) : Prop where
  held : Held life (phase life.main) (processJoined life.threads.length life.process)
  within : ∀ stop, life.process = .stopping stop → stop.Within life.threads.length
  started : life.main ≠ .starting → life.appSuspended = false
  joined : (∃ count, life.main = .joining (count + 1)) ∨ life.main = .returning →
    life.process = .ended
  outcome : life.outcome ≠ .returned

theorem start_alive (config : NetworkConfig) (listening : Bool) :
    Alive (start config listening : Lifetime α) :=
  ⟨start_held config listening, fun _ stops => ProcessState.noConfusion stops,
    fun going => absurd rfl going,
    fun ended => ended.elim (fun ⟨_, joins⟩ => MainState.noConfusion joins)
      fun returns => MainState.noConfusion returns,
    Outcome.noConfusion⟩

/-- `main` gets past the joins of the network only if `ProcessThread` does not. -/
theorem Alive.process_live {life : Lifetime α} (alive : Alive life)
    (behind : (phase life.main).joined life.threads.length = life.threads.length) :
    life.process ≠ .ended := by
  intro ended
  have alone := alive.held.joins.alone
  have inhabited := alive.held.inhabited
  rw [behind, ended] at alone
  rcases alone with none | none
  · omega
  · exact absurd none (Nat.ne_of_gt inhabited)

theorem Alive.untouched {life next : Lifetime α} (alive : Alive life)
    (same : Untouched life next)
    (held : Held next (phase life.main) (processJoined life.threads.length life.process)) :
    Alive next := by
  refine ⟨?_, ?_, ?_, ?_, ?_⟩
  · rw [same.main, same.length, same.process]
    exact held
  · rw [same.process, same.length]
    exact alive.within
  · rw [same.main, same.appSuspended]
    exact alive.started
  · rw [same.main, same.process]
    exact alive.joined
  · rw [same.outcome]
    exact alive.outcome

theorem processThread_alive {life : Lifetime α} (alive : Alive life) :
    Alive (processThread life) := by
  by_cases stops : ∃ stop, life.process = .stopping stop
  · obtain ⟨now, stops⟩ := stops
    have held := alive.held
    rw [stops] at held
    have outside : ProcessState.stopping now ≠ .suspended ∧ ProcessState.stopping now ≠ .starting ∧
        ProcessState.stopping now ≠ .popping :=
      ⟨ProcessState.noConfusion, ProcessState.noConfusion, ProcessState.noConfusion⟩
    have notEnded : ¬((∃ count, life.main = .joining (count + 1)) ∨ life.main = .returning) :=
      fun joins => ProcessState.noConfusion (stops.symm.trans (alive.joined joins))
    by_cases last : now = .finished
    · subst last
      have moved : processThread life = { life with process := .ended } := by
        rw [processThread, Lifetime.processThread, stops]
      rw [moved]
      exact ⟨held.leaves stops outside ProcessState.noConfusion,
        fun _ stops => ProcessState.noConfusion stops, alive.started,
        fun joins => absurd joins notEnded, alive.outcome⟩
    · have moved : processThread life =
          { (life.stop now).1 with process := .stopping (life.stop now).2 } :=
        processThread_stopping _ stops last
      obtain ⟨next, within, length⟩ := stop_held_second held (alive.within now stops)
      have same {β : Type} (field : Lifetime α → β) :=
        congrArg field (stop_effect life now).rest
      have main : (life.stop now).1.main = life.main := same Lifetime.main
      have process : (life.stop now).1.process = .stopping now :=
        (same Lifetime.process).trans stops
      rw [moved]
      refine ⟨?_, ?_, ?_, ?_, stop_outcome alive.outcome⟩
      · have still : ProcessState.stopping (life.stop now).2 ≠ .popping :=
          ProcessState.noConfusion
        dsimp only
        rw [congrArg phase main, length]
        exact next.leaves process outside still
      · rintro stop ⟨⟩
        exact length ▸ within
      · intro going
        exact (same Lifetime.appSuspended).trans (alive.started (main ▸ going))
      · intro joins
        exact absurd (main ▸ joins) notEnded
  · rw [not_exists] at stops
    have held : Held (processThread life) _ _ :=
      processThread_held alive.held stops ProcessState.noConfusion
    have moved := processThread_moved (.stopping .request) stops
    by_cases ended : life.process = .ended
    · have idle : processThread life = life := by
        rw [processThread, Lifetime.processThread, ended]
      exact idle.symm ▸ alive
    · have before : processJoined life.threads.length life.process = 0 := by
        cases standing : life.process with
        | stopping stop => exact absurd standing (stops stop)
        | ended => exact absurd standing ended
        | suspended => rfl
        | starting => rfl
        | looping => rfl
        | popping => rfl
      have after : processJoined life.threads.length (processThread life).process = 0 ∧
          ∀ stop, (processThread life).process = .stopping stop → stop = .request := by
        rcases moved.process with same | ⟨asked, -⟩ | starts | loops | pops
        · rw [show (processThread life).process = _ from same]
          exact ⟨before, fun stop stopping => absurd stopping (stops stop)⟩
        · rw [show (processThread life).process = _ from asked]
          exact ⟨rfl, fun stop stopping => (ProcessState.stopping.inj stopping).symm⟩
        · rw [show (processThread life).process = _ from starts]
          exact ⟨rfl, fun stop stopping => ProcessState.noConfusion stopping⟩
        · rw [show (processThread life).process = _ from loops]
          exact ⟨rfl, fun stop stopping => ProcessState.noConfusion stopping⟩
        · rw [show (processThread life).process = _ from pops]
          exact ⟨rfl, fun stop stopping => ProcessState.noConfusion stopping⟩
      have main : (processThread life).main = life.main := moved.main
      have threads : (processThread life).threads = life.threads := moved.threads
      refine ⟨?_, ?_, ?_, ?_, ?_⟩
      · rw [main, threads, after.1, ← before]
        exact held
      · intro stop stopping
        rw [after.2 stop stopping]
        trivial
      · rw [main, show (processThread life).appSuspended = _ from moved.appSuspended]
        exact alive.started
      · intro joins
        exact absurd (alive.joined (main ▸ joins)) ended
      · rw [show (processThread life).outcome = _ from moved.outcome]
        exact alive.outcome

theorem updateThread_alive {life : Lifetime α} (alive : Alive life) :
    Alive (updateThread life) := by
  have same (other : OtherState) : Alive { life with other := other } :=
    ⟨{ alive.held with }, alive.within, alive.started, alive.joined, alive.outcome⟩
  rw [updateThread]
  split
  · split
    · exact alive
    · exact same _
  · exact same _
  · exact same _
  · exact alive

theorem main_alive {life : Lifetime α} (alive : Alive life) (cmd : String) :
    Alive (main life cmd) := by
  have held := alive.held
  have started (going : life.main ≠ .starting) := alive.started going
  rw [main]
  cases here : life.main with
  | starting =>
      rw [here] at held
      exact ⟨{ held with }, alive.within, fun _ => rfl, by simp, alive.outcome⟩
  | reading =>
      rw [here] at held
      have open_ := started (by simp [here])
      dsimp only
      split
      · exact ⟨{ held.reads with }, alive.within, fun _ => open_, by simp, alive.outcome⟩
      · exact ⟨{ held with }, alive.within, fun _ => open_, by simp, alive.outcome⟩
  | requesting =>
      rw [here] at held
      exact ⟨{ held.request with }, alive.within, fun _ => started (by simp [here]), by simp,
        alive.outcome⟩
  | stopping now =>
      rw [here] at held
      by_cases last : now = .finished
      · subst last
        exact ⟨{ held.finish with }, alive.within, fun _ => started (by simp [here]), by simp,
          alive.outcome⟩
      · have next := stop_held_first held
        have length := (held.joins.stop held.within).2.2
        have same {β : Type} (field : Lifetime α → β) :=
          congrArg field (stop_effect life now).rest
        have process : (life.stop now).1.process = life.process := same Lifetime.process
        have open_ : (life.stop now).1.appSuspended = false :=
          (same Lifetime.appSuspended).trans (started (by simp [here]))
        have moved : Alive { (life.stop now).1 with main := .stopping (life.stop now).2 } := by
          refine ⟨?_, ?_, fun _ => open_, by simp, stop_outcome alive.outcome⟩
          · dsimp only
            rw [length, congrArg (processJoined life.threads.length) process]
            exact { next with }
          · rw [process, length]
            exact alive.within
        cases now with
        | finished => exact absurd rfl last
        | request => exact moved
        | close => exact moved
        | join index => exact moved
        | wait index => exact moved
  | forcing =>
      rw [here] at held
      exact ⟨{ held.force with }, alive.within, fun _ => started (by simp [here]), by simp,
        alive.outcome⟩
  | joining count =>
      rw [here] at held
      dsimp only
      split
      · rename_i joined
        have ended : life.process = .ended := by
          cases count with
          | zero => simpa [Lifetime.joined] using joined
          | succ count => exact alive.joined (Or.inl ⟨count, here⟩)
        have behind : phase (if count + 1 < 2 then .joining (count + 1) else .returning) =
            .behind := by
          split
          · rfl
          · rfl
        refine ⟨?_, alive.within, fun _ => started (by simp [here]), fun _ => ended,
          alive.outcome⟩
        dsimp only
        rw [behind]
        exact { held with }
      · exact alive
  | returning =>
      have live := alive.process_live (by rw [here]; rfl)
      exact absurd (alive.joined (Or.inr here)) live

theorem step_alive {life : Lifetime α} (alive : Alive life) (event : Event α) :
    Alive (step life event) := by
  unfold step
  split
  · cases event with
    | net index succeeds packet =>
        exact alive.untouched (netThread_untouched life index succeeds packet)
          (netThread_held alive.held index succeeds packet)
    | process => exact processThread_alive alive
    | update => exact updateThread_alive alive
    | main cmd => exact main_alive alive cmd
  · exact alive

theorem run_alive (config : NetworkConfig) (listening : Bool) (events : List (Event α)) :
    Alive (run (start config listening) events) :=
  List.foldlRecOn events step (start_alive config listening)
    fun _ alive event _ => step_alive alive event

/-- The server's `main` never returns. -/
theorem server_never_returns (config : NetworkConfig) (listening : Bool)
    (events : List (Event α)) :
    (run (start config listening : Lifetime α) events).outcome ≠ .returned :=
  (run_alive config listening events).outcome

/-! That it ends. -/

inductive Mover
  | net (index : Nat)
  | process
  | main

def Moves : Mover → Event α → Prop
  | .net index, event => ∃ succeeds packet, event = .net index succeeds packet
  | .process, event => event = .process
  | .main, event => ∃ cmd, event = .main cmd

def mainRank (count : Nat) : MainState → Nat
  | .starting => 0
  | .reading => 0
  | .requesting => 2 * count + 17
  | .stopping stop => stop.rank count + 12
  | .forcing => 11
  | .joining _ => 10
  | .returning => 9

def measure (life : Lifetime α) : Nat := mainRank life.threads.length life.main + rank life

def Leaving (life : Lifetime α) : Prop := life.main ≠ .starting ∧ life.main ≠ .reading

theorem step_running {life : Lifetime α} (running : life.outcome = .running) :
    (∀ index succeeds packet,
      step life (.net index succeeds packet) = life.netThread index succeeds packet) ∧
      step life .process = processThread life ∧ ∀ cmd, step life (.main cmd) = main life cmd :=
  ⟨fun _ _ _ => if_pos running, if_pos running, fun _ => if_pos running⟩

theorem process_closer {life : Lifetime α} (alive : Alive life)
    (started : life.appSuspended = false) (live : life.process ≠ .ended)
    (ready : life.process = .suspended ∨ life.process = .starting ∨ phase life.main = .behind) :
    Broken (processThread life) ∨ measure (processThread life) < measure life := by
  by_cases stops : ∃ stop, life.process = .stopping stop
  · obtain ⟨now, stops⟩ := stops
    have behind : phase life.main = .behind := by simpa [stops] using ready
    have held := alive.held
    rw [behind, stops] at held
    have inhabited := held.inhabited
    have none : now.joined life.threads.length = 0 :=
      held.joins.alone.resolve_left (Nat.ne_of_gt inhabited)
    have going : now ≠ .finished := by
      rintro rfl
      exact absurd none (Nat.ne_of_gt inhabited)
    have within := alive.within now stops
    have length := (stop_held_second held within).2.2
    have moved : processThread life =
        { (life.stop now).1 with process := .stopping (life.stop now).2 } :=
      processThread_stopping _ stops going
    rw [moved]
    rcases stop_closer going within fun index thread _ here =>
      held.joins.ended_of_all rfl here with broken | less
    · exact Or.inl broken
    · have same {β : Type} (field : Lifetime α → β) :=
        congrArg field (stop_effect life now).rest
      have main : (life.stop now).1.main = life.main := same Lifetime.main
      have net := (stop_effect life now).netRank_eq length
      refine Or.inr ?_
      simp only [measure, rank, main, length, net, stops, processRank]
      omega
  · rw [not_exists] at stops
    have moved := processThread_moved (.stopping .request) stops
    have closer : rank (processThread life) < rank life :=
      processThread_closer alive.held started ready stops live
        (by simp [processRank, StopState.rank])
    have main : (processThread life).main = life.main := moved.main
    have threads : (processThread life).threads = life.threads := moved.threads
    refine Or.inr ?_
    rw [measure, measure, main, threads]
    omega

theorem stopping_closer {life : Lifetime α} {now : StopState} (alive : Alive life)
    (here : life.main = .stopping now) (running : life.outcome = .running) :
    ∃ mover, ∀ event, Moves mover event →
      Broken (step life event) ∨ measure (step life event) < measure life := by
  obtain ⟨nets, process, mains⟩ := step_running running
  have started : life.appSuspended = false := alive.started (by simp [here])
  have held := alive.held
  rw [here] at held
  by_cases last : now = .finished
  · subst last
    refine ⟨.main, ?_⟩
    rintro event ⟨cmd, rfl⟩
    refine Or.inr ?_
    rw [mains, main, here]
    simp only [measure, rank, here, mainRank, StopState.rank]
    omega
  rcases held.stopping_cases with ready | suspended | ⟨index, thread, rfl, found, live, open_⟩
  · refine ⟨.main, ?_⟩
    rintro event ⟨cmd, rfl⟩
    have length := (held.joins.stop held.within).2.2
    have moved : main life cmd =
        { (life.stop now).1 with main := .stopping (life.stop now).2 } := by
      rw [main, here]
      cases now with
      | finished => exact absurd rfl last
      | request => rfl
      | close => rfl
      | join index => rfl
      | wait index => rfl
    rw [mains, moved]
    rcases stop_closer last held.within ready with broken | less
    · exact Or.inl broken
    · have rest := (stop_effect life now).rank_eq length
      refine Or.inr ?_
      rw [rank, rank] at rest
      simp only [measure, rank, here, mainRank, length] at rest ⊢
      omega
  · refine ⟨.process, ?_⟩
    rintro event rfl
    rw [process]
    refine process_closer alive started ?_ (suspended.imp_right Or.inl)
    rcases suspended with same | same
    · simp [same]
    · simp [same]
  · refine ⟨.net index, ?_⟩
    rintro event ⟨succeeds, packet, rfl⟩
    rw [nets]
    obtain ⟨state, moved, closer⟩ :=
      netThread_closer held rfl open_ found live succeeds packet
    have less := moved.rank_lt closer
    refine Or.inr ?_
    rw [measure, measure, moved.untouched.main, moved.untouched.length]
    omega

theorem progress {life : Lifetime α} (alive : Alive life) (leaving : Leaving life) :
    Broken life ∨ ∃ mover, ∀ event, Moves mover event →
      Broken (step life event) ∨ measure (step life event) < measure life := by
  cases running : life.outcome with
  | returned => exact absurd running alive.outcome
  | terminated => exact Or.inl (Or.inl running)
  | undefined => exact Or.inl (Or.inr running)
  | running =>
      obtain ⟨nets, process, mains⟩ := step_running running
      have started := alive.started leaving.1
      refine Or.inr ?_
      cases here : life.main with
      | starting => exact absurd here leaving.1
      | reading => exact absurd here leaving.2
      | requesting =>
          refine ⟨.main, ?_⟩
          rintro event ⟨cmd, rfl⟩
          refine Or.inr ?_
          rw [mains, main, here]
          simp only [measure, rank, here, mainRank, StopState.rank]
          omega
      | stopping now => exact stopping_closer alive here running
      | forcing =>
          refine ⟨.main, ?_⟩
          rintro event ⟨cmd, rfl⟩
          refine Or.inr ?_
          rw [mains, main, here]
          simp only [measure, rank, force, here, mainRank]
          omega
      | joining count =>
          have live := alive.process_live (by rw [here]; rfl)
          refine ⟨.process, ?_⟩
          rintro event rfl
          rw [process]
          exact process_closer alive started live (Or.inr (Or.inr (by rw [here]; rfl)))
      | returning =>
          have live := alive.process_live (by rw [here]; rfl)
          exact absurd (alive.joined (Or.inr here)) live

theorem step_leaving {life : Lifetime α} (leaving : Leaving life) (event : Event α) :
    Leaving (step life event) := by
  have kept {next : Lifetime α} (same : next.main = life.main) : Leaving next := by
    rw [Leaving, same]
    exact leaving
  unfold step
  split
  · cases event with
    | net index succeeds packet => exact kept (netThread_untouched life index succeeds packet).main
    | process => exact kept (processThread_main _ life)
    | update =>
        refine kept ?_
        dsimp only
        rw [updateThread]
        split
        · split
          · rfl
          · rfl
        · rfl
        · rfl
        · rfl
    | main cmd =>
        dsimp only
        rw [main]
        split
        · rename_i here
          exact absurd here leaving.1
        · rename_i here
          exact absurd here leaving.2
        · exact ⟨MainState.noConfusion, MainState.noConfusion⟩
        · exact ⟨MainState.noConfusion, MainState.noConfusion⟩
        · exact ⟨MainState.noConfusion, MainState.noConfusion⟩
        · exact ⟨MainState.noConfusion, MainState.noConfusion⟩
        · split
          · refine ⟨?_, ?_⟩
            · dsimp only
              split
              · exact MainState.noConfusion
              · exact MainState.noConfusion
            · dsimp only
              split
              · exact MainState.noConfusion
              · exact MainState.noConfusion
          · exact leaving
        · exact leaving
  · exact leaving

def Ending (life : Lifetime α) : Prop := Alive life ∧ Leaving life

theorem Ending.progress {life : Lifetime α} (ending : Ending life) :
    Broken life ∨ ∃ mover, ∀ event, Moves mover event → Broken (step life event) ∨
      Ending (step life event) ∧ measure (step life event) < measure life := by
  obtain ⟨alive, leaves⟩ := ending
  rcases Svr.progress alive leaves with done | ⟨mover, closer⟩
  · exact Or.inl done
  · refine Or.inr ⟨mover, fun event moves => ?_⟩
    exact (closer event moves).imp_right fun less =>
      ⟨⟨step_alive alive event, step_leaving leaves event⟩, less⟩

end Svr

end Lifetime

end ProjectPl
