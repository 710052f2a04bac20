import ProjectPl.LifetimeCore

/-!
`Network::Stop` called twice. One thread calls it first, and what that thread has done so far is
its phase. The other call counts only by the threads that it has joined.
-/

namespace ProjectPl

namespace Lifetime

variable {α : Type}

/-! The threads that a call has joined. -/

def StopState.joined (count : Nat) : StopState → Nat
  | .request => 0
  | .close => 0
  | .join index => index
  | .wait index => index
  | .finished => count

def StopState.Within (count : Nat) : StopState → Prop
  | .request => True
  | .close => True
  | .join index => index ≤ count
  | .wait index => index < count
  | .finished => True

/-- Two callers, one of which has joined no thread yet. -/
structure Joins (threads : List NetThread) (one two : Nat) : Prop where
  joinable : ∀ (index : Nat) (thread : NetThread), threads[index]? = some thread →
    (thread.joinable = false ↔ index < one + two)
  alone : one = 0 ∨ two = 0
  ended : ∀ thread ∈ threads, thread.joinable = false → thread.state = .ended

theorem Joins.symm {threads : List NetThread} {one two : Nat} (joins : Joins threads one two) :
    Joins threads two one := by
  refine ⟨?_, joins.alone.symm, joins.ended⟩
  intro index thread here
  rw [Nat.add_comm, joins.joinable index thread here]

theorem getElem?_setState (life : Lifetime α) (index other : Nat) (state : NetState) :
    (life.setState index state).threads[other]? =
      (life.threads[other]?).map fun thread =>
        if index = other then { thread with state := state } else thread := by
  rw [setState, List.getElem?_modify]
  rfl

theorem getElem?_detach (life : Lifetime α) (index other : Nat) :
    (life.detach index).threads[other]? =
      (life.threads[other]?).map fun thread =>
        if index = other then { thread with joinable := false } else thread := by
  rw [detach, List.getElem?_modify]
  rfl

theorem Joins.setState {life : Lifetime α} {one two index : Nat} {thread : NetThread}
    (joins : Joins life.threads one two) (here : life.threads[index]? = some thread)
    (live : thread.state ≠ .ended) (state : NetState) :
    Joins (life.setState index state).threads one two := by
  refine ⟨?_, joins.alone, ?_⟩
  · intro other moved found
    rw [getElem?_setState, Option.map_eq_some_iff] at found
    obtain ⟨before, there, rfl⟩ := found
    rw [← joins.joinable other before there]
    split
    · rfl
    · rfl
  · intro moved member
    obtain ⟨other, found⟩ := List.getElem?_of_mem member
    rw [getElem?_setState, Option.map_eq_some_iff] at found
    obtain ⟨before, there, rfl⟩ := found
    split
    · rename_i same
      subst same
      rw [here, Option.some_inj] at there
      subst there
      exact fun joined => absurd (joins.ended _ (List.mem_of_getElem? here) joined) live
    · exact joins.ended before (List.mem_of_getElem? there)

theorem Joins.detach {life : Lifetime α} {two index : Nat} {thread : NetThread}
    (joins : Joins life.threads index two) (here : life.threads[index]? = some thread)
    (ended : thread.state = .ended) (joinable : thread.joinable = true) :
    Joins (life.detach index).threads (index + 1) two := by
  have none : two = 0 := by
    have notJoined := (joins.joinable index thread here).not.mp (by simp [joinable])
    omega
  subst none
  refine ⟨?_, Or.inr rfl, ?_⟩
  · intro other moved found
    rw [getElem?_detach, Option.map_eq_some_iff] at found
    obtain ⟨before, there, rfl⟩ := found
    have earlier := joins.joinable other before there
    split
    · rename_i same
      simp [same]
    · rw [earlier]
      omega
  · intro moved member
    obtain ⟨other, found⟩ := List.getElem?_of_mem member
    rw [getElem?_detach, Option.map_eq_some_iff] at found
    obtain ⟨before, there, rfl⟩ := found
    split
    · rename_i same
      subst same
      rw [here, Option.some_inj] at there
      subst there
      exact fun _ => ended
    · exact joins.ended before (List.mem_of_getElem? there)

theorem length_setState (life : Lifetime α) (index : Nat) (state : NetState) :
    (life.setState index state).threads.length = life.threads.length := List.length_modify ..

theorem length_detach (life : Lifetime α) (index : Nat) :
    (life.detach index).threads.length = life.threads.length := List.length_modify ..

theorem Joins.stop {life : Lifetime α} {now : StopState} {two : Nat}
    (joins : Joins life.threads (now.joined life.threads.length) two)
    (within : now.Within life.threads.length) :
    Joins (life.stop now).1.threads ((life.stop now).2.joined life.threads.length) two ∧
      (life.stop now).2.Within life.threads.length ∧
      (life.stop now).1.threads.length = life.threads.length := by
  cases now with
  | request => exact ⟨joins, trivial, rfl⟩
  | close => exact ⟨joins, Nat.zero_le _, rfl⟩
  | join index =>
      rw [Lifetime.stop]
      cases here : life.threads[index]? with
      | none =>
          have all : index = life.threads.length :=
            Nat.le_antisymm within (List.getElem?_eq_none_iff.mp here)
          exact ⟨all ▸ joins, trivial, rfl⟩
      | some thread =>
          have inside := (List.getElem?_eq_some_iff.mp here).1
          dsimp only
          split
          · exact ⟨joins, inside, rfl⟩
          · exact ⟨joins, within, rfl⟩
  | wait index =>
      rw [Lifetime.stop]
      cases here : life.threads[index]? with
      | none => exact absurd within (Nat.not_lt.mpr (List.getElem?_eq_none_iff.mp here))
      | some thread =>
          dsimp only
          split
          · rename_i ended
            split
            · rename_i joinable
              exact ⟨joins.detach here ended joinable, within, length_detach life index⟩
            · exact ⟨joins, within, rfl⟩
          · exact ⟨joins, within, rfl⟩
  | finished => exact ⟨joins, trivial, rfl⟩

/-! What holds in every phase. -/

/-- How far the thread is that calls `App::Stop` first. -/
inductive Phase
  | before
  | requesting
  | stopping (stop : StopState)
  | forcing
  | behind

namespace Phase

def joined (count : Nat) : Phase → Nat
  | before => 0
  | requesting => 0
  | stopping stop => stop.joined count
  | forcing => count
  | behind => count

def Within (count : Nat) : Phase → Prop
  | stopping stop => stop.Within count
  | _ => True

def requested : Phase → Bool
  | before => false
  | requesting => false
  | _ => true

def netRequested : Phase → Bool
  | before => false
  | requesting => false
  | stopping .request => false
  | _ => true

def closed : Phase → Bool
  | before => false
  | requesting => false
  | stopping .request => false
  | stopping .close => false
  | _ => true

end Phase

/-- The kinds and states that occur: only `AcceptThread` opens a socket, and there is one of it. -/
structure Kinds (threads : List NetThread) : Prop where
  opening : ∀ thread ∈ threads, thread.state = .opening → thread.kind = .accept
  unique : ∀ (one two : Nat) (first second : NetThread), threads[one]? = some first →
    threads[two]? = some second → first.kind = .accept → second.kind = .accept → one = two

/-- `AcceptThread` does not wait on a socket that `Stop` cannot close any more. -/
def Released (threads : List NetThread) (listening : Bool) : Prop :=
  ∀ thread ∈ threads, thread.kind = .accept → thread.state = .waiting → listening = false

/-- A consumer that finds no packet has the event before it. -/
def Awake (queue : RecvPacketQueue Nat α) : Prop :=
  queue.hQueueEvent = true ∨ queue.consumer = .test true ∨ queue.consumer = .remove

structure Held (life : Lifetime α) (phase : Phase) (second : Nat) : Prop where
  joins : Joins life.threads (phase.joined life.threads.length) second
  within : phase.Within life.threads.length
  inhabited : 0 < life.threads.length
  kinds : Kinds life.threads
  requested : phase.requested = true → life.appStop = true
  netRequested : phase.netRequested = true → life.netStop = true
  released : phase.closed = true → Released life.threads life.listening
  netStarted : life.process ≠ .suspended → life.process ≠ .starting → life.netSuspended = false
  handsOver : ∃ packets, life.recvPacketQueue.HandsOver packets
  idle : life.process ≠ .popping → life.recvPacketQueue.consumer = .idle
  awake : phase = .behind → life.process = .popping → Awake life.recvPacketQueue

theorem Held.congr {life next : Lifetime α} {phase : Phase} {second : Nat}
    (held : Held life phase second) (threads : next.threads = life.threads)
    (appStop : next.appStop = life.appStop) (netStop : next.netStop = life.netStop)
    (listening : next.listening = life.listening) (process : next.process = life.process)
    (netSuspended : next.netSuspended = life.netSuspended)
    (queue : next.recvPacketQueue = life.recvPacketQueue) : Held next phase second := by
  obtain ⟨_, _, _, _, _, _, _, _, _, _, _⟩ := life
  obtain ⟨_, _, _, _, _, _, _, _, _, _, _⟩ := next
  subst threads appStop netStop listening process netSuspended queue
  exact { held with }

/-! The threads of `Network`. -/

def NetState.rank : NetState → Nat
  | .suspended => 5
  | .opening => 2
  | .looping => 1
  | .waiting => 4
  | .completing => 3
  | .signalling => 2
  | .ended => 0

/-- What a step of a thread does to the rest. -/
structure NetMoved (life next : Lifetime α) (index : Nat) (thread : NetThread)
    (state : NetState) : Prop where
  threads : next.threads = (life.setState index state).threads
  live : thread.state ≠ .ended
  opening : state = .opening → thread.kind = .accept
  waiting : state = .waiting → life.netStop = false
  listening : next.listening = life.listening ∨ thread.state = .opening
  queue : next.recvPacketQueue = life.recvPacketQueue ∨
    next.recvPacketQueue = life.recvPacketQueue.setEvent index ∨
    ∃ packet, next.recvPacketQueue = life.recvPacketQueue.push 0 index packet
  rest : { next with
    threads := life.threads
    listening := life.listening
    recvPacketQueue := life.recvPacketQueue } = life

/-- A thread that goes on, without a wait and without the listen socket. -/
theorem NetMoved.setState (life : Lifetime α) (index : Nat) {thread : NetThread}
    {state : NetState} (live : thread.state ≠ .ended) (opens : state ≠ .opening)
    (waits : state ≠ .waiting) : NetMoved life (life.setState index state) index thread state :=
  ⟨rfl, live, fun same => absurd same opens, fun same => absurd same waits, Or.inl rfl,
    Or.inl rfl, rfl⟩

theorem netThread_moved (life : Lifetime α) {index : Nat} {thread : NetThread}
    (here : life.threads[index]? = some thread) (succeeds : Bool) (packet : Option α) :
    life.netThread index succeeds packet = life ∧
      (thread.state = .ended ∨ thread.state = .suspended ∧ life.netSuspended = true ∨
        thread.state = .waiting ∧ thread.kind = .accept ∧ life.listening = true) ∨
    ∃ state, NetMoved life (life.netThread index succeeds packet) index thread state ∧
      (life.netStop = true → state.rank < thread.state.rank) := by
  unfold netThread
  rw [here]
  dsimp only
  cases state : thread.state with
  | suspended =>
      dsimp only
      by_cases suspended : life.netSuspended = true
      · exact Or.inl ⟨if_pos suspended, Or.inr (Or.inl ⟨rfl, suspended⟩)⟩
      · rw [if_neg suspended]
        refine Or.inr ⟨_, ⟨rfl, by simp [state], ?_, ?_, Or.inl rfl, Or.inl rfl, rfl⟩, ?_⟩
        · split
          · exact fun _ => ‹_›
          · exact fun opens => NetState.noConfusion opens
        · split
          · exact fun waits => NetState.noConfusion waits
          · exact fun waits => NetState.noConfusion waits
        · split
          · exact fun _ => by decide
          · exact fun _ => by decide
  | opening =>
      dsimp only
      cases succeeds with
      | true =>
          exact Or.inr ⟨.looping, ⟨rfl, by simp [state], NetState.noConfusion,
            NetState.noConfusion, Or.inr state, Or.inl rfl, rfl⟩, fun _ => by decide⟩
      | false =>
          exact Or.inr ⟨.ended, NetMoved.setState life index (by simp [state]) nofun nofun,
            fun _ => by decide⟩
  | looping =>
      dsimp only
      cases stop : life.netStop with
      | true =>
          exact Or.inr ⟨.ended, NetMoved.setState life index (by simp [state]) nofun nofun,
            fun _ => by decide⟩
      | false =>
          exact Or.inr ⟨.waiting, ⟨rfl, by simp [state], NetState.noConfusion, fun _ => stop,
            Or.inl rfl, Or.inl rfl, rfl⟩, fun stops => absurd stops Bool.false_ne_true⟩
  | waiting =>
      dsimp only
      cases kind : thread.kind with
      | worker =>
          exact Or.inr ⟨.completing, NetMoved.setState life index (by simp [state]) nofun nofun,
            fun _ => by decide⟩
      | accept =>
          dsimp only
          split
          · exact Or.inr ⟨.looping, NetMoved.setState life index (by simp [state]) nofun nofun,
              fun _ => by decide⟩
          · rename_i blocked
            simp only [Bool.or_eq_true, Bool.not_eq_true', not_or, Bool.not_eq_false] at blocked
            exact Or.inl ⟨rfl, Or.inr (Or.inr ⟨rfl, rfl, blocked.2⟩)⟩
      | update =>
          exact Or.inr ⟨.looping, NetMoved.setState life index (by simp [state]) nofun nofun,
            fun _ => by decide⟩
  | completing =>
      cases packet with
      | none =>
          exact Or.inr ⟨.looping, NetMoved.setState life index (by simp [state]) nofun nofun,
            fun _ => by decide⟩
      | some packet =>
          exact Or.inr ⟨.signalling, ⟨rfl, by simp [state], NetState.noConfusion,
            NetState.noConfusion, Or.inl rfl, Or.inr (Or.inr ⟨some packet, rfl⟩), rfl⟩,
            fun _ => by decide⟩
  | signalling =>
      exact Or.inr ⟨.looping, ⟨rfl, by simp [state], NetState.noConfusion,
        NetState.noConfusion, Or.inl rfl, Or.inr (Or.inl rfl), rfl⟩, fun _ => by decide⟩
  | ended => exact Or.inl ⟨rfl, Or.inl rfl⟩

theorem Kinds.setState {life : Lifetime α} {index : Nat} {thread : NetThread}
    (kinds : Kinds life.threads) (here : life.threads[index]? = some thread) {state : NetState}
    (opening : state = .opening → thread.kind = .accept) :
    Kinds (life.setState index state).threads := by
  have kept (other : Nat) (moved : NetThread)
      (found : (life.setState index state).threads[other]? = some moved) :
      ∃ before, life.threads[other]? = some before ∧ moved.kind = before.kind ∧
        (moved.state = before.state ∨ other = index ∧ moved.state = state) := by
    rw [getElem?_setState, Option.map_eq_some_iff] at found
    obtain ⟨before, there, rfl⟩ := found
    refine ⟨before, there, ?_⟩
    split
    · exact ⟨rfl, Or.inr ⟨‹index = other›.symm, rfl⟩⟩
    · exact ⟨rfl, Or.inl rfl⟩
  refine ⟨?_, ?_⟩
  · intro moved member opens
    obtain ⟨other, found⟩ := List.getElem?_of_mem member
    obtain ⟨before, there, kind, same | ⟨rfl, same⟩⟩ := kept other moved found
    · rw [kind]
      exact kinds.opening before (List.mem_of_getElem? there) (same ▸ opens)
    · rw [here, Option.some_inj] at there
      rw [kind, ← there]
      exact opening (same ▸ opens)
  · intro one two first second here_ there accept also
    obtain ⟨before, found, kind, -⟩ := kept one first here_
    obtain ⟨other, sought, same, -⟩ := kept two second there
    exact kinds.unique one two before other found sought (kind ▸ accept) (same ▸ also)

theorem setEvent_consumer (queue : RecvPacketQueue Nat α) (producer : Nat) :
    (queue.setEvent producer).consumer = queue.consumer ∧
      (queue.hQueueEvent = true → (queue.setEvent producer).hQueueEvent = true) := by
  rw [RecvPacketQueue.setEvent]
  split
  · exact ⟨rfl, fun _ => rfl⟩
  · exact ⟨rfl, id⟩

theorem push_consumer (queue : RecvPacketQueue Nat α) (producer : Nat) (packet : Option α) :
    (queue.push 0 producer packet).consumer = queue.consumer ∧
      (queue.push 0 producer packet).hQueueEvent = queue.hQueueEvent := by
  cases packet with
  | none => exact ⟨rfl, rfl⟩
  | some packet =>
      rw [RecvPacketQueue.push]
      split
      · exact ⟨rfl, rfl⟩
      · exact ⟨rfl, rfl⟩

theorem Phase.netRequested_of_closed {phase : Phase} (closed : phase.closed = true) :
    phase.netRequested = true := by
  cases phase with
  | stopping stop => cases stop <;> first | rfl | cases closed
  | before => cases closed
  | requesting => cases closed
  | forcing => rfl
  | behind => rfl

theorem NetMoved.held {life next : Lifetime α} {phase : Phase} {second index : Nat}
    {thread : NetThread} {state : NetState} (held : Held life phase second)
    (here : life.threads[index]? = some thread)
    (moved : NetMoved life next index thread state) : Held next phase second := by
  have same {β : Type} (field : Lifetime α → β) := congrArg field moved.rest
  have length : next.threads.length = life.threads.length := by
    rw [moved.threads, length_setState]
  obtain ⟨packets, hands⟩ := held.handsOver
  have queue : (∃ packets, next.recvPacketQueue.HandsOver packets) ∧
      next.recvPacketQueue.consumer = life.recvPacketQueue.consumer ∧
      (life.recvPacketQueue.hQueueEvent = true → next.recvPacketQueue.hQueueEvent = true) := by
    rcases moved.queue with unchanged | set | ⟨packet, pushed⟩
    · rw [unchanged]
      exact ⟨⟨packets, hands⟩, rfl, id⟩
    · rw [set]
      exact ⟨⟨packets, RecvPacketQueue.setEvent_handsOver index hands⟩, setEvent_consumer _ _⟩
    · rw [pushed]
      exact ⟨⟨_, RecvPacketQueue.push_handsOver index packet hands⟩, (push_consumer _ _ _).1,
        fun signalled => (push_consumer _ _ _).2.trans signalled⟩
  refine ⟨?_, ?_, ?_, ?_, ?_, ?_, ?_, ?_, queue.1, ?_, ?_⟩
  · rw [length, moved.threads]
    exact held.joins.setState here moved.live state
  · rw [length]
    exact held.within
  · rw [length]
    exact held.inhabited
  · rw [moved.threads]
    exact held.kinds.setState here moved.opening
  · intro requested
    exact (same Lifetime.appStop).trans (held.requested requested)
  · intro requested
    exact (same Lifetime.netStop).trans (held.netRequested requested)
  · intro closed other member accept waits
    obtain ⟨position, found⟩ := List.getElem?_of_mem member
    rw [moved.threads, getElem?_setState, Option.map_eq_some_iff] at found
    obtain ⟨before, there, rfl⟩ := found
    have stops := held.netRequested (Phase.netRequested_of_closed closed)
    by_cases mine : index = position
    · rw [if_pos mine] at waits
      have goes := moved.waiting waits
      rw [stops] at goes
      cases goes
    · rw [if_neg mine] at accept waits
      have shut := held.released closed before (List.mem_of_getElem? there) accept waits
      rcases moved.listening with unchanged | opens
      · exact unchanged.trans shut
      · have accepts := held.kinds.opening thread (List.mem_of_getElem? here) opens
        exact absurd (held.kinds.unique index position thread before here there accepts accept) mine
  · intro going begun
    refine (same Lifetime.netSuspended).trans (held.netStarted ?_ ?_)
    · exact fun suspended => going ((same Lifetime.process).trans suspended)
    · exact fun starting => begun ((same Lifetime.process).trans starting)
  · intro other
    exact queue.2.1.trans (held.idle fun popping => other ((same Lifetime.process).trans popping))
  · intro behind popping
    rw [Awake, queue.2.1]
    exact (held.awake behind ((same Lifetime.process).symm.trans popping)).imp_left queue.2.2

theorem netThread_held {life : Lifetime α} {phase : Phase} {second : Nat}
    (held : Held life phase second) (index : Nat) (succeeds : Bool) (packet : Option α) :
    Held (life.netThread index succeeds packet) phase second := by
  cases here : life.threads[index]? with
  | none =>
      unfold netThread
      rw [here]
      exact held
  | some thread =>
      rcases netThread_moved life here succeeds packet with ⟨same, -⟩ | ⟨state, moved, -⟩
      · exact same.symm ▸ held
      · exact moved.held held here

/-! `ProcessThread`, as long as it does not stop the network itself. -/

theorem consume_awake {queue : RecvPacketQueue Nat α} {packets : List α}
    (hands : queue.HandsOver packets)
    (awake : Awake queue) : (queue.consume 0).consumer = .idle ∨ Awake (queue.consume 0) := by
  rw [RecvPacketQueue.consume]
  rcases awake with signalled | testing | removing
  · cases standing : queue.consumer with
    | idle => exact Or.inr (Or.inl signalled)
    | test waited =>
        dsimp only
        split
        · split
          · exact Or.inl rfl
          · exact Or.inr (Or.inl signalled)
        · exact Or.inr (Or.inr (Or.inr rfl))
    | remove =>
        dsimp only
        split
        · rename_i empty
          exact absurd empty (hands.removes standing)
        · exact Or.inl rfl
    | wait =>
        dsimp only
        rw [if_pos signalled]
        exact Or.inr (Or.inr (Or.inl rfl))
    | undefined => exact absurd standing hands.defined
  · rw [testing]
    dsimp only
    split
    · exact Or.inl rfl
    · exact Or.inr (Or.inr (Or.inr rfl))
  · rw [removing]
    dsimp only
    split
    · rename_i empty
      exact absurd empty (hands.removes removing)
    · exact Or.inl rfl

theorem processThread_held {life : Lifetime α} {phase : Phase} {second : Nat}
    (held : Held life phase second) {behind : ProcessState}
    (other : ∀ stop, life.process ≠ .stopping stop) (leaves : behind ≠ .popping) :
    Held (Lifetime.processThread behind life) phase second := by
  rw [Lifetime.processThread]
  cases standing : life.process with
  | suspended =>
      dsimp only
      split
      · exact held
      · exact { held with
          netStarted := fun _ begun => absurd rfl begun
          idle := fun _ => held.idle (by simp [standing])
          awake := fun _ popping => ProcessState.noConfusion popping }
  | starting =>
      exact { held with
        netStarted := fun _ _ => rfl
        idle := fun _ => held.idle (by simp [standing])
        awake := fun _ popping => ProcessState.noConfusion popping }
  | looping =>
      have started := held.netStarted (by simp [standing]) (by simp [standing])
      refine { held with
        netStarted := fun _ _ => started
        idle := fun _ => held.idle (by simp [standing])
        awake := fun last popping => ?_ }
      have stops : life.appStop = true := held.requested (by rw [last]; rfl)
      dsimp only at popping
      rw [if_pos stops] at popping
      exact absurd popping leaves
  | popping =>
      have started := held.netStarted (by simp [standing]) (by simp [standing])
      refine { held with
        netStarted := fun _ _ => started
        handsOver := held.handsOver.imp fun _ => RecvPacketQueue.consume_handsOver
        idle := fun out => ?_
        awake := fun last popping => ?_ }
      · by_contra busy
        exact out (if_neg busy)
      · obtain ⟨packets, hands⟩ := held.handsOver
        rcases consume_awake hands (held.awake last standing) with idle | awake
        · dsimp only at popping
          rw [if_pos idle] at popping
          exact ProcessState.noConfusion popping
        · exact awake
  | stopping stop => exact absurd standing (other stop)
  | ended => exact held

/-! `Network::Stop`. -/

structure StopEffect (life next : Lifetime α) : Prop where
  threads : ∀ (index : Nat) (thread : NetThread), next.threads[index]? = some thread →
    ∃ before, life.threads[index]? = some before ∧ thread.kind = before.kind ∧
      thread.state = before.state
  listening : next.listening = life.listening ∨ next.listening = false
  netStop : next.netStop = life.netStop ∨ next.netStop = true
  outcome : next.outcome = life.outcome ∨ next.outcome = .terminated ∨ next.outcome = .undefined
  rest : { next with
    threads := life.threads
    listening := life.listening
    netStop := life.netStop
    outcome := life.outcome } = life

theorem stop_effect (life : Lifetime α) (now : StopState) :
    StopEffect life (life.stop now).1 := by
  have same (index : Nat) (thread : NetThread) (here : life.threads[index]? = some thread) :
      ∃ before, life.threads[index]? = some before ∧ thread.kind = before.kind ∧
        thread.state = before.state := ⟨thread, here, rfl, rfl⟩
  cases now with
  | request => exact ⟨same, Or.inl rfl, Or.inr rfl, Or.inl rfl, rfl⟩
  | close => exact ⟨same, Or.inr rfl, Or.inl rfl, Or.inl rfl, rfl⟩
  | join index =>
      rw [stop]
      cases life.threads[index]? with
      | none => exact ⟨same, Or.inl rfl, Or.inl rfl, Or.inl rfl, rfl⟩
      | some thread =>
          dsimp only
          split
          · exact ⟨same, Or.inl rfl, Or.inl rfl, Or.inl rfl, rfl⟩
          · exact ⟨same, Or.inl rfl, Or.inl rfl, Or.inr (Or.inl rfl), rfl⟩
  | wait index =>
      rw [stop]
      cases life.threads[index]? with
      | none => exact ⟨same, Or.inl rfl, Or.inl rfl, Or.inl rfl, rfl⟩
      | some thread =>
          dsimp only
          split
          · split
            · refine ⟨?_, Or.inl rfl, Or.inl rfl, Or.inl rfl, rfl⟩
              intro other moved found
              rw [getElem?_detach, Option.map_eq_some_iff] at found
              obtain ⟨before, there, rfl⟩ := found
              refine ⟨before, there, ?_⟩
              split
              · exact ⟨rfl, rfl⟩
              · exact ⟨rfl, rfl⟩
            · exact ⟨same, Or.inl rfl, Or.inl rfl, Or.inr (Or.inr rfl), rfl⟩
          · exact ⟨same, Or.inl rfl, Or.inl rfl, Or.inl rfl, rfl⟩
  | finished => exact ⟨same, Or.inl rfl, Or.inl rfl, Or.inl rfl, rfl⟩

theorem StopEffect.held {life next : Lifetime α} {phase later : Phase} {second other : Nat}
    (effect : StopEffect life next) (held : Held life phase second)
    (length : next.threads.length = life.threads.length)
    (joins : Joins next.threads (later.joined life.threads.length) other)
    (within : later.Within life.threads.length)
    (requested : later.requested = true → phase.requested = true)
    (netRequested : later.netRequested = true → next.netStop = true)
    (closed : later.closed = true → phase.closed = true ∨ next.listening = false)
    (behind : later = .behind → phase = .behind) : Held next later other := by
  have same {β : Type} (field : Lifetime α → β) := congrArg field effect.rest
  refine ⟨length ▸ joins, length ▸ within, length ▸ held.inhabited, ⟨?_, ?_⟩, ?_, netRequested,
    ?_, ?_, ?_, ?_, ?_⟩
  · intro thread member opens
    obtain ⟨index, found⟩ := List.getElem?_of_mem member
    obtain ⟨before, there, kind, state⟩ := effect.threads index thread found
    exact kind.trans (held.kinds.opening before (List.mem_of_getElem? there) (state ▸ opens))
  · intro one two first last here there accept also
    obtain ⟨before, found, kind, -⟩ := effect.threads one first here
    obtain ⟨after, sought, same, -⟩ := effect.threads two last there
    exact held.kinds.unique one two before after found sought (kind ▸ accept) (same ▸ also)
  · intro asked
    exact (same Lifetime.appStop).trans (held.requested (requested asked))
  · intro shut thread member accept waits
    obtain ⟨index, found⟩ := List.getElem?_of_mem member
    obtain ⟨before, there, kind, state⟩ := effect.threads index thread found
    rcases closed shut with already | now
    · rcases effect.listening with unchanged | now
      · rw [unchanged]
        exact held.released already before (List.mem_of_getElem? there) (kind ▸ accept)
          (state ▸ waits)
      · exact now
    · exact now
  · intro going begun
    refine (same Lifetime.netSuspended).trans (held.netStarted ?_ ?_)
    · exact fun suspended => going ((same Lifetime.process).trans suspended)
    · exact fun starting => begun ((same Lifetime.process).trans starting)
  · exact (same Lifetime.recvPacketQueue).symm ▸ held.handsOver
  · intro out
    have idle := held.idle fun popping => out ((same Lifetime.process).trans popping)
    exact (congrArg RecvPacketQueue.consumer (same Lifetime.recvPacketQueue)).trans idle
  · intro last popping
    have awake := held.awake (behind last) ((same Lifetime.process).symm.trans popping)
    exact (same Lifetime.recvPacketQueue).symm ▸ awake

theorem stop_held_first {life : Lifetime α} {now : StopState} {second : Nat}
    (held : Held life (.stopping now) second) :
    Held (life.stop now).1 (.stopping (life.stop now).2) second := by
  obtain ⟨joins, within, length⟩ := held.joins.stop held.within
  refine (stop_effect life now).held held length joins within (fun _ => rfl) ?_ ?_
    fun last => Phase.noConfusion last
  · intro asked
    cases now with
    | request => rfl
    | close => exact held.netRequested rfl
    | join index =>
        rcases (stop_effect life (.join index)).netStop with same | stops
        · exact same.trans (held.netRequested rfl)
        · exact stops
    | wait index =>
        rcases (stop_effect life (.wait index)).netStop with same | stops
        · exact same.trans (held.netRequested rfl)
        · exact stops
    | finished => exact held.netRequested rfl
  · intro _
    cases now with
    | request => rename_i shut; cases shut
    | close => exact Or.inr rfl
    | join index => exact Or.inl rfl
    | wait index => exact Or.inl rfl
    | finished => exact Or.inl rfl

theorem stop_held_second {life : Lifetime α} {phase : Phase} {now : StopState}
    (held : Held life phase (now.joined life.threads.length))
    (within : now.Within life.threads.length) :
    Held (life.stop now).1 phase ((life.stop now).2.joined life.threads.length) ∧
      (life.stop now).2.Within life.threads.length ∧
      (life.stop now).1.threads.length = life.threads.length := by
  obtain ⟨joins, still, length⟩ := held.joins.symm.stop within
  refine ⟨(stop_effect life now).held held length joins.symm held.within id ?_ Or.inl id, still,
    length⟩
  intro asked
  rcases (stop_effect life now).netStop with same | stops
  · exact same.trans (held.netRequested asked)
  · exact stops

/-! The steps between the calls. -/

theorem Held.asked {life : Lifetime α} {phase : Phase} {second : Nat}
    (held : Held life phase second) : Held { life with appStop := true } phase second :=
  { held with requested := fun _ => rfl }

theorem Held.reads {life : Lifetime α} {second : Nat} (held : Held life .before second) :
    Held life .requesting second :=
  { held with awake := fun last => Phase.noConfusion last }

theorem Held.request {life : Lifetime α} {second : Nat} (held : Held life .requesting second) :
    Held { life with appStop := true } (.stopping .request) second :=
  { held with requested := fun _ => rfl, awake := fun last => Phase.noConfusion last }

theorem Held.finish {life : Lifetime α} {second : Nat}
    (held : Held life (.stopping .finished) second) : Held life .forcing second :=
  { held with awake := fun last => Phase.noConfusion last }

theorem Held.force {life : Lifetime α} {second : Nat} (held : Held life .forcing second) :
    Held life.force .behind second :=
  { held with
    handsOver := held.handsOver.imp fun _ hands =>
      ⟨hands.order, hands.removes, hands.defined, fun _ _ => Or.inl rfl⟩
    awake := fun _ _ => Or.inl rfl }

/-! How far each part is from its end. -/

def netRank (threads : List NetThread) : Nat := (threads.map fun thread => thread.state.rank).sum

theorem netRank_modify {threads : List NetThread} {index : Nat} {thread : NetThread}
    (here : threads[index]? = some thread) (state : NetState) :
    netRank (threads.modify index fun before => { before with state := state }) +
      thread.state.rank = netRank threads + state.rank := by
  induction threads generalizing index with
  | nil => cases here
  | cons first rest ih =>
      cases index with
      | zero =>
          rw [List.getElem?_cons_zero, Option.some_inj] at here
          subst here
          simp only [netRank, List.modify_zero_cons, List.map_cons, List.sum_cons]
          omega
      | succ index =>
          have later := ih (by simpa using here)
          simp only [netRank] at later
          simp only [netRank, List.modify_succ_cons, List.map_cons, List.sum_cons]
          omega

/-- Once the network is to stop, any step of a thread that is neither suspended nor at its end
brings it closer. -/
theorem netThread_closer {life : Lifetime α} {phase : Phase} {second index : Nat}
    {thread : NetThread} (held : Held life phase second) (closed : phase.closed = true)
    (started : life.netSuspended = false) (here : life.threads[index]? = some thread)
    (live : thread.state ≠ .ended) (succeeds : Bool) (packet : Option α) :
    ∃ state, NetMoved life (life.netThread index succeeds packet) index thread state ∧
      netRank (life.netThread index succeeds packet).threads < netRank life.threads := by
  have stops := held.netRequested (Phase.netRequested_of_closed closed)
  rcases netThread_moved life here succeeds packet with ⟨-, ended | ⟨-, suspended⟩ | waits⟩ |
    ⟨state, moved, closer⟩
  · exact absurd ended live
  · exact absurd (started.symm.trans suspended) Bool.false_ne_true
  · obtain ⟨waits, accept, listens⟩ := waits
    have shut := held.released closed thread (List.mem_of_getElem? here) accept waits
    exact absurd (shut.symm.trans listens) Bool.false_ne_true
  · refine ⟨state, moved, ?_⟩
    have sum := netRank_modify here state
    have less := closer stops
    rw [moved.threads]
    change netRank (life.threads.modify index _) < _
    omega

def popRank : PopState → Nat
  | .idle => 5
  | .test false => 4
  | .wait => 3
  | .test true => 2
  | .remove => 1
  | .undefined => 0

theorem consume_closer {queue : RecvPacketQueue Nat α} {packets : List α}
    (hands : queue.HandsOver packets)
    (awake : Awake queue) : (queue.consume 0).consumer = .idle ∨
      popRank (queue.consume 0).consumer < popRank queue.consumer := by
  rw [RecvPacketQueue.consume]
  cases standing : queue.consumer with
  | idle => exact Or.inr (show popRank (.test false) < popRank .idle by decide)
  | test waited =>
      dsimp only
      split
      · cases waited with
        | true => exact Or.inl rfl
        | false => exact Or.inr (by simp [popRank])
      · refine Or.inr ?_
        cases waited with
        | true => exact (by decide : 1 < 2)
        | false => exact (by decide : 1 < 4)
  | remove =>
      dsimp only
      split
      · rename_i empty
        exact absurd empty (hands.removes standing)
      · exact Or.inl rfl
  | wait =>
      have signalled : queue.hQueueEvent = true := by
        rcases awake with signalled | testing | removing
        · exact signalled
        · exact PopState.noConfusion (standing.symm.trans testing)
        · exact PopState.noConfusion (standing.symm.trans removing)
      dsimp only
      rw [if_pos signalled]
      exact Or.inr (show popRank (.test true) < popRank .wait by decide)
  | undefined => exact absurd standing hands.defined

def StopState.rank (count : Nat) : StopState → Nat
  | .request => 2 * count + 4
  | .close => 2 * count + 3
  | .join index => 2 * (count - index) + 1
  | .wait index => 2 * (count - index)
  | .finished => 0

/-- A call of `Stop` ends the process or comes closer to its end, if the thread that it waits for
has ended. -/
theorem stop_closer {life : Lifetime α} {now : StopState} (going : now ≠ .finished)
    (within : now.Within life.threads.length)
    (ready : ∀ (index : Nat) (thread : NetThread), now = .wait index →
      life.threads[index]? = some thread → thread.state = .ended) :
    ((life.stop now).1.outcome = .terminated ∨ (life.stop now).1.outcome = .undefined) ∨
      (life.stop now).2.rank life.threads.length < now.rank life.threads.length := by
  cases now with
  | request => exact Or.inr (Nat.lt_succ_self _)
  | close => exact Or.inr (by simp only [stop, StopState.rank]; omega)
  | join index =>
      rw [stop]
      cases here : life.threads[index]? with
      | none => exact Or.inr (Nat.succ_pos _)
      | some thread =>
          dsimp only
          split
          · exact Or.inr (Nat.lt_succ_self _)
          · exact Or.inl (Or.inl rfl)
  | wait index =>
      rw [stop]
      cases here : life.threads[index]? with
      | none => exact absurd within (Nat.not_lt.mpr (List.getElem?_eq_none_iff.mp here))
      | some thread =>
          have ended := ready index thread rfl here
          have inside : index < life.threads.length := within
          dsimp only
          rw [if_pos ended]
          split
          · refine Or.inr ?_
            simp only [StopState.rank]
            omega
          · exact Or.inl (Or.inr rfl)
  | finished => exact absurd rfl going

def processRank (count : Nat) (process : ProcessState) (pop : PopState) : Nat :=
  match process with
  | .suspended => 2 * count + 20
  | .starting => 2 * count + 19
  | .popping => 2 * count + 7 + popRank pop
  | .looping => 2 * count + 6
  | .stopping stop => stop.rank count + 1
  | .ended => 0

/-- What is left of the process thread and of the threads of the network. -/
def rank (life : Lifetime α) : Nat :=
  processRank life.threads.length life.process life.recvPacketQueue.consumer + netRank life.threads

theorem processThread_closer {life : Lifetime α} {phase : Phase} {second : Nat}
    (held : Held life phase second) (started : life.appSuspended = false)
    (ready : life.process = .suspended ∨ life.process = .starting ∨ phase = .behind)
    {behind : ProcessState} (other : ∀ stop, life.process ≠ .stopping stop)
    (live : life.process ≠ .ended)
    (less : processRank life.threads.length behind .idle < 2 * life.threads.length + 6) :
    rank (Lifetime.processThread behind life) < rank life := by
  rw [Lifetime.processThread]
  cases standing : life.process with
  | suspended =>
      dsimp only
      rw [if_neg (started ▸ Bool.false_ne_true)]
      simp only [rank, processRank, standing]
      omega
  | starting =>
      simp only [rank, processRank, standing]
      omega
  | looping =>
      have last : phase = .behind := by simpa [standing] using ready
      have stops : life.appStop = true := held.requested (by rw [last]; rfl)
      have idle := held.idle (by simp [standing])
      simp only [rank, stops, standing, if_true, idle]
      have here : processRank life.threads.length .looping .idle =
          2 * life.threads.length + 6 := rfl
      omega
  | popping =>
      have last : phase = .behind := by simpa [standing] using ready
      obtain ⟨packets, hands⟩ := held.handsOver
      rcases consume_closer hands (held.awake last standing) with idle | closer
      · simp only [rank, idle, standing, if_true, processRank]
        omega
      · have within : processRank life.threads.length
            (if (life.recvPacketQueue.consume 0).consumer = .idle then .looping else .popping)
            (life.recvPacketQueue.consume 0).consumer ≤
              2 * life.threads.length + 7 + popRank (life.recvPacketQueue.consume 0).consumer := by
          split
          · simp only [processRank]
            omega
          · exact Nat.le_refl _
        simp only [rank, standing]
        simp only [processRank] at within ⊢
        omega
  | stopping stop => exact absurd standing (other stop)
  | ended => exact absurd standing live

/-! What the steps leave as it is. -/

structure Untouched (life next : Lifetime α) : Prop where
  length : next.threads.length = life.threads.length
  appSuspended : next.appSuspended = life.appSuspended
  appStop : next.appStop = life.appStop
  process : next.process = life.process
  other : next.other = life.other
  main : next.main = life.main
  outcome : next.outcome = life.outcome

theorem Untouched.refl (life : Lifetime α) : Untouched life life :=
  ⟨rfl, rfl, rfl, rfl, rfl, rfl, rfl⟩

theorem NetMoved.untouched {life next : Lifetime α} {index : Nat} {thread : NetThread}
    {state : NetState} (moved : NetMoved life next index thread state) : Untouched life next := by
  have same {β : Type} (field : Lifetime α → β) := congrArg field moved.rest
  exact ⟨by rw [moved.threads, length_setState], same Lifetime.appSuspended,
    same Lifetime.appStop, same Lifetime.process, same Lifetime.other, same Lifetime.main,
    same Lifetime.outcome⟩

theorem netThread_untouched (life : Lifetime α) (index : Nat) (succeeds : Bool)
    (packet : Option α) : Untouched life (life.netThread index succeeds packet) := by
  cases here : life.threads[index]? with
  | none =>
      unfold netThread
      rw [here]
      exact .refl life
  | some thread =>
      rcases netThread_moved life here succeeds packet with ⟨same, -⟩ | ⟨state, moved, -⟩
      · rw [same]
        exact .refl life
      · exact moved.untouched

structure ProcessMoved (behind : ProcessState) (life next : Lifetime α) : Prop where
  threads : next.threads = life.threads
  appSuspended : next.appSuspended = life.appSuspended
  appStop : next.appStop = life.appStop
  other : next.other = life.other
  main : next.main = life.main
  outcome : next.outcome = life.outcome
  process : next.process = life.process ∨ next.process = behind ∧ life.process = .looping ∨
    next.process = .starting ∨ next.process = .looping ∨ next.process = .popping
  ended : life.process = .ended → next.process = .ended

theorem processThread_moved (behind : ProcessState) {life : Lifetime α}
    (outside : ∀ stop, life.process ≠ .stopping stop) :
    ProcessMoved behind life (Lifetime.processThread behind life) := by
  rw [Lifetime.processThread]
  cases standing : life.process with
  | suspended =>
      dsimp only
      split
      · exact ⟨rfl, rfl, rfl, rfl, rfl, rfl, Or.inl rfl, id⟩
      · exact ⟨rfl, rfl, rfl, rfl, rfl, rfl, Or.inr (Or.inr (Or.inl rfl)),
          fun ended => ProcessState.noConfusion (standing.symm.trans ended)⟩
  | starting =>
      exact ⟨rfl, rfl, rfl, rfl, rfl, rfl, Or.inr (Or.inr (Or.inr (Or.inl rfl))),
        fun ended => ProcessState.noConfusion (standing.symm.trans ended)⟩
  | looping =>
      refine ⟨rfl, rfl, rfl, rfl, rfl, rfl, ?_,
        fun ended => ProcessState.noConfusion (standing.symm.trans ended)⟩
      dsimp only
      split
      · exact Or.inr (Or.inl ⟨rfl, standing⟩)
      · exact Or.inr (Or.inr (Or.inr (Or.inr rfl)))
  | popping =>
      refine ⟨rfl, rfl, rfl, rfl, rfl, rfl, ?_,
        fun ended => ProcessState.noConfusion (standing.symm.trans ended)⟩
      dsimp only
      split
      · exact Or.inr (Or.inr (Or.inr (Or.inl rfl)))
      · exact Or.inr (Or.inr (Or.inr (Or.inr rfl)))
  | stopping stop => exact absurd standing (outside stop)
  | ended => exact ⟨rfl, rfl, rfl, rfl, rfl, rfl, Or.inl rfl, id⟩

theorem processThread_stopping (behind : ProcessState) {life : Lifetime α} {now : StopState}
    (stops : life.process = .stopping now) (going : now ≠ .finished) :
    Lifetime.processThread behind life =
      { (life.stop now).1 with process := .stopping (life.stop now).2 } := by
  rw [Lifetime.processThread, stops]
  cases now with
  | finished => exact absurd rfl going
  | request => rfl
  | close => rfl
  | join index => rfl
  | wait index => rfl

theorem processThread_main (behind : ProcessState) (life : Lifetime α) :
    (Lifetime.processThread behind life).main = life.main := by
  by_cases outside : ∀ stop, life.process ≠ .stopping stop
  · exact (processThread_moved behind outside).main
  · push Not at outside
    obtain ⟨now, stops⟩ := outside
    by_cases last : now = .finished
    · subst last
      rw [Lifetime.processThread, stops]
    · have same {β : Type} (field : Lifetime α → β) := congrArg field (stop_effect life now).rest
      have main : (life.stop now).1.main = life.main := same Lifetime.main
      rw [processThread_stopping behind stops last]
      exact main

/-- A step of a thread of the network that comes closer to its end brings everything closer. -/
theorem NetMoved.rank_lt {life next : Lifetime α} {index : Nat} {thread : NetThread}
    {state : NetState} (moved : NetMoved life next index thread state)
    (closer : netRank next.threads < netRank life.threads) : rank next < rank life := by
  have consumer : next.recvPacketQueue.consumer = life.recvPacketQueue.consumer := by
    rcases moved.queue with same | set | ⟨packet, pushed⟩
    · rw [same]
    · rw [set, (setEvent_consumer _ _).1]
    · rw [pushed, (push_consumer _ _ _).1]
  rw [rank, rank, moved.untouched.length, moved.untouched.process, consumer]
  omega

theorem StopEffect.netRank_eq {life next : Lifetime α} (effect : StopEffect life next)
    (length : next.threads.length = life.threads.length) :
    netRank next.threads = netRank life.threads := by
  have states : next.threads.map (fun thread => thread.state.rank) =
      life.threads.map fun thread => thread.state.rank := by
    refine List.ext_getElem (by simp [length]) fun index inside _ => ?_
    rw [List.length_map] at inside
    obtain ⟨before, there, -, state⟩ :=
      effect.threads index _ (List.getElem?_eq_getElem inside)
    rw [List.getElem_map, List.getElem_map, state]
    rw [(List.getElem?_eq_some_iff.mp there).2]
  rw [netRank, states, netRank]

theorem StopEffect.rank_eq {life next : Lifetime α} (effect : StopEffect life next)
    (length : next.threads.length = life.threads.length) : rank next = rank life := by
  have same {β : Type} (field : Lifetime α → β) := congrArg field effect.rest
  have process : next.process = life.process := same Lifetime.process
  have queue : next.recvPacketQueue = life.recvPacketQueue := same Lifetime.recvPacketQueue
  rw [rank, rank, length, process, queue, effect.netRank_eq length]

/-- The process thread has left its loop, for another state outside of it. -/
theorem Held.leaves {life : Lifetime α} {phase : Phase} {second : Nat}
    (held : Held life phase second) {now next : ProcessState} (here : life.process = now)
    (outside : now ≠ .suspended ∧ now ≠ .starting ∧ now ≠ .popping) (still : next ≠ .popping) :
    Held { life with process := next } phase second :=
  { held with
    netStarted := fun _ _ => held.netStarted (here ▸ outside.1) (here ▸ outside.2.1)
    idle := fun _ => held.idle (here ▸ outside.2.2)
    awake := fun _ popping => absurd popping still }

/-- The first call cannot be kept waiting: either its next step does something, or the process
thread has still to start the network, or the thread that it waits for can be brought to its
end. -/
theorem Held.stopping_cases {life : Lifetime α} {now : StopState} {second : Nat}
    (held : Held life (.stopping now) second) :
    (∀ (index : Nat) (thread : NetThread), now = .wait index →
      life.threads[index]? = some thread → thread.state = .ended) ∨
    (life.process = .suspended ∨ life.process = .starting) ∨
    ∃ (index : Nat) (thread : NetThread), now = .wait index ∧
      life.threads[index]? = some thread ∧ thread.state ≠ .ended ∧ life.netSuspended = false := by
  by_cases ready : ∀ (index : Nat) (thread : NetThread), now = .wait index →
      life.threads[index]? = some thread → thread.state = .ended
  · exact Or.inl ready
  · push Not at ready
    obtain ⟨index, thread, waits, here, live⟩ := ready
    by_cases suspended : life.process = .suspended
    · exact Or.inr (Or.inl (Or.inl suspended))
    by_cases starting : life.process = .starting
    · exact Or.inr (Or.inl (Or.inr starting))
    exact Or.inr (Or.inr ⟨index, thread, waits, here, live, held.netStarted suspended starting⟩)

theorem Joins.ended_of_all {threads : List NetThread} {one two : Nat}
    (joins : Joins threads one two) (all : one = threads.length) {index : Nat} {thread : NetThread}
    (here : threads[index]? = some thread) : thread.state = .ended := by
  have inside := (List.getElem?_eq_some_iff.mp here).1
  refine joins.ended thread (List.mem_of_getElem? here) ((joins.joinable index thread here).mpr ?_)
  omega

end Lifetime

end ProjectPl
