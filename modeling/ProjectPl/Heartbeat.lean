import ProjectPl.Lib.Run

/-!
The heartbeat of a server `UserSession`: `UserSession::DoUpdate` and `C2S_Heartbeat` of
`svr/user_session.cpp`. A round increments `_nHeartbeatCount`, an answer of the client
decrements it, and a round that finds it above four gives the connection up. The count is an
`unsigned int` whose results are looked at as `int`, and the decrement has no floor.

`log` is a record that no step reads: what each event of the run did.
-/

namespace ProjectPl

def milliSecASec : Int64 := 1000

inductive HeartbeatMoment
  | idle
  | setReleaseObj
  | round (tryRelease : Bool)
  | heartbeat
  deriving DecidableEq, Repr

structure HeartbeatSession where
  biHeartbeatTimer : Int64 := 0
  nHeartbeatCount : Nat := 0
  biUpdateTime : Int64 := 0
  log : List HeartbeatMoment := []

namespace HeartbeatSession

def asInt (word : Nat) : Int := if word < 0x80000000 then word else word - 0x100000000

def getHeartbeat (session : HeartbeatSession) : Int := asInt session.nHeartbeatCount

def interlockedIncrement (word : Nat) : Nat := if word = 0xFFFFFFFF then 0 else word + 1

def interlockedDecrement (word : Nat) : Nat := if word = 0 then 0xFFFFFFFF else word - 1

def incHeartbeat (session : HeartbeatSession) : HeartbeatSession :=
  { session with nHeartbeatCount := interlockedIncrement session.nHeartbeatCount }

def decHeartbeat (session : HeartbeatSession) : HeartbeatSession :=
  { session with nHeartbeatCount := interlockedDecrement session.nHeartbeatCount }

/-! What `DoUpdate` finds behind `_pConnector`: nothing, or the answers of the two calls of
`GetActive`, between which a network thread may close the socket. -/

structure ConnectorView where
  active : Bool
  stillActive : Bool
  deriving DecidableEq, Repr

def heartbeatRound (session : HeartbeatSession) (now : Int64) :
    HeartbeatSession × HeartbeatMoment :=
  let asked := { session with biHeartbeatTimer := now + milliSecASec * 15 }.incHeartbeat
  if 4 < asked.getHeartbeat then
    ({ asked with biHeartbeatTimer := Int64.maxValue }, .round true)
  else (asked, .round false)

def doUpdate (session : HeartbeatSession) (now : Int64) (connector : Option ConnectorView) :
    HeartbeatSession × HeartbeatMoment :=
  if session.biUpdateTime < now then
    let due := { session with biUpdateTime := now + milliSecASec * 5 }
    let listed := ({ session with biUpdateTime := Int64.maxValue }, HeartbeatMoment.setReleaseObj)
    match connector with
    | none => listed
    | some view =>
        if view.active = false then listed
        else if due.biHeartbeatTimer < now ∧ view.stillActive then due.heartbeatRound now
        else (due, .idle)
  else (session, .idle)

inductive Event
  | doUpdate (now : Int64) (connector : Option ConnectorView)
  | heartbeat

def step (session : HeartbeatSession) : Event → HeartbeatSession
  | .doUpdate now connector =>
      let updated := session.doUpdate now connector
      { updated.1 with log := session.log ++ [updated.2] }
  | .heartbeat => { session.decHeartbeat with log := session.log ++ [.heartbeat] }

/-! The drop rule. `Kept` says that the last five rounds, or more, passed without a heartbeat
between them and that `TryRelease` was not called so far. -/

def isRound : HeartbeatMoment → Bool
  | .round _ => true
  | _ => false

def Kept (log : List HeartbeatMoment) : Prop :=
  ∃ rounds, rounds <:+ log ∧ 5 ≤ rounds.countP isRound ∧ .heartbeat ∉ rounds ∧ .round true ∉ log

/-- No silent client is kept, and the count is not below zero. -/
def Dropped (session : HeartbeatSession) : Prop :=
  ¬Kept session.log ∧ 0 ≤ session.getHeartbeat

/-- A heartbeat packet answers a round: there is one to answer. -/
def Answers (session : HeartbeatSession) : Event → Prop
  | .doUpdate _ _ => True
  | .heartbeat => session.nHeartbeatCount ≠ 0

/-! While the connection is not given up, the count is at least the number of rounds since the
last heartbeat. A round that gives up also stops the timer for good. -/

structure Counts (session : HeartbeatSession) : Prop where
  bounded : session.nHeartbeatCount ≤ 5
  rounds : .round true ∉ session.log → session.nHeartbeatCount ≤ 4 ∧
    ∀ rounds, rounds <:+ session.log → .heartbeat ∉ rounds →
      rounds.countP isRound ≤ session.nHeartbeatCount
  stopped : .round true ∈ session.log → session.biHeartbeatTimer = Int64.maxValue

theorem not_maxValue_lt (now : Int64) : ¬Int64.maxValue < now :=
  Int64.not_lt.mpr (Int64.le_iff_toInt_le.mpr now.toInt_le)

theorem asInt_of_small {word : Nat} (small : word ≤ 6) : asInt word = word :=
  if_pos (by omega)

theorem interlockedIncrement_of_small {word : Nat} (small : word ≤ 5) :
    interlockedIncrement word = word + 1 :=
  if_neg (by omega)

theorem initial_counts : ({} : HeartbeatSession).Counts := by
  refine ⟨Nat.zero_le 5, ?_, nofun⟩
  intro _
  refine ⟨Nat.zero_le 4, ?_⟩
  intro rounds ending _
  rw [List.suffix_nil.mp ending]
  exact Nat.le_refl 0

theorem Counts.dropped {session : HeartbeatSession} (counts : session.Counts) :
    session.Dropped := by
  constructor
  · rintro ⟨rounds, ending, five, quiet, kept⟩
    obtain ⟨low, covers⟩ := counts.rounds kept
    have covered := covers rounds ending quiet
    omega
  · have small : session.nHeartbeatCount ≤ 6 := by
      have bounded := counts.bounded
      omega
    rw [getHeartbeat, asInt_of_small small]
    omega

/-- What one `DoUpdate` can do to count and timer. -/
theorem doUpdate_cases (session : HeartbeatSession) (now : Int64)
    (connector : Option ConnectorView) :
    let updated := session.doUpdate now connector
    (isRound updated.2 = false ∧ updated.1.nHeartbeatCount = session.nHeartbeatCount ∧
        updated.1.biHeartbeatTimer = session.biHeartbeatTimer) ∨
      (session.biHeartbeatTimer < now ∧
        updated.1.nHeartbeatCount = interlockedIncrement session.nHeartbeatCount ∧
        ((4 < asInt updated.1.nHeartbeatCount ∧ updated.2 = .round true ∧
            updated.1.biHeartbeatTimer = Int64.maxValue) ∨
          (¬4 < asInt updated.1.nHeartbeatCount ∧ updated.2 = .round false))) := by
  unfold doUpdate
  dsimp only
  split
  · cases connector with
    | none => exact Or.inl ⟨rfl, rfl, rfl⟩
    | some view =>
        dsimp only
        split
        · exact Or.inl ⟨rfl, rfl, rfl⟩
        · split
          · rename_i due
            refine Or.inr ⟨due.1, ?_⟩
            unfold heartbeatRound
            dsimp only
            split
            · rename_i exceeded
              exact ⟨rfl, Or.inl ⟨exceeded, rfl, rfl⟩⟩
            · rename_i within
              exact ⟨rfl, Or.inr ⟨within, rfl⟩⟩
          · exact Or.inl ⟨rfl, rfl, rfl⟩
  · exact Or.inl ⟨rfl, rfl, rfl⟩

/-- The ends of a log with one more moment. -/
theorem ending_cases {rounds log : List HeartbeatMoment} {moment : HeartbeatMoment}
    (ending : rounds <:+ log ++ [moment]) :
    rounds = [] ∨ ∃ earlier, rounds = earlier ++ [moment] ∧ earlier <:+ log := by
  rcases List.suffix_concat_iff.mp ending with empty | ⟨earlier, split, before⟩
  · exact Or.inl empty
  · exact Or.inr ⟨earlier, split, before⟩

theorem quiet_counts {session next : HeartbeatSession} {moment : HeartbeatMoment}
    (counts : session.Counts) (noRound : isRound moment = false)
    (logged : next.log = session.log ++ [moment])
    (count : next.nHeartbeatCount = session.nHeartbeatCount)
    (timer : next.biHeartbeatTimer = session.biHeartbeatTimer) : next.Counts := by
  have same : .round true ∈ next.log ↔ .round true ∈ session.log := by
    rw [logged, List.mem_append, List.mem_singleton]
    refine ⟨?_, Or.inl⟩
    rintro (old | rfl)
    · exact old
    · exact absurd noRound (by decide)
  refine ⟨by rw [count]; exact counts.bounded, ?_, ?_⟩
  · intro kept
    obtain ⟨low, covers⟩ := counts.rounds (fun old => kept (same.mpr old))
    rw [count]
    refine ⟨low, ?_⟩
    intro rounds ending quiet
    rw [logged] at ending
    rcases ending_cases ending with rfl | ⟨earlier, rfl, before⟩
    · exact Nat.zero_le _
    · rw [List.countP_append, List.countP_singleton, noRound]
      exact covers earlier before (fun member => quiet (List.mem_append_left _ member))
  · intro released
    rw [timer]
    exact counts.stopped (same.mp released)

theorem round_counts {session next : HeartbeatSession} {released : Bool} {now : Int64}
    (counts : session.Counts) (due : session.biHeartbeatTimer < now)
    (logged : next.log = session.log ++ [.round released])
    (count : next.nHeartbeatCount = session.nHeartbeatCount + 1)
    (exceeded : released = true → next.biHeartbeatTimer = Int64.maxValue)
    (within : released = false → next.nHeartbeatCount ≤ 4) : next.Counts := by
  have notYet : .round true ∉ session.log := by
    intro earlier
    rw [counts.stopped earlier] at due
    exact not_maxValue_lt now due
  obtain ⟨low, covers⟩ := counts.rounds notYet
  refine ⟨by omega, ?_, ?_⟩
  · intro kept
    have small : next.nHeartbeatCount ≤ 4 := by
      cases released with
      | false => exact within rfl
      | true => exact absurd (by rw [logged]; simp) kept
    refine ⟨small, ?_⟩
    intro rounds ending quiet
    rw [logged] at ending
    rcases ending_cases ending with rfl | ⟨earlier, rfl, before⟩
    · exact Nat.zero_le _
    · have covered := covers earlier before (fun member => quiet (List.mem_append_left _ member))
      rw [List.countP_append, List.countP_singleton, count]
      simp only [isRound, ↓reduceIte]
      omega
  · intro released
    rw [logged, List.mem_append, List.mem_singleton] at released
    rcases released with earlier | here
    · exact absurd earlier notYet
    · exact exceeded (by simpa using here.symm)

theorem doUpdate_counts {session : HeartbeatSession} (counts : session.Counts) (now : Int64)
    (connector : Option ConnectorView) : (session.step (.doUpdate now connector)).Counts := by
  have bounded := counts.bounded
  rcases session.doUpdate_cases now connector with
    ⟨noRound, count, timer⟩ | ⟨due, count, round⟩
  · exact quiet_counts counts noRound rfl count timer
  · rw [interlockedIncrement_of_small bounded] at count
    rw [count, asInt_of_small (by omega)] at round
    rcases round with ⟨-, moment, stopped⟩ | ⟨within, moment⟩
    · refine round_counts counts due (congrArg (session.log ++ [·]) moment) count ?_ nofun
      exact fun _ => stopped
    · refine round_counts counts due (congrArg (session.log ++ [·]) moment) count nofun ?_
      intro _
      rw [step]
      dsimp only
      omega

theorem heartbeat_counts {session : HeartbeatSession} (counts : session.Counts)
    (answers : session.nHeartbeatCount ≠ 0) : (session.step .heartbeat).Counts := by
  have bounded := counts.bounded
  have count : (session.step .heartbeat).nHeartbeatCount = session.nHeartbeatCount - 1 :=
    if_neg answers
  have logged : (session.step .heartbeat).log = session.log ++ [.heartbeat] := rfl
  refine ⟨by omega, ?_, ?_⟩
  · intro kept
    rw [logged, List.mem_append, not_or] at kept
    obtain ⟨low, -⟩ := counts.rounds kept.1
    refine ⟨by omega, ?_⟩
    intro rounds ending quiet
    rw [logged] at ending
    rcases ending_cases ending with rfl | ⟨earlier, rfl, -⟩
    · exact Nat.zero_le _
    · exact absurd (List.mem_append_right _ (List.mem_singleton_self _)) quiet
  · intro released
    rw [logged, List.mem_append, List.mem_singleton] at released
    rcases released with earlier | here
    · exact counts.stopped earlier
    · cases here

theorem step_counts (session : HeartbeatSession) (event : Event) (counts : session.Counts)
    (answers : session.Answers event) : (session.step event).Counts := by
  cases event with
  | doUpdate now connector => exact doUpdate_counts counts now connector
  | heartbeat => exact heartbeat_counts counts answers

theorem unanswered_not_dropped (session : HeartbeatSession) (event : Event)
    (_counts : session.Counts) (unsolicited : ¬session.Answers event) :
    ¬(session.step event).Dropped := by
  cases event with
  | doUpdate now connector => exact absurd trivial unsolicited
  | heartbeat =>
      have zero : session.nHeartbeatCount = 0 := not_not.mp unsolicited
      have wrapped : (session.step .heartbeat).getHeartbeat = -1 := by
        simp only [step, getHeartbeat, decHeartbeat, zero]
        decide
      rintro ⟨-, nonneg⟩
      omega

/-- In every run of updates and heartbeat packets, silent clients are dropped and the count
stays at or above zero exactly when every heartbeat packet finds a round to answer. -/
theorem silent_clients_dropped_iff (events : List Event) :
    (∀ before after, events = before ++ after → (before.foldl step {}).Dropped) ↔
      Run.Along step Answers {} events :=
  Run.always_iff_along step_counts (fun _ => Counts.dropped) unanswered_not_dropped
    initial_counts events

def activeUpdate (now : Int64) : Event :=
  .doUpdate now (some { active := true, stillActive := true })

def unsolicitedRun : List Event :=
  [.heartbeat, activeUpdate 1, activeUpdate 16000, activeUpdate 32000, activeUpdate 48000,
    activeUpdate 64000]

/-- One unsolicited heartbeat, then silence: the fifth round still keeps the connection, with
the count back at four. -/
theorem unsolicited_heartbeat_keeps :
    ¬∀ events before after : List Event, events = before ++ after →
      (before.foldl step {}).Dropped := by
  intro always
  have dropped := (always unsolicitedRun unsolicitedRun [] (List.append_nil _).symm).1
  have logged : (unsolicitedRun.foldl step {}).log =
      .heartbeat :: List.replicate 5 (.round false) := by
    decide +kernel
  rw [logged] at dropped
  exact dropped ⟨_, List.suffix_cons _ _, by decide, by decide, by decide⟩

end HeartbeatSession

end ProjectPl
