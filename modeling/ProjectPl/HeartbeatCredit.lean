import ProjectPl.Heartbeat

/-!
When a connection is given up, for heartbeat packets of any kind. The count has no floor, so a
packet in advance is credited: what counts is the balance of rounds and packets, not the silence.
-/

namespace ProjectPl

/-- What a moment adds to the answers that are owed. -/
def HeartbeatMoment.weight : HeartbeatMoment → Int
  | .idle => 0
  | .setReleaseObj => 0
  | .round _ => 1
  | .heartbeat => -1

namespace HeartbeatSession

def owed (log : List HeartbeatMoment) : Int := (log.map HeartbeatMoment.weight).sum

theorem owed_concat (log : List HeartbeatMoment) (moment : HeartbeatMoment) :
    owed (log ++ [moment]) = owed log + moment.weight := by
  simp [owed]

theorem owed_le_length (log : List HeartbeatMoment) : |owed log| ≤ log.length := by
  induction log with
  | nil => exact Int.le_refl 0
  | cons moment rest ih =>
      have small : |moment.weight| ≤ 1 := by
        cases moment with
        | idle => exact Int.zero_le_ofNat 1
        | setReleaseObj => exact Int.zero_le_ofNat 1
        | round released => exact Int.le_refl 1
        | heartbeat => exact Int.le_refl 1
      calc |owed (moment :: rest)| = |moment.weight + owed rest| := by simp [owed]
        _ ≤ |moment.weight| + |owed rest| := abs_add_le _ _
        _ ≤ 1 + rest.length := Int.add_le_add small ih
        _ = (moment :: rest).length := by simp [Int.add_comm]

theorem doUpdate_ne_heartbeat (session : HeartbeatSession) (now : Int64)
    (connector : Option ConnectorView) : (session.doUpdate now connector).2 ≠ .heartbeat := by
  unfold doUpdate
  split
  · cases connector with
    | none => exact HeartbeatMoment.noConfusion
    | some view =>
        dsimp only
        split
        · exact HeartbeatMoment.noConfusion
        · split
          · unfold heartbeatRound
            dsimp only
            split
            · exact HeartbeatMoment.noConfusion
            · exact HeartbeatMoment.noConfusion
          · exact HeartbeatMoment.noConfusion
  · exact HeartbeatMoment.noConfusion

/-! The counter as the balance of its two calls, away from the ends of `int`. -/

theorem asInt_interlockedIncrement {word : Nat} (fits : word < 2 ^ 32)
    (room : asInt word < 2 ^ 31 - 1) :
    asInt (interlockedIncrement word) = asInt word + 1 ∧ interlockedIncrement word < 2 ^ 32 := by
  unfold asInt interlockedIncrement at *
  split_ifs at * <;> omega

theorem asInt_interlockedDecrement {word : Nat} (fits : word < 2 ^ 32)
    (room : -2 ^ 31 < asInt word) :
    asInt (interlockedDecrement word) = asInt word - 1 ∧ interlockedDecrement word < 2 ^ 32 := by
  unfold asInt interlockedDecrement at *
  split_ifs at * <;> omega

/-- In a run that is not too long the count is what is owed, and it has been five if and only if the
connection has been given up. -/
structure Owes (session : HeartbeatSession) : Prop where
  fits : session.nHeartbeatCount < 2 ^ 32
  count : session.getHeartbeat = owed session.log
  givenUp : .round true ∈ session.log ↔ ∃ first, first <+: session.log ∧ 5 ≤ owed first

theorem initial_owes : ({} : HeartbeatSession).Owes := by
  refine ⟨Nat.two_pow_pos 32, rfl, iff_of_false List.not_mem_nil ?_⟩
  rintro ⟨first, empty, five⟩
  rw [List.prefix_nil.mp empty] at five
  exact absurd five (by decide)

theorem Owes.quiet {session next : HeartbeatSession} {moment : HeartbeatMoment}
    (owes : session.Owes) (logged : next.log = session.log ++ [moment])
    (noRound : isRound moment = false) (fits : next.nHeartbeatCount < 2 ^ 32)
    (count : next.getHeartbeat = session.getHeartbeat + moment.weight) : next.Owes := by
  have lower : moment.weight ≤ 0 := by
    cases moment with
    | idle => exact Int.le_refl 0
    | setReleaseObj => exact Int.le_refl 0
    | round released => cases noRound
    | heartbeat => decide
  refine ⟨fits, ?_, ?_⟩
  · rw [logged, owed_concat, count, owes.count]
  · have same : .round true ∈ next.log ↔ .round true ∈ session.log := by
      rw [logged, List.mem_append, List.mem_singleton]
      refine ⟨?_, Or.inl⟩
      rintro (old | rfl)
      · exact old
      · cases noRound
    rw [same, owes.givenUp, logged]
    constructor
    · rintro ⟨first, before, five⟩
      exact ⟨first, before.trans (List.prefix_append _ _), five⟩
    · rintro ⟨first, before, five⟩
      rcases List.prefix_concat_iff.mp before with rfl | earlier
      · -- the whole log owes no more than the log before it
        refine ⟨session.log, List.prefix_refl _, ?_⟩
        rw [owed_concat] at five
        omega
      · exact ⟨first, earlier, five⟩

theorem Owes.round {session next : HeartbeatSession} {released : Bool} (owes : session.Owes)
    (logged : next.log = session.log ++ [.round released]) (fits : next.nHeartbeatCount < 2 ^ 32)
    (count : next.getHeartbeat = session.getHeartbeat + 1)
    (decided : released = true ↔ 4 < next.getHeartbeat) : next.Owes := by
  have total : next.getHeartbeat = owed next.log := by
    rw [logged, owed_concat, count, owes.count]
    rfl
  refine ⟨fits, total, ?_⟩
  have now : released = true ↔ 5 ≤ owed next.log := by
    rw [decided, total]
    exact Int.lt_iff_add_one_le
  rw [logged, List.mem_append, List.mem_singleton, owes.givenUp]
  constructor
  · rintro (⟨first, before, five⟩ | here)
    · exact ⟨first, before.trans (List.prefix_append _ _), five⟩
    · refine ⟨_, List.prefix_refl _, logged ▸ now.mp ?_⟩
      exact (HeartbeatMoment.round.inj here).symm
  · rintro ⟨first, before, five⟩
    rcases List.prefix_concat_iff.mp before with rfl | earlier
    · have gives : released = true := now.mpr (logged ▸ five)
      exact Or.inr (gives ▸ rfl)
    · exact Or.inl ⟨first, earlier, five⟩

theorem step_owes {session : HeartbeatSession} (owes : session.Owes)
    (short : session.log.length < 2 ^ 31 - 1) (event : Event) : (session.step event).Owes := by
  have bounds := abs_le.mp ((owed_le_length session.log).trans (Int.ofNat_le.mpr (by omega :
    session.log.length ≤ 2 ^ 31 - 2)))
  rw [← owes.count] at bounds
  have above : asInt session.nHeartbeatCount < 2 ^ 31 - 1 := by
    have high := bounds.2
    rw [getHeartbeat] at high
    omega
  have below : -2 ^ 31 < asInt session.nHeartbeatCount := by
    have low := bounds.1
    rw [getHeartbeat] at low
    omega
  cases event with
  | doUpdate now connector =>
      rcases session.doUpdate_cases now connector with ⟨noRound, same, -⟩ | ⟨-, raised, round⟩
      · refine owes.quiet rfl noRound (lt_of_eq_of_lt same owes.fits) ?_
        have still : (session.step (.doUpdate now connector)).getHeartbeat =
            session.getHeartbeat := congrArg asInt same
        rw [still]
        cases moment : (session.doUpdate now connector).2 with
        | idle => exact (Int.add_zero _).symm
        | setReleaseObj => exact (Int.add_zero _).symm
        | round released => exact absurd (moment ▸ noRound) (by simp [isRound])
        | heartbeat => exact absurd moment (doUpdate_ne_heartbeat session now connector)
      · obtain ⟨count, fits⟩ := asInt_interlockedIncrement owes.fits above
        have next : (session.step (.doUpdate now connector)).getHeartbeat =
            session.getHeartbeat + 1 := (congrArg asInt raised).trans count
        have small : (session.step (.doUpdate now connector)).nHeartbeatCount < 2 ^ 32 :=
          lt_of_eq_of_lt raised fits
        rcases round with ⟨exceeded, moment, -⟩ | ⟨within, moment⟩
        · exact owes.round (congrArg (session.log ++ [·]) moment) small next
            (iff_of_true rfl exceeded)
        · exact owes.round (congrArg (session.log ++ [·]) moment) small next
            (iff_of_false Bool.false_ne_true within)
  | heartbeat =>
      obtain ⟨count, fits⟩ := asInt_interlockedDecrement owes.fits below
      exact owes.quiet rfl rfl fits count

/-! Nothing is asked of a client that has been given up: the timer stands at its end. -/

structure Rests (session : HeartbeatSession) : Prop where
  timer : .round true ∈ session.log → session.biHeartbeatTimer = Int64.maxValue
  last : ∀ before after, session.log = before ++ .round true :: after →
    ∀ moment ∈ after, isRound moment = false

theorem initial_rests : ({} : HeartbeatSession).Rests :=
  ⟨fun listed => absurd listed List.not_mem_nil,
    fun before after split => absurd split.symm (by simp)⟩

theorem Rests.concat {session next : HeartbeatSession} {moment : HeartbeatMoment}
    (rests : session.Rests) (logged : next.log = session.log ++ [moment])
    (quiet : .round true ∈ session.log → isRound moment = false)
    (timer : .round true ∈ next.log → next.biHeartbeatTimer = Int64.maxValue) : next.Rests := by
  refine ⟨timer, fun before after split => ?_⟩
  rw [logged] at split
  rcases List.eq_nil_or_concat after with rfl | ⟨between, final, rfl⟩
  · exact fun _ listed => absurd listed List.not_mem_nil
  · rw [List.concat_eq_append, ← List.cons_append, ← List.append_assoc] at split
    obtain ⟨earlier, same⟩ := List.append_inj' split rfl
    obtain rfl : moment = final := (List.cons.inj same).1
    intro other listed
    rw [List.concat_eq_append, List.mem_append, List.mem_singleton] at listed
    rcases listed with old | rfl
    · exact rests.last before between earlier other old
    · exact quiet (earlier ▸ List.mem_append_right _ List.mem_cons_self)

theorem step_rests {session : HeartbeatSession} (rests : session.Rests) (event : Event) :
    (session.step event).Rests := by
  cases event with
  | doUpdate now connector =>
      rcases session.doUpdate_cases now connector with ⟨noRound, -, same⟩ | ⟨due, -, round⟩
      · refine rests.concat rfl (fun _ => noRound) fun listed => same.trans (rests.timer ?_)
        rcases List.mem_append.mp listed with old | here
        · exact old
        · rw [← List.mem_singleton.mp here] at noRound
          cases noRound
      · have notYet : .round true ∉ session.log := fun listed =>
          not_maxValue_lt now (rests.timer listed ▸ due)
        refine rests.concat rfl (fun listed => absurd listed notYet) fun listed => ?_
        rcases round with ⟨-, -, stopped⟩ | ⟨-, moment⟩
        · exact stopped
        · rcases List.mem_append.mp listed with old | here
          · exact absurd old notYet
          · exact absurd ((List.mem_singleton.mp here).trans moment) (by decide)
  | heartbeat =>
      refine rests.concat rfl (fun _ => rfl) fun listed => rests.timer ?_
      rcases List.mem_append.mp listed with old | here
      · exact old
      · exact absurd (List.mem_singleton.mp here) HeartbeatMoment.noConfusion

theorem run_owes (events : List Event) (short : events.length < 2 ^ 31) :
    (events.foldl step {}).Owes ∧ (events.foldl step {}).log.length = events.length := by
  induction events using List.reverseRecOn with
  | nil => exact ⟨initial_owes, rfl⟩
  | append_singleton earlier event ih =>
      rw [List.length_append, List.length_singleton] at short
      obtain ⟨owes, length⟩ := ih (by omega)
      rw [List.foldl_append, List.foldl_cons, List.foldl_nil]
      refine ⟨step_owes owes (by omega) event, ?_⟩
      have logged : ∃ moment, ((earlier.foldl step {}).step event).log =
          (earlier.foldl step {}).log ++ [moment] := by
        cases event with
        | doUpdate now connector => exact ⟨_, rfl⟩
        | heartbeat => exact ⟨_, rfl⟩
      obtain ⟨moment, logged⟩ := logged
      rw [logged, List.length_append, List.length_append, length]
      rfl

/-- For any updates and heartbeat packets, a connection is given up as soon as five rounds more
than packets have been counted and for no other reason, and nothing is asked after that. -/
theorem given_up_iff (events : List Event) (short : events.length < 2 ^ 31) :
    (.round true ∈ (events.foldl step {}).log ↔
      ∃ first, first <+: (events.foldl step {}).log ∧ 5 ≤ owed first) ∧
    ∀ before after, (events.foldl step {}).log = before ++ .round true :: after →
      ∀ moment ∈ after, isRound moment = false := by
  refine ⟨(run_owes events short).1.givenUp, ?_⟩
  have rests : (events.foldl step {}).Rests :=
    List.foldlRecOn events step initial_rests fun _ rests event _ => step_rests rests event
  exact rests.last

theorem given_up_iff_unsolicited :
    (.round true ∈ (unsolicitedRun.foldl step {}).log ↔
      ∃ first, first <+: (unsolicitedRun.foldl step {}).log ∧ 5 ≤ owed first) ∧
    ∀ before after, (unsolicitedRun.foldl step {}).log = before ++ .round true :: after →
      ∀ moment ∈ after, isRound moment = false :=
  given_up_iff unsolicitedRun (by decide)

end HeartbeatSession

end ProjectPl
