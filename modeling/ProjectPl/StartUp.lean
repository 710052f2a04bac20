import ProjectPl.SharpCommon

/-!
The start of a server in `WorldServerApp.cs` and `AuthServerApp.cs`: a loop that connects to the
database server, and then the listener. What an attempt comes to is an input.
-/

namespace ProjectPl.Sharp

inductive ConnectOutcome
  | success
  | refused
  | exception
  deriving DecidableEq

structure StartUp where
  attempts : Nat := 0
  listening : Bool := false

namespace StartUp

variable {Config : Type}

/-- `DbConnect` of both servers. The `catch` prints and goes on to the `return true` behind it. -/
def dbConnect (config : Option Config) (outcome : ConnectOutcome) : Bool :=
  match config with
  | none => false
  | some _ =>
      match outcome with
      | .success => true
      | .refused => false
      | .exception => true

/-- One pass of `do .. while`, and `ListenStart` once the condition fails. -/
def pass (connect : ConnectOutcome → Bool) (again : Bool → Bool) (app : StartUp)
    (outcome : ConnectOutcome) : StartUp :=
  if app.listening then app
  else { attempts := app.attempts + 1, listening := !again (connect outcome) }

def after (connect : ConnectOutcome → Bool) (again : Bool → Bool)
    (outcomes : Nat → ConnectOutcome) : Nat → StartUp
  | 0 => {}
  | passes + 1 => pass connect again (after connect again outcomes passes) (outcomes passes)

end StartUp

def WorldServerApp.appStart {Config : Type} (config : Config) :
    (Nat → ConnectOutcome) → Nat → StartUp :=
  StartUp.after (StartUp.dbConnect (some config)) fun connected => false == connected

def AuthServerApp.start {Config : Type} (config : Config) :
    (Nat → ConnectOutcome) → Nat → StartUp :=
  StartUp.after (StartUp.dbConnect (some config)) fun connected => connected

namespace StartUp

/-- The server listens from the first success on, and does not connect again. -/
structure StopsAtSuccess (server : (Nat → ConnectOutcome) → Nat → StartUp)
    (outcomes : Nat → ConnectOutcome) : Prop where
  listens : ∀ (success passes : Nat), success < passes → outcomes success = .success →
    (server outcomes passes).listening = true
  waits : ∀ passes, (server outcomes passes).listening = true →
    ∃ success < passes, outcomes success = .success
  stops : ∀ success, outcomes success = .success →
    ∀ passes, (server outcomes passes).attempts ≤ success + 1

section Loop

variable {connect : ConnectOutcome → Bool} {again : Bool → Bool}
  {outcomes : Nat → ConnectOutcome}

def Ends (connect : ConnectOutcome → Bool) (again : Bool → Bool) (outcome : ConnectOutcome) :
    Prop :=
  again (connect outcome) = false

theorem listening_iff (passes : Nat) : (after connect again outcomes passes).listening = true ↔
    ∃ last < passes, Ends connect again (outcomes last) := by
  induction passes with
  | zero => exact iff_of_false Bool.false_ne_true fun ⟨_, bound, _⟩ => Nat.not_lt_zero _ bound
  | succ passes ih =>
      rw [after, pass, Nat.exists_lt_succ_right, ← ih]
      by_cases before : (after connect again outcomes passes).listening = true
      · rw [if_pos before]
        exact iff_of_true before (Or.inl before)
      · rw [if_neg before, Bool.not_eq_true', or_iff_right before]
        rfl

theorem attempts_le {last : Nat} (ends : Ends connect again (outcomes last)) (passes : Nat) :
    (after connect again outcomes passes).attempts ≤ last + 1 ∧
      (after connect again outcomes passes).attempts ≤ passes := by
  induction passes with
  | zero => exact ⟨Nat.zero_le _, le_refl _⟩
  | succ passes ih =>
      rw [after, pass]
      by_cases before : (after connect again outcomes passes).listening = true
      · rw [if_pos before]
        exact ⟨ih.1, Nat.le_succ_of_le ih.2⟩
      · rw [if_neg before]
        have early : passes ≤ last := by
          by_contra late
          exact before ((listening_iff passes).mpr ⟨last, by omega, ends⟩)
        exact ⟨Nat.succ_le_succ (ih.2.trans early), Nat.succ_le_succ ih.2⟩

/-- The loop stops right exactly when ends and successes begin together. -/
theorem stopsAtSuccess_iff : StopsAtSuccess (after connect again) outcomes ↔
    ∀ passes, (∃ last < passes, Ends connect again (outcomes last)) ↔
      ∃ success < passes, outcomes success = .success := by
  constructor
  · intro stops passes
    rw [← listening_iff]
    exact ⟨stops.waits passes, fun ⟨success, before, reached⟩ =>
      stops.listens success passes before reached⟩
  · intro together
    refine ⟨?_, ?_, ?_⟩
    · intro success passes before reached
      exact (listening_iff passes).mpr ((together passes).mpr ⟨success, before, reached⟩)
    · intro passes listening
      exact (together passes).mp ((listening_iff passes).mp listening)
    · intro success reached passes
      obtain ⟨last, early, ends⟩ :=
        (together (success + 1)).mpr ⟨success, Nat.lt_succ_self success, reached⟩
      exact (attempts_le ends passes).1.trans (Nat.succ_le_succ (Nat.le_of_lt_succ early))

end Loop

variable {Config : Type} {config : Config}

theorem world_ends (outcome : ConnectOutcome) :
    Ends (dbConnect (some config)) (fun connected => false == connected) outcome ↔
      outcome ≠ .refused := by
  cases outcome <;> simp [Ends, dbConnect]

theorem auth_ends (outcome : ConnectOutcome) :
    Ends (dbConnect (some config)) (fun connected => connected) outcome ↔
      outcome = .refused := by
  cases outcome <;> simp [Ends, dbConnect]

theorem world_stopsAtSuccess_iff (outcomes : Nat → ConnectOutcome) :
    StopsAtSuccess (WorldServerApp.appStart config) outcomes ↔
      ∀ passes, outcomes passes = .exception → ∃ success < passes, outcomes success = .success := by
  refine stopsAtSuccess_iff.trans ?_
  simp only [world_ends]
  constructor
  · intro together passes thrown
    obtain ⟨success, early, reached⟩ := (together (passes + 1)).mp
      ⟨passes, Nat.lt_succ_self passes, by rw [thrown]; exact ConnectOutcome.noConfusion⟩
    refine ⟨success, ?_, reached⟩
    rcases Nat.lt_succ_iff_lt_or_eq.mp early with before | rfl
    · exact before
    · rw [thrown] at reached
      cases reached
  · intro preceded passes
    constructor
    · rintro ⟨last, bound, ends⟩
      cases kind : outcomes last with
      | success => exact ⟨last, bound, kind⟩
      | refused => exact absurd kind ends
      | exception =>
          obtain ⟨success, early, reached⟩ := preceded last kind
          exact ⟨success, early.trans bound, reached⟩
    · rintro ⟨success, bound, reached⟩
      exact ⟨success, bound, by rw [reached]; exact ConnectOutcome.noConfusion⟩

theorem auth_stopsAtSuccess_iff (outcomes : Nat → ConnectOutcome) :
    StopsAtSuccess (AuthServerApp.start config) outcomes ↔
      ∀ passes, outcomes passes = .exception := by
  refine stopsAtSuccess_iff.trans ?_
  simp only [auth_ends]
  constructor
  · intro together passes
    induction passes using Nat.strong_induction_on with
    | _ passes earlier =>
        have here := together (passes + 1)
        rw [Nat.exists_lt_succ_right, Nat.exists_lt_succ_right] at here
        have none (outcome : ConnectOutcome) (other : outcome ≠ .exception) :
            ¬∃ early < passes, outcomes early = outcome := by
          rintro ⟨early, before, same⟩
          exact other (same.symm.trans (earlier early before))
        rw [or_iff_right (none .refused ConnectOutcome.noConfusion),
          or_iff_right (none .success ConnectOutcome.noConfusion)] at here
        cases kind : outcomes passes with
        | success => cases (here.mpr kind).symm.trans kind
        | refused => cases (here.mp kind).symm.trans kind
        | exception => rfl
  · intro thrown passes
    refine iff_of_false ?_ ?_ <;>
      · rintro ⟨early, before, same⟩
        cases same.symm.trans (thrown early)

theorem startUp_stopsAtSuccess_iff {Config : Type} (config : Config)
    (outcomes : Nat → ConnectOutcome) :
    (StopsAtSuccess (WorldServerApp.appStart config) outcomes ↔
      ∀ passes, outcomes passes = .exception →
        ∃ success < passes, outcomes success = .success) ∧
    (StopsAtSuccess (AuthServerApp.start config) outcomes ↔
      ∀ passes, outcomes passes = .exception) :=
  ⟨world_stopsAtSuccess_iff outcomes, auth_stopsAtSuccess_iff outcomes⟩

/-- The first attempt throws, and the world server listens without a database. The first attempt
succeeds, and the authentication server connects a second time. -/
theorem startUp_not_stopsAtSuccess :
    ¬StopsAtSuccess (WorldServerApp.appStart ()) (fun _ => .exception) ∧
      ¬StopsAtSuccess (AuthServerApp.start ()) (fun _ => .success) := by
  constructor
  · intro stops
    obtain ⟨success, _, reached⟩ := stops.waits 1 rfl
    cases reached
  · intro stops
    exact absurd (stops.stops 0 rfl 2) (by decide)

end StartUp

end ProjectPl.Sharp
