import Mathlib

/-!
Loops without a bound. A pass either goes on from a new state or ends the loop with a result; a
loop is run with fuel, and `Ends` says that some fuel is enough.
-/

namespace Loop

variable {σ ρ : Type*}

def run (pass : σ → σ ⊕ ρ) : Nat → σ → Option ρ
  | 0, _ => none
  | fuel + 1, state =>
      match pass state with
      | .inl next => run pass fuel next
      | .inr result => some result

def Ends (pass : σ → σ ⊕ ρ) (state : σ) (result : ρ) : Prop :=
  ∃ fuel, run pass fuel state = some result

variable {pass : σ → σ ⊕ ρ} {state next : σ} {result other : ρ}

theorem run_next (goes : pass state = .inl next) (fuel : Nat) :
    run pass (fuel + 1) state = run pass fuel next := by
  rw [run, goes]

theorem run_last (stops : pass state = .inr result) (fuel : Nat) :
    run pass (fuel + 1) state = some result := by
  rw [run, stops]

theorem Ends.last (stops : pass state = .inr result) : Ends pass state result :=
  ⟨1, run_last stops 0⟩

theorem ends_next (goes : pass state = .inl next) :
    Ends pass state result ↔ Ends pass next result := by
  constructor
  · rintro ⟨fuel, ended⟩
    cases fuel with
    | zero => cases ended
    | succ fuel => exact ⟨fuel, by rwa [run_next goes] at ended⟩
  · rintro ⟨fuel, ended⟩
    exact ⟨fuel + 1, by rwa [run_next goes]⟩

/-- One pass or more, with only states of a kind between them. -/
inductive Through (pass : σ → σ ⊕ ρ) (between : σ → Prop) : σ → σ → Prop
  | last {state next : σ} : pass state = .inl next → Through pass between state next
  | more {state next later : σ} : pass state = .inl next → between next →
      Through pass between next later → Through pass between state later

/-- The states that a loop comes to. -/
def Reaches (pass : σ → σ ⊕ ρ) : σ → σ → Prop :=
  Relation.ReflTransGen fun state next => pass state = .inl next

variable {between : σ → Prop} {later : σ}

theorem Through.ends (through : Through pass between state next) (ended : Ends pass next result) :
    Ends pass state result := by
  induction through with
  | last goes => exact (ends_next goes).mpr ended
  | more goes _ _ ih => exact (ends_next goes).mpr (ih ended)

theorem Through.exists_goes (through : Through pass between state later) :
    ∃ next, pass state = .inl next := by
  cases through with
  | last goes => exact ⟨_, goes⟩
  | more goes _ _ => exact ⟨_, goes⟩

theorem Through.cases_first (through : Through pass between state later)
    (goes : pass state = .inl next) :
    next = later ∨ between next ∧ Through pass between next later := by
  cases through with
  | last arrives => exact .inl (Sum.inl.inj (goes.symm.trans arrives))
  | more first isBetween rest =>
      cases goes.symm.trans first
      exact .inr ⟨isBetween, rest⟩

theorem Through.unique {other : σ} (one : Through pass between state later)
    (two : Through pass between state other) (out : ¬between later) (outOther : ¬between other) :
    later = other := by
  induction one with
  | last goes =>
      obtain same | ⟨isBetween, _⟩ := two.cases_first goes
      · exact same
      · exact absurd isBetween out
  | more goes isBetween _ ih =>
      obtain rfl | ⟨_, rest⟩ := two.cases_first goes
      · exact absurd isBetween outOther
      · exact ih rest out

theorem Reaches.invariant {holds : σ → Prop}
    (kept : ∀ state next, holds state → pass state = .inl next → holds next)
    (reaches : Reaches pass state later) (start : holds state) : holds later := by
  induction reaches with
  | refl => exact start
  | tail _ goes ih => exact kept _ _ ih goes

theorem run_more {fuel : Nat} (ended : run pass fuel state = some result) (more : Nat) :
    run pass (fuel + more) state = some result := by
  induction fuel generalizing state with
  | zero => cases ended
  | succ fuel ih =>
      rw [Nat.add_right_comm]
      cases step : pass state with
      | inl next =>
          rw [run_next step] at ended ⊢
          exact ih ended
      | inr last =>
          rw [run_last step] at ended ⊢
          exact ended

theorem Ends.unique (one : Ends pass state result) (two : Ends pass state other) :
    result = other := by
  obtain ⟨fuel, ended⟩ := one
  obtain ⟨more, finished⟩ := two
  have here := run_more ended more
  rw [Nat.add_comm, run_more finished fuel] at here
  exact (Option.some.inj here).symm

end Loop
