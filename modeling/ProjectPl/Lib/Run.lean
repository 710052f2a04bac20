import Mathlib

/-!
Deterministic machines, driven by a list of inputs. A run collects one output for
each input. The rules below turn facts about one step into facts about whole runs:
an invariant rule, a rule for invariants that only guarded steps keep, a
simulation rule between two machines that read the same inputs, and a rule for what the
choice of the next mover can bring about.
-/

namespace Run

variable {σ τ ι ο π : Type*}

def run (step : σ → ι → σ × ο) : σ → List ι → σ × List ο
  | state, [] => (state, [])
  | state, input :: rest =>
      let next := step state input
      let tail := run step next.1 rest
      (tail.1, next.2 :: tail.2)

@[simp] theorem run_nil (step : σ → ι → σ × ο) (state : σ) : run step state [] = (state, []) := rfl

@[simp] theorem run_cons (step : σ → ι → σ × ο) (state : σ) (input : ι) (rest : List ι) :
    run step state (input :: rest) =
      ((run step (step state input).1 rest).1,
        (step state input).2 :: (run step (step state input).1 rest).2) := rfl

theorem run_append (step : σ → ι → σ × ο) (state : σ) (first later : List ι) :
    run step state (first ++ later) =
      ((run step (run step state first).1 later).1,
        (run step state first).2 ++ (run step (run step state first).1 later).2) := by
  induction first generalizing state with
  | nil => rfl
  | cons input rest ih => simp only [List.cons_append, run_cons, ih]

/-- Two machines in lockstep: related states answer every input with related outputs. -/
theorem run_simulation {step : σ → ι → σ × ο} {spec : τ → ι → τ × π}
    {related : σ → τ → Prop} {agree : ο → π → Prop}
    (simulates : ∀ state model input, related state model →
      related (step state input).1 (spec model input).1 ∧
        agree (step state input).2 (spec model input).2)
    (state : σ) (model : τ) (start : related state model) (inputs : List ι) :
    related (run step state inputs).1 (run spec model inputs).1 ∧
      List.Forall₂ agree (run step state inputs).2 (run spec model inputs).2 := by
  induction inputs generalizing state model with
  | nil => exact ⟨start, List.Forall₂.nil⟩
  | cons input rest ih =>
      have here := simulates state model input start
      have later := ih _ _ here.1
      exact ⟨later.1, List.Forall₂.cons here.2 later.2⟩

/-! Machines without outputs: the state after a list of inputs is a left fold. -/

/-- Every step of the run meets a condition on its input and the state before it. -/
def Along (step : σ → ι → σ) (condition : σ → ι → Prop) : σ → List ι → Prop
  | _, [] => True
  | state, input :: rest => condition state input ∧ Along step condition (step state input) rest

theorem Along.invariant {step : σ → ι → σ} {condition : σ → ι → Prop} {invariant : σ → Prop}
    (preserved : ∀ state input, invariant state → condition state input →
      invariant (step state input))
    {state : σ} {inputs : List ι} (start : invariant state)
    (along : Along step condition state inputs) : invariant (inputs.foldl step state) := by
  induction inputs generalizing state with
  | nil => exact start
  | cons input rest ih => exact ih (preserved state input start along.1) along.2

theorem Along.mono {step : σ → ι → σ} {condition weaker : σ → ι → Prop}
    (implies : ∀ state input, condition state input → weaker state input) {state : σ}
    {inputs : List ι} (along : Along step condition state inputs) :
    Along step weaker state inputs := by
  induction inputs generalizing state with
  | nil => trivial
  | cons input rest ih => exact ⟨implies state input along.1, ih along.2⟩

/-- A condition that the invariant needs at every step, and whose failure breaks the property at
once, is the exact condition for the property to hold all along the run. -/
theorem always_iff_along {step : σ → ι → σ} {condition : σ → ι → Prop}
    {invariant property : σ → Prop}
    (preserved : ∀ state input, invariant state → condition state input →
      invariant (step state input))
    (implies : ∀ state, invariant state → property state)
    (breaks : ∀ state input, invariant state → ¬condition state input →
      ¬property (step state input))
    {state : σ} (start : invariant state) (inputs : List ι) :
    (∀ before after, inputs = before ++ after → property (before.foldl step state)) ↔
      Along step condition state inputs := by
  induction inputs generalizing state with
  | nil =>
      refine ⟨fun _ => trivial, ?_⟩
      intro _ before after split
      obtain ⟨rfl, -⟩ := List.append_eq_nil_iff.mp split.symm
      exact implies state start
  | cons input rest ih =>
      constructor
      · intro always
        have allowed : condition state input := by
          by_contra violated
          exact breaks state input start violated (always [input] rest rfl)
        refine ⟨allowed, (ih (preserved state input start allowed)).mp ?_⟩
        rintro before after rfl
        exact always (input :: before) after rfl
      · rintro ⟨allowed, later⟩ before after split
        cases before with
        | nil => exact implies state start
        | cons first before =>
            obtain ⟨rfl, rfl⟩ := List.cons.inj split
            exact (ih (preserved state input start allowed)).mpr later before after rfl

def checkAlong (step : σ → ι → σ) (check : σ → ι → Bool) : σ → List ι → Bool
  | _, [] => true
  | state, input :: rest => check state input && checkAlong step check (step state input) rest

theorem Along.of_check {step : σ → ι → σ} {condition : σ → ι → Prop} {check : σ → ι → Bool}
    (sound : ∀ state input, check state input = true → condition state input) {state : σ}
    {inputs : List ι} (checked : checkAlong step check state inputs = true) :
    Along step condition state inputs := by
  induction inputs generalizing state with
  | nil => trivial
  | cons input rest ih =>
      obtain ⟨here, later⟩ := Bool.and_eq_true_iff.mp checked
      exact ⟨sound state input here, ih later⟩

theorem Along.initial {step : σ → ι → σ} {condition : σ → ι → Prop} {state : σ}
    {before after : List ι} (along : Along step condition state (before ++ after)) :
    Along step condition state before := by
  induction before generalizing state with
  | nil => trivial
  | cons input rest ih => exact ⟨along.1, ih along.2⟩

theorem Along.final {step : σ → ι → σ} {condition : σ → ι → Prop} {state : σ}
    {before after : List ι} (along : Along step condition state (before ++ after)) :
    Along step condition (before.foldl step state) after := by
  induction before generalizing state with
  | nil => exact along
  | cons input rest ih => exact ih along.2

/-- A log that a machine writes only while it is open, and a closed machine never opens again:
the log is the first of the entries that the inputs would have made. -/
theorem log_first {α : Type*} {step : σ → ι → σ} {invariant : σ → Prop} {allowed : ι → Prop}
    (log : σ → List α) (isOpen : σ → Bool) (entries : ι → List α)
    (preserved : ∀ state input, invariant state → allowed input → invariant (step state input))
    (logs : ∀ state input, invariant state → allowed input →
      log (step state input) = log state ++ if isOpen state then entries input else [])
    (closed : ∀ state input, isOpen state = false → isOpen (step state input) = false)
    {state : σ} (start : invariant state) {inputs : List ι}
    (all : ∀ input ∈ inputs, allowed input) :
    invariant (inputs.foldl step state) ∧
      log (inputs.foldl step state) <+: log state ++ inputs.flatMap entries ∧
      (isOpen state = false → log (inputs.foldl step state) = log state) := by
  induction inputs generalizing state with
  | nil => exact ⟨start, by simp, fun _ => rfl⟩
  | cons input rest ih =>
      have written := logs state input start (all input (by simp))
      obtain ⟨later, first, stays⟩ := ih (preserved state input start (all input (by simp)))
        (fun other member => all other (by simp [member]))
      rw [List.foldl_cons]
      cases isOpen_eq : isOpen state with
      | true =>
          rw [isOpen_eq, if_pos rfl] at written
          rw [written] at first
          exact ⟨later, by simpa using first, nofun⟩
      | false =>
          rw [isOpen_eq, if_neg Bool.false_ne_true, List.append_nil] at written
          have same := (stays (closed state input isOpen_eq)).trans written
          exact ⟨later, same ▸ List.prefix_append _ _, fun _ => same⟩

theorem log_full {α : Type*} {step : σ → ι → σ} (log : σ → List α) (isOpen : σ → Bool)
    (entries : ι → List α)
    (logs : ∀ state input,
      log (step state input) = log state ++ if isOpen state then entries input else [])
    (closed : ∀ state input, isOpen state = false → isOpen (step state input) = false)
    {state : σ} {inputs : List ι} (stillOpen : isOpen (inputs.foldl step state) = true) :
    isOpen state = true ∧ log (inputs.foldl step state) = log state ++ inputs.flatMap entries := by
  induction inputs generalizing state with
  | nil => exact ⟨stillOpen, by simp⟩
  | cons input rest ih =>
      obtain ⟨after, written⟩ := ih stillOpen
      have before : isOpen state = true := by
        by_contra shut
        rw [closed state input (Bool.eq_false_iff.mpr shut)] at after
        cases after
      refine ⟨before, ?_⟩
      rw [List.foldl_cons, written, logs, if_pos before, List.flatMap_cons, List.append_assoc]

/-! Several movers, one of which is picked for each step. -/

/-- Whoever picks the movers can bring the machine to the goal, whatever their moves come to. -/
inductive Forces {μ : Type*} (step : σ → ι → σ) (moves : μ → ι → Prop) (goal : σ → Prop) :
    σ → Prop
  | reached {state : σ} : goal state → Forces step moves goal state
  | pick {state : σ} (mover : μ) :
      (∀ input, moves mover input → Forces step moves goal (step state input)) →
      Forces step moves goal state

theorem Forces.of_measure {μ : Type*} {step : σ → ι → σ} {moves : μ → ι → Prop}
    {goal invariant : σ → Prop} (measure : σ → Nat)
    (progress : ∀ state, invariant state → goal state ∨ ∃ mover, ∀ input, moves mover input →
      goal (step state input) ∨
        invariant (step state input) ∧ measure (step state input) < measure state)
    {state : σ} (start : invariant state) : Forces step moves goal state := by
  induction size : measure state using Nat.strong_induction_on generalizing state with
  | _ size ih =>
      rcases progress state start with done | ⟨mover, closer⟩
      · exact .reached done
      · refine .pick mover fun input moved => ?_
        rcases closer input moved with done | ⟨held, less⟩
        · exact .reached done
        · exact ih _ (size ▸ less) held rfl

end Run
