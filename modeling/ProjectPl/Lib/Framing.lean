import Mathlib

/-!
A stream that is a sequence of frames, seen through a prefix of known length: which frames
are completely there, and how many elements of the next one.
-/

namespace Framing

variable {α : Type*}

def within : List (List α) → Nat → List (List α)
  | [], _ => []
  | frame :: rest, available =>
      if frame.length ≤ available then frame :: within rest (available - frame.length) else []

def undelivered (frames : List (List α)) (available : Nat) : Nat :=
  available - (within frames available).flatten.length

theorem within_of_fits {frame : List α} {available : Nat} (fits : frame.length ≤ available)
    (rest : List (List α)) :
    within (frame :: rest) available = frame :: within rest (available - frame.length) := by
  rw [within, if_pos fits]

theorem within_of_short {frame : List α} {available : Nat} (short : available < frame.length)
    (rest : List (List α)) : within (frame :: rest) available = [] := by
  rw [within, if_neg (by omega)]

theorem undelivered_of_fits {frame : List α} {available : Nat} (fits : frame.length ≤ available)
    (rest : List (List α)) :
    undelivered (frame :: rest) available = undelivered rest (available - frame.length) := by
  rw [undelivered, undelivered, within_of_fits fits, List.flatten_cons, List.length_append]
  omega

/-- The frames within a prefix come first, and those within a longer one continue them. -/
theorem within_continues (frames : List (List α)) (available : Nat) :
    ∃ rest, frames = within frames available ++ rest ∧
      (within frames available).flatten.length ≤ available ∧
      ∀ more, available ≤ more →
        within frames more = within frames available ++
          within rest (more - (within frames available).flatten.length) := by
  induction frames generalizing available with
  | nil => exact ⟨[], rfl, Nat.zero_le _, fun _ _ => rfl⟩
  | cons frame frames ih =>
      by_cases fits : frame.length ≤ available
      · obtain ⟨rest, split, inside, continues⟩ := ih (available - frame.length)
        rw [within_of_fits fits, List.flatten_cons, List.length_append]
        refine ⟨rest, ?_, ?_, ?_⟩
        · rw [List.cons_append, ← split]
        · omega
        · intro more enough
          rw [within_of_fits (by omega), continues (more - frame.length) (by omega),
            List.cons_append, Nat.sub_sub]
      · rw [within_of_short (by omega)]
        exact ⟨frame :: frames, rfl, Nat.zero_le _, fun _ _ => rfl⟩

end Framing
