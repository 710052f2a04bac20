import ProjectPl.Lib.CppString
import ProjectPl.Lib.Loop

/-!
`TokenizeA` and `TokenizeW` of `_lib/util_String.cpp`, which have one text but for the type of the
characters.
-/

namespace ProjectPl

open CppString

structure Tokenizing (α : Type) where
  lastPos : Nat
  pos : Nat
  tokens : List (List α)

namespace Tokenizing

variable {α : Type} [DecidableEq α]

def start (str : List α) (tokens : List (List α)) (delimiter : List α) : Tokenizing α :=
  let lastPos := findFirstNotOf str delimiter 0
  { lastPos, pos := findFirstOf str delimiter lastPos, tokens }

/-- One pass of the loop. The result is `none` if `substr` throws. -/
def pass (str delimiter : List α) (state : Tokenizing α) :
    Tokenizing α ⊕ Option (List (List α)) :=
  if npos ≠ state.pos ∨ npos ≠ state.lastPos then
    match substr str state.lastPos (sizeSub state.pos state.lastPos) with
    | none => .inr none
    | some token =>
        let lastPos := findFirstNotOf str delimiter state.pos
        .inl
          { lastPos
            pos := findFirstOf str delimiter lastPos
            tokens := state.tokens ++ [token] }
  else .inr (some state.tokens)

/-- The function ends with these tokens, or with an exception. -/
def Tokenizes (str : Text α) (tokens : List (List α)) (delimiter : List α) :
    Option (List (List α)) → Prop :=
  Loop.Ends (pass str.chars delimiter) (start str.chars tokens delimiter)

end Tokenizing

def TokenizeA (str : Text UInt8) (tokens : List (List UInt8)) (delimiter : List UInt8) :
    Option (List (List UInt8)) → Prop :=
  Tokenizing.Tokenizes str tokens delimiter

def TokenizeW (str : Text UInt16) (tokens : List (List UInt16)) (delimiter : List UInt16) :
    Option (List (List UInt16)) → Prop :=
  Tokenizing.Tokenizes str tokens delimiter

namespace Tokenizing

/-- The maximal runs of characters that are no delimiters, in order. -/
inductive Runs {α : Type} (delimiter : List α) : List α → List (List α) → Prop
  | none {gap : List α} (delimiters : ∀ char ∈ gap, char ∈ delimiter) : Runs delimiter gap []
  | run {gap token rest : List α} {tokens : List (List α)}
      (delimiters : ∀ char ∈ gap, char ∈ delimiter) (some : token ≠ [])
      (free : ∀ char ∈ token, char ∉ delimiter) (maximal : ∀ char ∈ rest.head?, char ∈ delimiter)
      (later : Runs delimiter rest tokens) :
      Runs delimiter (gap ++ token ++ rest) (token :: tokens)

variable {α : Type} {delimiter : List α} {str : List α} {tokens : List (List α)}

theorem Runs.free (runs : Runs delimiter str tokens) :
    ∀ token ∈ tokens, token ≠ [] ∧ ∀ char ∈ token, char ∉ delimiter := by
  induction runs with
  | none => exact nofun
  | run delimiters some free maximal later ih =>
      intro token member
      rcases List.mem_cons.mp member with rfl | member
      · exact ⟨some, free⟩
      · exact ih token member

variable [DecidableEq α]

theorem Runs.flatten (runs : Runs delimiter str tokens) :
    tokens.flatten = str.filter (· ∉ delimiter) := by
  induction runs with
  | none delimiters =>
      refine (List.filter_eq_nil_iff.mpr fun char member => ?_).symm
      simpa only [decide_not, Bool.not_eq_true', decide_eq_false_iff_not, not_not] using
        delimiters char member
  | run delimiters some free maximal later ih =>
      have gap := List.filter_eq_nil_iff (p := (decide <| · ∉ delimiter)).mpr fun char member =>
        not_not.mpr (delimiters char member) ∘ of_decide_eq_true
      have token := List.filter_eq_self (p := (decide <| · ∉ delimiter)).mpr fun char member =>
        decide_eq_true (free char member)
      rw [List.flatten_cons, ih, List.filter_append, List.filter_append, gap, token,
        List.nil_append]

section Parts

variable {rest : List α}

theorem before_past_ne_nil (some : past delimiter rest ≠ []) :
    before delimiter (past delimiter rest) ≠ [] := by
  obtain ⟨char, others, here⟩ := List.exists_cons_of_ne_nil some
  have free := head_past here
  rw [here, before, List.takeWhile_cons_of_pos (by simpa using free)]
  exact List.cons_ne_nil _ _

theorem seek_past_length_lt (some : past delimiter rest ≠ []) :
    (seek delimiter (past delimiter rest)).length < rest.length := by
  have parts := congrArg List.length (before_append_seek delimiter (past delimiter rest))
  rw [List.length_append] at parts
  have positive := List.length_pos_iff.mpr (before_past_ne_nil some)
  have bound := (past_suffix delimiter rest).length_le
  omega

end Parts

theorem run_parts {front token rest : List α} (delimiters : ∀ char ∈ front, char ∈ delimiter)
    (some : token ≠ []) (free : ∀ char ∈ token, char ∉ delimiter)
    (maximal : ∀ char ∈ rest.head?, char ∈ delimiter) :
    before delimiter (past delimiter (front ++ token ++ rest)) = token ∧
      seek delimiter (past delimiter (front ++ token ++ rest)) = rest := by
  have skipped : past delimiter (front ++ token ++ rest) = token ++ rest := by
    obtain ⟨first, others, rfl⟩ := List.exists_cons_of_ne_nil some
    have head := free first List.mem_cons_self
    rw [past, List.append_assoc, List.dropWhile_append_of_pos fun char member =>
      decide_eq_true (delimiters char member)]
    exact List.dropWhile_cons_of_neg (by simpa using head)
  rw [skipped, before, seek, List.takeWhile_append_of_pos (by simpa using free),
    List.dropWhile_append_of_pos (by simpa using free)]
  cases rest with
  | nil => exact ⟨List.append_nil _, rfl⟩
  | cons char rest =>
      have stop := maximal char rfl
      rw [List.takeWhile_cons_of_neg (by simpa using stop),
        List.dropWhile_cons_of_neg (by simpa using stop)]
      exact ⟨List.append_nil _, rfl⟩

theorem Runs.unique {others : List (List α)} (one : Runs delimiter str tokens)
    (two : Runs delimiter str others) : tokens = others := by
  induction one generalizing others with
  | none delimiters =>
      cases two with
      | none => rfl
      | run _ some free _ _ =>
          obtain ⟨char, member⟩ := List.exists_mem_of_ne_nil _ some
          exact absurd (delimiters char (by simp [member])) (free char member)
  | @run front token rest tokens delimiters some free maximal later ih =>
      generalize whole : front ++ token ++ rest = str at two
      have one := run_parts delimiters some free maximal
      rw [whole] at one
      cases two with
      | none all =>
          obtain ⟨char, member⟩ := List.exists_mem_of_ne_nil _ some
          refine absurd (all char ?_) (free char member)
          rw [← whole]
          simp [member]
      | run delimiters' some' free' maximal' later' =>
          have two := run_parts delimiters' some' free' maximal'
          obtain rfl := one.1.symm.trans two.1
          obtain rfl := one.2.symm.trans two.2
          rw [ih later']

/-! The loop. -/

def headState (str delimiter rest : List α) (tokens : List (List α)) : Tokenizing α :=
  { lastPos := place str (past delimiter rest)
    pos := place str (seek delimiter (past delimiter rest))
    tokens }

theorem pass_last {rest : List α} (empty : past delimiter rest = []) :
    pass str delimiter (headState str delimiter rest tokens) = .inr (some tokens) := by
  simp only [pass, headState, empty, seek, List.dropWhile_nil, place_nil, ne_eq,
    not_true_eq_false, or_self, if_false]

section Loop

variable {rest : List α} (short : str.length < npos)
include short

theorem start_eq : start str tokens delimiter = headState str delimiter str tokens := by
  rw [start, findFirstNotOf_zero]
  simp only [findFirstOf_place delimiter short (past_suffix ..)]
  rfl

theorem pass_next (suffix : rest <:+ str) (more : past delimiter rest ≠ []) :
    pass str delimiter (headState str delimiter rest tokens) =
      .inl (headState str delimiter (seek delimiter (past delimiter rest))
        (tokens ++ [before delimiter (past delimiter rest)])) := by
  have here : past delimiter rest <:+ str := (past_suffix ..).trans suffix
  have later : seek delimiter (past delimiter rest) <:+ str := (seek_suffix ..).trans here
  have goes : npos ≠ place str (past delimiter rest) := (npos_eq_place short).not.mpr more
  have token : substr str (place str (past delimiter rest))
      (sizeSub (place str (seek delimiter (past delimiter rest)))
        (place str (past delimiter rest))) = some (before delimiter (past delimiter rest)) := by
    rw [substr_place short here more (seek_suffix ..), before_take]
  simp only [pass, headState, token, if_pos (Or.inr goes : npos ≠ _ ∨ npos ≠ _)]
  rw [findFirstNotOf_place _ short later,
    findFirstOf_place _ short ((past_suffix ..).trans later)]

theorem ends_headState (delimiter : List α) (tokens : List (List α)) (suffix : rest <:+ str) :
    ∃ found,
    Loop.Ends (pass str delimiter) (headState str delimiter rest tokens)
      (some (tokens ++ found)) ∧ Runs delimiter rest found := by
  induction size : rest.length using Nat.strong_induction_on generalizing rest tokens with
  | _ size ih =>
      by_cases empty : past delimiter rest = []
      · refine ⟨[], ?_, ?_⟩
        · rw [List.append_nil]
          exact .last (pass_last empty)
        · rw [← gap_append_past delimiter rest, empty, List.append_nil]
          exact .none fun _ => mem_of_mem_gap
      · obtain ⟨found, ends, runs⟩ := ih _ (size ▸ seek_past_length_lt empty)
          (tokens ++ [before delimiter (past delimiter rest)])
          ((seek_suffix ..).trans ((past_suffix ..).trans suffix)) rfl
        refine ⟨before delimiter (past delimiter rest) :: found, ?_, ?_⟩
        · rw [Loop.ends_next (pass_next short suffix empty)]
          rwa [List.append_assoc] at ends
        · have cut : Runs delimiter (gap delimiter rest ++ before delimiter (past delimiter rest) ++
              seek delimiter (past delimiter rest)) _ :=
            .run (fun _ => mem_of_mem_gap) (before_past_ne_nil empty)
              (fun _ => not_mem_of_mem_before) (fun _ => head_seek) runs
          rwa [List.append_assoc, before_append_seek, gap_append_past] at cut

end Loop

theorem tokenizes_runs (str : Text α) (tokens : List (List α)) (delimiter : List α) :
    ∃ found, (∀ result, Tokenizes str tokens delimiter result ↔ result = some (tokens ++ found)) ∧
      (∀ others, Runs delimiter str.chars others ↔ others = found) ∧
      (∀ token ∈ found, token ≠ [] ∧ ∀ char ∈ token, char ∉ delimiter) ∧
      found.flatten = str.chars.filter (· ∉ delimiter) := by
  obtain ⟨found, ends, runs⟩ := ends_headState str.short delimiter tokens (List.suffix_refl _)
  rw [← start_eq str.short] at ends
  refine ⟨found, ?_, ?_, runs.free, runs.flatten⟩
  · intro result
    exact ⟨fun other => other.unique ends, fun same => same ▸ ends⟩
  · intro others
    exact ⟨fun other => other.unique runs, fun same => same ▸ runs⟩

end Tokenizing

/-- `TokenizeA` ends without an exception, and what it appends are the maximal runs, each of them
without delimiters, and all of them together the string without its delimiters. -/
theorem tokenizeA_runs (str : Text UInt8) (tokens : List (List UInt8)) (delimiter : List UInt8) :
    ∃ found,
      (∀ result, TokenizeA str tokens delimiter result ↔ result = some (tokens ++ found)) ∧
      (∀ others, Tokenizing.Runs delimiter str.chars others ↔ others = found) ∧
      (∀ token ∈ found, token ≠ [] ∧ ∀ char ∈ token, char ∉ delimiter) ∧
      found.flatten = str.chars.filter (· ∉ delimiter) :=
  Tokenizing.tokenizes_runs str tokens delimiter

end ProjectPl
