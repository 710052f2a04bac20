import ProjectPl.JsonSafety

/-!
`parse` ends on every text, at its end or at a call on a null pointer. Each head of the outer loop
is that of a cursor, whose rest gets shorter in each iteration.
-/

namespace ProjectPl.Json

open CppString

def Reached (text : Text Char) : Phase → Prop :=
  Loop.Reaches (pass text.chars) (.counting 0 0)

/-- A position that was searched for before is not behind this one. -/
def Ahead (pos found : Nat) : Prop := found = npos ∨ pos ≤ found

/-- The three loops end, and each iteration of the outer one gets on in the text. -/
structure Terminates (text : Text Char) : Prop where
  ends : ∃ result, Parses text result
  counts : Loop.Through (pass text.chars) Phase.IsCounting (.counting 0 0)
    (.parsing (Parser.start text.chars))
  closes : ∀ parser, Reached text (.closing parser) →
    ∃ head, Loop.Through (pass text.chars) Phase.IsClosing (.closing parser) (.parsing head)
  advances : ∀ head later, Reached text (.parsing head) → Iterates text.chars head later →
    later.pos = npos ∨ head.pos < later.pos
  ahead : ∀ head, Reached text (.parsing head) → Ahead head.pos head.familyStart ∧
    Ahead head.pos head.familyEnd ∧ Ahead head.pos head.nodeEnd
  creates : ∀ head later, Reached text (.parsing head) → Iterates text.chars head later →
    later.nodes.length ≤ head.nodes.length + 1

def OnCursor (text : Text Char) : Phase → Prop
  | .counting _ _ => True
  | .parsing parser => ∃ cursor : Cursor text, parser = cursor.parser
  | .closing parser => ∃ cursor : Cursor text,
      Loop.Through (pass text.chars) Phase.IsClosing (.closing parser) (.parsing cursor.parser)

namespace Cursor

variable {text : Text Char}

theorem iterates {cursor : Cursor text} (some : cursor.rest ≠ []) (parent : cursor.stack ≠ []) :
    ∃ later : Cursor text, Iterates text.chars cursor.parser later.parser ∧
      later.rest.length < cursor.rest.length ∧
      later.nodes.length = cursor.nodes.length + 1 := by
  obtain ⟨current, stack, isStack⟩ := List.exists_cons_of_ne_nil parent
  have count {later : Cursor text} {str : List Char} (adds : Adds cursor later str) :
      later.nodes.length = cursor.nodes.length + 1 := by
    obtain ⟨_, _, _, nodes⟩ := adds.adds
    rw [nodes, length_addChild]
  by_cases opens : '{' ∈ before delimiterNode cursor.rest
  · obtain ⟨later, iterates, adds, isRest, _⟩ := adds_family isStack opens
    refine ⟨later, iterates, ?_, count adds⟩
    rw [isRest]
    exact past_seek_length_lt _ some
  · by_cases ends : cursor.tracks = true ∧ '}' ∈ before delimiterNode cursor.rest
    · obtain ⟨later, iterates, adds, isRest, _⟩ := adds_last isStack opens ends
      refine ⟨later, iterates, ?_, count adds⟩
      rw [isRest]
      exact past_seek_length_lt _ some
    · obtain ⟨later, iterates, adds, isRest, _⟩ := adds_member isStack some opens ends
      refine ⟨later, iterates, ?_, count adds⟩
      rw [isRest]
      exact past_seek_length_lt _ some

theorem goes_on {cursor : Cursor text} {next : Phase}
    (goes : pass text.chars (.parsing cursor.parser) = .inl next) :
    cursor.rest ≠ [] ∧ cursor.stack ≠ [] := by
  have some : cursor.rest ≠ [] := by
    intro none
    rw [pass_end none] at goes
    cases goes
  refine ⟨some, fun alone => ?_⟩
  rw [pass_null alone some] at goes
  cases goes

theorem ahead_seek (cursor : Cursor text) (set : List Char) :
    Ahead cursor.parser.pos (place text.chars (seek set cursor.rest)) := by
  have later := seek_suffix set cursor.rest
  refine .inr (not_lt.mp ?_)
  change ¬place text.chars (seek set cursor.rest) < place text.chars cursor.rest
  rw [place_lt_place text.short (later.trans cursor.suffix) cursor.suffix]
  exact later.length_le.not_gt

theorem ahead (cursor : Cursor text) :
    Ahead cursor.parser.pos cursor.parser.familyStart ∧
      Ahead cursor.parser.pos cursor.parser.familyEnd ∧
      Ahead cursor.parser.pos cursor.parser.nodeEnd := by
  refine ⟨cursor.ahead_seek _, ?_, cursor.ahead_seek _⟩
  by_cases tracks : cursor.tracks = true
  · have isEnd : cursor.parser.familyEnd = place text.chars (seek delimiterFamilyEnd cursor.rest) :=
      if_pos tracks
    rw [isEnd]
    exact cursor.ahead_seek _
  · exact .inl (if_neg tracks)

end Cursor

section Reached

variable {text : Text Char}

theorem onCursor_of_through {phase next : Phase} {cursor : Cursor text}
    (through : Loop.Through (pass text.chars) Phase.IsClosing phase (.parsing cursor.parser))
    (goes : pass text.chars phase = .inl next) : OnCursor text next := by
  obtain rfl | ⟨isClosing, rest⟩ := through.cases_first goes
  · exact ⟨cursor, rfl⟩
  · cases next with
    | counting => exact trivial
    | parsing => cases isClosing
    | closing parser => exact ⟨cursor, rest⟩

theorem onCursor_step (phase next : Phase) (placed : OnCursor text phase)
    (goes : pass text.chars phase = .inl next) : OnCursor text next := by
  cases phase with
  | counting pos nodeCount =>
      by_cases found : npos ≠ findFirstOf text.chars delimiterKey (pos + 1)
      · cases goes.symm.trans (if_pos found)
        exact trivial
      · cases goes.symm.trans (if_neg found)
        exact ⟨Cursor.first text, Cursor.start_eq text⟩
  | parsing parser =>
      obtain ⟨cursor, rfl⟩ := placed
      obtain ⟨some, parent⟩ := Cursor.goes_on goes
      obtain ⟨later, iterates, _⟩ := Cursor.iterates some parent
      exact onCursor_of_through iterates goes
  | closing parser =>
      obtain ⟨cursor, through⟩ := placed
      exact onCursor_of_through through goes

theorem Reached.onCursor {phase : Phase} (reached : Reached text phase) : OnCursor text phase :=
  Loop.Reaches.invariant onCursor_step reached trivial

theorem iteration {head later : Parser} (reached : Reached text (.parsing head))
    (iterates : Iterates text.chars head later) :
    ∃ cursor next : Cursor text, head = cursor.parser ∧ later = next.parser ∧
      next.rest.length < cursor.rest.length ∧
      next.nodes.length = cursor.nodes.length + 1 := by
  obtain ⟨cursor, rfl⟩ := reached.onCursor
  obtain ⟨first, goes⟩ := iterates.exists_goes
  obtain ⟨some, parent⟩ := Cursor.goes_on goes
  obtain ⟨next, toNext, shorter, added⟩ := Cursor.iterates some parent
  cases iterates.unique toNext id id
  exact ⟨cursor, next, rfl, rfl, shorter, added⟩

end Reached

/-- `parse` ends on every text, and makes progress in each iteration. -/
theorem terminates (text : Text Char) : Terminates text where
  ends := by
    obtain ⟨last, leads, ⟨_, none⟩ | ⟨_, some, alone⟩⟩ := (Cursor.first text).run_leads
    · exact ⟨_, Cursor.parses_of_ends (leads (Cursor.ends_ok none))⟩
    · exact ⟨_, Cursor.parses_of_ends (leads (Cursor.ends_null alone some))⟩
  counts := Cursor.counting_through text 0 0
  closes := by
    intro parser reached
    obtain ⟨cursor, through⟩ := reached.onCursor
    exact ⟨cursor.parser, through⟩
  advances := by
    intro head later reached iterates
    obtain ⟨cursor, next, rfl, rfl, shorter, _⟩ := iteration reached iterates
    exact .inr ((place_lt_place text.short cursor.suffix next.suffix).mpr shorter)
  ahead := by
    intro head reached
    obtain ⟨cursor, rfl⟩ := reached.onCursor
    exact cursor.ahead
  creates := by
    intro head later reached iterates
    obtain ⟨cursor, next, rfl, rfl, _, added⟩ := iteration reached iterates
    exact added.le

end ProjectPl.Json
