import ProjectPl.JsonNode

/-!
`parse` in terms of what is left of the text. At the head of its loop the positions are those of
one rest, and `pCurrent` with the parents behind it is a stack as high as `dept`. A `Cursor` holds
these, and each branch of the loop leads from one cursor to another.
-/

namespace ProjectPl.Json

open CppString

section Nodes

variable {nodes : List Node} {current id : Nat} {pData : Node}

@[simp] theorem length_addChild : (addChild nodes current pData).length = nodes.length + 1 := by
  rw [addChild, List.length_append, List.length_modify, List.length_singleton]

theorem addChild_new : (addChild nodes current pData).getD nodes.length {} =
    { pData with pParent := some current } := by
  rw [addChild, List.getD_append_right _ _ _ _ (by rw [List.length_modify]), List.length_modify,
    Nat.sub_self]
  rfl

theorem addChild_old (old : id < nodes.length) : (addChild nodes current pData).getD id {} =
    if current = id then
      { nodes.getD id {} with nodeList := (nodes.getD id {}).nodeList ++ [nodes.length] }
    else nodes.getD id {} := by
  rw [addChild, List.getD_append _ _ _ _ (by rwa [List.length_modify]),
    List.getD_eq_getElem?_getD, List.getD_eq_getElem?_getD, List.getElem?_modify,
    List.getElem?_eq_getElem old]
  by_cases same : current = id
  · simp only [if_pos same, Option.map_eq_map, Option.map_some, Option.getD_some]
  · simp only [if_neg same, Option.map_eq_map, Option.map_some, Option.getD_some]

theorem addChild_parent (old : id < nodes.length) :
    ((addChild nodes current pData).getD id {}).pParent = (nodes.getD id {}).pParent := by
  rw [addChild_old old]
  by_cases same : current = id
  · rw [if_pos same]
  · rw [if_neg same]

/-- The parent of each pointer in a stack is the next one, and the last one has none. -/
def Linked (nodes : List Node) : List Nat → Prop
  | [] => True
  | id :: stack =>
      id < nodes.length ∧ (nodes.getD id {}).pParent = stack.head? ∧ Linked nodes stack

theorem linked_first : Linked [{}] [0] := ⟨Nat.zero_lt_one, rfl, trivial⟩

variable {stack : List Nat}

theorem Linked.tail (linked : Linked nodes stack) : Linked nodes stack.tail := by
  cases stack with
  | nil => exact linked
  | cons id stack => exact linked.2.2

theorem Linked.drop (linked : Linked nodes stack) (count : Nat) :
    Linked nodes (stack.drop count) := by
  induction count generalizing stack with
  | zero => exact linked
  | succ count ih =>
      rw [Nat.add_comm, ← List.drop_drop, List.drop_one]
      exact ih linked.tail

theorem Linked.addChild (linked : Linked nodes stack) :
    Linked (addChild nodes current pData) stack := by
  induction stack with
  | nil => exact linked
  | cons id stack ih =>
      obtain ⟨old, parent, rest⟩ := linked
      refine ⟨?_, ?_, ih rest⟩
      · rw [length_addChild]
        exact Nat.lt_succ_of_lt old
      · rw [addChild_parent old]
        exact parent

theorem Linked.push (linked : Linked nodes (current :: stack)) :
    Linked (Json.addChild nodes current pData) (nodes.length :: current :: stack) := by
  refine ⟨?_, ?_, linked.addChild⟩
  · rw [length_addChild]
    exact Nat.lt_succ_self _
  · rw [addChild_new]
    rfl

end Nodes

def Phase.IsCounting : Phase → Prop
  | .counting _ _ => True
  | _ => False

def Phase.IsClosing : Phase → Prop
  | .closing _ => True
  | _ => False

/-- One pass of the outer loop, with the loop over the closing braces inside it. -/
def Iterates (jsonData : List Char) (head later : Parser) : Prop :=
  Loop.Through (pass jsonData) Phase.IsClosing (.parsing head) (.parsing later)

structure Cursor (text : Text Char) where
  rest : List Char
  suffix : rest <:+ text.chars
  /-- Whether `family_end` has been searched for. -/
  tracks : Bool
  stack : List Nat
  nodes : List Node
  linked : Linked nodes stack
  substrs : List SubstrCall
  within : ∀ call ∈ substrs, call.Within

namespace Cursor

variable {text : Text Char}

def parser (cursor : Cursor text) : Parser where
  dept := cursor.stack.length
  pos := place text.chars cursor.rest
  nodeEnd := place text.chars (seek delimiterNode cursor.rest)
  familyStart := place text.chars (seek delimiterFamilyStart cursor.rest)
  familyEnd :=
    if cursor.tracks then place text.chars (seek delimiterFamilyEnd cursor.rest) else npos
  pCurrent := cursor.stack.head?
  nodes := cursor.nodes
  substrs := cursor.substrs

/-- However the loop ends from the second cursor, it ends so from the first one. -/
def Leads (cursor later : Cursor text) : Prop :=
  ∀ ⦃result⦄, Loop.Ends (pass text.chars) (.parsing later.parser) result →
    Loop.Ends (pass text.chars) (.parsing cursor.parser) result

theorem Leads.trans {one two three : Cursor text} (first : one.Leads two)
    (second : two.Leads three) : one.Leads three := fun _ ended => first (second ended)

variable {cursor : Cursor text} {current : Nat} {stack : List Nat}

theorem substr_before (some : cursor.rest ≠ []) (set : List Char) :
    substr text.chars cursor.parser.pos
      (sizeSub (place text.chars (seek set cursor.rest)) cursor.parser.pos) =
        .some (before set cursor.rest) := by
  rw [← before_take set cursor.rest]
  exact substr_place text.short cursor.suffix some (seek_suffix set _)

theorem before_short (set : List Char) : (before set cursor.rest).length < npos :=
  ((List.takeWhile_prefix _).length_le.trans cursor.suffix.length_le).trans_lt text.short

theorem addNode_alone (alone : cursor.stack = []) (some : cursor.rest ≠ []) (set : List Char) :
    cursor.parser.addNode text.chars (place text.chars (seek set cursor.rest)) =
      .error .nullPointer := by
  obtain ⟨key, value, calls, sets, _⟩ := Node.set_ok (cursor.before_short set) cursor.parser.dept
  have none : cursor.parser.pCurrent = .none := congrArg List.head? alone
  simp only [Parser.addNode, substr_before some, sets, none]

def calls (cursor : Cursor text) (set : List Char) (setCalls : List SubstrCall) : List SubstrCall :=
  cursor.substrs ++
    ⟨cursor.parser.pos, place text.chars (seek set cursor.rest), text.chars.length⟩ :: setCalls

theorem calls_within (some : cursor.rest ≠ []) (set : List Char) {setCalls : List SubstrCall}
    (within : ∀ call ∈ setCalls, call.Within) :
    ∀ call ∈ cursor.calls set setCalls, call.Within := by
  have later := seek_suffix set cursor.rest
  have order : ¬place text.chars (seek set cursor.rest) < place text.chars cursor.rest := by
    rw [place_lt_place text.short (later.trans cursor.suffix) cursor.suffix]
    exact later.length_le.not_gt
  have inside : place text.chars cursor.rest ≤ text.chars.length := by
    rw [place_of_ne_nil some]
    exact Nat.sub_le _ _
  have here : SubstrCall.Within
      ⟨cursor.parser.pos, place text.chars (seek set cursor.rest), text.chars.length⟩ :=
    ⟨inside, not_lt.mp order⟩
  exact List.forall_mem_append.mpr ⟨cursor.within, List.forall_mem_cons.mpr ⟨here, within⟩⟩

theorem addNode_child (isStack : cursor.stack = current :: stack) (some : cursor.rest ≠ [])
    {set : List Char} {pData : Node} {setCalls : List SubstrCall}
    (sets : Node.set {} (before set cursor.rest) cursor.parser.dept = .ok (pData, setCalls)) :
    cursor.parser.addNode text.chars (place text.chars (seek set cursor.rest)) = .ok
      { cursor.parser with
        nodes := addChild cursor.nodes current pData
        substrs := cursor.calls set setCalls } := by
  have isCurrent : cursor.parser.pCurrent = .some current := congrArg List.head? isStack
  simp only [Parser.addNode, substr_before some, sets, isCurrent]
  rfl

/-- What one pass does: a child of `current` with this text. -/
structure Adds (cursor later : Cursor text) (str : List Char) : Prop where
  leads : cursor.Leads later
  adds : ∃ pData calls, Node.set {} str cursor.parser.dept = .ok (pData, calls) ∧
    later.nodes = addChild cursor.nodes (cursor.stack.headD 0) pData

/-- The loop over the closing braces, where this is the text from the next one on. -/
def closing (cursor : Cursor text) (inner : List Char) : Parser :=
  { cursor.parser with
    nodeEnd := place text.chars (seek delimiterNode inner)
    familyEnd := place text.chars (seek delimiterFamilyEnd inner) }

theorem closing_last (cursor : Cursor text) (inner : List Char) :
    ∃ later : Cursor text, (cursor.closing inner).closed text.chars = later.parser ∧
      later.rest = past delimiterNode (seek delimiterNode cursor.rest) ∧ later.tracks = true ∧
      later.stack = cursor.stack ∧ later.nodes = cursor.nodes := by
  have isEnd := (seek_suffix delimiterNode cursor.rest).trans cursor.suffix
  let later : Cursor text :=
    { cursor with
      rest := past delimiterNode (seek delimiterNode cursor.rest)
      suffix := (past_suffix _ _).trans isEnd
      tracks := true }
  have isPos : findFirstNotOf text.chars delimiterNode
      (findFirstOf text.chars delimiterNode (place text.chars cursor.rest)) =
        place text.chars later.rest := by
    rw [findFirstOf_place _ text.short cursor.suffix]
    exact findFirstNotOf_place _ text.short isEnd
  refine ⟨later, ?_, rfl, rfl, rfl, rfl⟩
  simp only [closing, parser, Parser.closed, isPos, findFirstOf_place _ text.short later.suffix]
  rfl

theorem closing_lt (cursor : Cursor text) {inner : List Char} (isInner : inner <:+ text.chars) :
    (cursor.closing inner).familyEnd < (cursor.closing inner).nodeEnd ↔
      '}' ∈ before delimiterNode inner :=
  (place_lt_place text.short ((seek_suffix _ _).trans isInner)
    ((seek_suffix _ _).trans isInner)).trans seek_length_lt

def pop (cursor : Cursor text) : Cursor text :=
  { cursor with stack := cursor.stack.tail, linked := cursor.linked.tail }

theorem closing_next (isStack : cursor.stack = current :: stack) {inner behind : List Char}
    (isInner : inner <:+ text.chars) (ends : '}' ∈ before delimiterNode inner)
    (isBrace : seek ['}'] inner = '}' :: behind) (isNode : seek [','] inner = seek [','] behind) :
    pass text.chars (.closing (cursor.closing inner)) =
      .inl (.closing (cursor.pop.closing behind)) := by
  have isHere : '}' :: behind <:+ text.chars := isBrace ▸ (seek_suffix _ _).trans isInner
  have linked := cursor.linked
  rw [isStack] at linked
  have high : 1 ≤ (cursor.closing inner).dept := by
    change 1 ≤ (cursor.stack.length : Int)
    rw [isStack, List.length_cons]
    omega
  have next : findFirstOf text.chars delimiterFamilyEnd ((cursor.closing inner).familyEnd + 1) =
      place text.chars (seek ['}'] behind) := by
    change findFirstOf _ _ (place text.chars (seek ['}'] inner) + 1) = _
    rw [isBrace]
    exact findFirstOf_after _ text.short isHere
  have isParent : (cursor.closing inner).getParent = .ok cursor.pop.stack.head? := by
    simp only [Parser.getParent, closing, parser, pop, isStack, List.head?_cons, List.tail_cons]
    exact congrArg Except.ok linked.2.1
  have less : (cursor.closing inner).dept - 1 = (cursor.pop.closing behind).dept := by
    change (cursor.stack.length : Int) - 1 = cursor.stack.tail.length
    rw [isStack, List.length_cons, List.tail_cons]
    omega
  have sameEnd : (cursor.closing inner).nodeEnd = (cursor.pop.closing behind).nodeEnd :=
    congrArg (place text.chars) isNode
  rw [pass, if_pos ⟨high, (cursor.closing_lt isInner).mpr ends⟩, Parser.closeOne, isParent]
  simp only [Except.map, next, less, sameEnd]
  rfl

/-- Each brace in front of the next comma takes a pointer off the stack, until it is empty. -/
theorem closing_through (cursor : Cursor text) {inner : List Char}
    (isInner : inner <:+ text.chars) :
    ∃ later : Cursor text,
      Loop.Through (pass text.chars) Phase.IsClosing (.closing (cursor.closing inner))
        (.parsing later.parser) ∧
      later.rest = past delimiterNode (seek delimiterNode cursor.rest) ∧ later.tracks = true ∧
      later.stack = cursor.stack.drop ((before delimiterNode inner).count '}') ∧
      later.nodes = cursor.nodes := by
  induction isStack : cursor.stack generalizing cursor inner with
  | nil =>
      obtain ⟨later, closed, isRest, tracks, same, nodes⟩ := cursor.closing_last inner
      refine ⟨later, .last ?_, isRest, tracks, ?_, nodes⟩
      · have low : ¬1 ≤ (cursor.closing inner).dept := by
          change ¬1 ≤ (cursor.stack.length : Int)
          rw [isStack]
          decide
        rw [pass, if_neg fun both => low both.1, closed]
      · rw [same, isStack, List.drop_nil]
  | cons current stack ih =>
      by_cases ends : '}' ∈ before delimiterNode inner
      · obtain ⟨behind, isBrace, isBefore, isNode⟩ := before_split ends
        have isBehind : behind <:+ text.chars :=
          (isBrace ▸ List.suffix_cons _ _).trans ((seek_suffix ['}'] inner).trans isInner)
        have isTail : cursor.pop.stack = stack := congrArg List.tail isStack
        obtain ⟨later, through, isRest, tracks, same, nodes⟩ := ih cursor.pop isBehind isTail
        have goes := cursor.closing_next isStack isInner ends isBrace isNode
        refine ⟨later, .more goes trivial through, isRest, tracks, ?_, nodes⟩
        have counted := count_of_split isBefore
        change later.stack = List.drop ((before [','] inner).count '}') (current :: stack)
        rw [same, counted, List.drop_succ_cons]
        rfl
      · obtain ⟨later, closed, isRest, tracks, same, nodes⟩ := cursor.closing_last inner
        refine ⟨later, .last ?_, isRest, tracks, ?_, nodes⟩
        · have stops := (cursor.closing_lt isInner).not.mpr ends
          rw [pass, if_neg fun both => stops both.2, closed]
        · rw [same, isStack, List.count_eq_zero.mpr ends, List.drop_zero]

theorem leads_of_iterates {later : Cursor text}
    (iterates : Iterates text.chars cursor.parser later.parser) : cursor.Leads later :=
  fun _ ended => iterates.ends ended

theorem Leads.adds {later : Cursor text} (leads : cursor.Leads later)
    (isStack : cursor.stack = current :: stack) {str : List Char} {pData : Node}
    {calls : List SubstrCall} (sets : Node.set {} str cursor.parser.dept = .ok (pData, calls))
    (nodes : later.nodes = addChild cursor.nodes current pData) : Adds cursor later str := by
  refine ⟨leads, pData, calls, sets, ?_⟩
  rw [nodes, isStack]
  rfl

section Branches

variable (isStack : cursor.stack = current :: stack)

theorem head_goes (some : cursor.rest ≠ []) : 0 ≤ cursor.parser.dept ∧ npos ≠ cursor.parser.pos :=
  ⟨Int.natCast_nonneg _, fun last => some ((npos_eq_place text.short).mp last)⟩

theorem familyStart_lt : cursor.parser.familyStart < cursor.parser.nodeEnd ↔
    '{' ∈ before delimiterNode cursor.rest :=
  (place_lt_place text.short ((seek_suffix _ _).trans cursor.suffix)
    ((seek_suffix _ _).trans cursor.suffix)).trans seek_length_lt

theorem familyEnd_lt : cursor.parser.familyEnd < cursor.parser.nodeEnd ↔
    cursor.tracks = true ∧ '}' ∈ before delimiterNode cursor.rest := by
  have isEnd := (seek_suffix delimiterNode cursor.rest).trans cursor.suffix
  rw [parser]
  by_cases tracks : cursor.tracks = true
  · rw [if_pos tracks, place_lt_place text.short ((seek_suffix _ _).trans cursor.suffix) isEnd]
    exact seek_length_lt.trans (iff_and_self.mpr fun _ => tracks) 
  · rw [if_neg tracks]
    exact iff_of_false (not_lt.mpr (place_le_npos text.short)) fun both => tracks both.1

theorem ne_nil_of_mem {char : Char} {set : List Char} (here : char ∈ before set cursor.rest) :
    cursor.rest ≠ [] := by
  intro none
  rw [none] at here
  cases here

include isStack

theorem adds_family (opens : '{' ∈ before delimiterNode cursor.rest) :
    ∃ later : Cursor text, Iterates text.chars cursor.parser later.parser ∧
      Adds cursor later (before delimiterFamilyStart cursor.rest) ∧
      later.rest = past delimiterFamilyStart (seek delimiterFamilyStart cursor.rest) ∧
      later.tracks = true ∧ later.stack = cursor.nodes.length :: cursor.stack := by
  have some := ne_nil_of_mem opens
  obtain ⟨key, value, setCalls, sets, within⟩ :=
    Node.set_ok (cursor.before_short delimiterFamilyStart) cursor.parser.dept
  have isStart := (seek_suffix delimiterFamilyStart cursor.rest).trans cursor.suffix
  let later : Cursor text :=
    { rest := past delimiterFamilyStart (seek delimiterFamilyStart cursor.rest)
      suffix := (past_suffix _ _).trans isStart
      tracks := true
      stack := cursor.nodes.length :: cursor.stack
      nodes := addChild cursor.nodes current { dept := cursor.parser.dept, key, value }
      linked := by
        have linked := cursor.linked
        rw [isStack] at linked ⊢
        exact linked.push
      substrs := cursor.calls delimiterFamilyStart setCalls
      within := calls_within some _ within }
  have added : cursor.parser.addNode text.chars cursor.parser.familyStart = .ok _ :=
    addNode_child isStack some sets
  have isPos : findFirstNotOf text.chars delimiterFamilyStart cursor.parser.familyStart =
      place text.chars later.rest := findFirstNotOf_place _ text.short isStart
  have goes : pass text.chars (.parsing cursor.parser) = .inl (.parsing later.parser) := by
    rw [pass, if_pos (head_goes some), if_pos (familyStart_lt.mpr opens), Parser.openFamily, added]
    simp only [Except.map, isPos, findFirstOf_place _ text.short later.suffix]
    rfl
  have iterates : Iterates text.chars cursor.parser later.parser := .last goes
  exact ⟨later, iterates, (leads_of_iterates iterates).adds isStack sets rfl, rfl, rfl, rfl⟩

theorem adds_member (some : cursor.rest ≠ [])
    (opensNot : '{' ∉ before delimiterNode cursor.rest)
    (endsNot : ¬(cursor.tracks = true ∧ '}' ∈ before delimiterNode cursor.rest)) :
    ∃ later : Cursor text, Iterates text.chars cursor.parser later.parser ∧
      Adds cursor later (before delimiterNode cursor.rest) ∧
      later.rest = past delimiterNode (seek delimiterNode cursor.rest) ∧
      later.tracks = cursor.tracks ∧ later.stack = cursor.stack := by
  obtain ⟨key, value, setCalls, sets, within⟩ :=
    Node.set_ok (cursor.before_short delimiterNode) cursor.parser.dept
  have isEnd := (seek_suffix delimiterNode cursor.rest).trans cursor.suffix
  let later : Cursor text :=
    { rest := past delimiterNode (seek delimiterNode cursor.rest)
      suffix := (past_suffix _ _).trans isEnd
      tracks := cursor.tracks
      stack := cursor.stack
      nodes := addChild cursor.nodes current { dept := cursor.parser.dept, key, value }
      linked := cursor.linked.addChild
      substrs := cursor.calls delimiterNode setCalls
      within := calls_within some _ within }
  have added : cursor.parser.addNode text.chars cursor.parser.nodeEnd = .ok _ :=
    addNode_child isStack some sets
  have isPos : findFirstNotOf text.chars delimiterNode cursor.parser.nodeEnd =
      place text.chars later.rest := findFirstNotOf_place _ text.short isEnd
  -- what was found before is still the first one
  have sameStart : later.parser.familyStart = cursor.parser.familyStart :=
    congrArg (place text.chars) (seek_past_seek (by decide) opensNot)
  have sameEnd : later.parser.familyEnd = cursor.parser.familyEnd := by
    change (if cursor.tracks then place text.chars (seek _ (past _ _)) else npos) =
      if cursor.tracks then place text.chars (seek _ cursor.rest) else npos
    by_cases tracks : cursor.tracks = true
    · have absent := not_and.mp endsNot tracks
      rw [if_pos tracks, if_pos tracks]
      exact congrArg (place text.chars) (seek_past_seek (by decide) absent)
    · rw [if_neg tracks, if_neg tracks]
  have goes : pass text.chars (.parsing cursor.parser) = .inl (.parsing later.parser) := by
    rw [pass, if_pos (head_goes some), if_neg (familyStart_lt.not.mpr opensNot),
      if_neg (familyEnd_lt.not.mpr endsNot), Parser.addMember, added]
    simp only [Except.map, isPos, findFirstOf_place _ text.short later.suffix]
    rw [← sameStart, ← sameEnd]
    rfl
  have iterates : Iterates text.chars cursor.parser later.parser := .last goes
  exact ⟨later, iterates, (leads_of_iterates iterates).adds isStack sets rfl, rfl, rfl, rfl⟩

theorem adds_last (opensNot : '{' ∉ before delimiterNode cursor.rest)
    (ends : cursor.tracks = true ∧ '}' ∈ before delimiterNode cursor.rest) :
    ∃ later : Cursor text, Iterates text.chars cursor.parser later.parser ∧
      Adds cursor later (before delimiterFamilyEnd cursor.rest) ∧
      later.rest = past delimiterNode (seek delimiterNode cursor.rest) ∧ later.tracks = true ∧
      later.stack = cursor.stack.drop ((before delimiterNode cursor.rest).count '}') := by
  have some := ne_nil_of_mem ends.2
  obtain ⟨key, value, setCalls, sets, within⟩ :=
    Node.set_ok (cursor.before_short delimiterFamilyEnd) cursor.parser.dept
  let child : Cursor text :=
    { cursor with
      nodes := addChild cursor.nodes current { dept := cursor.parser.dept, key, value }
      linked := cursor.linked.addChild
      substrs := cursor.calls delimiterFamilyEnd setCalls
      within := calls_within some _ within }
  obtain ⟨later, through, isRest, tracks, isLater, nodes⟩ := child.closing_through cursor.suffix
  have isFamilyEnd : cursor.parser.familyEnd =
      place text.chars (seek delimiterFamilyEnd cursor.rest) := if_pos ends.1
  have added : cursor.parser.addNode text.chars cursor.parser.familyEnd = .ok child.parser := by
    rw [isFamilyEnd]
    exact addNode_child isStack some sets
  have isNodeEnd : findFirstOf text.chars delimiterNode cursor.parser.familyEnd =
      place text.chars (seek delimiterNode cursor.rest) := by
    obtain ⟨behind, isBrace, _, same⟩ := before_split ends.2
    have passed : seek [','] ('}' :: behind) = seek [','] behind :=
      seek_cons_of_not_mem (by decide)
    rw [isFamilyEnd, findFirstOf_place _ text.short ((seek_suffix _ _).trans cursor.suffix)]
    refine congrArg (place text.chars) ?_
    change seek [','] (seek ['}'] cursor.rest) = seek [','] cursor.rest
    rw [isBrace, passed, same]
  have goes : pass text.chars (.parsing cursor.parser) =
      .inl (.closing (child.closing cursor.rest)) := by
    rw [pass, if_pos (head_goes some), if_neg (familyStart_lt.not.mpr opensNot),
      if_pos (familyEnd_lt.mpr ends), Parser.closeFamily, added]
    have same : child.parser.familyEnd = place text.chars (seek delimiterFamilyEnd cursor.rest) :=
      isFamilyEnd
    simp only [Except.map, isNodeEnd, same]
    rfl
  have iterates : Iterates text.chars cursor.parser later.parser := .more goes trivial through
  exact ⟨later, iterates, (leads_of_iterates iterates).adds isStack sets nodes, isRest, tracks,
    isLater⟩

end Branches

theorem pass_end (none : cursor.rest = []) :
    pass text.chars (.parsing cursor.parser) = .inr (.ok cursor.parser) := by
  have stops : ¬(0 ≤ cursor.parser.dept ∧ npos ≠ cursor.parser.pos) := fun both =>
    both.2 ((npos_eq_place text.short).mpr none)
  rw [pass, if_neg stops]

theorem pass_null (alone : cursor.stack = []) (some : cursor.rest ≠ []) :
    pass text.chars (.parsing cursor.parser) = .inr (.error .nullPointer) := by
  rw [pass, if_pos (head_goes some)]
  by_cases opens : '{' ∈ before delimiterNode cursor.rest
  · have stops : cursor.parser.addNode text.chars cursor.parser.familyStart = .error .nullPointer :=
      addNode_alone alone some _
    rw [if_pos (familyStart_lt.mpr opens), Parser.openFamily, stops]
    rfl
  · rw [if_neg (familyStart_lt.not.mpr opens)]
    by_cases ends : cursor.tracks = true ∧ '}' ∈ before delimiterNode cursor.rest
    · have isFamilyEnd : cursor.parser.familyEnd =
          place text.chars (seek delimiterFamilyEnd cursor.rest) := if_pos ends.1
      rw [if_pos (familyEnd_lt.mpr ends), Parser.closeFamily, isFamilyEnd,
        addNode_alone alone some]
      rfl
    · have stops : cursor.parser.addNode text.chars cursor.parser.nodeEnd = .error .nullPointer :=
        addNode_alone alone some _
      rw [if_neg (familyEnd_lt.not.mpr ends), Parser.addMember, stops]
      rfl

theorem ends_ok (none : cursor.rest = []) :
    Loop.Ends (pass text.chars) (.parsing cursor.parser) (.ok cursor.parser) :=
  .last (pass_end none)

theorem ends_null (alone : cursor.stack = []) (some : cursor.rest ≠ []) :
    Loop.Ends (pass text.chars) (.parsing cursor.parser) (.error .nullPointer) :=
  .last (pass_null alone some)

def first (text : Text Char) : Cursor text where
  rest := past delimiterFamilyStart text.chars
  suffix := past_suffix _ _
  tracks := false
  stack := [0]
  nodes := [{}]
  linked := linked_first
  substrs := []
  within := nofun

theorem start_eq (text : Text Char) : Parser.start text.chars = (first text).parser := by
  have isPos : findFirstNotOf text.chars delimiterFamilyStart 0 =
      place text.chars (first text).rest := findFirstNotOf_zero
  simp only [Parser.start, isPos, findFirstOf_place _ text.short (first text).suffix]
  rfl

/-- The loop that counts keys comes to the other one. -/
theorem counting_through (text : Text Char) (pos nodeCount : Nat) :
    Loop.Through (pass text.chars) Phase.IsCounting (.counting pos nodeCount)
      (.parsing (Parser.start text.chars)) := by
  induction left : text.chars.length - pos using Nat.strong_induction_on
    generalizing pos nodeCount with
  | _ bound ih =>
      by_cases found : npos ≠ findFirstOf text.chars delimiterKey (pos + 1)
      · obtain ⟨later, inside⟩ := findFirst_bounds (Ne.symm found)
        have goes : pass text.chars (.counting pos nodeCount) =
            .inl (.counting (findFirstOf text.chars delimiterKey (pos + 1)) (nodeCount + 1)) :=
          if_pos found
        have fewer : text.chars.length - findFirstOf text.chars delimiterKey (pos + 1) < bound := by
          change text.chars.length - findFirst _ _ _ < bound
          omega
        exact .more goes trivial (ih _ fewer _ (nodeCount + 1) rfl)
      · exact .last (if_neg found)

theorem parses_of_ends {result : Except ParseError Parser}
    (ended : Loop.Ends (pass text.chars) (.parsing (first text).parser) result) :
    Parses text result := by
  rw [← start_eq] at ended
  exact (counting_through text 0 0).ends ended

end Cursor

end ProjectPl.Json
