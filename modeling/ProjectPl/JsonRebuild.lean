import ProjectPl.JsonTree

/-!
`parse` on the text of a tree. Until a family was opened the position of the next closing brace is
not known, so the last leaf of an object without objects takes the brace into its value; with an
object among its members the whole tree is rebuilt.
-/

namespace ProjectPl.Json

open CppString

namespace Word

variable {char : Char}

theorem toLower_of_plain (plain : char.isLower ∨ char.isDigit) : char.toLower = char := by
  refine Char.toLower_eq_of_not_isUpper ?_
  rcases plain with lower | digit
  · exact Char.not_isUpper_of_isLower lower
  · intro upper
    simp only [Char.isDigit, Char.isUpper, Bool.and_eq_true, decide_eq_true_eq, ge_iff_le,
      UInt32.le_iff_toNat_le] at digit upper
    have least : 'A'.val.toNat = 65 := rfl
    have most : '9'.val.toNat = 57 := rfl
    omega

theorem absent (word : Word) (special : ¬(char.isLower ∨ char.isDigit)) : char ∉ word.chars :=
  fun member => special (word.plain char member)

theorem ne_of_mem (word : Word) (member : char ∈ word.chars) {other : Char}
    (special : ¬(other.isLower ∨ other.isDigit)) : char ≠ other :=
  fun same => word.absent special (same ▸ member)

theorem kept (word : Word) : Node.Kept word.chars := fun char member =>
  ⟨word.ne_of_mem member (by decide), toLower_of_plain (word.plain char member),
    word.ne_of_mem member (by decide), word.ne_of_mem member (by decide)⟩

end Word

/-! How the nodes grow while an object is read. -/

structure Grown (nodes later : List Node) (current : Nat) (ids : List Nat) : Prop where
  longer : nodes.length ≤ later.length
  here : later.getD current {} =
    { nodes.getD current {} with nodeList := (nodes.getD current {}).nodeList ++ ids }
  others : ∀ id < nodes.length, id ≠ current → later.getD id {} = nodes.getD id {}

section Grown

variable {nodes between later : List Node} {current inner : Nat} {ids more : List Nat}

theorem grown_addChild (old : current < nodes.length) (pData : Node) :
    Grown nodes (addChild nodes current pData) current [nodes.length] where
  longer := by
    rw [length_addChild]
    exact Nat.le_succ _
  here := by rw [addChild_old old, if_pos rfl]
  others := fun id bound other => by rw [addChild_old bound, if_neg (Ne.symm other)]

theorem Grown.trans (first : Grown nodes between current ids)
    (second : Grown between later current more) : Grown nodes later current (ids ++ more) where
  longer := first.longer.trans second.longer
  here := by rw [second.here, first.here, List.append_assoc]
  others := fun id bound other => by
    rw [second.others id (bound.trans_le first.longer) other, first.others id bound other]

theorem Grown.below (first : Grown nodes between current ids)
    (second : Grown between later inner more) (old : current < nodes.length)
    (new : nodes.length ≤ inner) : Grown nodes later current ids where
  longer := first.longer.trans second.longer
  here := by
    rw [second.others current (old.trans_le first.longer) (old.trans_le new).ne, first.here]
  others := fun id bound other => by
    rw [second.others id (bound.trans_le first.longer) (bound.trans_le new).ne,
      first.others id bound other]

theorem Child.stays {parent id : Nat} {key value : List Char}
    (child : Child nodes parent id key value) (longer : nodes.length ≤ later.length)
    (agree : later.getD id {} = nodes.getD id {}) : Child later parent id key value where
  behind := child.behind
  made := child.made.trans_le longer
  isKey := by rw [agree, child.isKey]
  isValue := by rw [agree, child.isValue]
  isParent := by rw [agree, child.isParent]

theorem Child.grows {parent id : Nat} {key value : List Char}
    (child : Child nodes parent id key value) (grown : Grown nodes later current ids) :
    Child later parent id key value := by
  by_cases here : id = current
  · subst here
    refine ⟨child.behind, child.made.trans_le grown.longer, ?_, ?_, ?_⟩
    · rw [grown.here, child.isKey]
    · rw [grown.here, child.isValue]
    · rw [grown.here, child.isParent]
  · exact child.stays grown.longer (grown.others id child.made here)

theorem Shows.stays {object : Object} {parent : Nat} (shown : Shows nodes object parent ids)
    (longer : nodes.length ≤ later.length)
    (agree : ∀ id, parent < id → id < nodes.length → later.getD id {} = nodes.getD id {}) :
    Shows later object parent ids := by
  induction object generalizing parent ids with
  | lastLeaf key value =>
      obtain ⟨id, isIds, child, none⟩ := shown
      have same := agree id child.behind child.made
      exact ⟨id, isIds, child.stays longer same, by rw [same, none]⟩
  | lastObject key inner ih =>
      obtain ⟨id, isIds, child, within⟩ := shown
      have same := agree id child.behind child.made
      refine ⟨id, isIds, child.stays longer same, ?_⟩
      rw [same]
      exact ih within fun other behind => agree other (child.behind.trans behind)
  | leaf key value others ih =>
      obtain ⟨id, rest, isIds, child, none, next⟩ := shown
      have same := agree id child.behind child.made
      exact ⟨id, rest, isIds, child.stays longer same, by rw [same, none], ih next agree⟩
  | object key inner others ihInner ih =>
      obtain ⟨id, rest, isIds, child, within, next⟩ := shown
      have same := agree id child.behind child.made
      refine ⟨id, rest, isIds, child.stays longer same, ?_, ih next agree⟩
      rw [same]
      exact ihInner within fun other behind => agree other (child.behind.trans behind)

end Grown

/-! Where the searches stop in the text of an object. -/

section Text

variable {key value : Word} {object : Object} {char : Char} {rest tail : List Char}

theorem leaf_absent (key value : Word) (special : ¬(char.isLower ∨ char.isDigit))
    (notColon : char ≠ ':') : char ∉ key.chars ++ ':' :: value.chars := by
  rw [List.mem_append, List.mem_cons]
  rintro (inKey | isColon | inValue)
  · exact key.absent special inKey
  · exact notColon isColon
  · exact value.absent special inValue

theorem head_absent (key : Word) (special : ¬(char.isLower ∨ char.isDigit))
    (notColon : char ≠ ':') : char ∉ key.chars ++ [':'] := by
  rw [List.mem_append, List.mem_singleton]
  rintro (inKey | isColon)
  · exact key.absent special inKey
  · exact notColon isColon

theorem word_head (key : Word) {back : List Char} (first : char ∈ (key.chars ++ back).head?) :
    char.isLower ∨ char.isDigit := by
  obtain ⟨letter, letters, isKey⟩ := List.exists_cons_of_ne_nil key.some
  rw [isKey, List.cons_append, List.head?_cons, Option.mem_some_iff] at first
  exact key.plain char (isKey ▸ first ▸ .head _)

theorem print_head (first : char ∈ (object.print ++ rest).head?) :
    char.isLower ∨ char.isDigit := by
  cases object with
  | lastLeaf key value => exact word_head key (List.append_assoc _ _ _ ▸ first)
  | lastObject key inner => exact word_head key (List.append_assoc _ _ _ ▸ first)
  | leaf key value others => exact word_head key (List.append_assoc _ _ _ ▸ first)
  | object key inner others => exact word_head key (List.append_assoc _ _ _ ▸ first)

theorem past_print (object : Object) (rest : List Char) {one : Char}
    (special : ¬(one.isLower ∨ one.isDigit)) :
    past [one] (object.print ++ rest) = object.print ++ rest := by
  refine past_of_head fun char first isOne => special ?_
  rw [← List.mem_singleton.mp isOne]
  exact print_head first

/-- The end of the text, or a comma with a member behind it. -/
structure Stops (tail : List Char) : Prop where
  seeks : seek delimiterNode tail = tail
  skips : past delimiterNode tail = tail.tail

theorem stops_nil : Stops [] := ⟨rfl, rfl⟩

theorem stops_comma (object : Object) (rest : List Char) :
    Stops (',' :: (object.print ++ rest)) where
  seeks := seek_cons_of_mem (mem_delimiterNode.mpr rfl)
  skips := by
    rw [past_cons_of_mem (mem_delimiterNode.mpr rfl)]
    exact past_print object rest (by decide)

theorem Stops.before_eq (stops : Stops tail) : before delimiterNode tail = [] := by
  have split := before_append_seek delimiterNode tail
  rw [stops.seeks] at split
  exact List.append_left_eq_self.mp split

end Text

namespace Cursor

variable {text : Text Char} {cursor later : Cursor text} {current : Nat} {stack : List Nat}

/-- A new node that has the key and the value of its text. -/
structure Makes (cursor later : Cursor text) (current : Nat) (key value : List Char) : Prop where
  leads : cursor.Leads later
  grown : Grown cursor.nodes later.nodes current [cursor.nodes.length]
  child : Child later.nodes current cursor.nodes.length key value
  bare : (later.nodes.getD cursor.nodes.length {}).nodeList = []

theorem Adds.makes {set key value : List Char} (adds : Adds cursor later (before set cursor.rest))
    (isStack : cursor.stack = current :: stack)
    (isText : before set cursor.rest = key ++ ':' :: value) (some : key ≠ [])
    (keptKey : Node.Kept key) (kept : Node.Kept value) :
    Makes cursor later current key value := by
  have short := cursor.before_short set
  have old : current < cursor.nodes.length := by
    have linked := cursor.linked
    rw [isStack] at linked
    exact linked.1
  obtain ⟨pData, calls, sets, nodes⟩ := adds.adds
  rw [isText] at short sets
  obtain ⟨others, made⟩ := Node.set_member some keptKey kept short cursor.parser.dept
  rw [made] at sets
  obtain ⟨isData, _⟩ := Prod.mk.inj (Except.ok.inj sets)
  rw [isStack, List.headD_cons, ← isData] at nodes
  have new : later.nodes.getD cursor.nodes.length {} = _ := nodes ▸ addChild_new
  refine ⟨adds.leads, ?_, ⟨old, ?_, ?_, ?_, ?_⟩, ?_⟩
  · rw [nodes]
    exact grown_addChild old _
  · rw [nodes, length_addChild]
    exact Nat.lt_succ_self _
  · rw [new]
  · rw [new]
  · rw [new]
  · rw [new]

section Members

variable (isStack : cursor.stack = current :: stack) {key value : Word}
include isStack

theorem makes_leaf {others : Object} {rest : List Char}
    (isRest : cursor.rest = key.chars ++ ':' :: value.chars ++ ',' :: (others.print ++ rest)) :
    ∃ later : Cursor text, Makes cursor later current key.chars value.chars ∧
      later.rest = others.print ++ rest ∧ later.tracks = cursor.tracks ∧
      later.stack = cursor.stack := by
  have noComma : ',' ∉ key.chars ++ ':' :: value.chars :=
    leaf_absent key value (by decide) (by decide)
  have isBefore : before delimiterNode cursor.rest = key.chars ++ ':' :: value.chars := by
    rw [isRest]
    exact before_here noComma _
  have isSeek : seek delimiterNode cursor.rest = ',' :: (others.print ++ rest) := by
    rw [isRest]
    exact seek_here noComma _
  have some : cursor.rest ≠ [] := by
    rw [isRest, List.append_assoc]
    exact List.append_ne_nil_of_left_ne_nil key.some _
  have opensNot : '{' ∉ before delimiterNode cursor.rest := by
    rw [isBefore]
    exact leaf_absent key value (by decide) (by decide)
  have endsNot : '}' ∉ before delimiterNode cursor.rest := by
    rw [isBefore]
    exact leaf_absent key value (by decide) (by decide)
  obtain ⟨later, _, adds, isLater, tracks, same⟩ :=
    adds_member isStack some opensNot fun both => endsNot both.2
  refine ⟨later, adds.makes isStack isBefore key.some key.kept value.kept, ?_, tracks, same⟩
  rw [isLater, isSeek, (stops_comma others rest).skips]
  rfl

theorem makes_object {inner : Object} {rest : List Char}
    (isRest : cursor.rest = key.chars ++ [':'] ++ '{' :: (inner.print ++ rest)) :
    ∃ later : Cursor text, Makes cursor later current key.chars [] ∧
      later.rest = inner.print ++ rest ∧ later.tracks = true ∧
      later.stack = cursor.nodes.length :: cursor.stack := by
  have noBrace : '{' ∉ key.chars ++ [':'] := head_absent key (by decide) (by decide)
  have noComma : ',' ∉ key.chars ++ [':'] := head_absent key (by decide) (by decide)
  have isText : before delimiterFamilyStart cursor.rest = key.chars ++ [':'] := by
    rw [isRest]
    exact before_here noBrace _
  have isSeek : seek delimiterFamilyStart cursor.rest = '{' :: (inner.print ++ rest) := by
    rw [isRest]
    exact seek_here noBrace _
  have opens : '{' ∈ before delimiterNode cursor.rest := by
    have isBefore := before_append noComma ('{' :: (inner.print ++ rest))
    rw [isRest, delimiterNode, isBefore, before_cons_of_not_mem (by decide)]
    exact List.mem_append_right _ (.head _)
  obtain ⟨later, _, adds, isLater, tracks, same⟩ := adds_family isStack opens
  refine ⟨later, adds.makes isStack isText key.some key.kept nofun, ?_, tracks, same⟩
  rw [isLater, isSeek, past_cons_of_mem (mem_delimiterFamilyStart.mpr rfl)]
  exact past_print inner rest (by decide)

theorem makes_lastLeaf (tracks : cursor.tracks = true) {count : Nat} {tail : List Char}
    (stops : Stops tail) (isRest : cursor.rest =
      key.chars ++ ':' :: value.chars ++ List.replicate (count + 1) '}' ++ tail) :
    ∃ later : Cursor text, Makes cursor later current key.chars value.chars ∧
      later.rest = tail.tail ∧ later.tracks = true ∧ later.stack = stack.drop count := by
  have noBrace : '}' ∉ key.chars ++ ':' :: value.chars :=
    leaf_absent key value (by decide) (by decide)
  have noComma : ',' ∉ key.chars ++ ':' :: value.chars ++ List.replicate (count + 1) '}' := by
    rw [List.mem_append]
    rintro (inLeaf | inBraces)
    · exact leaf_absent key value (by decide) (by decide) inLeaf
    · exact absurd (List.eq_of_mem_replicate inBraces) (by decide)
  have isText : before delimiterFamilyEnd cursor.rest = key.chars ++ ':' :: value.chars := by
    rw [isRest, List.append_assoc]
    exact before_here noBrace _
  have isBefore : before delimiterNode cursor.rest =
      key.chars ++ ':' :: value.chars ++ List.replicate (count + 1) '}' := by
    rw [isRest]
    refine (before_append noComma _).trans ?_
    have none := stops.before_eq
    rw [delimiterNode] at none
    rw [none, List.append_nil]
  have isSeek : seek delimiterNode cursor.rest = tail := by
    rw [isRest]
    exact (seek_append noComma _).trans stops.seeks
  have braces : (before delimiterNode cursor.rest).count '}' = count + 1 := by
    rw [isBefore, List.count_append, List.count_eq_zero.mpr noBrace, List.count_replicate_self,
      Nat.zero_add]
  have opensNot : '{' ∉ before delimiterNode cursor.rest := by
    rw [isBefore, List.mem_append]
    rintro (inLeaf | inBraces)
    · exact leaf_absent key value (by decide) (by decide) inLeaf
    · exact absurd (List.eq_of_mem_replicate inBraces) (by decide)
  have ends : '}' ∈ before delimiterNode cursor.rest := by
    rw [← List.count_pos_iff, braces]
    exact Nat.succ_pos _
  obtain ⟨later, _, adds, isLater, tracks, same⟩ := adds_last isStack opensNot ⟨tracks, ends⟩
  refine ⟨later, adds.makes isStack isText key.some key.kept value.kept, ?_, tracks, ?_⟩
  · rw [isLater, isSeek, stops.skips]
  · rw [same, braces, isStack, List.drop_succ_cons]

end Members

structure Reads (cursor last : Cursor text) (object : Object) (current : Nat) (stack : List Nat)
    (tail : List Char) : Prop where
  leads : cursor.Leads last
  isRest : last.rest = tail.tail
  isStack : last.stack = stack
  shown : ∃ ids, Grown cursor.nodes last.nodes current ids ∧ Shows last.nodes object current ids

theorem current_lt (isStack : cursor.stack = current :: stack) : current < cursor.nodes.length := by
  have linked := cursor.linked
  rw [isStack] at linked
  exact linked.1

theorem Makes.below {last : Cursor text} {key : List Char} {inner : Object} {ids : List Nat}
    (makes : Makes cursor later current key []) (old : current < cursor.nodes.length)
    (grown : Grown later.nodes last.nodes cursor.nodes.length ids)
    (shown : Shows last.nodes inner cursor.nodes.length ids) :
    Grown cursor.nodes last.nodes current [cursor.nodes.length] ∧
      Child last.nodes current cursor.nodes.length key [] ∧
      Shows last.nodes inner cursor.nodes.length
        (last.nodes.getD cursor.nodes.length {}).nodeList := by
  refine ⟨makes.grown.below grown old le_rfl, makes.child.grows grown, ?_⟩
  rw [grown.here, makes.bare]
  exact shown

/-- By induction on the object: the pointers behind `pCurrent` are those it is read below. -/
theorem reads_object {object : Object} {count : Nat} {tail : List Char} (stops : Stops tail)
    (isStack : cursor.stack = current :: stack)
    (knows : cursor.tracks = true ∨ object.hasObject = true)
    (isRest : cursor.rest = object.print ++ (List.replicate (count + 1) '}' ++ tail)) :
    ∃ last : Cursor text, Reads cursor last object current (stack.drop count) tail ∧
      last.tracks = true := by
  induction object generalizing cursor current stack count tail with
  | lastLeaf key value =>
      have tracks := knows.resolve_right Bool.false_ne_true
      rw [Object.print, ← List.append_assoc] at isRest
      obtain ⟨last, makes, isLast, tracked, isDropped⟩ :=
        makes_lastLeaf isStack tracks stops isRest
      exact ⟨last, ⟨makes.leads, isLast, isDropped, _, makes.grown, _, rfl, makes.child,
        makes.bare⟩, tracked⟩
  | lastObject key inner ih =>
      have whole : cursor.rest = key.chars ++ [':'] ++ '{' ::
          (inner.print ++ (List.replicate (count + 1 + 1) '}' ++ tail)) := by
        rw [isRest, Object.print]
        simp only [List.append_assoc, List.cons_append, List.nil_append, List.replicate_succ]
      obtain ⟨opened, makes, isOpened, tracks, onTop⟩ := makes_object isStack whole
      rw [isStack] at onTop
      obtain ⟨last, reads, tracked⟩ := ih stops onTop (.inl tracks) isOpened
      obtain ⟨ids, grown, shown⟩ := reads.shown
      obtain ⟨grown, child, members⟩ := makes.below (current_lt isStack) grown shown
      exact ⟨last, ⟨makes.leads.trans reads.leads, reads.isRest, reads.isStack, _, grown, _, rfl,
        child, members⟩, tracked⟩
  | leaf key value others ih =>
      have whole : cursor.rest = key.chars ++ ':' :: value.chars ++ ',' ::
          (others.print ++ (List.replicate (count + 1) '}' ++ tail)) := by
        rw [isRest, Object.print]
        simp only [List.append_assoc, List.cons_append]
      obtain ⟨next, makes, isNext, tracks, same⟩ := makes_leaf isStack whole
      rw [isStack] at same
      rw [← tracks] at knows
      obtain ⟨last, reads, tracked⟩ := ih stops same knows isNext
      obtain ⟨ids, grown, shown⟩ := reads.shown
      have stays := grown.others _ makes.child.made (current_lt isStack).ne'
      refine ⟨last, ⟨makes.leads.trans reads.leads, reads.isRest, reads.isStack, _,
        makes.grown.trans grown, _, _, rfl, makes.child.grows grown, ?_, shown⟩, tracked⟩
      rw [stays, makes.bare]
  | object key inner others ihInner ih =>
      have whole : cursor.rest = key.chars ++ [':'] ++ '{' :: (inner.print ++
          (List.replicate (0 + 1) '}' ++
            ',' :: (others.print ++ (List.replicate (count + 1) '}' ++ tail)))) := by
        rw [isRest, Object.print]
        simp only [List.append_assoc, List.cons_append, List.nil_append, List.replicate_succ,
          List.replicate_zero]
      obtain ⟨opened, makes, isOpened, tracks, onTop⟩ := makes_object isStack whole
      rw [isStack] at onTop
      obtain ⟨between, reads, tracked⟩ :=
        ihInner (stops_comma others _) onTop (.inl tracks) isOpened
      obtain ⟨last, readsOthers, trackedLast⟩ := ih stops reads.isStack (.inl tracked) reads.isRest
      obtain ⟨ids, grown, shown⟩ := reads.shown
      obtain ⟨more, grownOthers, shownOthers⟩ := readsOthers.shown
      have old := current_lt isStack
      obtain ⟨grown, child, members⟩ := makes.below old grown shown
      refine ⟨last, ⟨makes.leads.trans (reads.leads.trans readsOthers.leads), readsOthers.isRest,
        readsOthers.isStack, _, grown.trans grownOthers, _, _, rfl, child.grows grownOthers, ?_,
        shownOthers⟩, trackedLast⟩
      -- the node of this object and those behind it stay when the others are read
      rw [grownOthers.others _ child.made old.ne']
      exact members.stays grownOthers.longer fun id behind bound =>
        grownOthers.others id bound (old.trans behind).ne'

theorem kept_brace (value : Word) : Node.Kept (value.chars ++ ['}']) := by
  intro char member
  rcases List.mem_append.mp member with inValue | isBrace
  · exact value.kept char inValue
  · rw [List.mem_singleton.mp isBrace]
    decide

theorem makes_brace (isStack : cursor.stack = current :: stack) (unknown : cursor.tracks = false)
    {key value : Word} (isRest : cursor.rest = key.chars ++ ':' :: value.chars ++ ['}']) :
    ∃ last : Cursor text,
      Makes cursor last current key.chars (value.chars ++ ['}']) ∧ last.rest = [] := by
  have whole : cursor.rest = key.chars ++ ':' :: (value.chars ++ ['}']) := by
    rw [isRest, List.append_assoc]
    rfl
  have absent {char : Char} (special : ¬(char.isLower ∨ char.isDigit)) (notColon : char ≠ ':')
      (notBrace : char ≠ '}') : char ∉ cursor.rest := by
    rw [isRest, List.mem_append, List.mem_singleton]
    rintro (inLeaf | isBrace)
    · exact leaf_absent key value special notColon inLeaf
    · exact notBrace isBrace
  have noComma : ',' ∉ cursor.rest := absent (by decide) (by decide) (by decide)
  have isBefore : before delimiterNode cursor.rest = cursor.rest := by
    have taken := before_append noComma []
    rw [List.append_nil] at taken
    exact taken.trans (List.append_nil _)
  have isSeek : seek delimiterNode cursor.rest = [] := by
    have found := seek_append noComma []
    rw [List.append_nil] at found
    exact found
  have opensNot : '{' ∉ before delimiterNode cursor.rest := by
    rw [isBefore]
    exact absent (by decide) (by decide) (by decide)
  have endsNot : ¬(cursor.tracks = true ∧ '}' ∈ before delimiterNode cursor.rest) := by
    rw [unknown]
    exact fun both => Bool.false_ne_true both.1
  have some : cursor.rest ≠ [] := by
    rw [whole]
    exact List.append_ne_nil_of_left_ne_nil key.some _
  obtain ⟨last, _, adds, isLast, _⟩ := adds_member isStack some opensNot endsNot
  refine ⟨last, adds.makes isStack (isBefore.trans whole) key.some key.kept (kept_brace value), ?_⟩
  rw [isLast, isSeek]
  rfl

/-- In an object without objects the last value takes the closing brace. -/
theorem misreads_object {object : Object} (flat : object.hasObject = false)
    (isStack : cursor.stack = current :: stack) (unknown : cursor.tracks = false)
    (isRest : cursor.rest = object.print ++ ['}']) :
    ∃ (last : Cursor text) (ids : List Nat), cursor.Leads last ∧ last.rest = [] ∧
      Grown cursor.nodes last.nodes current ids ∧ ¬Shows last.nodes object current ids := by
  induction object generalizing cursor with
  | lastLeaf key value =>
      obtain ⟨last, makes, ends⟩ := makes_brace isStack unknown isRest
      refine ⟨last, _, makes.leads, ends, makes.grown, ?_⟩
      rintro ⟨id, isIds, child, _⟩
      cases isIds
      have same := child.isValue.symm.trans makes.child.isValue
      exact absurd same (by simp)
  | lastObject key inner _ => cases flat
  | leaf key value others ih =>
      have whole : cursor.rest = key.chars ++ ':' :: value.chars ++ ',' ::
          (others.print ++ ['}']) := by
        rw [isRest, Object.print]
        simp only [List.append_assoc, List.cons_append]
      obtain ⟨next, makes, isNext, tracks, same⟩ := makes_leaf isStack whole
      rw [isStack] at same
      rw [unknown] at tracks
      obtain ⟨last, ids, leads, ends, grown, shownNot⟩ := ih flat same tracks isNext
      refine ⟨last, _, makes.leads.trans leads, ends, makes.grown.trans grown, ?_⟩
      rintro ⟨id, rest, isIds, _, _, shown⟩
      cases isIds
      exact shownNot shown
  | object key inner others _ _ => cases flat

end Cursor

theorem first_rest (document : Document) :
    (Cursor.first document.text).rest = document.root.print ++ ['}'] := by
  change past delimiterFamilyStart ('{' :: (document.root.print ++ ['}'])) = _
  rw [past_cons_of_mem (mem_delimiterFamilyStart.mpr rfl)]
  exact past_print document.root _ (by decide)

theorem not_rebuilds {document : Document} (flat : document.root.hasObject = false) :
    ¬Rebuilds document := by
  rintro ⟨parser, parses, shown, _⟩
  have isStack : (Cursor.first document.text).stack = [0] := rfl
  obtain ⟨last, ids, leads, none, grown, shownNot⟩ :=
    Cursor.misreads_object flat isStack rfl (first_rest document)
  have ended := Cursor.parses_of_ends (leads (Cursor.ends_ok none))
  have same : parser = last.parser := Except.ok.inj (parses.unique ended)
  have isList : (last.nodes.getD 0 {}).nodeList = ids := by
    rw [grown.here]
    rfl
  rw [same] at shown
  exact shownNot (isList ▸ shown)

/-- `parse` rebuilds a tree if one of the members of its root is an object. -/
theorem rebuilds_iff (document : Document) :
    Rebuilds document ↔ document.root.hasObject = true := by
  constructor
  · intro rebuilds
    by_contra flat
    exact not_rebuilds (Bool.eq_false_iff.mpr flat) rebuilds
  · intro some
    have isStack : (Cursor.first document.text).stack = [0] := rfl
    have isRest : (Cursor.first document.text).rest =
        document.root.print ++ (List.replicate (0 + 1) '}' ++ []) := first_rest document
    obtain ⟨last, reads, _⟩ := Cursor.reads_object stops_nil isStack (.inr some) isRest
    have ended := Cursor.parses_of_ends (reads.leads (Cursor.ends_ok reads.isRest))
    obtain ⟨ids, grown, shown⟩ := reads.shown
    have root : ShowsEntry last.nodes 0 (.object document.root) := by
      rw [ShowsEntry, grown.here]
      exact shown
    exact ⟨last.parser, ended, root, root.path⟩

/-- The object of one leaf: its value is read with the brace. -/
theorem flat_not_rebuilt : ∃ document : Document,
    document.text.chars = "{a:b}".toList ∧ ¬Rebuilds document := by
  have plainKey : ∀ char ∈ ['a'], char.isLower ∨ char.isDigit :=
    List.forall_mem_singleton.mpr (.inl rfl)
  have plainValue : ∀ char ∈ ['b'], char.isLower ∨ char.isDigit :=
    List.forall_mem_singleton.mpr (.inl rfl)
  let root : Object := .lastLeaf ⟨['a'], List.cons_ne_nil _ _, plainKey⟩
    ⟨['b'], List.cons_ne_nil _ _, plainValue⟩
  have five : 5 < npos := by decide
  have short : ('{' :: (root.print ++ ['}'])).length < npos := five
  exact ⟨⟨root, short⟩, rfl, not_rebuilds rfl⟩

end ProjectPl.Json
