import ProjectPl.JsonCursor

/-!
On which texts `parse` is safe. The loop goes on while `dept` is zero, where `pCurrent` is null: the
braces that close behind one member may leave it so, and the next member is then added to no node.
The condition compares the braces of the members, which are the texts between the commas.
-/

namespace ProjectPl.Json

open CppString

/-- `pCurrent` is never null where it is used, and each call of `substr` is within its string. -/
def Safe (text : Text Char) : Prop :=
  ∃ parser, Parses text (.ok parser) ∧ ∀ call ∈ parser.substrs, call.Within

/-- The texts between runs of commas. Only the first one may be empty. -/
def members (rest : List Char) : List (List Char) :=
  if rest = [] then []
  else (rest.splitOn ',').take 1 ++ ((rest.splitOn ',').drop 1).filter (· ≠ [])

def membersOf (text : Text Char) : List (List Char) :=
  members (past delimiterFamilyStart text.chars)

/-- The opening braces that no other one follows at once: a run of them opens one family. -/
def opened : List Char → Nat
  | [] => 0
  | char :: rest => opened rest + if char = '{' ∧ rest.head? ≠ some '{' then 1 else 0

/-- The closing braces with no opening one behind them. -/
def closed : List Char → Nat
  | [] => 0
  | char :: rest => closed rest + if char = '}' ∧ '{' ∉ rest then 1 else 0

def opens (ms : List (List Char)) : Nat := (ms.map opened).sum

/-- In front of the first opening brace no closing one counts. -/
def closes (ms : List (List Char)) : Nat := ((ms.dropWhile ('{' ∉ ·)).map closed).sum

section Members

variable {rest : List Char}

theorem filter_splitOn (rest : List Char) :
    (rest.splitOn ',').filter (· ≠ []) = members (past delimiterNode rest) := by
  induction rest with
  | nil => rfl
  | cons char rest ih =>
      rw [List.splitOn_cons_eq_if_modifyHead]
      by_cases comma : char = ','
      · rw [if_pos (beq_iff_eq.mpr comma), past_cons_of_mem (mem_delimiterNode.mpr comma), ← ih]
        exact List.filter_cons_of_neg (by simp)
      · rw [past_cons_of_not_mem (mem_delimiterNode.not.mpr comma), members,
          if_neg (List.cons_ne_nil _ _), List.splitOn_cons_eq_if_modifyHead,
          if_neg fun same => comma (beq_iff_eq.mp same)]
        obtain ⟨first, others, split⟩ := List.exists_cons_of_ne_nil (List.splitOn_ne_nil ',' rest)
        rw [split]
        exact List.filter_cons_of_pos (by simp)

theorem members_cons (some : rest ≠ []) : members rest =
    before delimiterNode rest :: members (past delimiterNode (seek delimiterNode rest)) := by
  have split := before_append_seek delimiterNode rest
  have noComma : ',' ∉ before delimiterNode rest := fun member =>
    not_mem_of_mem_before member (.head _)
  rw [members, if_neg some]
  cases found : seek delimiterNode rest with
  | nil =>
      rw [found, List.append_nil] at split
      rw [split] at noComma ⊢
      rw [List.splitOn_eq_singleton noComma]
      rfl
  | cons char later =>
      have comma : char = ',' := mem_delimiterNode.mp (mem_of_seek_eq_cons found)
      rw [found] at split
      have parts : rest.splitOn ',' = before delimiterNode rest :: later.splitOn ',' := by
        rw [comma] at split
        rw [← List.splitOn_append_cons_self_of_not_mem noComma, split]
      rw [parts, past_cons_of_mem (mem_delimiterNode.mpr comma), ← filter_splitOn]
      rfl

end Members

section Braces

variable {m : List Char}

theorem opened_of_not_mem (none : '{' ∉ m) : opened m = 0 := by
  induction m with
  | nil => rfl
  | cons char m ih =>
      obtain ⟨notThis, notLater⟩ := not_or.mp (List.mem_cons.not.mp none)
      rw [opened, ih notLater, if_neg fun both => notThis both.1.symm]

theorem closed_of_not_mem (none : '{' ∉ m) : closed m = m.count '}' := by
  induction m with
  | nil => rfl
  | cons char m ih =>
      obtain ⟨_, notLater⟩ := not_or.mp (List.mem_cons.not.mp none)
      rw [closed, ih notLater, List.count_cons]
      by_cases brace : char = '}'
      · rw [if_pos ⟨brace, notLater⟩, if_pos (beq_iff_eq.mpr brace)]
      · rw [if_neg fun both => brace both.1, if_neg fun same => brace (beq_iff_eq.mp same)]

theorem opened_closed_of_mem (here : '{' ∈ m) :
    opened m = opened (past delimiterFamilyStart (seek delimiterFamilyStart m)) + 1 ∧
      closed m = closed (past delimiterFamilyStart (seek delimiterFamilyStart m)) := by
  induction m with
  | nil => cases here
  | cons char m ih =>
      by_cases brace : char = '{'
      · have isBrace : char ∈ delimiterFamilyStart := mem_delimiterFamilyStart.mpr brace
        have notEnd : ¬(char = '}' ∧ '{' ∉ m) := by
          rintro ⟨ends, _⟩
          rw [brace] at ends
          exact absurd ends (by decide)
        rw [seek_cons_of_mem isBrace, past_cons_of_mem isBrace, opened, closed, if_neg notEnd]
        by_cases again : m.head? = some '{'
        · obtain ⟨later, rfl⟩ := List.head?_eq_some_iff.mp again
          obtain ⟨isOpened, isClosed⟩ := ih (.head _)
          rw [seek_cons_of_mem (mem_delimiterFamilyStart.mpr rfl)] at isOpened isClosed
          rw [if_neg fun both => both.2 again]
          exact ⟨isOpened, isClosed⟩
        · have stays : past delimiterFamilyStart m = m := by
            cases m with
            | nil => rfl
            | cons other m =>
                refine past_cons_of_not_mem fun isOne => again ?_
                rw [List.head?_cons, mem_delimiterFamilyStart.mp isOne]
          rw [if_pos ⟨brace, again⟩, stays]
          exact ⟨rfl, rfl⟩
      · have later : '{' ∈ m := (List.mem_cons.mp here).resolve_left (Ne.symm brace)
        have notBrace : char ∉ delimiterFamilyStart := mem_delimiterFamilyStart.not.mpr brace
        rw [seek_cons_of_not_mem notBrace, opened, closed, if_neg fun both => brace both.1,
          if_neg fun both => both.2 later]
        exact ih later

end Braces

/-! What the loop does with the members of the text. -/

def tracksAfter (tracks : Bool) (m : List Char) : Bool := tracks || decide ('{' ∈ m)

def heightAfter (tracks : Bool) (height : Nat) (m : List Char) : Nat :=
  height + opened m - if tracksAfter tracks m then closed m else 0

def Holds : Bool → Nat → List (List Char) → Prop
  | _, _, [] => True
  | tracks, height, m :: ms =>
      0 < height ∧ Holds (tracksAfter tracks m) (heightAfter tracks height m) ms

section Height

variable {tracks : Bool} {m : List Char}

theorem tracksAfter_of_mem (here : '{' ∈ m) : tracksAfter tracks m = true := by
  rw [tracksAfter, decide_eq_true here, Bool.or_true]

theorem tracksAfter_of_not_mem (none : '{' ∉ m) : tracksAfter tracks m = tracks := by
  rw [tracksAfter, decide_eq_false none, Bool.or_false]

theorem heightAfter_family (here : '{' ∈ m) (height : Nat) :
    heightAfter true (height + 1) (past delimiterFamilyStart (seek delimiterFamilyStart m)) =
      heightAfter tracks height m := by
  obtain ⟨isOpened, isClosed⟩ := opened_closed_of_mem here
  rw [heightAfter, heightAfter, tracksAfter_of_mem here, isOpened, isClosed, Nat.add_right_comm,
    Nat.add_assoc height]
  rfl

end Height

namespace Cursor

variable {text : Text Char}

theorem family_rest {rest : List Char} (opens : '{' ∈ before delimiterNode rest) :
    before delimiterNode (past delimiterFamilyStart (seek delimiterFamilyStart rest)) =
        past delimiterFamilyStart (seek delimiterFamilyStart (before delimiterNode rest)) ∧
      seek delimiterNode (past delimiterFamilyStart (seek delimiterFamilyStart rest)) =
        seek delimiterNode rest :=
  ⟨(before_past (by decide)).trans (congrArg (past _) (before_seek opens)),
    seek_past_seek_first (by decide) opens⟩

theorem plain_leads (cursor : Cursor text) (some : cursor.rest ≠ []) {current : Nat}
    {stack : List Nat} (isStack : cursor.stack = current :: stack)
    (isOpen : '{' ∉ before delimiterNode cursor.rest) :
    ∃ later : Cursor text, cursor.Leads later ∧
      later.rest = past delimiterNode (seek delimiterNode cursor.rest) ∧
      later.tracks = tracksAfter cursor.tracks (before delimiterNode cursor.rest) ∧
      later.stack.length =
        heightAfter cursor.tracks cursor.stack.length (before delimiterNode cursor.rest) := by
  have noneOpened := opened_of_not_mem isOpen
  have counted := closed_of_not_mem isOpen
  have same : tracksAfter cursor.tracks (before delimiterNode cursor.rest) = cursor.tracks :=
    tracksAfter_of_not_mem isOpen
  by_cases ends : cursor.tracks = true ∧ '}' ∈ before delimiterNode cursor.rest
  · obtain ⟨later, _, adds, isRest, tracks, isLater⟩ := adds_last isStack isOpen ends
    refine ⟨later, adds.leads, isRest, ?_, ?_⟩
    · rw [tracks, same, ends.1]
    · rw [isLater, List.length_drop, heightAfter, same, if_pos ends.1, noneOpened, counted]
      rfl
  · obtain ⟨later, _, adds, isRest, tracks, isLater⟩ := adds_member isStack some isOpen ends
    refine ⟨later, adds.leads, isRest, ?_, ?_⟩
    · rw [tracks, same]
    · rw [isLater, heightAfter, same, noneOpened]
      by_cases tracked : cursor.tracks = true
      · have none := List.count_eq_zero.mpr (not_and.mp ends tracked)
        rw [if_pos tracked, counted, none]
        rfl
      · rw [if_neg tracked]
        rfl

theorem member_leads (cursor : Cursor text) (some : cursor.rest ≠ [])
    (parent : 0 < cursor.stack.length) :
    ∃ later : Cursor text, cursor.Leads later ∧
      later.rest = past delimiterNode (seek delimiterNode cursor.rest) ∧
      later.tracks = tracksAfter cursor.tracks (before delimiterNode cursor.rest) ∧
      later.stack.length =
        heightAfter cursor.tracks cursor.stack.length (before delimiterNode cursor.rest) := by
  induction left : cursor.rest.length using Nat.strong_induction_on generalizing cursor with
  | _ size ih =>
      obtain ⟨current, stack, isStack⟩ := List.exists_cons_of_length_pos parent
      by_cases isOpen : '{' ∈ before delimiterNode cursor.rest
      · -- a family is opened, and what is left of the member comes next
        obtain ⟨inner, _, adds, isRest, tracks, isInner⟩ := adds_family isStack isOpen
        obtain ⟨isBefore, isSeek⟩ := family_rest isOpen
        rw [← isRest] at isBefore isSeek
        have higher : inner.stack.length = cursor.stack.length + 1 := by
          rw [isInner, List.length_cons]
        have height :
            heightAfter inner.tracks inner.stack.length (before delimiterNode inner.rest) =
              heightAfter cursor.tracks cursor.stack.length (before delimiterNode cursor.rest) := by
          rw [tracks, higher, isBefore]
          exact heightAfter_family isOpen _
        by_cases none : inner.rest = []
        · refine ⟨inner, adds.leads, ?_, ?_, ?_⟩
          · rw [← isSeek, none]
            rfl
          · rw [tracks, tracksAfter_of_mem isOpen]
          · rw [← height, none, tracks]
            rfl
        · have shorter : inner.rest.length < size := by
            rw [isRest, ← left]
            exact past_seek_length_lt _ some
          have parent : 0 < inner.stack.length := by
            rw [higher]
            exact Nat.succ_pos _
          obtain ⟨later, leads, isLater, tracksLater, isHeight⟩ :=
            ih _ shorter inner none parent rfl
          refine ⟨later, adds.leads.trans leads, ?_, ?_, ?_⟩
          · rw [isLater, isSeek]
          · rw [tracksLater, tracks, tracksAfter_of_mem isOpen]
            rfl
          · rw [isHeight, height]
      · exact cursor.plain_leads some isStack isOpen

/-- The whole text: the loop comes to its end, or to a member that has no parent. -/
theorem run_leads (cursor : Cursor text) :
    ∃ last : Cursor text, cursor.Leads last ∧
      (Holds cursor.tracks cursor.stack.length (members cursor.rest) ∧ last.rest = [] ∨
        ¬Holds cursor.tracks cursor.stack.length (members cursor.rest) ∧ last.rest ≠ [] ∧
          last.stack = []) := by
  induction left : cursor.rest.length using Nat.strong_induction_on generalizing cursor with
  | _ size ih =>
      by_cases none : cursor.rest = []
      · refine ⟨cursor, fun _ ended => ended, .inl ⟨?_, none⟩⟩
        rw [none]
        trivial
      · rw [members_cons none, Holds]
        by_cases parent : 0 < cursor.stack.length
        · obtain ⟨later, leads, isRest, tracks, height⟩ := cursor.member_leads none parent
          have shorter : later.rest.length < size := by
            rw [isRest, ← left]
            exact past_seek_length_lt _ none
          obtain ⟨last, more, outcome⟩ := ih _ shorter later rfl
          rw [isRest, tracks, height] at outcome
          refine ⟨last, leads.trans more, ?_⟩
          rw [and_iff_right parent]
          exact outcome
        · refine ⟨cursor, fun _ ended => ended, .inr ⟨fun holds => parent holds.1, none, ?_⟩⟩
          exact List.length_eq_zero_iff.mp (Nat.eq_zero_of_not_pos parent)

end Cursor

def closesFrom (tracks : Bool) (ms : List (List Char)) : Nat :=
  if tracks then (ms.map closed).sum else closes ms

theorem closesFrom_cons (tracks : Bool) (m : List Char) (ms : List (List Char)) :
    closesFrom tracks (m :: ms) =
      (if tracksAfter tracks m then closed m else 0) + closesFrom (tracksAfter tracks m) ms := by
  cases tracks with
  | true => rfl
  | false =>
      by_cases isOpen : '{' ∈ m
      · have after : tracksAfter false m = true := decide_eq_true isOpen
        have stays : (m :: ms).dropWhile ('{' ∉ ·) = m :: ms :=
          List.dropWhile_cons_of_neg (by simpa using isOpen)
        rw [after, closesFrom, closes, stays]
        rfl
      · have after : tracksAfter false m = false := decide_eq_false isOpen
        have drops : (m :: ms).dropWhile ('{' ∉ ·) = ms.dropWhile ('{' ∉ ·) :=
          List.dropWhile_cons_of_pos (by simpa using isOpen)
        rw [after, closesFrom, closes, drops]
        exact (Nat.zero_add _).symm

theorem closesFrom_nil (tracks : Bool) : closesFrom tracks [] = 0 := by
  cases tracks with
  | true => rfl
  | false => rfl

theorem opens_cons (m : List Char) (ms : List (List Char)) :
    opens (m :: ms) = opened m + opens ms := by
  rw [opens, List.map_cons, List.sum_cons]
  rfl

theorem holds_iff (tracks : Bool) (height : Nat) (ms : List (List Char)) :
    Holds tracks height ms ↔
      ∀ count < ms.length, closesFrom tracks (ms.take count) < height + opens (ms.take count) := by
  induction ms generalizing tracks height with
  | nil => exact iff_of_true trivial nofun
  | cons m ms ih =>
      rw [Holds, ih]
      constructor
      · rintro ⟨parent, later⟩ count bound
        cases count with
        | zero =>
            rw [List.take_zero, closesFrom_nil]
            exact parent
        | succ count =>
            -- the stack is not empty behind this member, so nothing is cut off
            have inside := Nat.lt_of_succ_lt_succ bound
            have next := later 0 ((Nat.zero_le count).trans_lt inside)
            have here := later count inside
            rw [List.take_zero, closesFrom_nil, opens, List.map_nil, List.sum_nil] at next
            rw [heightAfter] at next here
            rw [List.take_succ_cons, closesFrom_cons, opens_cons]
            omega
      · intro all
        refine ⟨?_, ?_⟩
        · have here := all 0 (Nat.zero_lt_succ _)
          rw [List.take_zero, closesFrom_nil] at here
          exact here
        · intro count bound
          have here := all (count + 1) (Nat.succ_lt_succ bound)
          rw [List.take_succ_cons, closesFrom_cons, opens_cons] at here
          rw [heightAfter]
          omega

/-- `parse` is safe if in front of each member no more braces were closed than families opened. -/
theorem safe_iff (text : Text Char) : Safe text ↔ ∀ count < (membersOf text).length,
    closes ((membersOf text).take count) ≤ opens ((membersOf text).take count) := by
  have condition : (∀ count < (membersOf text).length,
      closes ((membersOf text).take count) ≤ opens ((membersOf text).take count)) ↔
        Holds false 1 (membersOf text) := by
    rw [holds_iff]
    refine forall₂_congr fun count _ => ?_
    rw [Nat.add_comm, Nat.lt_succ_iff]
    rfl
  rw [condition]
  obtain ⟨last, leads, outcome⟩ := (Cursor.first text).run_leads
  constructor
  · rintro ⟨parser, parses, _⟩
    by_contra fails
    obtain ⟨holds, _⟩ | ⟨_, some, alone⟩ := outcome
    · exact fails holds
    · have null := Cursor.parses_of_ends (leads (Cursor.ends_null alone some))
      cases parses.unique null
  · intro holds
    obtain ⟨_, none⟩ | ⟨fails, _⟩ := outcome
    · exact ⟨last.parser, Cursor.parses_of_ends (leads (Cursor.ends_ok none)), last.within⟩
    · exact absurd holds fails

theorem run_trailing : Loop.run (pass "{a:{b:c}},d".toList) 16 (.counting 0 0) =
    some (.error .nullPointer) := rfl

/-- Two families end at once, and a member follows. -/
theorem trailing_not_safe : ∃ text : Text Char,
    text.chars = "{a:{b:c}},d".toList ∧ ¬Safe text := by
  have short : "{a:{b:c}},d".toList.length < npos := by decide
  refine ⟨⟨_, short⟩, rfl, ?_⟩
  rintro ⟨parser, parses, _⟩
  have null : Parses ⟨"{a:{b:c}},d".toList, short⟩ (.error .nullPointer) := ⟨16, run_trailing⟩
  cases parses.unique null

end ProjectPl.Json
