import Mathlib

/-!
Positions in a `std::string`. A search returns an index or `npos`, the largest `size_t`, and a
position that is not past the end stands for the rest of the string behind it: `place` is the
position of a rest, and `npos` that of the empty one. In these terms a search drops characters, a
comparison of positions compares lengths, and `substr` takes what lies between two rests.
-/

namespace CppString

def npos : Nat := 2 ^ 64 - 1

/-- A string is shorter than `npos`. -/
structure Text (α : Type*) where
  chars : List α
  short : chars.length < npos

/-- Subtraction of two `size_t`. -/
def sizeSub (one other : Nat) : Nat := (one + 2 ^ 64 - other) % 2 ^ 64

def sizeAdd (one other : Nat) : Nat := (one + other) % 2 ^ 64

section Search

variable {α : Type*}

/-- The first index from `pos` on that satisfies a predicate. -/
def findFirst (wanted : α → Bool) (chars : List α) (pos : Nat) : Nat :=
  let index := (chars.drop pos).findIdx wanted
  if pos + index < chars.length then pos + index else npos

/-- The last index up to `pos` that satisfies a predicate. -/
def findLast (wanted : α → Bool) (chars : List α) (pos : Nat) : Nat :=
  let front := chars.take (pos + 1)
  let index := front.reverse.findIdx wanted
  if index < front.length then front.length - 1 - index else npos

variable [DecidableEq α]

def findFirstOf (chars set : List α) (pos : Nat) : Nat := findFirst (· ∈ set) chars pos

def findFirstNotOf (chars set : List α) (pos : Nat) : Nat := findFirst (· ∉ set) chars pos

def findLastNotOf (chars set : List α) (pos : Nat) : Nat := findLast (· ∉ set) chars pos

end Search

/-- `substr`, which throws if the position is past the end. -/
def substr {α : Type*} (chars : List α) (pos count : Nat) : Option (List α) :=
  if pos ≤ chars.length then some ((chars.drop pos).take count) else none

def place {α : Type*} (chars rest : List α) : Nat :=
  if rest = [] then npos else chars.length - rest.length

section Place

variable {α : Type*} {chars rest later : List α} {wanted : α → Bool}

@[simp] theorem place_nil : place chars [] = npos := if_pos rfl

theorem place_of_ne_nil (some : rest ≠ []) : place chars rest = chars.length - rest.length :=
  if_neg some

/-- A search drops the characters in front of what it finds. -/
theorem findFirst_eq_place (pos : Nat) : findFirst wanted chars pos =
    place chars ((chars.drop pos).dropWhile (!wanted ·)) := by
  rw [findFirst, List.dropWhile_eq_drop_findIdx_not]
  simp only [Bool.not_not]
  generalize (chars.drop pos).findIdx wanted = index
  by_cases inside : pos + index < chars.length
  · have some : (chars.drop pos).drop index ≠ [] := by
      rw [ne_eq, List.drop_eq_nil_iff, List.length_drop]
      omega
    rw [if_pos inside, place_of_ne_nil some, List.length_drop, List.length_drop]
    omega
  · have none : (chars.drop pos).drop index = [] := by
      rw [List.drop_eq_nil_iff, List.length_drop]
      omega
    rw [if_neg inside, none, place_nil]

section Short

variable (short : chars.length < npos)
include short

theorem drop_place (suffix : rest <:+ chars) : chars.drop (place chars rest) = rest := by
  by_cases none : rest = []
  · rw [none, place_nil, List.drop_eq_nil_of_le short.le]
  · rw [place_of_ne_nil none]
    exact (List.suffix_iff_eq_drop.mp suffix).symm

theorem findFirst_place (suffix : rest <:+ chars) :
    findFirst wanted chars (place chars rest) = place chars (rest.dropWhile (!wanted ·)) := by
  rw [findFirst_eq_place, drop_place short suffix]

theorem findFirst_after {char : α} (suffix : char :: rest <:+ chars) :
    findFirst wanted chars (place chars (char :: rest) + 1) =
      place chars (rest.dropWhile (!wanted ·)) := by
  rw [findFirst_eq_place, ← List.drop_drop, drop_place short suffix, List.drop_one, List.tail_cons]

theorem place_lt_npos : place chars rest < npos ↔ rest ≠ [] := by
  by_cases none : rest = []
  · rw [none, place_nil]
    exact iff_of_false (lt_irrefl _) (not_not.mpr rfl)
  · rw [place_of_ne_nil none]
    exact iff_of_true (by omega) none

theorem npos_eq_place : npos = place chars rest ↔ rest = [] := by
  by_cases none : rest = []
  · rw [none, place_nil]
    exact iff_of_true rfl rfl
  · exact iff_of_false ((place_lt_npos short).mpr none).ne' none

theorem place_le_npos : place chars rest ≤ npos := by
  by_cases none : rest = []
  · rw [none, place_nil]
  · exact ((place_lt_npos short).mpr none).le

theorem place_lt_place (suffix : rest <:+ chars) (other : later <:+ chars) :
    place chars rest < place chars later ↔ later.length < rest.length := by
  by_cases none : rest = []
  · rw [none, place_nil]
    refine iff_of_false ?_ (Nat.not_lt_zero _)
    by_cases last : later = []
    · rw [last, place_nil]
      exact lt_irrefl _
    · exact ((place_lt_npos short).mpr last).le.not_gt
  · have bound := suffix.length_le
    by_cases last : later = []
    · rw [last, place_nil]
      exact iff_of_true ((place_lt_npos short).mpr none) (List.length_pos_iff.mpr none)
    · have inside := other.length_le
      rw [place_of_ne_nil none, place_of_ne_nil last]
      have positive := List.length_pos_iff.mpr none
      omega

theorem substr_place (suffix : rest <:+ chars) (some : rest ≠ []) (behind : later <:+ rest) :
    substr chars (place chars rest) (sizeSub (place chars later) (place chars rest)) =
      .some (rest.take (rest.length - later.length)) := by
  have bound := suffix.length_le
  have fewer := behind.length_le
  have positive := List.length_pos_iff.mpr some
  have start : place chars rest ≤ chars.length := by
    rw [place_of_ne_nil some]
    omega
  rw [substr, if_pos start, drop_place short suffix]
  by_cases none : later = []
  · rw [none, place_nil, place_of_ne_nil some, sizeSub]
    simp only [npos] at short ⊢
    have count : (2 ^ 64 - 1 + 2 ^ 64 - (chars.length - rest.length)) % 2 ^ 64 =
        2 ^ 64 - 1 - (chars.length - rest.length) := by omega
    rw [count, List.length_nil, Nat.sub_zero, List.take_length,
      List.take_of_length_le (by omega)]
  · have left := List.length_pos_iff.mpr none
    rw [place_of_ne_nil none, place_of_ne_nil some, sizeSub]
    simp only [npos] at short
    have count : (chars.length - later.length + 2 ^ 64 - (chars.length - rest.length)) % 2 ^ 64 =
        rest.length - later.length := by omega
    rw [count]

end Short

theorem findFirst_zero : findFirst wanted chars 0 = place chars (chars.dropWhile (!wanted ·)) :=
  findFirst_eq_place 0

theorem take_dropWhile (stop : α → Bool) :
    rest.take (rest.length - (rest.dropWhile stop).length) = rest.takeWhile stop := by
  have whole := congrArg List.length (List.takeWhile_append_dropWhile (p := stop) (l := rest))
  rw [List.length_append] at whole
  have count : rest.length - (rest.dropWhile stop).length = (rest.takeWhile stop).length := by
    omega
  rw [count]
  exact (List.prefix_iff_eq_take.mp (List.takeWhile_prefix stop)).symm

end Place

/-! What a search finds, by index. -/

section Found

variable {α : Type*} {chars : List α} {wanted : α → Bool} {pos : Nat}

theorem findFirst_found (found : findFirst wanted chars pos ≠ npos) :
    ∃ char, chars[findFirst wanted chars pos]? = some char ∧ wanted char = true ∧
      ∀ index, pos ≤ index → index < findFirst wanted chars pos →
        ∀ other, chars[index]? = some other → wanted other = false := by
  rw [findFirst] at found ⊢
  generalize size : (chars.drop pos).findIdx wanted = index at found ⊢
  by_cases inside : pos + index < chars.length
  · rw [if_pos inside]
    have within : (chars.drop pos).findIdx wanted < (chars.drop pos).length := by
      rw [size, List.length_drop]
      omega
    refine ⟨chars[pos + index], List.getElem?_eq_getElem inside, ?_, ?_⟩
    · have here := List.findIdx_getElem (w := within)
      simp only [List.getElem_drop, size] at here
      exact here
    · intro earlier lower upper other there
      have skipped := List.not_of_lt_findIdx (i := earlier - pos)
        (show earlier - pos < (chars.drop pos).findIdx wanted by omega)
      obtain ⟨bound, isOther⟩ := List.getElem?_eq_some_iff.mp there
      have index : pos + (earlier - pos) = earlier := by omega
      simp only [List.getElem_drop, index, isOther] at skipped
      exact skipped
  · rw [if_neg inside] at found
    exact absurd rfl found

theorem findFirst_bounds (found : findFirst wanted chars pos ≠ npos) :
    pos ≤ findFirst wanted chars pos ∧ findFirst wanted chars pos < chars.length := by
  rw [findFirst] at found ⊢
  by_cases inside : pos + (chars.drop pos).findIdx wanted < chars.length
  · rw [if_pos inside]
    exact ⟨Nat.le_add_right _ _, inside⟩
  · rw [if_neg inside] at found
    exact absurd rfl found

theorem findLast_found (found : findLast wanted chars pos ≠ npos) :
    ∃ char, chars[findLast wanted chars pos]? = some char ∧ wanted char = true ∧
      ∀ index, findLast wanted chars pos < index → index ≤ pos →
        ∀ other, chars[index]? = some other → wanted other = false := by
  rw [findLast] at found ⊢
  generalize frontEq : chars.take (pos + 1) = front at found ⊢
  generalize size : front.reverse.findIdx wanted = index at found ⊢
  have same (position : Nat) (bound : position ≤ pos) : front[position]? = chars[position]? := by
    rw [← frontEq, List.getElem?_take, if_pos (by omega)]
  have short : front.length ≤ pos + 1 := frontEq ▸ List.length_take_le _ _
  by_cases inside : index < front.length
  · rw [if_pos inside]
    have within : front.reverse.findIdx wanted < front.reverse.length := by
      rw [size, List.length_reverse]
      exact inside
    have here := List.findIdx_getElem (w := within)
    simp only [List.getElem_reverse, size] at here
    refine ⟨_, ?_, here, ?_⟩
    · rw [← same _ (by omega)]
      exact List.getElem?_eq_getElem _
    · intro later lower upper other there
      rw [← same later upper] at there
      obtain ⟨bound, isOther⟩ := List.getElem?_eq_some_iff.mp there
      have skipped := List.not_of_lt_findIdx (i := front.length - 1 - later)
        (show front.length - 1 - later < front.reverse.findIdx wanted by omega)
      have index : front.length - 1 - (front.length - 1 - later) = later := by omega
      simp only [List.getElem_reverse, index, isOther] at skipped
      exact skipped
  · rw [if_neg inside] at found
    exact absurd rfl found

theorem findLast_append {front back : List α} {last : α} (isLast : wanted last = true)
    (reaches : front.length ≤ pos)
    (skipped : ∀ char ∈ back.take (pos - front.length), wanted char = false) :
    findLast wanted (front ++ last :: back) pos = front.length := by
  have taken : (front ++ last :: back).take (pos + 1) =
      front ++ last :: back.take (pos - front.length) := by
    rw [List.take_append, List.take_of_length_le (by omega),
      show pos + 1 - front.length = (pos - front.length) + 1 by omega, List.take_succ_cons]
  have index : (front ++ last :: back.take (pos - front.length)).reverse.findIdx wanted =
      (back.take (pos - front.length)).length := by
    rw [List.reverse_append, List.reverse_cons, List.append_assoc, List.findIdx_append,
      List.findIdx_eq_length_of_false (by simpa using skipped), List.length_reverse,
      if_neg (lt_irrefl _), List.cons_append, List.nil_append, List.findIdx_cons, isLast]
    exact Nat.zero_add _
  rw [findLast, taken, index]
  simp only [List.length_append, List.length_cons]
  rw [if_pos (by omega)]
  omega

theorem findLast_word (front : List α) {word back : List α} (some : word ≠ [])
    (all : ∀ char ∈ word, wanted char = true) (reaches : (front ++ word).length ≤ pos + 1)
    (skipped : ∀ char ∈ back.take (pos + 1 - (front ++ word).length), wanted char = false) :
    findLast wanted (front ++ word ++ back) pos = (front ++ word).length - 1 := by
  obtain ⟨word, last, rfl⟩ := (List.eq_nil_or_concat word).resolve_left some
  rw [List.concat_eq_append] at *
  have isLast := all last (List.mem_append_right _ (.head _))
  have size : (front ++ (word ++ [last])).length = (front ++ word).length + 1 := by
    rw [← List.append_assoc, List.length_append, List.length_singleton]
  rw [size] at reaches skipped ⊢
  rw [Nat.add_sub_add_right] at skipped
  rw [← List.append_assoc, List.append_assoc (front ++ word)]
  exact findLast_append isLast (by omega) skipped

theorem findFirst_zero_le_findLast (first : findFirst wanted chars 0 ≠ npos)
    (last : findLast wanted chars pos ≠ npos) :
    findFirst wanted chars 0 ≤ findLast wanted chars pos := by
  obtain ⟨_, _, _, skipped⟩ := findFirst_found first
  obtain ⟨char, there, isWanted, _⟩ := findLast_found last
  by_contra behind
  have not := skipped _ (Nat.zero_le _) (not_le.mp behind) char there
  rw [isWanted] at not
  cases not

theorem findFirst_le_findLast_npos (short : chars.length < npos)
    (first : findFirst wanted chars pos ≠ npos) (last : findLast wanted chars npos ≠ npos) :
    findFirst wanted chars pos ≤ findLast wanted chars npos := by
  obtain ⟨char, there, isWanted, _⟩ := findFirst_found first
  obtain ⟨_, _, _, skipped⟩ := findLast_found last
  obtain ⟨bound, _⟩ := List.getElem?_eq_some_iff.mp there
  by_contra behind
  have not := skipped _ (not_le.mp behind) (bound.trans short).le char there
  rw [isWanted] at not
  cases not

theorem substr_span {first last : Nat} (short : chars.length < npos) (order : first ≤ last)
    (inside : last < chars.length) :
    substr chars first (sizeAdd (sizeSub last first) 1) =
      some ((chars.drop first).take (last + 1 - first)) := by
  simp only [npos] at short
  have count : sizeAdd (sizeSub last first) 1 = last + 1 - first := by
    rw [sizeAdd, sizeSub]
    omega
  rw [substr, if_pos (by omega), count]

theorem findLast_lt (found : findLast wanted chars pos ≠ npos) :
    findLast wanted chars pos < chars.length := by
  obtain ⟨_, there, _⟩ := findLast_found found
  exact (List.getElem?_eq_some_iff.mp there).1

theorem substr_word (front : List α) {word : List α} (back : List α) (some : word ≠ [])
    (short : (front ++ word ++ back).length < npos) :
    substr (front ++ word ++ back) front.length
      (sizeAdd (sizeSub ((front ++ word).length - 1) front.length) 1) = .some word := by
  have positive := List.length_pos_iff.mpr some
  have size : (front ++ word ++ back).length = (front ++ word).length + back.length :=
    List.length_append
  have middle : (front ++ word).length = front.length + word.length := List.length_append
  have count : (front ++ word).length - 1 + 1 - front.length = word.length := by omega
  rw [substr_span short (by omega) (by omega), List.append_assoc, List.drop_left, count,
    List.take_left]

end Found

/-! The parts of a rest, by a set of characters: a search drops one of them. -/

section Sets

variable {α : Type*} [DecidableEq α] (set : List α)

def gap (rest : List α) : List α := rest.takeWhile (· ∈ set)

def past (rest : List α) : List α := rest.dropWhile (· ∈ set)

def before (rest : List α) : List α := rest.takeWhile (· ∉ set)

def seek (rest : List α) : List α := rest.dropWhile (· ∉ set)

variable {chars : List α} (rest : List α)

theorem gap_append_past : gap set rest ++ past set rest = rest := List.takeWhile_append_dropWhile

theorem before_append_seek : before set rest ++ seek set rest = rest :=
  List.takeWhile_append_dropWhile

theorem past_suffix : past set rest <:+ rest := List.dropWhile_suffix _

theorem seek_suffix : seek set rest <:+ rest := List.dropWhile_suffix _

variable {set rest}

theorem mem_of_mem_gap {char : α} (member : char ∈ gap set rest) : char ∈ set := by
  simpa using List.mem_takeWhile_imp member

theorem not_mem_of_mem_before {char : α} (member : char ∈ before set rest) : char ∉ set := by
  simpa using List.mem_takeWhile_imp member

theorem head_past {char : α} {others : List α} (here : past set rest = char :: others) :
    char ∉ set := by
  have stop := List.head?_dropWhile_not (fun char => decide (char ∈ set)) rest
  rw [← past, here] at stop
  simpa using stop

theorem head_seek {char : α} (here : char ∈ (seek set rest).head?) : char ∈ set := by
  have stop := List.head?_dropWhile_not (fun char => decide (char ∉ set)) rest
  rw [← seek, Option.mem_def.mp here] at stop
  simpa using stop

theorem mem_of_seek_eq_cons {char : α} {others : List α} (here : seek set rest = char :: others) :
    char ∈ set :=
  head_seek (Option.mem_def.mpr (by rw [here, List.head?_cons]))

theorem before_take (set rest : List α) :
    rest.take (rest.length - (seek set rest).length) = before set rest :=
  take_dropWhile _

theorem findFirstOf_zero : findFirstOf chars set 0 = place chars (seek set chars) := by
  rw [findFirstOf, findFirst_zero, seek]
  simp only [decide_not]

theorem findFirstNotOf_zero : findFirstNotOf chars set 0 = place chars (past set chars) := by
  rw [findFirstNotOf, findFirst_zero, past]
  simp only [decide_not, Bool.not_not]

variable (set) (short : chars.length < npos)
include short

theorem findFirstOf_place (suffix : rest <:+ chars) :
    findFirstOf chars set (place chars rest) = place chars (seek set rest) := by
  rw [findFirstOf, findFirst_place short suffix, seek]
  simp only [decide_not]

theorem findFirstNotOf_place (suffix : rest <:+ chars) :
    findFirstNotOf chars set (place chars rest) = place chars (past set rest) := by
  rw [findFirstNotOf, findFirst_place short suffix, past]
  simp only [decide_not, Bool.not_not]

theorem findFirstOf_after {char : α} (suffix : char :: rest <:+ chars) :
    findFirstOf chars set (place chars (char :: rest) + 1) = place chars (seek set rest) := by
  rw [findFirstOf, findFirst_after short suffix, seek]
  simp only [decide_not]

end Sets

/-! Two characters in one rest: which of them comes first. -/

section Pair

variable {α : Type*} [DecidableEq α] {one other : α} {set front rest : List α}

theorem seek_cons_of_mem {char : α} (stop : char ∈ set) : seek set (char :: rest) = char :: rest :=
  List.dropWhile_cons_of_neg (by simpa using stop)

theorem seek_cons_of_not_mem {char : α} (goes : char ∉ set) :
    seek set (char :: rest) = seek set rest :=
  List.dropWhile_cons_of_pos (by simpa using goes)

theorem past_cons_of_mem {char : α} (goes : char ∈ set) :
    past set (char :: rest) = past set rest :=
  List.dropWhile_cons_of_pos (by simpa using goes)

theorem past_cons_of_not_mem {char : α} (stop : char ∉ set) :
    past set (char :: rest) = char :: rest :=
  List.dropWhile_cons_of_neg (by simpa using stop)

theorem before_cons_of_mem {char : α} (stop : char ∈ set) : before set (char :: rest) = [] :=
  List.takeWhile_cons_of_neg (by simpa using stop)

theorem before_cons_of_not_mem {char : α} (goes : char ∉ set) :
    before set (char :: rest) = char :: before set rest :=
  List.takeWhile_cons_of_pos (by simpa using goes)

theorem past_of_head (notIn : ∀ char ∈ rest.head?, char ∉ set) : past set rest = rest := by
  cases rest with
  | nil => rfl
  | cons char rest => exact past_cons_of_not_mem (notIn char rfl)

theorem past_seek_length_lt (set : List α) (some : rest ≠ []) :
    (past set (seek set rest)).length < rest.length := by
  cases found : seek set rest with
  | nil => exact List.length_pos_iff.mpr some
  | cons char later =>
      have isIn : char ∈ set := mem_of_seek_eq_cons found
      have bound := (seek_suffix set rest).length_le
      rw [found, List.length_cons] at bound
      rw [past_cons_of_mem isIn]
      exact (past_suffix set later).length_le.trans_lt bound

theorem seek_append (absent : one ∉ front) (back : List α) :
    seek [one] (front ++ back) = seek [one] back := by
  refine List.dropWhile_append_of_pos fun char member => ?_
  have notOne : char ≠ one := fun same => absent (same ▸ member)
  simpa using notOne

theorem before_append (absent : one ∉ front) (back : List α) :
    before [one] (front ++ back) = front ++ before [one] back := by
  refine List.takeWhile_append_of_pos fun char member => ?_
  have notOne : char ≠ one := fun same => absent (same ▸ member)
  simpa using notOne

theorem seek_here (absent : one ∉ front) (back : List α) :
    seek [one] (front ++ one :: back) = one :: back :=
  (seek_append absent _).trans (seek_cons_of_mem (.head _))

theorem before_here (absent : one ∉ front) (back : List α) :
    before [one] (front ++ one :: back) = front := by
  rw [before_append absent, before_cons_of_mem (.head _), List.append_nil]

theorem before_split (here : one ∈ before [other] rest) :
    ∃ behind, seek [one] rest = one :: behind ∧
      before [other] rest = before [one] rest ++ one :: before [other] behind ∧
      seek [other] rest = seek [other] behind := by
  have away : one ∉ [other] := not_mem_of_mem_before here
  induction rest with
  | nil => cases here
  | cons char rest ih =>
      by_cases stop : char ∈ [other]
      · rw [before_cons_of_mem stop] at here
        cases here
      · rw [before_cons_of_not_mem stop] at here ⊢
        rw [seek_cons_of_not_mem stop]
        by_cases isOne : char = one
        · have stop : char ∈ [one] := List.mem_singleton.mpr isOne
          rw [seek_cons_of_mem stop, before_cons_of_mem stop, isOne]
          exact ⟨rest, rfl, rfl, rfl⟩
        · have goes : char ∉ [one] := List.mem_singleton.not.mpr isOne
          have later := (List.mem_cons.mp here).resolve_left (Ne.symm isOne)
          obtain ⟨behind, isSeek, isBefore, same⟩ := ih later
          rw [seek_cons_of_not_mem goes, before_cons_of_not_mem goes, isBefore]
          exact ⟨behind, isSeek, rfl, same⟩

theorem count_of_split {behind : List α}
    (isBefore : before [other] rest = before [one] rest ++ one :: before [other] behind) :
    (before [other] rest).count one = (before [other] behind).count one + 1 := by
  have none : (before [one] rest).count one = 0 :=
    List.count_eq_zero.mpr fun member => not_mem_of_mem_before member (.head _)
  rw [isBefore, List.count_append, none, List.count_cons_self, Nat.zero_add]

theorem seek_length_lt :
    (seek [other] rest).length < (seek [one] rest).length ↔ one ∈ before [other] rest := by
  constructor
  · intro shorter
    by_contra absent
    have same : seek [one] rest = seek [one] (seek [other] rest) := by
      rw [← seek_append absent (seek [other] rest), before_append_seek]
    rw [same] at shorter
    exact shorter.not_ge (seek_suffix _ _).length_le
  · intro here
    obtain ⟨behind, isOne, _, isOther⟩ := before_split here
    rw [isOne, isOther]
    exact Nat.lt_succ_of_le (seek_suffix _ _).length_le

/-- A search from behind the other character finds the same one, if none is in front of it. -/
theorem seek_past_seek (different : one ≠ other) (absent : one ∉ before [other] rest) :
    seek [one] (past [other] (seek [other] rest)) = seek [one] rest := by
  have middle : one ∉ gap [other] (seek [other] rest) := fun member =>
    different (List.mem_singleton.mp (mem_of_mem_gap member))
  calc seek [one] (past [other] (seek [other] rest))
      = seek [one] (gap [other] (seek [other] rest) ++ past [other] (seek [other] rest)) :=
        (seek_append middle _).symm
    _ = seek [one] (before [other] rest ++ seek [other] rest) := by
        rw [gap_append_past, seek_append absent]
    _ = seek [one] rest := by rw [before_append_seek]

theorem seek_past_seek_first (different : one ≠ other) (here : one ∈ before [other] rest) :
    seek [other] (past [one] (seek [one] rest)) = seek [other] rest := by
  obtain ⟨behind, _, isBefore, _⟩ := before_split here
  refine seek_past_seek different.symm fun member => ?_
  have also : other ∈ before [other] rest := isBefore ▸ List.mem_append_left _ member
  exact not_mem_of_mem_before also (.head _)

theorem before_past (different : one ≠ other) :
    before [other] (past [one] rest) = past [one] (before [other] rest) := by
  induction rest with
  | nil => rfl
  | cons char rest ih =>
      by_cases isOne : char ∈ [one]
      · have goes : char ∉ [other] := fun isOther =>
          different ((List.mem_singleton.mp isOne).symm.trans (List.mem_singleton.mp isOther))
        rw [past_cons_of_mem isOne, before_cons_of_not_mem goes, past_cons_of_mem isOne, ih]
      · rw [past_cons_of_not_mem isOne]
        by_cases isOther : char ∈ [other]
        · rw [before_cons_of_mem isOther]
          rfl
        · rw [before_cons_of_not_mem isOther, past_cons_of_not_mem isOne]

theorem before_seek (here : one ∈ before [other] rest) :
    before [other] (seek [one] rest) = seek [one] (before [other] rest) := by
  induction rest with
  | nil => rfl
  | cons char rest ih =>
      by_cases isOther : char ∈ [other]
      · rw [before_cons_of_mem isOther] at here
        cases here
      · rw [before_cons_of_not_mem isOther] at here ⊢
        by_cases isOne : char ∈ [one]
        · rw [seek_cons_of_mem isOne, seek_cons_of_mem isOne, before_cons_of_not_mem isOther]
        · have later := (List.mem_cons.mp here).resolve_left fun same =>
            isOne (List.mem_singleton.mpr same.symm)
          rw [seek_cons_of_not_mem isOne, seek_cons_of_not_mem isOne, ih later]

end Pair

end CppString
