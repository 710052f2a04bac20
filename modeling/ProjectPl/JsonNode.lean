import ProjectPl.JsonCore

/-!
What `set` makes of the text of one member: its two calls of `substr` are always within the text,
and the text of a printed member gives back its key and its value.
-/

namespace ProjectPl.Json

open CppString

section Delimiters

variable {char : Char}

@[simp] theorem mem_delimiterFamilyStart : char ∈ delimiterFamilyStart ↔ char = '{' :=
  List.mem_singleton

@[simp] theorem mem_delimiterFamilyEnd : char ∈ delimiterFamilyEnd ↔ char = '}' :=
  List.mem_singleton

@[simp] theorem mem_delimiterNode : char ∈ delimiterNode ↔ char = ',' := List.mem_singleton

@[simp] theorem mem_delimiterKey : char ∈ delimiterKey ↔ char = ':' := List.mem_singleton

@[simp] theorem mem_delimiterSpace : char ∈ delimiterSpace ↔ char = ' ' := List.mem_singleton

end Delimiters

namespace Node

theorem plain_length (str : List Char) : (plain str).length = str.length := List.length_map _

theorem set_ok {str : List Char} (short : str.length < npos) (dept : Int) :
    ∃ (key value : List Char) (calls : List SubstrCall),
      set {} str dept = .ok ({ dept, key, value }, calls) ∧ ∀ call ∈ calls, call.Within := by
  rw [← plain_length] at short
  unfold set
  extract_lets text keyS _ _ valE _ keyE keyCall valS valueCall
  by_cases absent : npos = keyS ∨ npos = keyE
  · exact ⟨[], [], [], if_pos absent, nofun⟩
  · obtain ⟨start, stop⟩ := not_or.mp absent
    have order : keyS ≤ keyE := findFirst_zero_le_findLast (Ne.symm start) (Ne.symm stop)
    have inside : keyE < text.length := findLast_lt (Ne.symm stop)
    have keyWithin : keyCall.Within := ⟨(order.trans_lt inside).le, order.trans (Nat.le_succ _)⟩
    rw [if_neg absent, substr_span short order inside]
    dsimp only
    by_cases empty : npos = valS ∨ npos = valE
    · rw [if_pos empty]
      exact ⟨_, [], [keyCall], rfl, List.forall_mem_singleton.mpr keyWithin⟩
    · obtain ⟨start, stop⟩ := not_or.mp empty
      have order : valS ≤ valE := findFirst_le_findLast_npos short (Ne.symm start) (Ne.symm stop)
      have inside : valE < text.length := findLast_lt (Ne.symm stop)
      have valueWithin : valueCall.Within :=
        ⟨(order.trans_lt inside).le, order.trans (Nat.le_succ _)⟩
      rw [if_neg empty, substr_span short order inside]
      refine ⟨_, _, [keyCall, valueCall], rfl, ?_⟩
      exact List.forall_mem_cons.mpr ⟨keyWithin, List.forall_mem_singleton.mpr valueWithin⟩

/-- `set` takes these characters as they are. -/
def Kept (str : List Char) : Prop :=
  ∀ char ∈ str, char ≠ '"' ∧ char.toLower = char ∧ char ≠ ':' ∧ char ≠ ' '

section Kept

variable {str key value : List Char}

theorem Kept.tail {char : Char} (kept : Kept (char :: str)) : Kept str :=
  fun other member => kept other (.tail char member)

theorem plain_of_kept (kept : Kept str) : plain str = str := by
  induction str with
  | nil => rfl
  | cons char str ih =>
      obtain ⟨notQuote, lower, _⟩ := kept char (.head str)
      change (if char = '"' then ' ' else char.toLower) :: plain str = char :: str
      rw [if_neg notQuote, lower, ih kept.tail]

theorem Kept.head (kept : Kept str) {char : Char} (first : char ∈ str.head?) :
    char ∉ delimiterKey ∧ char ∉ delimiterSpace := by
  obtain ⟨_, _, notColon, notSpace⟩ := kept char (List.mem_of_mem_head? first)
  exact ⟨mem_delimiterKey.not.mpr notColon, mem_delimiterSpace.not.mpr notSpace⟩

theorem seek_key (kept : Kept key) (rest : List Char) :
    seek delimiterKey (key ++ ':' :: rest) = ':' :: rest := by
  induction key with
  | nil => rfl
  | cons char key ih =>
      obtain ⟨_, _, notColon, _⟩ := kept char (.head key)
      rw [seek, List.cons_append, List.dropWhile_cons_of_pos (by simpa)]
      exact ih kept.tail

end Kept

/-! The positions that `set` finds in the text of a member. -/

section Member

variable {key value : List Char} (some : key ≠ []) (keptKey : Kept key) (kept : Kept value)
  (short : (key ++ ':' :: value).length < npos)

include some keptKey in
theorem key_start : findFirstNotOf (key ++ ':' :: value) delimiterSpace 0 = 0 := by
  have stays : past delimiterSpace (key ++ ':' :: value) = key ++ ':' :: value := by
    obtain ⟨char, key, rfl⟩ := List.exists_cons_of_ne_nil some
    refine past_of_head fun first isFirst => ?_
    exact (keptKey.head isFirst).2
  rw [findFirstNotOf_zero, stays, place_of_ne_nil (List.append_ne_nil_of_left_ne_nil some _),
    Nat.sub_self]

include keptKey in
theorem key_colon : findFirstOf (key ++ ':' :: value) delimiterKey 0 = key.length := by
  rw [findFirstOf_zero, seek_key keptKey, place_of_ne_nil (List.cons_ne_nil _ _),
    List.length_append, Nat.add_sub_cancel]

include some keptKey in
theorem key_stop : findLastNotOf (key ++ ':' :: value) delimiterSpace
    (findLastNotOf (key ++ ':' :: value) delimiterKey key.length) = key.length - 1 := by
  have positive := List.length_pos_iff.mpr some
  have ofColon : findLastNotOf (key ++ ':' :: value) delimiterKey key.length = key.length - 1 := by
    refine findLast_word [] some ?_ (Nat.le_succ _) ?_
    · intro char member
      simpa using (keptKey char member).2.2.1
    · simp
  rw [ofColon]
  refine findLast_word [] some ?_ ?_ ?_
  · intro char member
    simpa using (keptKey char member).2.2.2
  · rw [List.nil_append]
    omega
  · simp [Nat.sub_add_cancel positive]

include kept short in
theorem value_start : findFirstNotOf (key ++ ':' :: value) delimiterSpace
    (findFirstNotOf (key ++ ':' :: value) delimiterKey key.length) =
      place (key ++ ':' :: value) value := by
  have behind : (':' :: value) <:+ (key ++ ':' :: value) := List.suffix_append _ _
  have rest : value <:+ (key ++ ':' :: value) := (List.suffix_cons _ _).trans behind
  have colon : key.length = place (key ++ ':' :: value) (':' :: value) := by
    rw [place_of_ne_nil (List.cons_ne_nil _ _), List.length_append, Nat.add_sub_cancel]
  have skipped : past delimiterKey (':' :: value) = value :=
    past_of_head fun _ first => (kept.head first).1
  rw [colon, findFirstNotOf_place _ short behind, skipped, findFirstNotOf_place _ short rest,
    past_of_head fun _ first => (kept.head first).2]

include kept short in
theorem value_stop (more : value ≠ []) : findLastNotOf (key ++ ':' :: value) delimiterSpace npos =
    (key ++ ':' :: value).length - 1 := by
  have split : key ++ ':' :: value = key ++ [':'] ++ value ++ [] := by simp
  rw [split] at short ⊢
  rw [List.append_nil (key ++ [':'] ++ value)] at short
  refine (findLast_word _ more ?_ (short.le.trans (Nat.le_succ _)) ?_).trans ?_
  · intro char member
    simpa using (kept char member).2.2.2
  · simp
  · rw [List.append_nil]

include some keptKey kept short in
/-- The text of a member gives back its key and its value. -/
theorem set_member (dept : Int) :
    ∃ calls, set {} (key ++ ':' :: value) dept = .ok ({ dept, key, value }, calls) := by
  have same : plain (key ++ ':' :: value) = key ++ ':' :: value := by
    rw [plain, List.map_append, List.map_cons]
    exact congrArg₂ (· ++ ':' :: ·) (plain_of_kept keptKey) (plain_of_kept kept)
  have size : (key ++ ':' :: value).length = key.length + value.length + 1 := by
    rw [List.length_append, List.length_cons, Nat.add_assoc]
  have keyText : substr (key ++ ':' :: value) 0 (sizeAdd (sizeSub (key.length - 1) 0) 1) =
      Option.some key := substr_word [] (':' :: value) some short
  have present : ¬(npos = 0 ∨ npos = key.length - 1) := by
    have positive : 0 < npos := (Nat.zero_le _).trans_lt short
    omega
  simp only [set, same, key_start some keptKey, key_colon keptKey, key_stop some keptKey,
    value_start kept short, if_neg present, keyText]
  by_cases empty : value = []
  · rw [if_pos (.inl (by rw [empty, place_nil])), empty]
    exact ⟨_, rfl⟩
  · have more := List.length_pos_iff.mpr empty
    have start : place (key ++ ':' :: value) value = (key ++ [':']).length := by
      rw [place_of_ne_nil empty, size, List.length_append, List.length_singleton]
      omega
    have present : ¬(npos = (key ++ [':']).length ∨ npos = (key ++ ':' :: value).length - 1) := by
      rw [List.length_append, List.length_singleton]
      omega
    have valueText : substr (key ++ ':' :: value) (key ++ [':']).length
        (sizeAdd (sizeSub ((key ++ ':' :: value).length - 1) (key ++ [':']).length) 1) =
          Option.some value := by
      have split : key ++ ':' :: value = key ++ [':'] ++ value := List.append_cons ..
      rw [split] at short ⊢
      have taken := substr_word (key ++ [':']) [] empty
      rw [List.append_nil] at taken
      exact taken short
    rw [start, value_stop kept short empty, if_neg present, valueText]
    exact ⟨_, rfl⟩

end Member

end Node

end ProjectPl.Json
