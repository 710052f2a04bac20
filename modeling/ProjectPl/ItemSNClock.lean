import ProjectPl.ItemSN

/-!
A clock that is set back. The generator compares a reading with the last one only for being
different, so what it returns depends on where a reading comes back after another one, and on how
often it is read without interruption.
-/

namespace ProjectPl.Sharp

open DotNet

namespace GeneratorItemSN

/-- What one server answers to these readings of its clock. -/
def serials (generator : GeneratorItemSN) (readings : List Int) : List (Result Int) :=
  (Run.run generateSN generator readings).2

def NoDuplicate (answers : List (Result Int)) : Prop :=
  answers.Pairwise fun one other => ∀ sn, one = .ok sn → other ≠ .ok sn

/-- Between two equal readings there is no other one. -/
def Contiguous (readings : List Int) : Prop :=
  ∀ (before : List Int) (time : Int) (between after : List Int),
    readings = before ++ time :: between ++ time :: after → ∀ other ∈ between, other = time

theorem Contiguous.initial {first later : List Int} (contiguous : Contiguous (first ++ later)) :
    Contiguous first := by
  intro before time between after split
  refine contiguous before time between (after ++ later) ?_
  rw [split, List.append_assoc, List.cons_append]

theorem Contiguous.unread {before : List Int} {time last : Int}
    (contiguous : Contiguous (before ++ [last] ++ [time])) (changed : last ≠ time) :
    time ∉ before := by
  intro inside
  obtain ⟨earlier, between, rfl⟩ := List.append_of_mem inside
  refine changed (contiguous earlier time (between ++ [last]) [] ?_ last
    (List.mem_append_right between List.mem_cons_self))
  simp only [List.append_assoc, List.cons_append, List.nil_append]

def answer (generator : GeneratorItemSN) : Result Int :=
  if 0xFFFFFF < generator.sequance then .error .argumentOutOfRange else .ok generator.serialNumber

theorem generateSN_answer (generator : GeneratorItemSN) (utcNow : Int) :
    (generator.generateSN utcNow).2 = (generator.generateSN utcNow).1.answer := by
  rw [generateSN, answer]
  by_cases fresh : int32 utcNow ≠ generator.lastTimeSec
  · rw [if_pos fresh]
    exact (if_neg (show ¬(0xFFFFFF : Int) < 0 by omega)).symm
  · rw [if_neg fresh]
    by_cases full : 0xFFFFFF < int32 (generator.sequance + 1)
    · rw [if_pos full, if_pos full]
    · rw [if_neg full, if_neg full]

/-- The generator of a server once it read this second `count + 1` times without interruption. -/
def counted (serverId : UInt8) (time : Int) (count : Nat) : GeneratorItemSN :=
  { lastTimeSec := time, serverId, sequance := int32 count }

theorem counted_sequance (serverId : UInt8) (time : Int) (count : Nat) :
    (counted serverId time count).sequance = int32 count := by
  simp only [counted]

section Step

variable {generator : GeneratorItemSN} {serverId : UInt8} {time : Int}
  (range : 1 ≤ time ∧ time < 2 ^ 31)
include range

theorem generateSN_changed (changed : generator.lastTimeSec ≠ time) :
    (generator.generateSN time).1 = counted generator.serverId time 0 := by
  have reading : int32 time = time := int32_of_fits (by omega) (by omega)
  rw [generateSN, reading, if_pos changed.symm]
  rfl

theorem generateSN_again (count : Nat) :
    ((counted serverId time count).generateSN time).1 = counted serverId time (count + 1) := by
  have reading : int32 time = time := int32_of_fits (by omega) (by omega)
  have advanced : int32 (int32 count + 1) = int32 (count + 1 : Nat) := by
    rw [Nat.cast_add, Nat.cast_one]
    exact Int.bmod_add_bmod ..
  have same : ¬time ≠ (counted serverId time count).lastTimeSec := not_not.mpr rfl
  rw [generateSN, reading, if_neg same]
  simp only [counted, advanced]
  split <;> rfl

end Step

section Readings

variable {serverId : Int} {readings : List Int}

theorem serials_getElem? (generator : GeneratorItemSN) (index : Nat) :
    (serials generator readings)[index]? = readings[index]?.map fun time =>
      ((Run.run generateSN generator (readings.take index ++ [time])).1).answer := by
  induction readings generalizing generator index with
  | nil => rfl
  | cons first rest ih =>
      cases index with
      | zero => exact congrArg some (generateSN_answer generator first)
      | succ index => exact ih (generator.generateSN first).1 index

variable (range : ∀ time ∈ readings, 1 ≤ time ∧ time < 2 ^ 31)
include range

theorem run_counted {before : List Int} {time : Int} (inside : ∀ one ∈ before, one ∈ readings)
    (here : time ∈ readings) (contiguous : Contiguous (before ++ [time])) :
    (Run.run generateSN (init {} serverId) (before ++ [time])).1 =
      counted (UInt8.ofInt serverId) time (before.count time) := by
  induction before using List.reverseRecOn generalizing time with
  | nil =>
      have positive := (range time here).1
      exact generateSN_changed (range time here) (show (0 : Int) ≠ time by omega)
  | append_singleton before last ih =>
      have earlier := ih (fun one member => inside one (List.mem_append_left _ member))
        (inside last (List.mem_append_right before List.mem_cons_self)) contiguous.initial
      rw [Run.run_append, earlier]
      by_cases same : last = time
      · subst same
        rw [List.count_append, List.count_singleton_self]
        exact generateSN_again (range last here) _
      · have apart : time ∉ [last] := fun member => same (List.mem_singleton.mp member).symm
        rw [List.count_append, List.count_eq_zero_of_not_mem (contiguous.unread same),
          List.count_eq_zero_of_not_mem apart, Nat.add_zero]
        exact generateSN_changed (range time here) same

theorem serials_contiguous (contiguous : Contiguous readings) (index : Nat) :
    (serials (init {} serverId) readings)[index]? = readings[index]?.map fun time =>
      (counted (UInt8.ofInt serverId) time ((readings.take index).count time)).answer := by
  rw [serials_getElem?]
  refine Option.map_congr fun time there => ?_
  obtain ⟨bound, isTime⟩ := List.getElem?_eq_some_iff.mp there
  have split : readings.take index ++ [time] ++ readings.drop (index + 1) = readings := by
    rw [List.append_assoc, List.singleton_append, ← isTime, List.cons_getElem_drop_succ,
      List.take_append_drop]
  rw [run_counted range (fun one member => List.mem_of_mem_take member)
    (List.mem_of_getElem? there) (split ▸ contiguous).initial]

end Readings

/-! Two answers with one number. -/

theorem noDuplicate_iff {answers : List (Result Int)} :
    NoDuplicate answers ↔ ∀ (first later : Nat) (sn : Int), first < later →
      answers[first]? = some (.ok sn) → answers[later]? ≠ some (.ok sn) := by
  rw [NoDuplicate, List.pairwise_iff_getElem]
  constructor
  · intro apart first later sn order one other
    obtain ⟨inside, isOne⟩ := List.getElem?_eq_some_iff.mp one
    obtain ⟨within, isOther⟩ := List.getElem?_eq_some_iff.mp other
    exact apart first later inside within order sn isOne isOther
  · intro apart first later inside within order sn isOne isOther
    exact apart first later sn order (List.getElem?_eq_some_iff.mpr ⟨inside, isOne⟩)
      (List.getElem?_eq_some_iff.mpr ⟨within, isOther⟩)

section Duplicates

variable {generator : GeneratorItemSN} {readings : List Int} {time : Int}

theorem serials_at {first rest : List Int} (split : readings = first ++ time :: rest) :
    (serials generator readings)[first.length]? =
      some (Run.run generateSN generator (first ++ [time])).1.answer := by
  rw [serials_getElem?, split, List.getElem?_append_right (le_refl _), Nat.sub_self,
    List.take_left]
  rfl

theorem duplicate_of_splits {first rest later tail : List Int} (sn : Int)
    (split : readings = first ++ time :: rest) (again : readings = later ++ time :: tail)
    (order : first.length < later.length)
    (one : (Run.run generateSN generator (first ++ [time])).1.answer = .ok sn)
    (other : (Run.run generateSN generator (later ++ [time])).1.answer = .ok sn) :
    ¬NoDuplicate (serials generator readings) := by
  intro apart
  exact noDuplicate_iff.mp apart first.length later.length sn order
    (by rw [serials_at split, one]) (by rw [serials_at again, other])

@[simp] theorem generateSN_serverId (utcNow : Int) :
    (generator.generateSN utcNow).1.serverId = generator.serverId := by
  simp only [generateSN]
  split <;> [skip; split] <;> rfl

@[simp] theorem run_serverId (before : List Int) :
    (Run.run generateSN generator before).1.serverId = generator.serverId := by
  induction before generalizing generator with
  | nil => rfl
  | cons first rest ih => rw [Run.run_cons, ih, generateSN_serverId]

theorem generateSN_lastTimeSec (range : 1 ≤ time ∧ time < 2 ^ 31) :
    (generator.generateSN time).1.lastTimeSec = time := by
  have reading : int32 time = time := int32_of_fits (by omega) (by omega)
  simp only [generateSN, reading]
  by_cases changed : time ≠ generator.lastTimeSec
  · rw [if_pos changed]
  · rw [if_neg changed]
    split <;> exact (not_not.mp changed).symm

theorem run_fresh {before : List Int}
    (range : ∀ one ∈ before ++ [time], 1 ≤ one ∧ one < 2 ^ 31) (unread : time ∉ before)
    (changed : generator.lastTimeSec ≠ time) :
    (Run.run generateSN generator (before ++ [time])).1 = counted generator.serverId time 0 := by
  induction before generalizing generator with
  | nil => exact generateSN_changed (range time List.mem_cons_self) changed
  | cons first rest ih =>
      have last : (generator.generateSN first).1.lastTimeSec = first :=
        generateSN_lastTimeSec (range first List.mem_cons_self)
      have apart : first ≠ time := fun same => unread (same ▸ List.mem_cons_self)
      have later : (Run.run generateSN (generator.generateSN first).1 (rest ++ [time])).1 =
          counted (generator.generateSN first).1.serverId time 0 :=
        ih (fun one inside => range one (List.mem_cons_of_mem first inside))
          (fun inside => unread (List.mem_cons_of_mem first inside)) (last.symm ▸ apart)
      rw [generateSN_serverId] at later
      exact later

theorem counted_answer_zero (serverId : UInt8) (time : Int) :
    (counted serverId time 0).answer = .ok (counted serverId time 0).serialNumber :=
  if_neg (show ¬(0xFFFFFF : Int) < 0 by omega)

/-- The counter has wrapped to a negative number, which the check for its bound lets through. -/
theorem counted_answer_wrapped (serverId : UInt8) (time : Int) :
    (counted serverId time (2 ^ 31)).answer = .ok (counted serverId time 0).serialNumber := by
  have wrapped : int32 (2 ^ 31 : Nat) = -0x80000000 := by decide
  have masked : BitVec.ofInt 64 (-0x80000000) &&& 0xFFFFFF =
      BitVec.ofInt 64 (int32 (0 : Nat)) &&& 0xFFFFFF := by decide
  simp only [counted, answer, serialNumber, wrapped, masked]
  exact if_neg (show ¬(0xFFFFFF : Int) < -0x80000000 by omega)

variable (range : ∀ one ∈ readings, 1 ≤ one ∧ one < 2 ^ 31)
include range

omit range in
theorem exists_return {before between after : List Int} {other : Int}
    (split : readings = before ++ time :: between ++ time :: after) (inside : other ∈ between) :
    ∃ early mid gap rest, readings = early ++ time :: (mid ++ [other]) ++ gap ++ time :: rest ∧
      time ∉ early ∧ time ∉ gap := by
  obtain ⟨early, mid, begins, unread⟩ :=
    List.eq_append_cons_of_mem (List.mem_append_right before (List.mem_singleton_self time))
  obtain ⟨front, back, rfl⟩ := List.append_of_mem inside
  obtain ⟨gap, rest, returns, skipped⟩ :=
    List.eq_append_cons_of_mem (List.mem_append_right back (List.mem_singleton_self time))
  refine ⟨early, mid ++ front, gap, rest ++ after, ?_, unread, skipped⟩
  calc readings = before ++ [time] ++ (front ++ other :: back ++ time :: after) := by
        rw [split]; simp only [List.append_assoc, List.cons_append, List.nil_append]
    _ = early ++ time :: (mid ++ front ++ [other]) ++ (back ++ [time]) ++ after := by
        rw [begins]; simp only [List.append_assoc, List.cons_append, List.nil_append]
    _ = early ++ time :: (mid ++ front ++ [other]) ++ gap ++ time :: (rest ++ after) := by
        rw [returns]; simp only [List.append_assoc, List.cons_append]

theorem contiguous_of_noDuplicate {serverId : Int}
    (unique : NoDuplicate (serials (init {} serverId) readings)) : Contiguous readings := by
  intro before time between after split other inside
  by_contra apart
  obtain ⟨early, mid, gap, rest, later, unread, skipped⟩ := exists_return split inside
  have first : readings = early ++ time :: (mid ++ [other] ++ gap ++ time :: rest) := by
    rw [later]; simp only [List.append_assoc, List.cons_append]
  have known : other ∈ readings := by rw [first]; simp
  have positive : 1 ≤ time := (range time (by rw [first]; simp)).1
  have last : (Run.run generateSN (init {} serverId)
      (early ++ time :: (mid ++ [other]))).1.lastTimeSec = other := by
    have behind : early ++ time :: (mid ++ [other]) = early ++ time :: mid ++ [other] := by
      rw [List.append_assoc, List.cons_append]
    rw [behind, Run.run_append]
    exact generateSN_lastTimeSec (range other known)
  refine duplicate_of_splits (counted (UInt8.ofInt serverId) time 0).serialNumber
    first later ?_ ?_ ?_ unique
  · simp only [List.length_append, List.length_cons]
    omega
  · rw [run_fresh (fun one member => range one ?_) unread (show (0 : Int) ≠ time by omega)]
    · exact counted_answer_zero ..
    · rw [first]
      rcases List.mem_append.mp member with member | member
      · exact List.mem_append_left _ member
      · rw [List.mem_singleton.mp member]
        exact List.mem_append_right early List.mem_cons_self
  · rw [List.append_assoc _ gap, Run.run_append,
      run_fresh (fun one member => range one ?_) skipped (last.symm ▸ apart), run_serverId]
    · exact counted_answer_zero ..
    · rw [later]
      rcases List.mem_append.mp member with member | member
      · exact List.mem_append_left _ (List.mem_append_right _ member)
      · rw [List.mem_singleton.mp member]
        exact List.mem_append_right _ List.mem_cons_self

omit range in
theorem exists_split_count (count : Nat) (more : count < readings.count time) :
    ∃ first rest, readings = first ++ time :: rest ∧ first.count time = count := by
  induction readings generalizing count with
  | nil => exact absurd more (Nat.not_lt_zero count)
  | cons head rest ih =>
      by_cases same : head = time
      · subst same
        rw [List.count_cons_self] at more
        cases count with
        | zero => exact ⟨[], rest, rfl, rfl⟩
        | succ count =>
            obtain ⟨first, later, split, counts⟩ := ih count (by omega)
            exact ⟨head :: first, later, by rw [split, List.cons_append],
              by rw [List.count_cons_self, counts]⟩
      · rw [List.count_cons_of_ne same] at more
        obtain ⟨first, later, split, counts⟩ := ih count more
        exact ⟨head :: first, later, by rw [split, List.cons_append],
          by rw [List.count_cons_of_ne same, counts]⟩

theorem few_of_noDuplicate {serverId : Int}
    (unique : NoDuplicate (serials (init {} serverId) readings)) :
    readings.count time ≤ 2 ^ 31 := by
  by_contra many
  have contiguous := contiguous_of_noDuplicate range unique
  have more : 2 ^ 31 < readings.count time := by omega
  obtain ⟨first, rest, split, none⟩ := exists_split_count 0 (Nat.zero_lt_of_lt more)
  obtain ⟨later, tail, again, wraps⟩ := exists_split_count (2 ^ 31) more
  have order : first.length < later.length := by
    by_contra back
    have within : later <+: first := List.prefix_of_prefix_length_le
      ⟨time :: tail, again.symm⟩ ⟨time :: rest, split.symm⟩ (by omega)
    have counts := within.sublist.count_le time
    omega
  have here {front back : List Int} (parts : readings = front ++ time :: back) :
      (Run.run generateSN (init {} serverId) (front ++ [time])).1 =
        counted (UInt8.ofInt serverId) time (front.count time) := by
    have begins : Contiguous (front ++ [time] ++ back) := by
      rwa [List.append_assoc, List.singleton_append, ← parts]
    refine run_counted range (fun one member => ?_) ?_ begins.initial
    · rw [parts]
      exact List.mem_append_left _ member
    · rw [parts]
      exact List.mem_append_right front List.mem_cons_self
  refine duplicate_of_splits (counted (UInt8.ofInt serverId) time 0).serialNumber
    split again order ?_ ?_ unique
  · rw [here split, none]
    exact counted_answer_zero ..
  · rw [here again, wraps]
    exact counted_answer_wrapped ..

end Duplicates

section Unique

variable {readings : List Int} {time : Int}

theorem count_take_lt {first later : Nat} (order : first < later)
    (there : readings[first]? = some time) :
    (readings.take first).count time < (readings.take later).count time := by
  have next : readings.take (first + 1) = readings.take first ++ [time] := by
    rw [List.take_add_one, there, Option.toList_some]
  have more := (List.take_prefix_take_left (l := readings) order).sublist.count_le time
  rw [next, List.count_append, List.count_singleton_self] at more
  omega

theorem counted_answer_ok {serverId : UInt8} {count : Nat} {sn : Int}
    (range : 1 ≤ time ∧ time < 2 ^ 31) (few : count < 2 ^ 31)
    (returned : (counted serverId time count).answer = .ok sn) :
    count < 2 ^ 24 ∧ sn = ItemSN.ofParts time.toNat serverId.toNat count := by
  have fits : int32 count = count := int32_of_fits (by omega) (by omega)
  have plain : (counted serverId time count).sequance = count := by
    rw [counted_sequance, fits]
  have last : (counted serverId time count).lastTimeSec = time.toNat := by
    simp only [counted]
    omega
  rw [answer] at returned
  by_cases full : 0xFFFFFF < (counted serverId time count).sequance
  · rw [if_pos full] at returned
    cases returned
  · have narrow : count < 2 ^ 24 := by
      rw [plain] at full
      omega
    rw [if_neg full, serialNumber_eq last plain (by omega) narrow] at returned
    exact ⟨narrow, (Except.ok.inj returned).symm⟩

theorem noDuplicate_of_contiguous {serverId : Int}
    (range : ∀ one ∈ readings, 1 ≤ one ∧ one < 2 ^ 31) (contiguous : Contiguous readings)
    (few : ∀ one, readings.count one ≤ 2 ^ 31) :
    NoDuplicate (serials (init {} serverId) readings) := by
  have number {index : Nat} {sn : Int}
      (there : (serials (init {} serverId) readings)[index]? = some (.ok sn)) :
      ∃ one, readings[index]? = some one ∧ (1 ≤ one ∧ one < 2 ^ 31) ∧
        (readings.take index).count one < 2 ^ 24 ∧
          sn = ItemSN.ofParts one.toNat (UInt8.ofInt serverId).toNat
            ((readings.take index).count one) := by
    rw [serials_contiguous range contiguous] at there
    obtain ⟨one, read, returned⟩ := Option.map_eq_some_iff.mp there
    have inRange := range one (List.mem_of_getElem? read)
    have below := count_take_lt (Nat.lt_of_lt_of_le (List.getElem?_eq_some_iff.mp read).1
      (le_refl _)) read
    rw [List.take_length] at below
    have bound := few one
    exact ⟨one, read, inRange, counted_answer_ok inRange (by omega) returned⟩
  refine noDuplicate_iff.mpr ?_
  intro first later sn order there again
  obtain ⟨one, read, inRange, narrow, rfl⟩ := number there
  obtain ⟨other, reread, within, narrower, same⟩ := number again
  have narrowId : (UInt8.ofInt serverId).toNat < 2 ^ 8 := (UInt8.ofInt serverId).toNat_lt
  simp only [ItemSN.ofParts, Nat.cast_inj] at same
  obtain rfl : one = other := by omega
  have counts := count_take_lt order read
  omega

end Unique

/-- On one server no number is returned twice, for exactly the readings that do not come back
and do not use up the whole range of the counter. -/
theorem serials_noDuplicate_iff (serverId : Int) (readings : List Int)
    (range : ∀ time ∈ readings, 1 ≤ time ∧ time ≤ 2 ^ 31 - 1) :
    NoDuplicate (serials (init {} serverId) readings) ↔
      Contiguous readings ∧ ∀ time, readings.count time ≤ 2 ^ 31 := by
  have bounds : ∀ time ∈ readings, 1 ≤ time ∧ time < 2 ^ 31 := by
    intro time inside
    have bound := range time inside
    omega
  constructor
  · intro unique
    exact ⟨contiguous_of_noDuplicate bounds unique,
      fun time => few_of_noDuplicate bounds unique⟩
  · rintro ⟨contiguous, few⟩
    exact noDuplicate_of_contiguous bounds contiguous few

theorem serials_noDuplicate_iff_forward :
    (∀ time ∈ [(5 : Int), 5, 6], 1 ≤ time ∧ time ≤ 2 ^ 31 - 1) ∧
      (NoDuplicate (serials (init {} 1) [5, 5, 6]) ↔
        Contiguous [5, 5, 6] ∧ ∀ time, [(5 : Int), 5, 6].count time ≤ 2 ^ 31) :=
  ⟨by decide, serials_noDuplicate_iff 1 [5, 5, 6] (by decide)⟩

/-- The clock is set back by one second and then reaches the later second again. -/
theorem serials_duplicate :
    ¬∀ (serverId : Int) (readings : List Int),
      (∀ time ∈ readings, 1 ≤ time ∧ time ≤ 2 ^ 31 - 1) →
        NoDuplicate (serials (init {} serverId) readings) := by
  intro always
  have unique := noDuplicate_iff.mp (always 1 [6, 5, 6] (by decide))
  exact unique 0 2 0x601000000 (by decide) (by decide) (by decide)

end GeneratorItemSN

end ProjectPl.Sharp
