import ProjectPl.ItemSNCore

/-!
Serial numbers are unique over all servers. The number of a call is determined by its second, its
server and how many calls on the server read that second before; while the count fits 24 bits, the
three parts lie in separate bits, so the numbers are ordered like the triples.
-/

namespace ProjectPl.Sharp

open DotNet

/-! The three parts of a number. -/

namespace ItemSN

def ofParts (time serverId sequance : Nat) : Int :=
  ((time * 2 ^ 32 + serverId * 2 ^ 24 + sequance : Nat) : Int)

section Parts

variable {time serverId sequance : Nat}

theorem parts_or (narrowId : serverId < 2 ^ 8) (narrow : sequance < 2 ^ 24) :
    time <<< 32 ||| serverId <<< 24 ||| sequance =
      time * 2 ^ 32 + serverId * 2 ^ 24 + sequance := by
  have idBits : serverId <<< 24 < 2 ^ 32 := by rw [Nat.shiftLeft_eq]; omega
  have low : serverId <<< 24 ||| sequance = serverId * 2 ^ 24 + sequance := by
    rw [← Nat.shiftLeft_add_eq_or_of_lt narrow, Nat.shiftLeft_eq]
  have lowBits : serverId * 2 ^ 24 + sequance < 2 ^ 32 := by omega
  rw [Nat.or_assoc, low, ← Nat.shiftLeft_add_eq_or_of_lt lowBits, Nat.shiftLeft_eq]
  omega

theorem toNat_ofParts (narrowTime : time < 2 ^ 31) (narrowId : serverId < 2 ^ 8)
    (narrow : sequance < 2 ^ 24) :
    (BitVec.ofInt 64 (ofParts time serverId sequance)).toNat =
      time * 2 ^ 32 + serverId * 2 ^ 24 + sequance := by
  rw [ofParts, BitVec.ofInt_natCast, BitVec.toNat_ofNat, Nat.mod_eq_of_lt (by omega)]

theorem utcTimeSec_ofParts (narrowTime : time < 2 ^ 31) (narrowId : serverId < 2 ^ 8)
    (narrow : sequance < 2 ^ 24) : utcTimeSec (ofParts time serverId sequance) = time := by
  rw [utcTimeSec, BitVec.extractLsb'_toNat, toNat_ofParts narrowTime narrowId narrow,
    Nat.shiftRight_eq_div_pow]
  omega

theorem serverId_ofParts (narrowTime : time < 2 ^ 31) (narrowId : serverId < 2 ^ 8)
    (narrow : sequance < 2 ^ 24) : ItemSN.serverId (ofParts time serverId sequance) = serverId := by
  rw [ItemSN.serverId, BitVec.extractLsb'_toNat, toNat_ofParts narrowTime narrowId narrow,
    Nat.shiftRight_eq_div_pow]
  omega

theorem sequanceId_ofParts (narrowTime : time < 2 ^ 31) (narrowId : serverId < 2 ^ 8)
    (narrow : sequance < 2 ^ 24) : sequanceId (ofParts time serverId sequance) = sequance := by
  rw [sequanceId, BitVec.extractLsb'_toNat, toNat_ofParts narrowTime narrowId narrow,
    Nat.shiftRight_zero]
  omega

end Parts

end ItemSN

theorem GeneratorItemSN.serialNumber_eq {generator : GeneratorItemSN} {time sequance : Nat}
    (last : generator.lastTimeSec = time) (count : generator.sequance = sequance)
    (narrowTime : time < 2 ^ 31) (narrow : sequance < 2 ^ 24) :
    generator.serialNumber = ItemSN.ofParts time generator.serverId.toNat sequance := by
  have narrowId : generator.serverId.toNat < 2 ^ 8 := generator.serverId.toNat_lt
  have timeBits : time <<< 32 < 2 ^ 64 := by rw [Nat.shiftLeft_eq]; omega
  have idBits : generator.serverId.toNat <<< 24 < 2 ^ 64 := by rw [Nat.shiftLeft_eq]; omega
  have masked : sequance &&& 0xFFFFFF = sequance := by
    rw [show 0xFFFFFF = 2 ^ 24 - 1 from rfl, Nat.and_two_pow_sub_one_eq_mod,
      Nat.mod_eq_of_lt narrow]
  have bits : (BitVec.ofNat 64 time <<< 32 ||| BitVec.ofNat 64 generator.serverId.toNat <<< 24 |||
      (BitVec.ofNat 64 sequance &&& 0xFFFFFF)).toNat =
        time * 2 ^ 32 + generator.serverId.toNat * 2 ^ 24 + sequance := by
    rw [BitVec.toNat_or, BitVec.toNat_or, BitVec.toNat_and, BitVec.toNat_shiftLeft,
      BitVec.toNat_shiftLeft, BitVec.toNat_ofNat, BitVec.toNat_ofNat, BitVec.toNat_ofNat,
      Nat.mod_eq_of_lt (a := time) (by omega), Nat.mod_eq_of_lt (a := sequance) (by omega),
      Nat.mod_eq_of_lt (a := generator.serverId.toNat) (by omega), Nat.mod_eq_of_lt timeBits,
      Nat.mod_eq_of_lt idBits]
    rw [show (0xFFFFFF : BitVec 64).toNat = 0xFFFFFF from rfl, masked]
    exact ItemSN.parts_or narrowId narrow
  rw [GeneratorItemSN.serialNumber, last, count, BitVec.ofInt_natCast, BitVec.ofInt_natCast,
    BitVec.ofInt_natCast, BitVec.toInt_eq_toNat_of_lt (by rw [bits]; omega), bits]
  rfl

/-- One call, when `count` is what the counter goes to: the branches differ in nothing else. -/
theorem GeneratorItemSN.generateSN_eq {generator : GeneratorItemSN} {utcNow : Int} {count : Nat}
    (range : 0 ≤ utcNow ∧ utcNow < 2 ^ 31) (few : count < 2 ^ 31)
    (again : utcNow = generator.lastTimeSec → (count : Int) = generator.sequance + 1)
    (fresh : utcNow ≠ generator.lastTimeSec → count = 0) :
    generator.generateSN utcNow =
      ({ generator with lastTimeSec := utcNow, sequance := count },
        if count < 2 ^ 24 then .ok (ItemSN.ofParts utcNow.toNat generator.serverId.toNat count)
        else .error .argumentOutOfRange) := by
  have reading : int32 utcNow = utcNow := int32_of_fits (by omega) (by omega)
  have value (narrow : count < 2 ^ 24) :
      serialNumber { generator with lastTimeSec := utcNow, sequance := count } =
        ItemSN.ofParts utcNow.toNat generator.serverId.toNat count :=
    serialNumber_eq (Int.toNat_of_nonneg range.1).symm rfl (by omega) narrow
  rw [generateSN, reading]
  by_cases same : utcNow = generator.lastTimeSec
  · have advanced : int32 (generator.sequance + 1) = count := by
      rw [← again same]
      exact int32_of_fits (by omega) (by omega)
    rw [if_neg (not_not.mpr same), advanced, ← same]
    by_cases room : count < 2 ^ 24
    · rw [if_pos room, ← value room]
      exact if_neg (show ¬(0xFFFFFF : Int) < count by omega)
    · rw [if_neg room]
      exact if_pos (show (0xFFFFFF : Int) < count by omega)
  · obtain rfl := fresh same
    rw [if_pos same, if_pos (by omega), ← value (by omega)]
    rfl

namespace Generators

variable {Server : Type} [DecidableEq Server]

theorem sameSecond_append (server : Server) (utcNow : Int) (calls : List (SerialCall Server))
    (call : SerialCall Server) :
    sameSecond server utcNow (calls ++ [call]) = sameSecond server utcNow calls +
      if call.server = server ∧ call.utcNow = utcNow then 1 else 0 := by
  simp only [sameSecond, List.countP_append, List.countP_singleton, decide_eq_true_eq]

/-- What the clocks of the servers promise. -/
structure Clocks (calls : List (SerialCall Server)) : Prop where
  range : ∀ call ∈ calls, 1 ≤ call.utcNow ∧ call.utcNow < 2 ^ 31
  forward : calls.Pairwise fun first later =>
    first.server = later.server → first.utcNow ≤ later.utcNow
  few : ∀ server utcNow, sameSecond server utcNow calls < 2 ^ 31

/-- What a call after the earlier ones is answered. -/
def numbered (ids : Server → Int) (earlier : List (SerialCall Server))
    (call : SerialCall Server) : Result Int :=
  let count := sameSecond call.server call.utcNow earlier
  if count < 2 ^ 24 then
    .ok (ItemSN.ofParts call.utcNow.toNat (ids call.server).toNat count)
  else .error .argumentOutOfRange

section Frame

variable (generators : Server → GeneratorItemSN) (call : SerialCall Server)

@[simp] theorem step_self : (step generators call).1 call.server =
    ((generators call.server).generateSN call.utcNow).1 := Function.update_self ..

theorem step_other {server : Server} (apart : call.server ≠ server) :
    (step generators call).1 server = generators server := Function.update_of_ne apart.symm ..

end Frame

structure Tracks (ids : Server → Int) (earlier : List (SerialCall Server)) (server : Server)
    (generator : GeneratorItemSN) : Prop where
  serverId : generator.serverId.toNat = (ids server).toNat
  positive : 0 ≤ generator.sequance
  latest : ∀ call ∈ earlier, call.server = server → call.utcNow ≤ generator.lastTimeSec
  counted : 1 ≤ generator.lastTimeSec →
    sameSecond server generator.lastTimeSec earlier = generator.sequance + 1

theorem start_tracks {ids : Server → Int} {server : Server}
    (byte : 0 ≤ ids server ∧ ids server ≤ 255) :
    Tracks ids [] server (start ids server) where
  serverId := by
    have narrow : ids server % 2 ^ 8 = ids server := Int.emod_eq_of_lt byte.1 (by omega)
    rw [start, GeneratorItemSN.init, UInt8.ofInt, narrow, UInt8.toNat_ofNat']
    omega
  positive := le_refl _
  latest := by simp only [List.not_mem_nil, false_implies, implies_true]
  counted := fun late => absurd (show (1 : Int) ≤ 0 from late) (by decide)

section Step

variable {ids : Server → Int} {earlier : List (SerialCall Server)} {call : SerialCall Server}
  {generator : GeneratorItemSN}

theorem Tracks.unread (tracks : Tracks ids earlier call.server generator)
    (positive : 1 ≤ call.utcNow)
    (forward : ∀ one ∈ earlier, one.server = call.server → one.utcNow ≤ call.utcNow)
    (fresh : call.utcNow ≠ generator.lastTimeSec) :
    sameSecond call.server call.utcNow earlier = 0 := by
  have later : generator.lastTimeSec < call.utcNow := by
    by_contra before
    have counted := tracks.counted (by omega)
    have read : 0 < sameSecond call.server generator.lastTimeSec earlier := by
      have := tracks.positive
      omega
    obtain ⟨one, inside, same⟩ := List.countP_pos_iff.mp read
    simp only [decide_eq_true_eq] at same
    have bound := forward one inside same.1
    omega
  rw [sameSecond, List.countP_eq_zero]
  intro one inside same
  simp only [decide_eq_true_eq] at same
  have bound := tracks.latest one inside same.1
  omega

theorem Tracks.other {server : Server} (tracks : Tracks ids earlier server generator)
    (apart : call.server ≠ server) : Tracks ids (earlier ++ [call]) server generator where
  serverId := tracks.serverId
  positive := tracks.positive
  latest := by
    intro one inside same
    rcases List.mem_append.mp inside with inside | inside
    · exact tracks.latest one inside same
    · cases List.mem_singleton.mp inside
      exact absurd same apart
  counted := by
    intro late
    rw [sameSecond_append, if_neg (fun both => apart both.1)]
    exact tracks.counted late

theorem generateSN_spec (tracks : Tracks ids earlier call.server generator)
    (range : 1 ≤ call.utcNow ∧ call.utcNow < 2 ^ 31)
    (forward : ∀ one ∈ earlier, one.server = call.server → one.utcNow ≤ call.utcNow)
    (few : sameSecond call.server call.utcNow earlier < 2 ^ 31) :
    (generator.generateSN call.utcNow).2 = numbered ids earlier call ∧
      Tracks ids (earlier ++ [call]) call.server (generator.generateSN call.utcNow).1 := by
  rw [GeneratorItemSN.generateSN_eq (by omega) few
    (fun same => same ▸ tracks.counted (same ▸ range.1)) (tracks.unread range.1 forward),
    tracks.serverId]
  refine ⟨rfl, tracks.serverId, Int.natCast_nonneg _, ?_, ?_⟩
  · intro one inside same
    rcases List.mem_append.mp inside with inside | inside
    · exact forward one inside same
    · rw [List.mem_singleton.mp inside]
  · intro _
    have counted := sameSecond_append call.server call.utcNow earlier call
    rw [if_pos (And.intro rfl rfl)] at counted
    exact congrArg Nat.cast counted

end Step

/-! Runs over all servers. -/

def history (ids : Server → Int) :
    List (SerialCall Server) → List (SerialCall Server) → List (SerialAnswer Server)
  | _, [] => []
  | earlier, call :: rest =>
      { call with result := numbered ids earlier call } :: history ids (earlier ++ [call]) rest

section Run

variable {ids : Server → Int} {earlier calls : List (SerialCall Server)}

theorem run_eq_history {generators : Server → GeneratorItemSN}
    (clocks : Clocks (earlier ++ calls))
    (tracks : ∀ server, Tracks ids earlier server (generators server)) :
    (Run.run step generators calls).2 = history ids earlier calls := by
  induction calls generalizing earlier generators with
  | nil => rfl
  | cons call rest ih =>
      have range := clocks.range call (List.mem_append_right earlier List.mem_cons_self)
      have forward : ∀ one ∈ earlier, one.server = call.server → one.utcNow ≤ call.utcNow :=
        fun one inside =>
          (List.pairwise_append.mp clocks.forward).2.2 one inside call List.mem_cons_self
      have few : sameSecond call.server call.utcNow earlier < 2 ^ 31 :=
        lt_of_le_of_lt (List.sublist_append_left earlier (call :: rest)).countP_le
          (clocks.few call.server call.utcNow)
      have here := generateSN_spec (tracks call.server) range forward few
      have extended : earlier ++ call :: rest = earlier ++ [call] ++ rest := by
        rw [List.append_assoc, List.singleton_append]
      have next (server : Server) :
          Tracks ids (earlier ++ [call]) server ((step generators call).1 server) := by
        by_cases same : call.server = server
        · cases same
          rw [step_self]
          exact here.2
        · rw [step_other generators call same]
          exact (tracks server).other same
      have later := ih (extended ▸ clocks) next
      rw [Run.run_cons, later, history, step, here.1]

theorem history_getElem? (index : Nat) :
    (history ids earlier calls)[index]? = calls[index]?.map fun call =>
      { call with result := numbered ids (earlier ++ calls.take index) call } := by
  induction calls generalizing earlier index with
  | nil => rfl
  | cons call rest ih =>
      cases index with
      | zero => simp only [history, List.getElem?_cons_zero, List.take_zero, List.append_nil,
          Option.map_some]
      | succ index => simp only [history, List.getElem?_cons_succ, ih, List.take_succ_cons,
          List.append_assoc, List.singleton_append]

theorem sameSecond_take_lt {first later : Nat} {call : SerialCall Server}
    (order : first < later) (there : calls[first]? = some call) :
    sameSecond call.server call.utcNow (calls.take first) <
      sameSecond call.server call.utcNow (calls.take later) := by
  have next : calls.take (first + 1) = calls.take first ++ [call] := by
    rw [List.take_add_one, there, Option.toList_some]
  have counted := sameSecond_append call.server call.utcNow (calls.take first) call
  rw [if_pos (And.intro rfl rfl), ← next] at counted
  calc sameSecond call.server call.utcNow (calls.take first)
      < sameSecond call.server call.utcNow (calls.take (first + 1)) := by omega
    _ ≤ sameSecond call.server call.utcNow (calls.take later) :=
        (List.take_prefix_take_left order).sublist.countP_le

end Run

theorem answers_eq_history {ids : Server → Int} {calls : List (SerialCall Server)}
    (bytes : ∀ server, 0 ≤ ids server ∧ ids server ≤ 255) (clocks : Clocks calls) :
    answers ids calls = history ids [] calls :=
  run_eq_history clocks fun server => start_tracks (bytes server)

theorem answers_calls {ids : Server → Int} {calls : List (SerialCall Server)}
    (bytes : ∀ server, 0 ≤ ids server ∧ ids server ≤ 255) (clocks : Clocks calls) :
    (answers ids calls).map (·.toSerialCall) = calls := by
  rw [answers_eq_history bytes clocks]
  refine List.ext_getElem? fun index => ?_
  rw [List.getElem?_map, history_getElem?, Option.map_map]
  exact Option.map_id' ..

theorem answers_getElem? {ids : Server → Int} {calls : List (SerialCall Server)}
    (bytes : ∀ server, 0 ≤ ids server ∧ ids server ≤ 255) (clocks : Clocks calls) {index : Nat}
    {answer : SerialAnswer Server} (there : (answers ids calls)[index]? = some answer) :
    calls[index]? = some answer.toSerialCall ∧
      answer.result = numbered ids (calls.take index) answer.toSerialCall := by
  rw [answers_eq_history bytes clocks, history_getElem?, List.nil_append] at there
  obtain ⟨call, called, rfl⟩ := Option.map_eq_some_iff.mp there
  exact ⟨called, rfl⟩

theorem numbered_eq_ok {ids : Server → Int} {earlier : List (SerialCall Server)}
    {call : SerialCall Server} {sn : Int} (returned : numbered ids earlier call = .ok sn) :
    sameSecond call.server call.utcNow earlier < 2 ^ 24 ∧
      sn = ItemSN.ofParts call.utcNow.toNat (ids call.server).toNat
        (sameSecond call.server call.utcNow earlier) := by
  rw [numbered] at returned
  by_cases room : sameSecond call.server call.utcNow earlier < 2 ^ 24
  · rw [if_pos room] at returned
    cases returned
    exact ⟨room, rfl⟩
  · rw [if_neg room] at returned
    cases returned

section Answered

variable {ids : Server → Int} {calls : List (SerialCall Server)}
  (bytes : ∀ server, 0 ≤ ids server ∧ ids server ≤ 255) (clocks : Clocks calls)
include bytes clocks

theorem answers_parts {index : Nat} {answer : SerialAnswer Server}
    (there : (answers ids calls)[index]? = some answer) {sn : Int}
    (returned : answer.result = .ok sn) :
    (ItemSN.utcTimeSec sn : Int) = answer.utcNow ∧
      (ItemSN.serverId sn : Int) = ids answer.server ∧
      ItemSN.sequanceId sn = sameSecond answer.server answer.utcNow (calls.take index) := by
  obtain ⟨called, result⟩ := answers_getElem? bytes clocks there
  obtain ⟨narrow, rfl⟩ := numbered_eq_ok (result.symm.trans returned)
  have range := clocks.range _ (List.mem_of_getElem? called)
  have byte := bytes answer.server
  have narrowTime : answer.utcNow.toNat < 2 ^ 31 := by omega
  have narrowId : (ids answer.server).toNat < 2 ^ 8 := by omega
  rw [ItemSN.utcTimeSec_ofParts narrowTime narrowId narrow,
    ItemSN.serverId_ofParts narrowTime narrowId narrow,
    ItemSN.sequanceId_ofParts narrowTime narrowId narrow]
  exact ⟨by omega, by omega, rfl⟩

theorem answers_throw_iff {index : Nat} {answer : SerialAnswer Server}
    (there : (answers ids calls)[index]? = some answer) :
    (∃ failure, answer.result = .error failure) ↔
      2 ^ 24 ≤ sameSecond answer.server answer.utcNow (calls.take index) := by
  rw [(answers_getElem? bytes clocks there).2, numbered]
  by_cases room : sameSecond answer.server answer.utcNow (calls.take index) < 2 ^ 24
  · rw [if_pos room]
    constructor
    · rintro ⟨failure, thrown⟩
      cases thrown
    · intro full
      exact absurd room (by omega)
  · rw [if_neg room]
    exact iff_of_true ⟨_, rfl⟩ (by omega)

theorem answers_increase {first later : Nat} {one other : SerialAnswer Server} {sn next : Int}
    (order : first < later) (there : (answers ids calls)[first]? = some one)
    (after : (answers ids calls)[later]? = some other) (returned : one.result = .ok sn)
    (follows : other.result = .ok next) (same : one.server = other.server) : sn < next := by
  obtain ⟨called, result⟩ := answers_getElem? bytes clocks there
  obtain ⟨recalled, answered⟩ := answers_getElem? bytes clocks after
  obtain ⟨narrow, rfl⟩ := numbered_eq_ok (result.symm.trans returned)
  obtain ⟨_, rfl⟩ := numbered_eq_ok (answered.symm.trans follows)
  have positive := (clocks.range _ (List.mem_of_getElem? called)).1
  have forward : one.utcNow ≤ other.utcNow := by
    obtain ⟨inside, isFirst⟩ := List.getElem?_eq_some_iff.mp called
    obtain ⟨within, isLater⟩ := List.getElem?_eq_some_iff.mp recalled
    have pair := List.pairwise_iff_getElem.mp clocks.forward first later inside within order
    rw [isFirst, isLater] at pair
    exact pair same
  have byte := bytes one.server
  rw [← same, ItemSN.ofParts, ItemSN.ofParts]
  rcases lt_or_eq_of_le forward with moved | still
  · omega
  · have counted := sameSecond_take_lt order called
    rw [← still]
    omega

end Answered

/-- The answers to all calls on servers with ids of their own: increasing on each server, never
the same on two, made of the parts that the layout names, and an exception exactly when the
counter of the second is used up. -/
theorem answers_unique {ids : Server → Int} {calls : List (SerialCall Server)}
    (bytes : ∀ server, 0 ≤ ids server ∧ ids server ≤ 255) (distinct : Function.Injective ids)
    (clocks : Clocks calls) :
    (answers ids calls).map (·.toSerialCall) = calls ∧
    (∀ (first later : Nat) (one other : SerialAnswer Server) (sn next : Int), first < later →
      (answers ids calls)[first]? = some one → (answers ids calls)[later]? = some other →
      one.result = .ok sn → other.result = .ok next →
        (one.server = other.server → sn < next) ∧ (one.server ≠ other.server → sn ≠ next)) ∧
    ∀ (index : Nat) (answer : SerialAnswer Server), (answers ids calls)[index]? = some answer →
      ((∃ failure, answer.result = .error failure) ↔
        2 ^ 24 ≤ sameSecond answer.server answer.utcNow (calls.take index)) ∧
      ∀ sn, answer.result = .ok sn →
        (ItemSN.utcTimeSec sn : Int) = answer.utcNow ∧
        (ItemSN.serverId sn : Int) = ids answer.server ∧
        ItemSN.sequanceId sn = sameSecond answer.server answer.utcNow (calls.take index) := by
  refine ⟨answers_calls bytes clocks, ?_, fun index answer there =>
    ⟨answers_throw_iff bytes clocks there, fun sn => answers_parts bytes clocks there⟩⟩
  intro first later one other sn next order there after returned follows
  refine ⟨answers_increase bytes clocks order there after returned follows, ?_⟩
  rintro apart rfl
  have here := (answers_parts bytes clocks there returned).2.1
  have elsewhere := (answers_parts bytes clocks after follows).2.1
  exact apart (distinct (here.symm.trans elsewhere))

def twoIds (server : Bool) : Int := if server then 2 else 1

/-- The first server reads one second twice, the other server reads it in between. -/
def twoServers : List (SerialCall Bool) := [⟨false, 5⟩, ⟨true, 5⟩, ⟨false, 5⟩, ⟨false, 6⟩]

theorem twoServers_clocks : Clocks twoServers where
  range := by decide
  forward := by decide
  few server utcNow := lt_of_le_of_lt List.countP_le_length (by decide)

theorem answers_unique_two_servers :
    (answers twoIds twoServers).map (·.toSerialCall) = twoServers ∧
    ∀ (first later : Nat) (one other : SerialAnswer Bool) (sn next : Int), first < later →
      (answers twoIds twoServers)[first]? = some one →
      (answers twoIds twoServers)[later]? = some other →
      one.result = .ok sn → other.result = .ok next → sn ≠ next := by
  have unique := answers_unique (show ∀ server, 0 ≤ twoIds server ∧ twoIds server ≤ 255 by decide)
    (by decide) twoServers_clocks
  refine ⟨unique.1, fun first later one other sn next order there after returned follows => ?_⟩
  have pair := unique.2.1 first later one other sn next order there after returned follows
  by_cases same : one.server = other.server
  · exact (pair.1 same).ne
  · exact pair.2 same

end Generators

end ProjectPl.Sharp
