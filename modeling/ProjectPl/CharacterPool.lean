import ProjectPl.Client
import ProjectPl.Lib.Run

/-!
Which pooled characters a client holds. `EnterCharacter` takes one from the pool for a token it
does not know, and `LeaveCharacter` only drops the map's entry, so a run keeps to one character
for each entry exactly as long as nobody leaves that is in the map.
-/

namespace ProjectPl

namespace CharacterMgr

/-- `S2C_AuthResult` names the player's own character. -/
inductive Call
  | enterCharacter (token : Int)
  | leaveCharacter (token : Int)
  | authResult (packet : ScPAuthResult)

def step (mgr : CharacterMgr) : Call → CharacterMgr
  | .enterCharacter token => (mgr.enterCharacter token).1
  | .leaveCharacter token => mgr.leaveCharacter token
  | .authResult packet => mgr.s2cAuthResult packet

def values (mgr : CharacterMgr) : List Nat := mgr.characterMap.toList.map Prod.snd

/-- The objects in use are the player's character and the map's, each under its own token. -/
structure Registered (mgr : CharacterMgr) : Prop where
  used : mgr.mgr.usedList.Perm (mgr.playerCharacter :: mgr.values)
  token : ∀ (token : Int) obj, mgr.characterMap[token]? = some obj →
    (mgr.characters obj).token = token
  bound : mgr.mgr.usedList.length ≤ 1 + mgr.characterMap.size

def LeavesUnmapped (mgr : CharacterMgr) : Call → Prop
  | .leaveCharacter token => mgr.characterMap[token]? = none
  | _ => True

structure Tracked (mgr : CharacterMgr) : Prop extends Sound mgr where
  token : ∀ (token : Int) obj, mgr.characterMap[token]? = some obj →
    (mgr.characters obj).token = token
  owned : ∀ obj ∈ mgr.mgr.usedList,
    obj = mgr.playerCharacter ∨ ∃ token : Int, mgr.characterMap[token]? = some obj

theorem mem_values (mgr : CharacterMgr) (obj : Nat) :
    obj ∈ mgr.values ↔ ∃ token : Int, mgr.characterMap[token]? = some obj := by
  rw [values, List.mem_map]
  constructor
  · rintro ⟨⟨token, known⟩, listed, rfl⟩
    exact ⟨token, Std.TreeMap.mem_toList_iff_getElem?_eq_some.mp listed⟩
  · rintro ⟨token, found⟩
    exact ⟨(token, obj), Std.TreeMap.mem_toList_iff_getElem?_eq_some.mpr found, rfl⟩

theorem values_nodup {mgr : CharacterMgr} (sound : mgr.Sound) : mgr.values.Nodup := by
  have keys := Std.TreeMap.distinct_keys_toList (t := mgr.characterMap)
  refine List.pairwise_map.mpr ((List.Pairwise.and_mem.mp keys).imp ?_)
  rintro ⟨first, obj⟩ ⟨second, other⟩ ⟨firstListed, secondListed, different⟩ same
  rw [Std.TreeMap.mem_toList_iff_getElem?_eq_some] at firstListed secondListed
  obtain rfl : obj = other := same
  obtain rfl := sound.distinct first second obj firstListed secondListed
  exact different Std.ReflCmp.compare_self

theorem Tracked.registered {mgr : CharacterMgr} (tracked : mgr.Tracked) : mgr.Registered := by
  have player : mgr.playerCharacter ∉ mgr.values := by
    intro listed
    obtain ⟨token, found⟩ := (mem_values mgr _).mp listed
    exact (tracked.mapped token _ found).2 rfl
  have usedNodup := (List.nodup_append'.mp tracked.kept.distinct).2.1
  have used : mgr.mgr.usedList.Perm (mgr.playerCharacter :: mgr.values) := by
    rw [List.perm_ext_iff_of_nodup usedNodup
      (List.nodup_cons.mpr ⟨player, values_nodup tracked.toSound⟩)]
    intro obj
    rw [List.mem_cons, mem_values]
    constructor
    · exact tracked.owned obj
    · rintro (rfl | ⟨token, found⟩)
      · exact tracked.player
      · exact (tracked.mapped token obj found).1
  refine ⟨used, tracked.token, ?_⟩
  rw [used.length_eq, List.length_cons, values, List.length_map, Std.TreeMap.length_toList,
    Nat.add_comm]

theorem new_tracked : new.Tracked := by
  refine ⟨new_sound, ?_, ?_⟩
  · intro token obj mapped
    simp [new] at mapped
  · intro obj inUse
    have used := (ObjectMgr.getFreeObject_kept ObjectMgr.new_kept).2.2
    change obj ∈ ({} : ObjectMgr).getFreeObject.1.usedList at inUse
    rw [used] at inUse
    exact Or.inl (List.mem_singleton.mp inUse)

theorem enterCharacter_known {mgr : CharacterMgr} {token : Int} {obj : Nat}
    (known : mgr.getCharacter token = some obj) : mgr.enterCharacter token = (mgr, obj) := by
  rw [enterCharacter, known]

theorem enterCharacter_tracked {mgr : CharacterMgr} (tracked : mgr.Tracked) (token : Int) :
    (mgr.enterCharacter token).1.Tracked := by
  cases known : mgr.getCharacter token with
  | some obj =>
      rw [enterCharacter_known known]
      exact tracked
  | none =>
      have other : mgr.playerToken ≠ token := by
        intro own
        rw [getCharacter, if_pos own] at known
        cases known
      have absent : mgr.characterMap[token]? = none := by
        rwa [getCharacter, if_neg other] at known
      have entered := enterCharacter_entered tracked.toSound other
      rw [enterCharacter, known] at entered ⊢
      obtain ⟨-, fresh, used⟩ := ObjectMgr.getFreeObject_kept tracked.kept
      dsimp only at entered ⊢
      generalize mgr.mgr.getFreeObject = issued at entered fresh used ⊢
      have lookup : ∀ key : Int, (mgr.characterMap.insertIfNew token issued.2)[key]? =
          if token = key then some issued.2 else mgr.characterMap[key]? :=
        fun key => Registry.lookup_insertIfNew_fresh absent key issued.2
      refine ⟨entered.sound, ?_, ?_⟩
      · intro key obj found
        rw [lookup] at found
        split at found
        next own =>
          obtain rfl := Option.some.inj found
          simp [setCharacter, own]
        next =>
          have different : obj ≠ issued.2 := by
            rintro rfl
            exact fresh (tracked.mapped key _ found).1
          simpa [setCharacter, Function.update_of_ne different] using tracked.token key obj found
      · intro obj inUse
        rw [used, List.mem_append, List.mem_singleton] at inUse
        rcases inUse with old | rfl
        · refine (tracked.owned obj old).imp id ?_
          rintro ⟨key, found⟩
          have another : token ≠ key := by
            rintro rfl
            rw [absent] at found
            cases found
          exact ⟨key, by rw [lookup, if_neg another, found]⟩
        · exact Or.inr ⟨token, entered.mapped⟩

theorem leaveCharacter_tracked {mgr : CharacterMgr} (tracked : mgr.Tracked) {token : Int}
    (unmapped : mgr.characterMap[token]? = none) : (mgr.leaveCharacter token).Tracked := by
  have same : ∀ key : Int,
      (mgr.leaveCharacter token).characterMap[key]? = mgr.characterMap[key]? := by
    intro key
    rw [leaveCharacter_lookup]
    split
    next own => rw [← own, unmapped]
    next => rfl
  refine ⟨(leaveCharacter_sees tracked.toSound token).sound, ?_, ?_⟩
  · intro key obj found
    exact tracked.token key obj ((same key).symm.trans found)
  · intro obj inUse
    refine (tracked.owned obj inUse).imp id ?_
    rintro ⟨key, found⟩
    exact ⟨key, (same key).trans found⟩

theorem authResult_tracked {mgr : CharacterMgr} (tracked : mgr.Tracked) (packet : ScPAuthResult) :
    (mgr.s2cAuthResult packet).Tracked := by
  refine ⟨setCharacter_sound tracked.toSound _ _, ?_, tracked.owned⟩
  intro token obj found
  have other := (tracked.mapped token obj found).2
  simpa [s2cAuthResult, setCharacter, Function.update_of_ne other] using
    tracked.token token obj found

theorem step_tracked (mgr : CharacterMgr) (call : Call) (tracked : mgr.Tracked)
    (leaves : mgr.LeavesUnmapped call) : (mgr.step call).Tracked := by
  cases call with
  | enterCharacter token => exact enterCharacter_tracked tracked token
  | leaveCharacter token => exact leaveCharacter_tracked tracked leaves
  | authResult packet => exact authResult_tracked tracked packet

/-- The character that leaves stays in use, and nothing names it any more. -/
theorem step_leaks (mgr : CharacterMgr) (call : Call) (tracked : mgr.Tracked)
    (violated : ¬mgr.LeavesUnmapped call) : ¬(mgr.step call).Registered := by
  cases call with
  | enterCharacter token => exact absurd trivial violated
  | authResult packet => exact absurd trivial violated
  | leaveCharacter token =>
      obtain ⟨obj, found⟩ := Option.ne_none_iff_exists'.mp violated
      obtain ⟨inUse, notPlayer⟩ := tracked.mapped token obj found
      intro registered
      rcases List.mem_cons.mp (registered.used.subset inUse) with player | listed
      · exact notPlayer player
      · obtain ⟨key, later⟩ := (mem_values _ _).mp listed
        rw [step, leaveCharacter_lookup] at later
        split at later
        next => cases later
        next other => exact other (tracked.distinct token key obj found later)

/-- A client keeps to its map exactly as long as no token that is in it leaves. -/
theorem always_registered_iff (calls : List Call) :
    (∀ before after, calls = before ++ after → (before.foldl step new).Registered) ↔
      Run.Along step LeavesUnmapped new calls :=
  Run.always_iff_along step_tracked (fun _ tracked => tracked.registered) step_leaks new_tracked
    calls

/-- One character enters and leaves, and two objects stay in use. -/
theorem left_character_in_use :
    ¬∀ before after, [.enterCharacter 5, .leaveCharacter 5] = before ++ after →
      (before.foldl step new).Registered := by
  intro always
  have bound := (always [.enterCharacter 5, .leaveCharacter 5] [] rfl).bound
  revert bound
  decide

end CharacterMgr

end ProjectPl
