import ProjectPl.ClientCore
import ProjectPl.Lib.Registry

/-!
What a client sees. The view of a `CharacterMgr` is the position it holds for each token in its
map, and each packet changes it in one place: the pooled objects behind it never overlap.
-/

namespace ProjectPl

abbrev View := Int → Option (Int × Int)

namespace View

def put (own : Int) (view : View) (info : CharacterDbData) : View :=
  if info.token = own then view
  else Function.update view info.token (some (info.pos.posX, info.pos.posY))

def see (own : Int) (view : View) : S2CCall → View
  | .enter packet =>
      if packet.token = own then view
      else Function.update view packet.token (some (packet.x, packet.y))
  | .enterCharacter packet =>
      (List.range packet.count.toNat).foldl
        (fun current idx => current.put own (packet.data[idx]?.getD {})) view
  | .leave packet =>
      if packet.token = own then view else Function.update view packet.token none
  | .move packet =>
      if packet.token = own then view
      else Function.update view packet.token
        ((view packet.token).map fun _ => (packet.x, packet.y))
  | _ => view

theorem foldl_see_beats {own : Int} {beats : List S2CCall}
    (beating : ∀ packet ∈ beats, packet = .heartbeat {}) (seen : View) :
    beats.foldl (see own) seen = seen := by
  induction beats with
  | nil => rfl
  | cons packet rest ih =>
      rw [List.foldl_cons, beating packet List.mem_cons_self]
      exact ih fun other member => beating other (List.mem_cons_of_mem _ member)

/-! A client holds no character for its own token. -/

theorem put_own (own : Int) (seen : View) (info : CharacterDbData) :
    seen.put own info own = seen own := by
  unfold put
  split
  · rfl
  next other => rw [Function.update_of_ne (Ne.symm other)]

theorem see_own (own : Int) (seen : View) (packet : S2CCall) :
    seen.see own packet own = seen own := by
  cases packet with
  | enter packet =>
      simp only [see]
      split
      · rfl
      next other => rw [Function.update_of_ne (Ne.symm other)]
  | leave packet =>
      simp only [see]
      split
      · rfl
      next other => rw [Function.update_of_ne (Ne.symm other)]
  | move packet =>
      simp only [see]
      split
      · rfl
      next other => rw [Function.update_of_ne (Ne.symm other)]
  | enterCharacter packet =>
      simp only [see]
      generalize List.range packet.count.toNat = indices
      induction indices generalizing seen with
      | nil => rfl
      | cons idx rest ih => rw [List.foldl_cons, ih, put_own]
  | _ => rfl

theorem foldl_see_own (own : Int) (packets : List S2CCall) (seen : View) :
    packets.foldl (see own) seen own = seen own := by
  induction packets generalizing seen with
  | nil => rfl
  | cons packet rest ih => rw [List.foldl_cons, ih, see_own]

end View

namespace CharacterMgr

def view (mgr : CharacterMgr) : View := fun token =>
  (mgr.characterMap[token]?).map fun obj =>
    ((mgr.characters obj).pos.posX, (mgr.characters obj).pos.posY)

structure Sound (mgr : CharacterMgr) : Prop where
  kept : mgr.mgr.Kept
  player : mgr.playerCharacter ∈ mgr.mgr.usedList
  mapped : ∀ (token : Int) obj, mgr.characterMap[token]? = some obj →
    obj ∈ mgr.mgr.usedList ∧ obj ≠ mgr.playerCharacter
  distinct : ∀ (first second : Int) obj, mgr.characterMap[first]? = some obj →
    mgr.characterMap[second]? = some obj → first = second

theorem new_sound : new.Sound := by
  obtain ⟨kept, -, used⟩ := ObjectMgr.getFreeObject_kept ObjectMgr.new_kept
  refine ⟨kept, ?_, ?_, ?_⟩
  · show ({} : ObjectMgr).getFreeObject.2 ∈ ({} : ObjectMgr).getFreeObject.1.usedList
    rw [used]
    simp
  · intro token obj mapped
    simp [new] at mapped
  · intro first second obj mapped
    simp [new] at mapped

theorem new_view : new.view = fun _ => none := by
  funext token
  simp [view, new]

theorem setCharacter_sound {mgr : CharacterMgr} (sound : mgr.Sound) (obj : Nat)
    (character : Character) : (mgr.setCharacter obj character).Sound :=
  ⟨sound.kept, sound.player, sound.mapped, sound.distinct⟩

theorem setCharacter_view_player {mgr : CharacterMgr} (sound : mgr.Sound)
    (character : Character) : (mgr.setCharacter mgr.playerCharacter character).view = mgr.view := by
  funext token
  unfold view
  cases found : mgr.characterMap[token]? with
  | none => simp [setCharacter, found]
  | some obj =>
      have other := (sound.mapped token obj found).2
      simp [setCharacter, found, Function.update_of_ne other]

theorem setCharacter_view {mgr : CharacterMgr} (sound : mgr.Sound) {token : Int} {obj : Nat}
    (mapped : mgr.characterMap[token]? = some obj) (character : Character) :
    (mgr.setCharacter obj character).view =
      Function.update mgr.view token (some (character.pos.posX, character.pos.posY)) := by
  funext key
  by_cases same : key = token
  · subst same
    simp [view, setCharacter, mapped]
  · rw [Function.update_of_ne same]
    unfold view
    cases found : mgr.characterMap[key]? with
    | none => simp [setCharacter, found]
    | some known =>
        have other : known ≠ obj := by
          rintro rfl
          exact same (sound.distinct key token known found mapped)
        simp [setCharacter, found, Function.update_of_ne other]

theorem setCharacter_playerToken {mgr : CharacterMgr} {obj : Nat} {character : Character}
    (kept : obj = mgr.playerCharacter → character.token = mgr.playerToken) :
    (mgr.setCharacter obj character).playerToken = mgr.playerToken := by
  by_cases same : mgr.playerCharacter = obj
  · subst same
    simpa [playerToken, setCharacter] using kept rfl
  · simp [playerToken, setCharacter, Function.update_of_ne same]

/-! `EnterCharacter` for another token: its character, old or new, is in the map. -/

structure Entered (mgr : CharacterMgr) (token : Int) (next : CharacterMgr) (obj : Nat) : Prop where
  sound : next.Sound
  mapped : next.characterMap[token]? = some obj
  others : ∀ key ≠ token, next.view key = mgr.view key
  player : next.playerToken = mgr.playerToken

theorem enterCharacter_entered {mgr : CharacterMgr} (sound : mgr.Sound) {token : Int}
    (other : mgr.playerToken ≠ token) :
    Entered mgr token (mgr.enterCharacter token).1 (mgr.enterCharacter token).2 := by
  unfold enterCharacter
  rw [getCharacter, if_neg other]
  cases found : mgr.characterMap[token]? with
  | some obj => exact ⟨sound, found, fun _ _ => rfl, rfl⟩
  | none =>
      obtain ⟨kept, fresh, used⟩ := ObjectMgr.getFreeObject_kept sound.kept
      generalize mgr.mgr.getFreeObject = issued at kept fresh used
      have lookup : ∀ key : Int, (mgr.characterMap.insertIfNew token issued.2)[key]? =
          if token = key then some issued.2 else mgr.characterMap[key]? :=
        fun key => Registry.lookup_insertIfNew_fresh found key issued.2
      have playerOther : mgr.playerCharacter ≠ issued.2 := by
        intro same
        exact fresh (same ▸ sound.player)
      refine ⟨⟨kept, ?_, ?_, ?_⟩, ?_, ?_, ?_⟩
      · rw [used]
        exact List.mem_append_left _ sound.player
      · intro key obj mapped
        rw [lookup] at mapped
        rw [used]
        split at mapped
        next =>
          obtain rfl := Option.some.inj mapped
          exact ⟨by simp, Ne.symm playerOther⟩
        next =>
          obtain ⟨inUse, different⟩ := sound.mapped key obj mapped
          exact ⟨List.mem_append_left _ inUse, different⟩
      · intro first second obj mappedFirst mappedSecond
        rw [lookup] at mappedFirst mappedSecond
        have old : ∀ key : Int, mgr.characterMap[key]? = some obj → obj ≠ issued.2 := by
          rintro key mapped rfl
          exact fresh (sound.mapped key _ mapped).1
        split at mappedFirst
        next firstNew =>
          split at mappedSecond
          next secondNew => exact firstNew.symm.trans secondNew
          next => exact absurd (Option.some.inj mappedFirst).symm (old second mappedSecond)
        next =>
          split at mappedSecond
          next => exact absurd (Option.some.inj mappedSecond).symm (old first mappedFirst)
          next => exact sound.distinct first second obj mappedFirst mappedSecond
      · rw [lookup, if_pos rfl]
      · intro key different
        unfold view
        rw [lookup, if_neg (Ne.symm different)]
        cases known : mgr.characterMap[key]? with
        | none => rfl
        | some obj =>
            have other : obj ≠ issued.2 := by
              rintro rfl
              exact fresh (sound.mapped key _ known).1
            simp [setCharacter, Function.update_of_ne other]
      · simp [playerToken, setCharacter, Function.update_of_ne playerOther]

/-! What each packet does to the view. -/

structure Sees (own : Int) (view : View) (next : CharacterMgr) : Prop where
  sound : next.Sound
  view : next.view = view
  player : next.playerToken = own

theorem place_sees {mgr : CharacterMgr} (sound : mgr.Sound) {token : Int}
    (other : mgr.playerToken ≠ token) (place : Character → Character)
    (kept : ∀ character, (place character).token = character.token) (xy : Int × Int)
    (placed : ∀ character,
      ((place character).pos.posX, (place character).pos.posY) = xy) :
    let entered := mgr.enterCharacter token
    Sees mgr.playerToken (Function.update mgr.view token (some xy))
      (entered.1.setCharacter entered.2 (place (entered.1.characters entered.2))) := by
  intro entered
  obtain ⟨enteredSound, mapped, others, player⟩ := enterCharacter_entered sound other
  refine ⟨setCharacter_sound enteredSound _ _, ?_, ?_⟩
  · rw [setCharacter_view enteredSound mapped, placed]
    funext key
    by_cases same : key = token
    · subst same
      simp
    · rw [Function.update_of_ne same, Function.update_of_ne same, others key same]
  · rw [setCharacter_playerToken, player]
    rintro same
    rw [kept, same]
    rfl

theorem s2cEnter_sees {mgr : CharacterMgr} (sound : mgr.Sound) (packet : ScPEnter) :
    Sees mgr.playerToken (mgr.view.see mgr.playerToken (.enter packet))
      (mgr.s2cEnter packet) := by
  simp only [s2cEnter, View.see]
  by_cases mine : mgr.playerToken = packet.token
  · rw [if_pos mine, if_pos mine.symm]
    refine ⟨setCharacter_sound sound _ _, setCharacter_view_player sound _, ?_⟩
    exact setCharacter_playerToken fun _ => rfl
  · rw [if_neg mine, if_neg (Ne.symm mine)]
    exact place_sees sound mine
      (fun character => { character with pos := { character.pos with
        posX := packet.x, posY := packet.y } })
      (fun _ => rfl) (packet.x, packet.y) (fun _ => rfl)

theorem s2cEnterCharacterOne_sees {mgr : CharacterMgr} (sound : mgr.Sound)
    (info : CharacterDbData) :
    Sees mgr.playerToken (mgr.view.put mgr.playerToken info)
      (mgr.s2cEnterCharacterOne info) := by
  unfold s2cEnterCharacterOne View.put
  by_cases mine : mgr.playerToken = info.token
  · have player : mgr.enterCharacter info.token = (mgr, mgr.playerCharacter) := by
      unfold enterCharacter
      rw [getCharacter, if_pos mine]
    rw [player, if_pos mine.symm]
    refine ⟨setCharacter_sound sound _ _, setCharacter_view_player sound _, ?_⟩
    exact setCharacter_playerToken fun _ => rfl
  · rw [if_neg (Ne.symm mine)]
    exact place_sees sound mine (fun character => { character with pos := info.pos })
      (fun _ => rfl) (info.pos.posX, info.pos.posY) (fun _ => rfl)

theorem s2cEnterCharacter_sees {mgr : CharacterMgr} (sound : mgr.Sound)
    (packet : ScPEnterCharacterList) :
    Sees mgr.playerToken (mgr.view.see mgr.playerToken (.enterCharacter packet))
      (mgr.s2cEnterCharacter packet) := by
  simp only [s2cEnterCharacter, View.see]
  generalize List.range packet.count.toNat = indices
  induction indices generalizing mgr with
  | nil => exact ⟨sound, rfl, rfl⟩
  | cons idx rest ih =>
      have here := s2cEnterCharacterOne_sees sound (packet.data[idx]?.getD {})
      have later := ih here.sound
      rw [here.player, here.view] at later
      exact ⟨later.sound, later.view, later.player⟩

theorem leaveCharacter_lookup (mgr : CharacterMgr) (token key : Int) :
    (mgr.leaveCharacter token).characterMap[key]? =
      if token = key then none else mgr.characterMap[key]? :=
  Registry.lookup_erase mgr.characterMap token key

theorem leaveCharacter_sees {mgr : CharacterMgr} (sound : mgr.Sound) (token : Int) :
    Sees mgr.playerToken (Function.update mgr.view token none) (mgr.leaveCharacter token) := by
  refine ⟨⟨sound.kept, sound.player, ?_, ?_⟩, ?_, rfl⟩
  · intro key obj mapped
    rw [leaveCharacter_lookup] at mapped
    split at mapped
    · cases mapped
    · exact sound.mapped key obj mapped
  · intro first second obj mappedFirst mappedSecond
    rw [leaveCharacter_lookup] at mappedFirst mappedSecond
    split at mappedFirst
    · cases mappedFirst
    · split at mappedSecond
      · cases mappedSecond
      · exact sound.distinct first second obj mappedFirst mappedSecond
  · funext key
    unfold view
    rw [leaveCharacter_lookup]
    by_cases same : key = token
    · subst same
      simp
    · rw [if_neg (Ne.symm same), Function.update_of_ne same]
      rfl

theorem s2cLeave_sees {mgr : CharacterMgr} (sound : mgr.Sound) (packet : ScPLeave) :
    Sees mgr.playerToken (mgr.view.see mgr.playerToken (.leave packet))
      (mgr.s2cLeave packet) := by
  simp only [s2cLeave, View.see]
  by_cases mine : mgr.playerToken = packet.token
  · rw [getCharacter, if_pos mine, if_pos mine.symm]
    dsimp only
    rw [if_pos rfl]
    exact ⟨sound, rfl, rfl⟩
  · rw [getCharacter, if_neg mine, if_neg (Ne.symm mine)]
    cases found : mgr.characterMap[packet.token]? with
    | none =>
        refine ⟨sound, ?_, rfl⟩
        funext key
        by_cases same : key = packet.token
        · subst same
          simp [view, found]
        · rw [Function.update_of_ne same]
    | some obj =>
        dsimp only
        rw [if_neg (Ne.symm (sound.mapped _ obj found).2)]
        exact leaveCharacter_sees sound packet.token

theorem s2cMove_sees {mgr : CharacterMgr} (sound : mgr.Sound) (packet : ScPMove) :
    Sees mgr.playerToken (mgr.view.see mgr.playerToken (.move packet))
      (mgr.s2cMove packet) := by
  simp only [s2cMove, View.see]
  by_cases mine : mgr.playerToken = packet.token
  · rw [getCharacter, if_pos mine, if_pos mine.symm]
    refine ⟨setCharacter_sound sound _ _, setCharacter_view_player sound _, ?_⟩
    exact setCharacter_playerToken fun _ => rfl
  · rw [getCharacter, if_neg mine, if_neg (Ne.symm mine)]
    cases found : mgr.characterMap[packet.token]? with
    | none =>
        refine ⟨sound, ?_, rfl⟩
        funext key
        by_cases same : key = packet.token
        · subst same
          simp [view, found]
        · rw [Function.update_of_ne same]
    | some obj =>
        refine ⟨setCharacter_sound sound _ _, ?_, setCharacter_playerToken ?_⟩
        · rw [show mgr.view packet.token = some _ by simp [view, found]; rfl]
          exact setCharacter_view sound found _
        · rintro rfl
          rfl

/-- A packet that is no answer to `CS_P_AUTH` changes the view as `see` says. -/
theorem handle_sees {mgr : CharacterMgr} (sound : mgr.Sound) {packet : S2CCall}
    (noAnswer : ∀ answer, packet ≠ .authResult answer) :
    Sees mgr.playerToken (mgr.view.see mgr.playerToken packet) (mgr.handle packet) := by
  cases packet with
  | authResult answer => exact absurd rfl (noAnswer answer)
  | enter packet => exact s2cEnter_sees sound packet
  | enterCharacter packet => exact s2cEnterCharacter_sees sound packet
  | leave packet => exact s2cLeave_sees sound packet
  | move packet => exact s2cMove_sees sound packet
  | interaction packet => exact ⟨sound, rfl, rfl⟩
  | heartbeat packet => exact ⟨sound, rfl, rfl⟩
  | echo packet => exact ⟨sound, rfl, rfl⟩

theorem foldl_handle_sees {mgr : CharacterMgr} (sound : mgr.Sound) {packets : List S2CCall}
    (noAnswer : ∀ packet ∈ packets, ∀ answer, packet ≠ .authResult answer) :
    Sees mgr.playerToken (packets.foldl (View.see mgr.playerToken) mgr.view)
      (packets.foldl handle mgr) := by
  induction packets generalizing mgr with
  | nil => exact ⟨sound, rfl, rfl⟩
  | cons packet rest ih =>
      have here := handle_sees sound (noAnswer packet List.mem_cons_self)
      have later := ih here.sound fun other member =>
        noAnswer other (List.mem_cons_of_mem _ member)
      rw [here.player, here.view] at later
      exact later

/-! The packets of a session that authenticated once: nothing but heartbeats before the answer,
and no second answer after it. -/

def Mailbox (own : Int) (packets : List S2CCall) : Prop :=
  ∃ beats id rest, packets = beats ++ .authResult ⟨id, own⟩ :: rest ∧
    (∀ packet ∈ beats, packet = .heartbeat {}) ∧
    ∀ packet ∈ rest, ∀ answer, packet ≠ .authResult answer

theorem Mailbox.append {own : Int} {packets more : List S2CCall} (mailbox : Mailbox own packets)
    (noAnswer : ∀ packet ∈ more, ∀ answer, packet ≠ .authResult answer) :
    Mailbox own (packets ++ more) := by
  obtain ⟨beats, id, rest, rfl, beating, before⟩ := mailbox
  refine ⟨beats, id, rest ++ more, by simp, beating, ?_⟩
  intro packet member
  rcases List.mem_append.mp member with old | new
  · exact before packet old
  · exact noAnswer packet new

theorem run_view {own : Int} {packets : List S2CCall} (mailbox : Mailbox own packets) :
    (run packets).view = packets.foldl (View.see own) fun _ => none := by
  obtain ⟨beats, id, rest, rfl, beating, noAnswer⟩ := mailbox
  have idle : beats.foldl handle new = new := by
    clear noAnswer
    induction beats with
    | nil => rfl
    | cons packet later ih =>
        rw [List.foldl_cons, beating packet List.mem_cons_self]
        exact ih fun other member => beating other (List.mem_cons_of_mem _ member)
  have authed : (new.s2cAuthResult ⟨id, own⟩).playerToken = own := by
    simp [s2cAuthResult, playerToken, setCharacter]
  have empty : (new.s2cAuthResult ⟨id, own⟩).view = fun _ => none :=
    (setCharacter_view_player new_sound _).trans new_view
  have sound : (new.s2cAuthResult ⟨id, own⟩).Sound := setCharacter_sound new_sound _ _
  have seen := foldl_handle_sees sound noAnswer
  rw [authed, empty] at seen
  rw [run, List.foldl_append, List.foldl_append, idle, View.foldl_see_beats beating,
    List.foldl_cons, List.foldl_cons]
  exact seen.view

end CharacterMgr

end ProjectPl
