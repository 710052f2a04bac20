import ProjectPl.CommonProtocol

/-!
The classes of `PL_Common` one after the other. Most of them fill their frame. Those with strings
do where the length fields lie inside the strings' bytes, which the setters break for strings
whose number of characters is negative as an `Int16`. Five classes never do, a list of characters
only by accident, and a list of tokens not for every count that comes from the wire.
-/

namespace ProjectPl

open LittleEndian DotNet

namespace Sharp.Common

/-! What the objects with arrays look like that the constructors and `SetData` make. -/

def PacketSCCharacterList.Built (packet : PacketSCCharacterList) : Prop :=
  packet.characterList = List.replicate 4 none

/-- The records set stand at the front. From the wire comes at most a count that is not positive,
because there is no record to read into. -/
def PacketSCEnterOtherCharacter.Built (packet : PacketSCEnterOtherCharacter) : Prop :=
  ∃ infos : List CharacterInfo, infos.length ≤ 20 ∧
    packet.characters = infos.map some ++ List.replicate (20 - infos.length) none ∧
    (packet.count = infos.length ∨ infos = [] ∧ packet.count < 0)

def PacketSCLeaveOtherCharacter.Built (packet : PacketSCLeaveOtherCharacter) : Prop :=
  packet.leaveCharacterCid.length = 20 ∧ packet.count ≤ 20 ∧ FitsSigned 4 packet.count

/-- Reading into records that are not there goes on only if there are none to read. -/
theorem valueEach_eq_ok_of_null {Q : Type} {fields : List (Field Q)} {count room : Nat}
    {ser next : Serializer} {result : List (Option Q)}
    (done : valueEach (valueReference fields) count (List.replicate room none) ser =
      .ok (next, result)) : count = 0 ∧ result = List.replicate room none := by
  cases count with
  | zero =>
      cases done
      exact ⟨rfl, rfl⟩
  | succ count => cases room <;> cases done

theorem valueEach_length {Q : Type} {value : Serializer → Q → Result (Serializer × Q)}
    {count : Nat} {array result : List Q} {ser next : Serializer}
    (done : valueEach value count array ser = .ok (next, result)) :
    count ≤ array.length ∧ result.length = array.length := by
  induction count generalizing array ser result next with
  | zero =>
      cases done
      exact ⟨Nat.zero_le _, rfl⟩
  | succ count ih =>
      cases array with
      | nil => cases done
      | cons element rest =>
          obtain ⟨first, -, later⟩ := bind_eq_ok done
          obtain ⟨⟨last, others⟩, read, returned⟩ := bind_eq_ok later
          cases returned
          obtain ⟨inside, same⟩ := ih read
          exact ⟨Nat.succ_le_succ inside, congrArg Nat.succ same⟩

/-- The next element goes behind those that are set. -/
theorem set_front {α : Type} (front : List α) (value blank : α) {size : Nat}
    (room : front.length < size) :
    (front ++ List.replicate (size - front.length) blank).set front.length value =
      (front ++ [value]) ++ List.replicate (size - (front ++ [value]).length) blank := by
  obtain ⟨left, more⟩ : ∃ left, size - front.length = left + 1 :=
    ⟨size - front.length - 1, by omega⟩
  rw [more, List.replicate_succ, List.set_append_right _ _ (Nat.le_refl _), Nat.sub_self,
    List.set_cons_zero, List.length_append, List.length_singleton, ← Nat.sub_sub, more,
    Nat.add_sub_cancel, List.append_assoc, List.singleton_append]

theorem PacketSCCharacterList.built_new : ({} : PacketSCCharacterList).Built := rfl

theorem PacketSCCharacterList.built_of_readBody {data : List UInt8} {packet : PacketSCCharacterList}
    (read : packetSCCharacterList.readBody {} data = .ok packet) : packet.Built := by
  obtain ⟨ser, -, body⟩ := bind_eq_ok read
  obtain ⟨⟨next, result⟩, serialized, returned⟩ := bind_eq_ok body
  obtain ⟨count, -, elements⟩ := bind_eq_ok serialized
  obtain ⟨⟨last, records⟩, each, made⟩ := bind_eq_ok elements
  cases made
  cases returned
  exact (valueEach_eq_ok_of_null each).2

namespace PacketSCEnterOtherCharacter

theorem built_new : ({} : PacketSCEnterOtherCharacter).Built :=
  ⟨[], by decide, rfl, .inl rfl⟩

theorem built_setData {packet next : PacketSCEnterOtherCharacter} (info : CharacterInfo)
    (built : packet.Built) (set : packet.setData info = .ok next) : next.Built := by
  obtain ⟨infos, few, records, counted⟩ := built
  rw [setData] at set
  split at set
  · split at set
    · cases set
    · cases set
      have count : packet.count = infos.length := by
        rcases counted with counted | ⟨rfl, negative⟩
        · exact counted
        · omega
      refine ⟨infos ++ [info], by rw [List.length_append]; simp; omega, ?_, .inl ?_⟩
      · have room : (infos.map some).length < 20 := by
          rw [List.length_map]
          omega
        have placed := set_front (infos.map some) (some info) none room
        rw [List.length_map] at placed
        dsimp only
        rw [records, count, Int.toNat_natCast, placed]
        simp
      · rw [count]
        simp
  · cases set
    exact ⟨infos, few, records, counted⟩

/-- Only null records are read. -/
theorem null_of_readBody {data : List UInt8} {packet : PacketSCEnterOtherCharacter}
    (read : packetSCEnterOtherCharacter.readBody {} data = .ok packet) :
    packet.count ≤ 0 ∧ packet.characters = List.replicate 20 none := by
  obtain ⟨ser, -, body⟩ := bind_eq_ok read
  obtain ⟨⟨next, result⟩, serialized, returned⟩ := bind_eq_ok body
  obtain ⟨count, -, elements⟩ := bind_eq_ok serialized
  obtain ⟨⟨last, records⟩, each, made⟩ := bind_eq_ok elements
  cases made
  cases returned
  obtain ⟨none, same⟩ := valueEach_eq_ok_of_null each
  exact ⟨Int.toNat_eq_zero.mp none, same⟩

theorem built_of_readBody {data : List UInt8} {packet : PacketSCEnterOtherCharacter}
    (read : packetSCEnterOtherCharacter.readBody {} data = .ok packet) : packet.Built := by
  obtain ⟨upper, null⟩ := null_of_readBody read
  refine ⟨[], by decide, null, ?_⟩
  rcases Int.lt_or_eq_of_le upper with negative | zero
  · exact .inr ⟨rfl, negative⟩
  · exact .inl zero

end PacketSCEnterOtherCharacter

namespace PacketSCLeaveOtherCharacter

theorem built_new : ({} : PacketSCLeaveOtherCharacter).Built :=
  ⟨rfl, by decide, by decide⟩

theorem built_setData {packet next : PacketSCLeaveOtherCharacter} (cid : Int)
    (built : packet.Built) (set : packet.setData cid = .ok next) : next.Built := by
  obtain ⟨array, upper, fits⟩ := built
  rw [setData] at set
  split at set
  · cases set
  · cases set
    refine ⟨by rw [List.length_set, array], by dsimp only; omega, ?_⟩
    constructor <;> norm_num <;> omega

theorem built_of_readBody {data : List UInt8} {packet : PacketSCLeaveOtherCharacter}
    (read : packetSCLeaveOtherCharacter.readBody {} data = .ok packet) : packet.Built := by
  obtain ⟨ser, opened, body⟩ := bind_eq_ok read
  obtain ⟨⟨next, result⟩, serialized, returned⟩ := bind_eq_ok body
  obtain ⟨⟨counted, count⟩, number, elements⟩ := bind_eq_ok serialized
  obtain ⟨⟨last, tokens⟩, each, made⟩ := bind_eq_ok elements
  cases made
  cases returned
  obtain ⟨inside, same⟩ := valueEach_length each
  obtain ⟨blank, -, filled⟩ := bind_eq_ok opened
  obtain ⟨buffer, -, reading⟩ := bind_eq_ok filled
  cases reading
  obtain ⟨bytes, taken, decoded⟩ := bind_eq_ok number
  cases decoded
  have whole : bytes.length = 4 := by
    obtain ⟨room, rfl⟩ := bitConverter_eq_ok taken
    rw [List.length_take, List.length_drop]
    omega
  have lower := decodeSigned_ge whole
  have upper := decodeSigned_lt whole
  have few : (decodeSigned bytes).toNat ≤ 20 := inside
  refine ⟨same, by dsimp only; omega, ?_⟩
  constructor <;> norm_num <;> omega

end PacketSCLeaveOtherCharacter

/-- The sizes of the records that are set agree with that of the first: the names make up for the
two bytes that the count is longer than its size. -/
def PacketSCEnterOtherCharacter.SizesAgree (packet : PacketSCEnterOtherCharacter) : Prop :=
  ∃ first others, packet.characters.take packet.count.toNat = (first :: others).map some ∧
    (∀ info ∈ first :: others, info.name.Inside) ∧
    packet.count * first.name.length =
      2 + ((first :: others).map fun info => info.name.length).sum

/-- The count is not negative, or so far below that the size wraps around to that of none. -/
def PacketSCLeaveOtherCharacter.SizesAgree (packet : PacketSCLeaveOtherCharacter) : Prop :=
  0 ≤ packet.count ∨ packet.count % 0x20000000 = 0

/-- An object of any class, with the field values that it can have. -/
inductive CommonPacket
  | csAuth (packet : PacketCSAuth)
  | csCharacterList (packet : PacketCSCharacterList)
  | csCharacterCreate (packet : PacketCSCharacterCreate)
  | csCharacterDelete (packet : PacketCSCharacterDelete)
  | csEnterWorld (packet : PacketCSEnterWorld)
  | csLeaveWorld (packet : PacketCSLeaveWorld)
  | csMove (packet : PacketCSMove)
  | csInteraction (packet : PacketCSInteraction)
  | csChat (packet : PacketCSChat)
  | csHeaetbeat (packet : PacketCSHeaetbeat)
  | csEcho (packet : PacketCSEcho)
  | scAuthResult (packet : PacketSCAuthResult)
  | scCharacterList (packet : PacketSCCharacterList) (built : packet.Built)
  | scCharacterCreate (packet : PacketSCCharacterCreate)
  | scCharacterDelete (packet : PacketSCCharacterDelete)
  | scEnterWorld (packet : PacketSCEnterWorld)
  | scLeave (packet : PacketSCLeave)
  | scEnterOtherCharacter (packet : PacketSCEnterOtherCharacter) (built : packet.Built)
  | scLeaveOtherCharacter (packet : PacketSCLeaveOtherCharacter) (built : packet.Built)
  | scMove (packet : PacketSCMove)
  | scInteraction (packet : PacketSCInteraction)
  | scHeartbeat (packet : PacketSCHeartbeat)
  | scEcho (packet : PacketSCEcho)
  | wdJoinRequest (packet : PacketWDJoinRequest)
  | wdHeartbeat (packet : PacketWDHeartbeat)
  | wdAuthRequest (packet : PacketWDAuthRequest)
  | wdCharacterLoad (packet : PacketWDCharacterLoad)
  | dwJoinResult (packet : PacketDWJoinResult)
  | dwHeartbeat (packet : PacketDWHeartbeat)
  | adJoinRequest (packet : PacketADJoinRequest)
  | adHeartbeat (packet : PacketADHeartbeat)
  | daJoinResult (packet : PacketDAJoinResult)
  | daHeartbeat (packet : PacketDAHeartbeat)

namespace CommonPacket

def FillsFrame : CommonPacket → Prop
  | csAuth packet => packetCSAuth.FillsFrame packet
  | csCharacterList packet => packetCSCharacterList.FillsFrame packet
  | csCharacterCreate packet => packetCSCharacterCreate.FillsFrame packet
  | csCharacterDelete packet => packetCSCharacterDelete.FillsFrame packet
  | csEnterWorld packet => packetCSEnterWorld.FillsFrame packet
  | csLeaveWorld packet => packetCSLeaveWorld.FillsFrame packet
  | csMove packet => packetCSMove.FillsFrame packet
  | csInteraction packet => packetCSInteraction.FillsFrame packet
  | csChat packet => packetCSChat.FillsFrame packet
  | csHeaetbeat packet => packetCSHeaetbeat.FillsFrame packet
  | csEcho packet => packetCSEcho.FillsFrame packet
  | scAuthResult packet => packetSCAuthResult.FillsFrame packet
  | scCharacterList packet _ => packetSCCharacterList.FillsFrame packet
  | scCharacterCreate packet => packetSCCharacterCreate.FillsFrame packet
  | scCharacterDelete packet => packetSCCharacterDelete.FillsFrame packet
  | scEnterWorld packet => packetSCEnterWorld.FillsFrame packet
  | scLeave packet => packetSCLeave.FillsFrame packet
  | scEnterOtherCharacter packet _ => packetSCEnterOtherCharacter.FillsFrame packet
  | scLeaveOtherCharacter packet _ => packetSCLeaveOtherCharacter.FillsFrame packet
  | scMove packet => packetSCMove.FillsFrame packet
  | scInteraction packet => packetSCInteraction.FillsFrame packet
  | scHeartbeat packet => packetSCHeartbeat.FillsFrame packet
  | scEcho packet => packetSCEcho.FillsFrame packet
  | wdJoinRequest packet => packetWDJoinRequest.FillsFrame packet
  | wdHeartbeat packet => packetWDHeartbeat.FillsFrame packet
  | wdAuthRequest packet => packetWDAuthRequest.FillsFrame packet
  | wdCharacterLoad packet => packetWDCharacterLoad.FillsFrame packet
  | dwJoinResult packet => packetDWJoinResult.FillsFrame packet
  | dwHeartbeat packet => packetDWHeartbeat.FillsFrame packet
  | adJoinRequest packet => packetADJoinRequest.FillsFrame packet
  | adHeartbeat packet => packetADHeartbeat.FillsFrame packet
  | daJoinResult packet => packetDAJoinResult.FillsFrame packet
  | daHeartbeat packet => packetDAHeartbeat.FillsFrame packet

/-- The classes whose `GetSize` is the span of `Serialize`, and where it depends on the fields. -/
def SizesAgree : CommonPacket → Prop
  | csAuth packet => packet.userId.Inside ∧ packet.password.Inside
  | csCharacterCreate packet => packet.name.Inside
  | csLeaveWorld _ => False
  | csChat packet => packet.chatMsg.Inside
  | csEcho packet => packet.msg.Inside
  | scCharacterList _ _ => False
  | scCharacterCreate packet => packet.name.Inside
  | scCharacterDelete _ => False
  | scEnterWorld _ => False
  | scEnterOtherCharacter packet _ => packet.SizesAgree
  | scLeaveOtherCharacter packet _ => packet.SizesAgree
  | scEcho packet => packet.msg.Inside
  | wdAuthRequest packet => packet.userId.Inside ∧ packet.password.Inside
  | _ => True

end CommonPacket

/-! Classes with strings: a frame is filled if every length lies inside its string's bytes. -/

theorem PacketCSAuth.fillsFrame_iff (packet : PacketCSAuth) :
    packetCSAuth.FillsFrame packet ↔ packet.userId.Inside ∧ packet.password.Inside := by
  have userIdShort := packet.userId.length_lt
  have passwordShort := packet.password.length_lt
  have sized : packetCSAuth.FillsFrame packet ↔ Field.AllValid fields packet :=
    Class.sized_fillsFrame_iff rfl (by simp [fields]) rfl (by simp [fields]; omega)
      (by simp [fields, Text.Inside]; omega)
  simpa [fields] using sized

theorem PacketCSCharacterCreate.fillsFrame_iff (packet : PacketCSCharacterCreate) :
    packetCSCharacterCreate.FillsFrame packet ↔ packet.name.Inside := by
  have nameShort := packet.name.length_lt
  have sized : packetCSCharacterCreate.FillsFrame packet ↔ Field.AllValid fields packet :=
    Class.sized_fillsFrame_iff rfl (by simp [fields]) rfl (by simp [fields]; omega)
      (by simp [fields, Text.Inside]; omega)
  simpa [fields] using sized

theorem PacketCSChat.fillsFrame_iff (packet : PacketCSChat) :
    packetCSChat.FillsFrame packet ↔ packet.chatMsg.Inside := by
  have chatMsgShort := packet.chatMsg.length_lt
  have sized : packetCSChat.FillsFrame packet ↔ Field.AllValid fields packet :=
    Class.sized_fillsFrame_iff rfl (by simp [fields]) rfl (by simp [fields]; omega)
      (by simp [fields, Text.Inside]; omega)
  simpa [fields] using sized

theorem PacketCSEcho.fillsFrame_iff (packet : PacketCSEcho) :
    packetCSEcho.FillsFrame packet ↔ packet.msg.Inside := by
  have msgShort := packet.msg.length_lt
  have sized : packetCSEcho.FillsFrame packet ↔ Field.AllValid fields packet :=
    Class.sized_fillsFrame_iff rfl (by simp [fields]) rfl (by simp [fields]; omega)
      (by simp [fields, Text.Inside]; omega)
  simpa [fields] using sized

theorem PacketSCCharacterCreate.fillsFrame_iff (packet : PacketSCCharacterCreate) :
    packetSCCharacterCreate.FillsFrame packet ↔ packet.name.Inside := by
  have nameShort := packet.name.length_lt
  have sized : packetSCCharacterCreate.FillsFrame packet ↔ Field.AllValid fields packet :=
    Class.sized_fillsFrame_iff rfl (by simp [fields]) rfl (by simp [fields]; omega)
      (by simp [fields, Text.Inside]; omega)
  simpa [fields] using sized

theorem PacketSCEcho.fillsFrame_iff (packet : PacketSCEcho) :
    packetSCEcho.FillsFrame packet ↔ packet.msg.Inside := by
  have msgShort := packet.msg.length_lt
  have sized : packetSCEcho.FillsFrame packet ↔ Field.AllValid fields packet :=
    Class.sized_fillsFrame_iff rfl (by simp [fields]) rfl (by simp [fields]; omega)
      (by simp [fields, Text.Inside]; omega)
  simpa [fields] using sized

theorem PacketWDAuthRequest.fillsFrame_iff (packet : PacketWDAuthRequest) :
    packetWDAuthRequest.FillsFrame packet ↔ packet.userId.Inside ∧ packet.password.Inside := by
  have userIdShort := packet.userId.length_lt
  have passwordShort := packet.password.length_lt
  have sized : packetWDAuthRequest.FillsFrame packet ↔ Field.AllValid fields packet :=
    Class.sized_fillsFrame_iff rfl (by simp [fields]) rfl (by simp [fields]; omega)
      (by simp [fields, Text.Inside]; omega)
  simpa [fields] using sized

theorem PacketCSLeaveWorld.not_fillsFrame (packet : PacketCSLeaveWorld) :
    ¬packetCSLeaveWorld.FillsFrame packet := by
  rw [Class.fields_fillsFrame_iff rfl (by simp) rfl (by simp),
    int32_of_fits (by decide) (by decide)]
  simp

theorem PacketSCCharacterDelete.fields_lawful : ∀ field ∈ fields, field.Lawful := by
  simp [fields]

theorem PacketSCCharacterDelete.not_fillsFrame (packet : PacketSCCharacterDelete) :
    ¬packetSCCharacterDelete.FillsFrame packet := by
  rw [Class.fields_fillsFrame_iff rfl fields_lawful rfl (by simp [fields]),
    int32_of_fits (by decide) (by decide)]
  simp [fields]

theorem PacketSCCharacterList.not_fillsFrame {packet : PacketSCCharacterList}
    (built : packet.Built) : ¬packetSCCharacterList.FillsFrame packet := by
  have thrown : packetSCCharacterList.getSize packet = .error .nullReference := by
    dsimp only [packetSCCharacterList]
    rw [built]
    rfl
  exact Class.not_fillsFrame thrown

theorem Position.fields_lawful : ∀ field ∈ Position.fields, field.Lawful := by
  simp [Position.fields]

theorem PacketSCMove.fields_lawful : ∀ field ∈ fields, field.Lawful := by
  have position := Field.map_within_lawful (fun packet : PacketSCMove => packet.pos)
    (fun p v => { p with pos := v }) (fun _ => rfl) Position.fields_lawful
  simpa [fields] using position

theorem PacketSCMove.allValid_fields (packet : PacketSCMove) : Field.AllValid fields packet := by
  simp [fields, Position.fields, Field.within]

theorem PacketSCMove.fillsFrame (packet : PacketSCMove) : packetSCMove.FillsFrame packet := by
  have sizes : Field.sizes fields packet = 24 := by
    simp [fields, Position.fields, Field.within]
  exact Class.fillsFrame_of_numbers rfl rfl
    ⟨fields_lawful, packet.allValid_fields, by rw [sizes]; rfl, by omega⟩

namespace CharacterInfo

theorem fields_lawful : ∀ field ∈ fields, field.Lawful := by
  have position := Field.map_within_lawful (fun info : CharacterInfo => info.pos)
    (fun p v => { p with pos := v }) (fun _ => rfl) Position.fields_lawful
  rw [fields, List.forall_mem_append, List.forall_mem_append]
  exact ⟨⟨by simp, position⟩, by simp⟩

theorem sizes_fields (info : CharacterInfo) :
    Field.sizes fields info = 46 + info.name.length.toNat := by
  simp [fields, Position.fields, Field.within]
  omega

theorem allValid_fields (info : CharacterInfo) :
    Field.AllValid fields info ↔ info.name.Inside := by
  simp [fields, Position.fields, Field.within]

theorem getSize_eq (info : CharacterInfo) : info.getSize = 46 + info.name.length := by
  rw [getSize, Position.getSize]
  omega

theorem sizes_le (infos : List CharacterInfo) :
    (infos.map fun info => 46 + info.name.length.toNat).sum ≤ infos.length * 0x8040 := by
  induction infos with
  | nil => exact Nat.le_refl 0
  | cons info rest ih =>
      have short := info.name.length_lt
      simp only [List.map_cons, List.sum_cons, List.length_cons]
      omega

theorem sizes_eq {infos : List CharacterInfo} (inside : ∀ info ∈ infos, info.name.Inside) :
    (((infos.map fun info => 46 + info.name.length.toNat).sum : Nat) : Int) =
      46 * infos.length + (infos.map fun info => info.name.length).sum := by
  induction infos with
  | nil => rfl
  | cons info rest ih =>
      have others := ih fun other later => inside other (by simp [later])
      have lower : 0 ≤ info.name.length := (inside info (by simp)).1
      simp only [List.map_cons, List.sum_cons, List.length_cons]
      omega

end CharacterInfo

theorem PacketSCEnterWorld.not_fillsFrame (packet : PacketSCEnterWorld) :
    ¬packetSCEnterWorld.FillsFrame packet := by
  have lawful : ∀ field ∈ fields, field.Lawful := by
    have info := Field.map_within_lawful (fun packet : PacketSCEnterWorld => packet.info)
      (fun p v => { p with info := v }) (fun _ => rfl) CharacterInfo.fields_lawful
    simpa [fields] using info
  have sizes : Field.sizes fields packet = 54 + packet.info.name.length.toNat := by
    rw [fields, Field.sizes_number, Field.sizes_within, CharacterInfo.sizes_fields,
      Member.int64_width]
    omega
  have short := packet.info.name.length_lt
  rw [Class.fields_fillsFrame_iff rfl lawful rfl (by omega), sizes,
    int32_of_fits (by decide) (by decide)]
  omega

theorem PacketSCLeaveOtherCharacter.fillsFrame_iff {packet : PacketSCLeaveOtherCharacter}
    (built : packet.Built) :
    packetSCLeaveOtherCharacter.FillsFrame packet ↔ packet.SizesAgree := by
  obtain ⟨array, upper, lower, -⟩ := built
  norm_num at lower
  have cid : ∀ element : Int, Spans (fun ser => Serializer.valueInt64 ser element) element 8 True :=
    fun element => Spans.scalar element (encodeSigned_length 8 element)
  have size : 4 + ((packet.leaveCharacterCid.take packet.count.toNat).map fun _ => 8).sum =
      4 + 8 * packet.count.toNat := by
    rw [List.map_const', List.sum_replicate, List.length_take, array, smul_eq_mul]
    omega
  have spans : Spans (fun ser => packetSCLeaveOtherCharacter.serialize ser packet) packet
      (4 + 8 * packet.count.toNat) True :=
    (counted_spans cid PacketSCLeaveOtherCharacter.mk packet.count
      packet.leaveCharacterCid).congr size (by simp; omega)
  rw [Class.fillsFrame_iff spans rfl (by omega), SizesAgree, int32, Int.bmod_eq_emod, true_and]
  split
  · constructor
    · intro same
      omega
    · rintro (positive | wraps) <;> omega
  · constructor
    · intro same
      omega
    · rintro (positive | wraps) <;> omega

namespace PacketSCEnterOtherCharacter

theorem not_fillsFrame_of_empty {packet : PacketSCEnterOtherCharacter}
    (empty : packet.characters = List.replicate 20 none) :
    ¬packetSCEnterOtherCharacter.FillsFrame packet := by
  have thrown : packetSCEnterOtherCharacter.getSize packet = .error .nullReference := by
    dsimp only [packetSCEnterOtherCharacter]
    rw [empty]
    rfl
  exact Class.not_fillsFrame thrown

theorem spans_of_set {first : CharacterInfo} {others : List CharacterInfo}
    {packet : PacketSCEnterOtherCharacter} (set : packet.characters.take packet.count.toNat =
      (first :: others).map some) (inside : packet.count.toNat ≤ packet.characters.length) :
    Spans (fun ser => packetSCEnterOtherCharacter.serialize ser packet) packet
      (4 + ((first :: others).map fun info => 46 + info.name.length.toNat).sum)
      (∀ info ∈ first :: others, info.name.Inside) := by
  have each := counted_spans (valueReference_spans CharacterInfo.fields_lawful)
    PacketSCEnterOtherCharacter.mk packet.count packet.characters
  refine each.congr ?_ ?_
  · rw [set, List.map_map]
    congr 2
    exact List.map_congr_left fun info _ => CharacterInfo.sizes_fields info
  · rw [set, List.forall_mem_map]
    simp only [inside, true_and, Option.elim_some, CharacterInfo.allValid_fields]

theorem fillsFrame_iff_of_set {first : CharacterInfo} {others : List CharacterInfo}
    {packet : PacketSCEnterOtherCharacter} (few : (first :: others).length ≤ 20)
    (set : packet.characters = (first :: others).map some ++
      List.replicate (20 - (first :: others).length) none)
    (counted : packet.count = (first :: others).length) :
    packetSCEnterOtherCharacter.FillsFrame packet ↔
      (∀ info ∈ first :: others, info.name.Inside) ∧
        packet.count * first.name.length =
          2 + ((first :: others).map fun info => info.name.length).sum := by
  have taken : packet.characters.take packet.count.toNat = (first :: others).map some := by
    rw [set, counted, Int.toNat_natCast]
    exact List.take_left' (List.length_map _)
  have length : packet.count.toNat ≤ packet.characters.length := by
    rw [set, counted, List.length_append, List.length_map, Int.toNat_natCast]
    exact Nat.le_add_right _ _
  have front : packet.characters[0]? = some (some first) := by rw [set]; rfl
  have returned : packetSCEnterOtherCharacter.getSize packet =
      .ok (4 + 2 + first.getSize * packet.count) := by
    dsimp only [packetSCEnterOtherCharacter]
    rw [front]
    rfl
  have bound := CharacterInfo.sizes_le (first :: others)
  rw [Class.fillsFrame_iff (spans_of_set taken length) returned (by omega)]
  apply and_congr_right
  intro inside
  have sum := CharacterInfo.sizes_eq inside
  have lower : 0 ≤ first.name.length := (inside first (by simp)).1
  have upper := first.name.length_lt
  -- the product is small enough for the conversion to leave it alone
  have product : 0 ≤ packet.count * first.name.length := Int.mul_nonneg (by omega) lower
  have small : packet.count * first.name.length ≤ 20 * 0x8000 :=
    Int.mul_le_mul (by omega) (by omega) lower (by omega)
  rw [CharacterInfo.getSize_eq, Int.add_mul, Int.mul_comm first.name.length,
    int32_of_fits (by omega) (by omega)]
  omega

theorem fillsFrame_iff {packet : PacketSCEnterOtherCharacter} (built : packet.Built) :
    packetSCEnterOtherCharacter.FillsFrame packet ↔ packet.SizesAgree := by
  obtain ⟨infos, few, set, counted⟩ := built
  cases infos with
  | nil =>
      have empty : packet.characters = List.replicate 20 none := set
      refine iff_of_false (not_fillsFrame_of_empty empty) ?_
      rintro ⟨first, others, taken, -⟩
      rw [empty, List.take_replicate] at taken
      have found : some first ∈ List.replicate (min packet.count.toNat 20) none := by
        rw [taken]
        simp
      cases (List.eq_of_mem_replicate found)
  | cons first others =>
      have exact_ : packet.count = (first :: others).length := by simpa using counted
      have taken : packet.characters.take packet.count.toNat = (first :: others).map some := by
        rw [set, exact_, Int.toNat_natCast]
        exact List.take_left' (List.length_map _)
      rw [fillsFrame_iff_of_set few set exact_, SizesAgree, taken]
      constructor
      · rintro ⟨inside, same⟩
        exact ⟨first, others, rfl, inside, same⟩
      · rintro ⟨one, rest, same, inside, sum⟩
        have injective : Function.Injective (some : CharacterInfo → _) := Option.some_injective _
        obtain ⟨rfl, rfl⟩ := List.cons.inj (List.map_injective_iff.mpr injective same)
        exact ⟨inside, sum⟩

end PacketSCEnterOtherCharacter

theorem CommonPacket.fillsFrame_iff_sizesAgree (packet : CommonPacket) :
    packet.FillsFrame ↔ packet.SizesAgree := by
  cases packet with
  | csAuth packet =>
      exact PacketCSAuth.fillsFrame_iff packet
  | csCharacterList packet =>
      refine iff_of_true (Class.fillsFrame_of_numbers rfl rfl ?_) trivial
      simp
  | csCharacterCreate packet =>
      exact PacketCSCharacterCreate.fillsFrame_iff packet
  | csCharacterDelete packet =>
      refine iff_of_true (Class.fillsFrame_of_numbers rfl rfl ?_) trivial
      simp [PacketCSCharacterDelete.fields]
  | csEnterWorld packet =>
      refine iff_of_true (Class.fillsFrame_of_numbers rfl rfl ?_) trivial
      simp [PacketCSEnterWorld.fields]
  | csLeaveWorld packet =>
      exact iff_of_false (PacketCSLeaveWorld.not_fillsFrame packet) id
  | csMove packet =>
      refine iff_of_true (Class.fillsFrame_of_numbers rfl rfl ?_) trivial
      simp [PacketCSMove.fields]
  | csInteraction packet =>
      refine iff_of_true (Class.fillsFrame_of_numbers rfl rfl ?_) trivial
      simp [PacketCSInteraction.fields]
  | csChat packet =>
      exact PacketCSChat.fillsFrame_iff packet
  | csHeaetbeat packet =>
      refine iff_of_true (Class.fillsFrame_of_numbers rfl rfl ?_) trivial
      simp
  | csEcho packet =>
      exact PacketCSEcho.fillsFrame_iff packet
  | scAuthResult packet =>
      refine iff_of_true (Class.fillsFrame_of_numbers rfl rfl ?_) trivial
      simp [PacketSCAuthResult.fields]
  | scCharacterList packet built =>
      exact iff_of_false (PacketSCCharacterList.not_fillsFrame built) id
  | scCharacterCreate packet =>
      exact PacketSCCharacterCreate.fillsFrame_iff packet
  | scCharacterDelete packet =>
      exact iff_of_false (PacketSCCharacterDelete.not_fillsFrame packet) id
  | scEnterWorld packet =>
      exact iff_of_false (PacketSCEnterWorld.not_fillsFrame packet) id
  | scLeave packet =>
      refine iff_of_true (Class.fillsFrame_of_numbers rfl rfl ?_) trivial
      simp [PacketSCLeave.fields]
  | scEnterOtherCharacter packet built =>
      exact PacketSCEnterOtherCharacter.fillsFrame_iff built
  | scLeaveOtherCharacter packet built =>
      exact PacketSCLeaveOtherCharacter.fillsFrame_iff built
  | scMove packet =>
      exact iff_of_true (PacketSCMove.fillsFrame packet) trivial
  | scInteraction packet =>
      refine iff_of_true (Class.fillsFrame_of_numbers rfl rfl ?_) trivial
      simp [PacketSCInteraction.fields]
  | scHeartbeat packet =>
      refine iff_of_true (Class.fillsFrame_of_numbers rfl rfl ?_) trivial
      simp
  | scEcho packet =>
      exact PacketSCEcho.fillsFrame_iff packet
  | wdJoinRequest packet =>
      refine iff_of_true (Class.fillsFrame_of_numbers rfl rfl ?_) trivial
      simp [PacketWDJoinRequest.fields]
  | wdHeartbeat packet =>
      refine iff_of_true (Class.fillsFrame_of_numbers rfl rfl ?_) trivial
      simp
  | wdAuthRequest packet =>
      exact PacketWDAuthRequest.fillsFrame_iff packet
  | wdCharacterLoad packet =>
      refine iff_of_true (Class.fillsFrame_of_numbers rfl rfl ?_) trivial
      simp [PacketWDCharacterLoad.fields]
  | dwJoinResult packet =>
      refine iff_of_true (Class.fillsFrame_of_numbers rfl rfl ?_) trivial
      simp [PacketDWJoinResult.fields]
  | dwHeartbeat packet =>
      refine iff_of_true (Class.fillsFrame_of_numbers rfl rfl ?_) trivial
      simp
  | adJoinRequest packet =>
      refine iff_of_true (Class.fillsFrame_of_numbers rfl rfl ?_) trivial
      simp [PacketADJoinRequest.fields]
  | adHeartbeat packet =>
      refine iff_of_true (Class.fillsFrame_of_numbers rfl rfl ?_) trivial
      simp
  | daJoinResult packet =>
      refine iff_of_true (Class.fillsFrame_of_numbers rfl rfl ?_) trivial
      simp [PacketDAJoinResult.fields]
  | daHeartbeat packet =>
      refine iff_of_true (Class.fillsFrame_of_numbers rfl rfl ?_) trivial
      simp

theorem CommonPacket.leaveWorld_not_fillsFrame : ¬(csLeaveWorld {}).FillsFrame :=
  PacketCSLeaveWorld.not_fillsFrame {}

end Sharp.Common

end ProjectPl
