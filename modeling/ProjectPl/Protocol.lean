import ProjectPl.Packet
import ProjectPl.ProtocolCore

/-!
Every packet of both protocols survives the wire: packing on the sender's side, framing,
the receiver's ring, parsing and dispatch hand the same members to the handler registered
for its type.
-/

namespace ProjectPl

open LittleEndian

namespace Member

variable {P : Type}

def Lawful (member : Member P) : Prop :=
  ∀ packet, member.set packet (member.get packet) = packet

def encodeAll (members : List (Member P)) (packet : P) : List UInt8 :=
  members.flatMap fun member => encodeSigned member.width (member.get packet)

def Fits (members : List (Member P)) (packet : P) : Prop :=
  ∀ member ∈ members, FitsSigned member.width (member.get packet)

def copyAll (members : List (Member P)) (packet start : P) : P :=
  members.foldl (fun target member => member.set target (member.get packet)) start

section Integers

variable (get : P → Int) (set : P → Int → P)

@[simp] theorem int32_width : (int32 get set).width = 4 := rfl

@[simp] theorem int64_width : (int64 get set).width = 8 := rfl

@[simp] theorem int32_get : (int32 get set).get = get := rfl

@[simp] theorem int64_get : (int64 get set).get = get := rfl

@[simp] theorem int32_set : (int32 get set).set = set := rfl

@[simp] theorem int64_set : (int64 get set).set = set := rfl

@[simp] theorem int32_lawful :
    (int32 get set).Lawful ↔ ∀ packet, set packet (get packet) = packet := Iff.rfl

@[simp] theorem int64_lawful :
    (int64 get set).Lawful ↔ ∀ packet, set packet (get packet) = packet := Iff.rfl

end Integers

theorem values_packs {members : List (Member P)} {ser : Serializer} {bytes : List UInt8}
    (lawful : ∀ member ∈ members, member.Lawful) (packet : P) (packs : ser.Packs bytes)
    (room : bytes.length + (encodeAll members packet).length ≤ maxPacketBufferSize) :
    (values members ser packet).1.Packs (bytes ++ encodeAll members packet) := by
  induction members generalizing ser bytes with
  | nil => simpa [values, encodeAll] using packs
  | cons member rest ih =>
      simp only [encodeAll, List.flatMap_cons, List.length_append, encodeSigned_length] at room
      obtain ⟨packed, same⟩ := Serializer.scalar_packs member.width
        (encodeSigned member.width) decodeSigned packs (member.get packet)
        (by rw [encodeSigned_length]; omega)
      have unchanged : (member.value ser packet).2 = packet := by
        simp only [value, same]
        exact lawful member (by simp) packet
      have tail := ih (fun other later => lawful other (by simp [later])) packed
        (by simpa [encodeAll, Nat.add_assoc] using room)
      rw [values, unchanged]
      simpa [encodeAll, value, List.append_assoc] using tail

theorem values_unpacks {members : List (Member P)} {ser : Serializer} {rest : List UInt8}
    {stores : List Nat} (packet start : P) (fits : Fits members packet)
    (unpacks : ser.Unpacks (encodeAll members packet ++ rest) stores) :
    (values members ser start).1.Unpacks rest stores ∧
      (values members ser start).2 = copyAll members packet start := by
  induction members generalizing ser start with
  | nil => exact ⟨unpacks, rfl⟩
  | cons member others ih =>
      have here : FitsSigned member.width (member.get packet) := fits member (by simp)
      simp only [encodeAll, List.flatMap_cons, List.append_assoc] at unpacks
      obtain ⟨next, read⟩ := Serializer.scalar_unpacks member.width
        (encodeSigned member.width) decodeSigned unpacks (member.get start) (by simp)
      have stored : (member.value ser start).2 = member.set start (member.get packet) := by
        simp only [value, read, decodeSigned_encodeSigned here]
      rw [values, stored]
      exact ih (member.set start (member.get packet))
        (fun other later => fits other (by simp [later])) next

/-- A class whose `Serialize` is a list of members carries every packet whose members fit
their widths. -/
theorem carries {cls : PacketClass P} {members : List (Member P)} {packet : P}
    (layout : cls.serialize = values members) (lawful : ∀ member ∈ members, member.Lawful)
    (fits : Fits members packet) (covers : copyAll members packet cls.default = packet)
    (small : (encodeAll members packet).length ≤ 100) :
    cls.Carries packet packet (encodeAll members packet) := by
  constructor
  · intro ser bytes packs room
    rw [layout]
    exact values_packs lawful packet packs room
  · intro ser unpacks
    rw [← List.append_nil (encodeAll members packet)] at unpacks
    rw [layout, (values_unpacks packet cls.default fits unpacks).2, covers]
  · simp only [sizeofPacketHead, sizeofPacketTail, maxPacketBufferSize]
    omega

end Member

/-! The counted list of character records. -/

namespace CharacterDbData

def wire (data : CharacterDbData) : List UInt8 :=
  encodeSigned 8 data.token ++ Member.encodeAll Position.members data.pos

def Fits (data : CharacterDbData) : Prop :=
  FitsSigned 8 data.token ∧ Member.Fits Position.members data.pos

theorem wire_length (data : CharacterDbData) : data.wire.length = 20 := by
  simp [wire, Member.encodeAll, Position.members]

theorem position_lawful : ∀ member ∈ Position.members, member.Lawful := by
  simp [Position.members]

theorem serialize_packs {ser : Serializer} {bytes : List UInt8} (packs : ser.Packs bytes)
    (data : CharacterDbData) (room : bytes.length + data.wire.length ≤ maxPacketBufferSize) :
    (serialize ser data).1.Packs (bytes ++ data.wire) ∧ (serialize ser data).1.forSend = true := by
  have length := data.wire_length
  simp only [wire, List.length_append, encodeSigned_length] at length room
  obtain ⟨token, -⟩ := Serializer.scalar_packs 8 (encodeSigned 8)
    decodeSigned packs data.token (by rw [encodeSigned_length]; omega)
  have position := Member.values_packs position_lawful data.pos token
    (by rw [List.length_append, encodeSigned_length]; omega)
  rw [List.append_assoc] at position
  exact ⟨position, position.sending⟩

theorem serialize_unpacks {ser : Serializer} {rest : List UInt8} {stores : List Nat}
    (data start : CharacterDbData) (fits : data.Fits)
    (unpacks : ser.Unpacks (data.wire ++ rest) stores) :
    (serialize ser start).1.Unpacks rest stores ∧ (serialize ser start).2 = data := by
  rw [wire, List.append_assoc] at unpacks
  obtain ⟨token, tokenRead⟩ := Serializer.scalar_unpacks 8 (encodeSigned 8)
    decodeSigned unpacks start.token (by simp)
  obtain ⟨position, positionRead⟩ := Member.values_unpacks data.pos start.pos fits.2 token
  refine ⟨position, ?_⟩
  have tokenValue : (ser.valueInt64 start.token).2 = data.token :=
    tokenRead.trans (decodeSigned_encodeSigned fits.1)
  have positionValue : (Position.serialize (ser.valueInt64 start.token).1 start.pos).2 = data.pos :=
    positionRead
  simp only [serialize, tokenValue, positionValue]

end CharacterDbData

theorem serializeEntries_packs (rounds idx : Nat) {ser : Serializer} {bytes : List UInt8}
    (data : List CharacterDbData) (packs : ser.Packs bytes) (inside : idx + rounds ≤ data.length)
    (room : bytes.length + 20 * rounds ≤ maxPacketBufferSize) :
    (serializeEntries rounds idx ser data).1.Packs
      (bytes ++ ((data.drop idx).take rounds).flatMap CharacterDbData.wire) := by
  induction rounds generalizing idx ser bytes data with
  | zero => simpa [serializeEntries] using packs
  | succ rounds ih =>
      have present : idx < data.length := by omega
      have entryLength := (data[idx]).wire_length
      have entry := CharacterDbData.serialize_packs packs data[idx] (by omega)
      have stillData : (data.set idx
          (CharacterDbData.serialize ser data[idx]).2).drop (idx + 1) = data.drop (idx + 1) :=
        List.drop_set_of_lt (by omega)
      have tail := ih (idx + 1) (data.set idx (CharacterDbData.serialize ser data[idx]).2) entry.1
        (by rw [List.length_set]; omega) (by rw [List.length_append]; omega)
      rw [stillData, List.append_assoc] at tail
      rw [List.drop_eq_getElem_cons present, List.take_succ_cons, List.flatMap_cons]
      simpa only [serializeEntries, List.getElem?_eq_getElem present, Option.getD_some,
        packs.sending, Bool.true_eq_false, false_and, ↓reduceIte] using tail

theorem serializeEntries_unpacks {entries : List CharacterDbData} (idx : Nat) {ser : Serializer}
    {rest : List UInt8} {stores : List Nat} (data : List CharacterDbData)
    (fits : ∀ entry ∈ entries, entry.Fits)
    (unpacks : ser.Unpacks (entries.flatMap CharacterDbData.wire ++ rest) stores)
    (inside : idx + entries.length ≤ data.length) :
    (serializeEntries entries.length idx ser data).2 =
      data.take idx ++ entries ++ data.drop (idx + entries.length) := by
  induction entries generalizing idx ser stores data with
  | nil => simp [serializeEntries]
  | cons entry later ih =>
      simp only [List.length_cons] at inside
      have present : idx < data.length := by omega
      rw [List.flatMap_cons, List.append_assoc] at unpacks
      obtain ⟨next, read⟩ := CharacterDbData.serialize_unpacks entry (data[idx]?.getD {})
        (fits entry (by simp)) unpacks
      have consumed : (CharacterDbData.serialize ser (data[idx]?.getD {})).1.nDataSize <
          ser.nDataSize := by
        have entryLength := entry.wire_length
        rw [next.size, unpacks.size]
        simp only [List.length_append]
        omega
      have logged : ({ (CharacterDbData.serialize ser (data[idx]?.getD {})).1 with
          stores := (CharacterDbData.serialize ser (data[idx]?.getD {})).1.stores ++ [idx] } :
          Serializer).Unpacks (later.flatMap CharacterDbData.wire ++ rest) (stores ++ [idx]) :=
        ⟨next.reading, next.size, next.left, by simp only [next.stored]⟩
      have tail := ih (idx + 1) (data.set idx entry)
        (fun other member => fits other (by simp [member])) logged (by rw [List.length_set]; omega)
      rw [List.length_cons, serializeEntries]
      simp only [unpacks.reading, consumed, and_self, ↓reduceIte, read]
      rw [tail, List.take_succ_eq_append_getElem (by simpa using present), List.take_set_of_le
        (Nat.le_refl idx), List.getElem_set_self, List.drop_set_of_lt (by omega)]
      simp [Nat.add_assoc, Nat.add_comm 1]

/-! A handler's packet compared with the sender's: every member is the same, the echo bytes
up to the echo size and the list entries up to the count. -/

def C2SCall.SameAs : C2SCall → C2SCall → Prop
  | .echo sent, .echo received =>
      received.echoDataSize = sent.echoDataSize ∧
        received.echoData.take sent.echoDataSize.toNat =
          sent.echoData.take sent.echoDataSize.toNat
  | sent, received => received = sent

def S2CCall.SameAs : S2CCall → S2CCall → Prop
  | .echo sent, .echo received =>
      received.token = sent.token ∧ received.echoDataSize = sent.echoDataSize ∧
        received.echoData.take sent.echoDataSize.toNat =
          sent.echoData.take sent.echoDataSize.toNat
  | .enterCharacter sent, .enterCharacter received =>
      received.count = sent.count ∧
        received.data.take sent.count.toNat = sent.data.take sent.count.toNat
  | sent, received => received = sent

/-! The packets a sender can build: members within their types, arrays of their declared
size, and sizes within the arrays. -/

def EchoFits (size : Int) (data : List UInt8) : Prop :=
  0 ≤ size ∧ size ≤ maxEchoDataLength ∧ data.length = maxEchoDataLength

def C2SCall.Sendable : C2SCall → Prop
  | .auth packet => FitsSigned 4 packet.id
  | .enter packet => FitsSigned 8 packet.token
  | .leave packet => FitsSigned 8 packet.token
  | .move packet => FitsSigned 4 packet.x ∧ FitsSigned 4 packet.y
  | .interaction packet => FitsSigned 8 packet.targetToken ∧ FitsSigned 4 packet.interactionType
  | .heartbeat _ => True
  | .echo packet => EchoFits packet.echoDataSize packet.echoData

def S2CCall.Sendable : S2CCall → Prop
  | .authResult packet => FitsSigned 4 packet.id ∧ FitsSigned 8 packet.token
  | .enter packet => FitsSigned 8 packet.token ∧ FitsSigned 4 packet.x ∧ FitsSigned 4 packet.y
  | .enterCharacter packet =>
      0 ≤ packet.count ∧ packet.count ≤ maxSendCountCharacterDbData ∧
        packet.data.length = maxSendCountCharacterDbData ∧ ∀ entry ∈ packet.data, entry.Fits
  | .leave packet => FitsSigned 8 packet.token
  | .move packet => FitsSigned 8 packet.token ∧ FitsSigned 4 packet.x ∧ FitsSigned 4 packet.y
  | .interaction packet =>
      FitsSigned 8 packet.token ∧ FitsSigned 8 packet.targetToken ∧
        FitsSigned 4 packet.interactionType
  | .heartbeat _ => True
  | .echo packet => FitsSigned 8 packet.token ∧ EchoFits packet.echoDataSize packet.echoData

def C2SCall.sendPacket (packetTime : Nat) : C2SCall → List UInt8
  | .auth packet => csPAuth.sendPacket packet packetTime
  | .enter packet => csPEnter.sendPacket packet packetTime
  | .leave packet => csPLeave.sendPacket packet packetTime
  | .move packet => csPMove.sendPacket packet packetTime
  | .interaction packet => csPInteraction.sendPacket packet packetTime
  | .heartbeat packet => csPHeartbeat.sendPacket packet packetTime
  | .echo packet => csPEcho.sendPacket packet packetTime

def S2CCall.sendPacket (packetTime : Nat) : S2CCall → List UInt8
  | .authResult packet => scPAuthResult.sendPacket packet packetTime
  | .enter packet => scPEnter.sendPacket packet packetTime
  | .enterCharacter packet => scPEnterCharacterList.sendPacket packet packetTime
  | .leave packet => scPLeave.sendPacket packet packetTime
  | .move packet => scPMove.sendPacket packet packetTime
  | .interaction packet => scPInteraction.sendPacket packet packetTime
  | .heartbeat packet => scPHeartbeat.sendPacket packet packetTime
  | .echo packet => scPEcho.sendPacket packet packetTime

/-! The classes with arrays. -/

theorem EchoFits.inside {size : Int} {data : List UInt8} (fits : EchoFits size data) :
    size.toNat ≤ data.length := by
  obtain ⟨lower, upper, length⟩ := fits
  omega

theorem take_takeAppend {α : Type} (count : Nat) (values rest : List α)
    (inside : count ≤ values.length) :
    (values.take count ++ rest).take count = values.take count := by
  exact List.take_left' (by rw [List.length_take]; omega)

theorem echoTail_packs {ser : Serializer} {bytes : List UInt8} (packs : ser.Packs bytes)
    {size : Int} {data : List UInt8} (fits : EchoFits size data)
    (room : bytes.length + (4 + size.toNat) ≤ maxPacketBufferSize) :
    ((ser.valueInt32 size).1.valueBytes data (ser.valueInt32 size).2).1.Packs
      (bytes ++ (encodeSigned 4 size ++ data.take size.toNat)) := by
  obtain ⟨lower, upper, length⟩ := fits
  obtain ⟨sizePacked, same⟩ := Serializer.scalar_packs 4 (encodeSigned 4)
    decodeSigned packs size (by rw [encodeSigned_length]; omega)
  have sameSize : (ser.valueInt32 size).2 = size := same
  rw [sameSize, ← List.append_assoc]
  apply Serializer.valueBytes_packs sizePacked data lower
  · omega
  · rw [List.length_append, encodeSigned_length]
    omega

theorem echoTail_unpacks {ser : Serializer} {size : Int} {data : List UInt8}
    (fits : EchoFits size data) (start : Int) (initial : List UInt8)
    (unpacks : ser.Unpacks (encodeSigned 4 size ++ data.take size.toNat) []) :
    (ser.valueInt32 start).2 = size ∧
      ((ser.valueInt32 start).1.valueBytes initial (ser.valueInt32 start).2).2 =
        data.take size.toNat ++ initial.drop size.toNat := by
  obtain ⟨lower, upper, length⟩ := fits
  have bound : (maxEchoDataLength : Int) = 32 := rfl
  have four : ((256 ^ 4 : Nat) : Int) = 4294967296 := by norm_num
  obtain ⟨sizeRead, decoded⟩ := Serializer.scalar_unpacks 4 (encodeSigned 4)
    decodeSigned unpacks start (by simp)
  have sizeValue : (ser.valueInt32 start).2 = size :=
    decoded.trans (decodeSigned_encodeSigned ⟨by omega, by omega⟩)
  have taken : (data.take size.toNat).length = size.toNat := by
    rw [List.length_take]
    omega
  have whole : Serializer.sizeOfInt size = (data.take size.toNat).length := by
    rw [taken, Serializer.sizeOfInt_of_nonneg lower (by omega)]
  rw [← List.append_nil (data.take size.toNat)] at sizeRead
  obtain ⟨-, copied⟩ := Serializer.valueBytes_unpacks sizeRead initial whole
  refine ⟨sizeValue, ?_⟩
  rw [sizeValue]
  rw [taken] at copied
  exact copied

theorem csPEcho_carries (packet : CsPEcho) (fits : EchoFits packet.echoDataSize packet.echoData) :
    csPEcho.Carries packet
      { packet with
        echoData := packet.echoData.take packet.echoDataSize.toNat ++
          csPEcho.default.echoData.drop packet.echoDataSize.toNat }
      (encodeSigned 4 packet.echoDataSize ++ packet.echoData.take packet.echoDataSize.toNat) := by
  have bound : (maxEchoDataLength : Int) = 32 := rfl
  obtain ⟨lower, upper, length⟩ := id fits
  constructor
  · intro ser bytes packs room
    rw [List.length_append, encodeSigned_length, List.length_take] at room
    exact echoTail_packs packs fits (by omega)
  · intro ser unpacks
    obtain ⟨size, data⟩ := echoTail_unpacks fits csPEcho.default.echoDataSize
      csPEcho.default.echoData unpacks
    simp only [csPEcho] at size data ⊢
    rw [data, size]
  · rw [List.length_append, encodeSigned_length, List.length_take]
    simp only [sizeofPacketHead, sizeofPacketTail, maxPacketBufferSize]
    omega

theorem scPEcho_carries (packet : ScPEcho) (tokenFits : FitsSigned 8 packet.token)
    (fits : EchoFits packet.echoDataSize packet.echoData) :
    scPEcho.Carries packet
      { packet with
        echoData := packet.echoData.take packet.echoDataSize.toNat ++
          scPEcho.default.echoData.drop packet.echoDataSize.toNat }
      (encodeSigned 8 packet.token ++
        (encodeSigned 4 packet.echoDataSize ++
          packet.echoData.take packet.echoDataSize.toNat)) := by
  have bound : (maxEchoDataLength : Int) = 32 := rfl
  obtain ⟨lower, upper, length⟩ := id fits
  constructor
  · intro ser bytes packs room
    rw [List.length_append, List.length_append, encodeSigned_length, encodeSigned_length,
      List.length_take] at room
    obtain ⟨token, -⟩ := Serializer.scalar_packs 8 (encodeSigned 8)
      decodeSigned packs packet.token (by rw [encodeSigned_length]; omega)
    have tail := echoTail_packs token fits (by rw [List.length_append, encodeSigned_length]; omega)
    rw [List.append_assoc] at tail
    exact tail
  · intro ser unpacks
    obtain ⟨tokenRead, decoded⟩ := Serializer.scalar_unpacks 8 (encodeSigned 8)
      decodeSigned unpacks scPEcho.default.token (by simp)
    have token : (ser.valueInt64 scPEcho.default.token).2 = packet.token :=
      decoded.trans (decodeSigned_encodeSigned tokenFits)
    obtain ⟨size, data⟩ := echoTail_unpacks fits scPEcho.default.echoDataSize
      scPEcho.default.echoData tokenRead
    simp only [scPEcho] at token size data ⊢
    rw [token]
    exact congrArg₂ (fun n d => (⟨packet.token, n, d⟩ : ScPEcho)) size data
  · rw [List.length_append, List.length_append, encodeSigned_length, encodeSigned_length,
      List.length_take]
    simp only [sizeofPacketHead, sizeofPacketTail, maxPacketBufferSize]
    omega

theorem entries_wire_length (entries : List CharacterDbData) :
    (entries.flatMap CharacterDbData.wire).length = 20 * entries.length := by
  induction entries with
  | nil => rfl
  | cons entry later ih =>
      rw [List.flatMap_cons, List.length_append, ih, entry.wire_length, List.length_cons]
      omega

theorem scPEnterCharacterList_carries (packet : ScPEnterCharacterList)
    (sendable : (S2CCall.enterCharacter packet).Sendable) :
    scPEnterCharacterList.Carries packet
      { packet with
        data := packet.data.take packet.count.toNat ++
          scPEnterCharacterList.default.data.drop packet.count.toNat }
      (encodeSigned 4 packet.count ++
        (packet.data.take packet.count.toNat).flatMap CharacterDbData.wire) := by
  obtain ⟨lower, upper, length, fits⟩ := sendable
  have bound : (maxSendCountCharacterDbData : Int) = 20 := rfl
  have four : ((256 ^ 4 : Nat) : Int) = 4294967296 := by norm_num
  have taken : (packet.data.take packet.count.toNat).length = packet.count.toNat := by
    rw [List.length_take]
    omega
  constructor
  · intro ser bytes packs room
    rw [List.length_append, encodeSigned_length, entries_wire_length, taken] at room
    obtain ⟨count, same⟩ := Serializer.scalar_packs 4 (encodeSigned 4)
      decodeSigned packs packet.count (by rw [encodeSigned_length]; omega)
    have countValue : (ser.valueInt32 packet.count).2 = packet.count := same
    have entries := serializeEntries_packs packet.count.toNat 0 packet.data count (by omega)
      (by rw [List.length_append, encodeSigned_length]; omega)
    rw [List.drop_zero, List.append_assoc] at entries
    simp only [scPEnterCharacterList, countValue]
    exact entries
  · intro ser unpacks
    obtain ⟨countRead, decoded⟩ := Serializer.scalar_unpacks 4 (encodeSigned 4) decodeSigned unpacks
      scPEnterCharacterList.default.count (by simp)
    have count : (ser.valueInt32 scPEnterCharacterList.default.count).2 = packet.count :=
      decoded.trans (decodeSigned_encodeSigned ⟨by omega, by omega⟩)
    rw [← List.append_nil (List.flatMap _ _)] at countRead
    have entries := serializeEntries_unpacks 0 scPEnterCharacterList.default.data
      (fun entry member => fits entry (List.mem_of_mem_take member)) countRead
      (by rw [taken]; simp only [scPEnterCharacterList, List.length_replicate]; omega)
    rw [taken, List.take_zero, List.nil_append, Nat.zero_add] at entries
    simp only [scPEnterCharacterList] at count entries ⊢
    rw [count]
    exact congrArg (fun d => (⟨packet.count, d⟩ : ScPEnterCharacterList)) entries
  · rw [List.length_append, encodeSigned_length, entries_wire_length, taken]
    simp only [sizeofPacketHead, sizeofPacketTail, maxPacketBufferSize]
    omega

/-- A packet arrives at the receiver: its frame is accepted by an empty ring of any offset,
parsed and dispatched to the one handler of its type with the sender's values. -/
def Arrives {Q : Type} (table : PacketTable Q) (sameAs : Q → Q → Prop) (sent : Q)
    (frame : List UInt8) : Prop :=
  ∀ (heap : Nat → UInt8) (ring : CircleBuffer), ring.nBufferSize = maxPacketBufferSize →
    ring.contents = [] →
    ∃ received, deliver table heap ring frame = some (.invoked received) ∧ sameAs sent received

theorem PacketClass.Carries.toArrives {P Q : Type} {cls : PacketClass P} {sent received : P}
    {wire : List UInt8} (carries : cls.Carries sent received wire) (table : PacketTable Q)
    (handler : P → Q) {sameAs : Q → Q → Prop}
    (registered : table[cls.packetType]? =
      some (some fun data length => handler (cls.unpack data length).2))
    (typeBound : cls.packetType < 256 ^ 4) (same : sameAs (handler sent) (handler received))
    (packetTime : Nat) :
    Arrives table sameAs (handler sent) (cls.sendPacket sent packetTime) := by
  intro heap ring capacity empty
  exact ⟨handler received,
    carries.arrives registered typeBound packetTime heap ring capacity empty, same⟩

/-- The classes without arrays, all at once. -/
theorem PacketClass.arrives_of_members {P Q : Type} (cls : PacketClass P) (table : PacketTable Q)
    (handler : P → Q) (sameAs : Q → Q → Prop) {members : List (Member P)} {packet : P}
    (layout : cls.serialize = Member.values members)
    (registered : table[cls.packetType]? =
      some (some fun data length => handler (cls.unpack data length).2))
    (typeBound : cls.packetType < 256 ^ 4) (lawful : ∀ member ∈ members, member.Lawful)
    (fits : Member.Fits members packet)
    (covers : Member.copyAll members packet cls.default = packet)
    (small : (Member.encodeAll members packet).length ≤ 100)
    (same : sameAs (handler packet) (handler packet)) (packetTime : Nat) :
    Arrives table sameAs (handler packet) (cls.sendPacket packet packetTime) :=
  (Member.carries layout lawful fits covers small).toArrives table handler registered typeBound
    same packetTime

theorem C2SCall.arrives (packet : C2SCall) (sendable : packet.Sendable) (packetTime : Nat) :
    Arrives serverTable SameAs packet (packet.sendPacket packetTime) := by
  cases packet with
  | auth packet =>
      exact csPAuth.arrives_of_members serverTable .auth SameAs rfl rfl (by decide)
        (by simp)
        (by simpa [Sendable, Member.Fits] using sendable) rfl
        (by simp [Member.encodeAll]) rfl packetTime
  | enter packet =>
      exact csPEnter.arrives_of_members serverTable .enter SameAs rfl rfl (by decide)
        (by simp)
        (by simpa [Sendable, Member.Fits] using sendable) rfl
        (by simp [Member.encodeAll]) rfl packetTime
  | leave packet =>
      exact csPLeave.arrives_of_members serverTable .leave SameAs rfl rfl (by decide)
        (by simp)
        (by simpa [Sendable, Member.Fits] using sendable) rfl
        (by simp [Member.encodeAll]) rfl packetTime
  | move packet =>
      exact csPMove.arrives_of_members serverTable .move SameAs rfl rfl (by decide)
        (by simp)
        (by simpa [Sendable, Member.Fits] using sendable) rfl
        (by simp [Member.encodeAll]) rfl packetTime
  | interaction packet =>
      exact csPInteraction.arrives_of_members serverTable .interaction SameAs rfl rfl (by decide)
        (by simp)
        (by simpa [Sendable, Member.Fits] using sendable) rfl
        (by simp [Member.encodeAll]) rfl packetTime
  | heartbeat packet =>
      exact csPHeartbeat.arrives_of_members serverTable .heartbeat SameAs rfl rfl (by decide) (by simp)
        (by simp [Member.Fits]) rfl (by simp [Member.encodeAll]) rfl packetTime
  | echo packet =>
      exact (csPEcho_carries packet sendable).toArrives serverTable .echo rfl
        (by decide) ⟨rfl, take_takeAppend _ _ _ sendable.inside⟩ packetTime

theorem S2CCall.arrives (packet : S2CCall) (sendable : packet.Sendable) (packetTime : Nat) :
    Arrives clientTable SameAs packet (packet.sendPacket packetTime) := by
  cases packet with
  | authResult packet =>
      exact scPAuthResult.arrives_of_members clientTable .authResult SameAs rfl rfl (by decide)
        (by simp)
        (by simpa [Sendable, Member.Fits] using sendable) rfl
        (by simp [Member.encodeAll]) rfl packetTime
  | enter packet =>
      exact scPEnter.arrives_of_members clientTable .enter SameAs rfl rfl (by decide)
        (by simp)
        (by simpa [Sendable, Member.Fits] using sendable) rfl
        (by simp [Member.encodeAll]) rfl packetTime
  | enterCharacter packet =>
      obtain ⟨lower, upper, length, fits⟩ := id sendable
      exact (scPEnterCharacterList_carries packet sendable).toArrives clientTable .enterCharacter rfl
        (by decide)
        ⟨rfl, take_takeAppend _ _ _ (by omega)⟩ packetTime
  | leave packet =>
      exact scPLeave.arrives_of_members clientTable .leave SameAs rfl rfl (by decide)
        (by simp)
        (by simpa [Sendable, Member.Fits] using sendable) rfl
        (by simp [Member.encodeAll]) rfl packetTime
  | move packet =>
      exact scPMove.arrives_of_members clientTable .move SameAs rfl rfl (by decide)
        (by simp)
        (by simpa [Sendable, Member.Fits] using sendable) rfl
        (by simp [Member.encodeAll]) rfl packetTime
  | interaction packet =>
      exact scPInteraction.arrives_of_members clientTable .interaction SameAs rfl rfl (by decide)
        (by simp)
        (by simpa [Sendable, Member.Fits] using sendable) rfl
        (by simp [Member.encodeAll]) rfl packetTime
  | heartbeat packet =>
      exact scPHeartbeat.arrives_of_members clientTable .heartbeat SameAs rfl rfl (by decide) (by simp)
        (by simp [Member.Fits]) rfl (by simp [Member.encodeAll]) rfl packetTime
  | echo packet =>
      exact (scPEcho_carries packet sendable.1 sendable.2).toArrives clientTable .echo rfl
        (by decide)
        ⟨rfl, rfl, take_takeAppend _ _ _ sendable.2.inside⟩ packetTime

/-- Every packet of both protocols, with any values its members can hold, arrives at the
other side. -/
theorem every_packet_arrives (packetTime : Nat) :
    (∀ packet : C2SCall, packet.Sendable →
      Arrives serverTable C2SCall.SameAs packet (packet.sendPacket packetTime)) ∧
    ∀ packet : S2CCall, packet.Sendable →
      Arrives clientTable S2CCall.SameAs packet (packet.sendPacket packetTime) :=
  ⟨fun packet sendable => packet.arrives sendable packetTime,
    fun packet sendable => packet.arrives sendable packetTime⟩

theorem every_packet_arrives_echo :
    (C2SCall.echo ⟨3, List.replicate 32 9⟩).Sendable ∧
      Arrives serverTable C2SCall.SameAs (.echo ⟨3, List.replicate 32 9⟩)
        ((C2SCall.echo ⟨3, List.replicate 32 9⟩).sendPacket 0) ∧
      (S2CCall.move ⟨8, -1, 7⟩).Sendable ∧
      Arrives clientTable S2CCall.SameAs (.move ⟨8, -1, 7⟩)
        ((S2CCall.move ⟨8, -1, 7⟩).sendPacket 0) := by
  have echo : (C2SCall.echo ⟨3, List.replicate 32 9⟩).Sendable := ⟨by decide, by decide, rfl⟩
  have move : (S2CCall.move ⟨8, -1, 7⟩).Sendable := ⟨by decide, by decide, by decide⟩
  obtain ⟨toServer, toClient⟩ := every_packet_arrives 0
  exact ⟨echo, toServer _ echo, move, toClient _ move⟩

end ProjectPl
