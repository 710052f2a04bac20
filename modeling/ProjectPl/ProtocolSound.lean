import ProjectPl.Protocol
import ProjectPl.ProtocolHostile

/-!
What a decoded packet says about the payload it came from: serialised again, it should be the
front of that payload, and the payload should bring every byte that the packet declares. A reading
`Value` that finds too few bytes leaves its member as it was and goes on, so this fails exactly for
payloads that end before their packet does, and for those that declare more array elements than
they bring or than the array has.
-/

namespace ProjectPl

open Ring LittleEndian

namespace Member

variable {P : Type}

def totalWidth (members : List (Member P)) : Nat := (members.map Member.width).sum

/-- The members of a list are separate parts of the packet. -/
structure Separate (members : List (Member P)) : Prop where
  own : ∀ member ∈ members, ∀ packet value, member.get (member.set packet value) = value
  others : members.Pairwise fun first later =>
    ∀ packet value, first.get (later.set packet value) = first.get packet

theorem encodeAll_length (members : List (Member P)) (packet : P) :
    (encodeAll members packet).length = totalWidth members := by
  induction members with
  | nil => rfl
  | cons member rest ih =>
      simp only [encodeAll, totalWidth, List.flatMap_cons, List.length_append, encodeSigned_length,
        List.map_cons, List.sum_cons] at ih ⊢
      omega

theorem values_keeps {first : Member P} {later : List (Member P)}
    (apart : ∀ member ∈ later, ∀ packet value, first.get (member.set packet value) = first.get packet)
    (ser : Serializer) (packet : P) :
    first.get (values later ser packet).2 = first.get packet := by
  induction later generalizing ser packet with
  | nil => rfl
  | cons member rest ih =>
      rw [values, ih (fun other found => apart other (by simp [found]))]
      exact apart member (by simp) packet _

theorem values_read {members : List (Member P)} (separate : Separate members) {ser : Serializer}
    {bytes : List UInt8} {stores : List Nat} (unpacks : ser.Unpacks bytes stores)
    (enough : totalWidth members ≤ bytes.length) (start : P) :
    (values members ser start).1.Unpacks (bytes.drop (totalWidth members)) stores ∧
      encodeAll members (values members ser start).2 = bytes.take (totalWidth members) := by
  induction members generalizing ser bytes start with
  | nil => exact ⟨unpacks, rfl⟩
  | cons member rest ih =>
      obtain ⟨own, others⟩ := separate
      obtain ⟨apart, restApart⟩ := List.pairwise_cons.mp others
      have total : totalWidth (member :: rest) = member.width + totalWidth rest := by
        simp [totalWidth]
      rw [total] at enough ⊢
      obtain ⟨next, read⟩ := Serializer.scalar_read member.width (encodeSigned member.width)
        decodeSigned unpacks (member.get start)
      rw [if_pos (by omega)] at next read
      have tail := ih ⟨fun other found => own other (by simp [found]), restApart⟩ next
        (by rw [List.length_drop]; omega) (member.value ser start).2
      have first : member.get (values rest (member.value ser start).1
          (member.value ser start).2).2 = decodeSigned (bytes.take member.width) := by
        rw [values_keeps apart, ← read]
        exact own member (by simp) start _
      have chunk : (bytes.take member.width).length = member.width :=
        List.length_take_of_le (by omega)
      have encoded := encodeSigned_decodeSigned (bytes.take member.width)
      rw [chunk] at encoded
      refine ⟨?_, ?_⟩
      · rw [values, ← List.drop_drop]
        exact tail.1
      · rw [values, encodeAll, List.flatMap_cons, first, encoded, List.take_add]
        exact congrArg _ tail.2

theorem values_empty {members : List (Member P)} (lawful : ∀ member ∈ members, member.Lawful)
    (wide : ∀ member ∈ members, 0 < member.width) {ser : Serializer} {stores : List Nat}
    (unpacks : ser.Unpacks [] stores) (start : P) :
    values members ser start = (ser, start) := by
  induction members with
  | nil => rfl
  | cons member rest ih =>
      have kept := Serializer.scalar_short member.width (encodeSigned member.width) decodeSigned
        unpacks (member.get start) (wide member (by simp))
      have unread : member.value ser start = (ser, start) := by
        rw [value, kept]
        exact congrArg _ (lawful member (by simp) start)
      rw [values, unread]
      exact ih (fun other found => lawful other (by simp [found]))
        (fun other found => wide other (by simp [found]))

end Member

namespace PacketClass

variable {P : Type}

def readType (cls : PacketClass P) (payload : List UInt8) : Nat :=
  ((Serializer.ofData (fun offset => payload.getD offset 0) payload.length).valueUInt32
    cls.packetType).2

def decoded (cls : PacketClass P) (payload : List UInt8) : P :=
  (cls.unpack (fun offset => payload.getD offset 0) payload.length).2

def reserialize (cls : PacketClass P) (payload : List UInt8) : List UInt8 :=
  let head := (Serializer.new.valueUInt32 (cls.readType payload)).1
  let packed := (cls.serialize head (cls.decoded payload)).1
  load packed.pBuffer 0 packed.getDataSize

theorem head_packs (packetType : Nat) :
    (Serializer.new.valueUInt32 packetType).1.Packs (encode 4 packetType) :=
  (Serializer.scalar_packs 4 (encode 4) decode Serializer.new_packs packetType
    (by rw [encode_length]; decide)).1

theorem reserialize_eq {cls : PacketClass P} {payload bytes : List UInt8}
    (packs : (cls.serialize (Serializer.new.valueUInt32 (cls.readType payload)).1
      (cls.decoded payload)).1.Packs bytes) : cls.reserialize payload = bytes := by
  rw [reserialize, BufferBase.getDataSize, packs.size]
  exact packs.packed

theorem readType_eq (cls : PacketClass P) (payload : List UInt8) :
    cls.readType payload =
      if 4 ≤ (taken payload).length then decode ((taken payload).take 4) else cls.packetType := by
  have start := Serializer.ofData_unpacks (fun offset => payload.getD offset 0) payload.length
  rw [load_getD payload 0 (Nat.le_refl _), List.take_length] at start
  exact (Serializer.scalar_read 4 (encode 4) decode start cls.packetType).2

theorem encode_readType (cls : PacketClass P) {payload : List UInt8} (whole : 4 ≤ payload.length)
    (fits : payload.length ≤ maxPacketBufferSize) :
    encode 4 (cls.readType payload) = payload.take 4 := by
  have chunk : (payload.take 4).length = 4 := List.length_take_of_le whole
  have word := encode_decode (payload.take 4)
  rw [chunk] at word
  rw [readType_eq, taken, if_pos fits, if_pos whole, word]

theorem taken_of_long {payload : List UInt8} (long : maxPacketBufferSize < payload.length) :
    taken payload = [] := if_neg (by omega)

theorem readType_of_long (cls : PacketClass P) {payload : List UInt8}
    (long : maxPacketBufferSize < payload.length) : cls.readType payload = cls.packetType := by
  rw [readType_eq, taken_of_long long]
  rfl

theorem head_of_long (cls : PacketClass P) {payload : List UInt8}
    (long : maxPacketBufferSize < payload.length) :
    ((Serializer.ofData (fun offset => payload.getD offset 0) payload.length).valueUInt32
      cls.packetType).1.Unpacks [] [] := by
  have head := head_unpacks payload cls.packetType
  have empty : afterHead payload = [] := by
    rw [afterHead, taken_of_long long]
    rfl
  rwa [empty] at head

theorem not_prefix_of_long {bytes payload : List UInt8} (long : payload.length < bytes.length) :
    ¬bytes <+: payload := fun found => absurd found.length_le (by omega)

section Members

variable {cls : PacketClass P} {members : List (Member P)}

/-- A packet of plain members is the front of its payload exactly when the payload holds all of
it. -/
theorem reserialize_members_iff (layout : cls.serialize = Member.values members)
    (lawful : ∀ member ∈ members, member.Lawful) (separate : Member.Separate members)
    (wide : ∀ member ∈ members, 0 < member.width)
    (blank : Member.encodeAll members cls.default =
      List.replicate (Member.totalWidth members) 0)
    (small : 4 + Member.totalWidth members ≤ maxPacketBufferSize) (payload : List UInt8) :
    cls.reserialize payload <+: payload ↔
      if payload.length ≤ maxPacketBufferSize then 4 + Member.totalWidth members ≤ payload.length
      else encode 4 cls.packetType ++ List.replicate (Member.totalWidth members) 0 <+: payload := by
  have packed : cls.reserialize payload =
      encode 4 (cls.readType payload) ++ Member.encodeAll members (cls.decoded payload) := by
    apply reserialize_eq
    rw [layout]
    apply Member.values_packs lawful _ (head_packs _)
    rw [encode_length, Member.encodeAll_length]
    exact small
  have length : (cls.reserialize payload).length = 4 + Member.totalWidth members := by
    rw [packed, List.length_append, encode_length, Member.encodeAll_length]
  by_cases fits : payload.length ≤ maxPacketBufferSize
  · rw [if_pos fits]
    by_cases enough : 4 + Member.totalWidth members ≤ payload.length
    · refine iff_of_true ?_ enough
      have head := head_unpacks payload cls.packetType
      rw [afterHead_of_whole (by omega) fits] at head
      have body := (Member.values_read separate head (by rw [List.length_drop]; omega)
        cls.default).2
      have front : Member.encodeAll members (cls.decoded payload) =
          (payload.drop 4).take (Member.totalWidth members) := by
        rw [decoded, unpack, layout]
        exact body
      rw [packed, encode_readType cls (by omega) fits, front, ← List.take_add]
      exact List.take_prefix _ _
    · exact iff_of_false (not_prefix_of_long (by omega)) enough
  · rw [if_neg fits, packed, readType_of_long cls (by omega), decoded, unpack, layout,
      Member.values_empty lawful wide (head_of_long cls (by omega)), blank]

end Members

end PacketClass

/-! The echo bytes behind their size. -/

namespace Serializer

theorem sizeOfInt_cases {len : Int} (lower : -0x80000000 ≤ len) (upper : len < 0x80000000) :
    (0 ≤ len ∧ sizeOfInt len = len.toNat) ∨ (len < 0 ∧ maxPacketBufferSize < sizeOfInt len) := by
  by_cases positive : 0 ≤ len
  · exact Or.inl ⟨positive, sizeOfInt_of_nonneg positive (by omega)⟩
  · have bound : maxPacketBufferSize = 10240 := rfl
    refine Or.inr ⟨by omega, ?_⟩
    rw [sizeOfInt, ← Int.add_emod_right, Int.emod_eq_of_lt (by omega) (by omega)]
    omega

theorem valueBytes_read {ser : Serializer} {bytes : List UInt8} {stores : List Nat}
    (unpacks : ser.Unpacks bytes stores) (pData : List UInt8) (len : Int) :
    (ser.valueBytes pData len).1.stores =
        stores ++ (if sizeOfInt len ≤ bytes.length then List.range (sizeOfInt len) else []) ∧
      (ser.valueBytes pData len).2 =
        if sizeOfInt len ≤ bytes.length then
          bytes.take (sizeOfInt len) ++ pData.drop (sizeOfInt len)
        else pData := by
  by_cases whole : sizeOfInt len ≤ bytes.length
  · have chunk : (bytes.take (sizeOfInt len)).length = sizeOfInt len :=
      List.length_take_of_le whole
    rw [← List.take_append_drop (sizeOfInt len) bytes] at unpacks
    obtain ⟨next, filled⟩ := valueBytes_unpacks unpacks pData chunk.symm
    rw [chunk] at next filled
    rw [if_pos whole, if_pos whole]
    exact ⟨next.stored, filled⟩
  · rw [if_neg whole, if_neg whole, valueBytes_short unpacks pData (by omega), List.append_nil]
    exact ⟨unpacks.stored, rfl⟩

end Serializer

def echoSent (before : Nat) (size : Int) (data : List UInt8) : List UInt8 :=
  if before + 4 + Serializer.sizeOfInt size ≤ maxPacketBufferSize then
    load (fun offset => data.getD offset 0) 0 (Serializer.sizeOfInt size)
  else []

theorem echoTail_sends {ser : Serializer} {bytes : List UInt8} (packs : ser.Packs bytes)
    (size : Int) (data : List UInt8) (room : bytes.length + 4 ≤ maxPacketBufferSize) :
    ((ser.valueInt32 size).1.valueBytes data (ser.valueInt32 size).2).1.Packs
      (bytes ++ (encodeSigned 4 size ++ echoSent bytes.length size data)) := by
  obtain ⟨sizePacked, same⟩ := Serializer.scalar_packs 4 (encodeSigned 4) decodeSigned packs size
    (by rw [encodeSigned_length]; exact room)
  have sameSize : (ser.valueInt32 size).2 = size := same
  have length : (bytes ++ encodeSigned 4 size).length = bytes.length + 4 := by
    rw [List.length_append, encodeSigned_length]
  have packed := Serializer.valueBytes_packs_load sizePacked data size (by rw [length]; exact room)
  rw [length, List.append_assoc] at packed
  rw [sameSize]
  exact packed

namespace PacketKind

/-- The bytes that the echo size at an offset of the payload declares are there and fit the
array. -/
def EchoWhole (payload : List UInt8) (offset : Nat) : Prop :=
  0 ≤ int32At payload offset ∧ int32At payload offset ≤ maxEchoDataLength ∧
    offset + 4 + int32At payload offset ≤ payload.length

theorem int32At_encoded {payload : List UInt8} {offset : Nat}
    (whole : offset + 4 ≤ payload.length) :
    encodeSigned 4 (int32At payload offset) = (payload.drop offset).take 4 := by
  have chunk : ((payload.drop offset).take 4).length = 4 := by
    rw [List.length_take, List.length_drop]
    omega
  have word := encodeSigned_decodeSigned ((payload.drop offset).take 4)
  rw [chunk] at word
  exact word

/-- An echo whose size was read at the offset: what is sent again is the front of the payload,
nothing is missing, and no store left the array, exactly when the size is one of those above. -/
theorem echo_front_iff {payload initial : List UInt8} {offset : Nat}
    (whole : offset + 4 ≤ payload.length) (fits : payload.length ≤ maxPacketBufferSize) :
    let size := int32At payload offset
    let rest := payload.drop (offset + 4)
    let present := Serializer.sizeOfInt size ≤ rest.length
    let data := if present then rest.take (Serializer.sizeOfInt size) ++
      initial.drop (Serializer.sizeOfInt size) else initial
    ((∀ idx ∈ if present then List.range (Serializer.sizeOfInt size) else [],
        idx < maxEchoDataLength) ∧
      payload.take offset ++ (encodeSigned 4 size ++ echoSent offset size data) <+: payload ∧
        offset + 4 + Serializer.sizeOfInt size ≤ payload.length) ↔
        EchoWhole payload offset := by
  intro size rest present data
  have bound : maxPacketBufferSize = 10240 := rfl
  have chunk : ((payload.drop offset).take 4).length = 4 := by
    rw [List.length_take, List.length_drop]
    omega
  have restLength : rest.length = payload.length - (offset + 4) := List.length_drop
  have front : payload.take offset ++ encodeSigned 4 size = payload.take (offset + 4) := by
    rw [int32At_encoded whole, List.take_add]
  have cases := Serializer.sizeOfInt_cases (decodeSigned_ge chunk) (decodeSigned_lt chunk)
  have sizeCases : (0 ≤ size ∧ Serializer.sizeOfInt size = size.toNat) ∨
      (size < 0 ∧ maxPacketBufferSize < Serializer.sizeOfInt size) := cases
  rw [← List.append_assoc, front]
  have goal : EchoWhole payload offset ↔ (0 ≤ size ∧ size ≤ maxEchoDataLength ∧
    offset + 4 + size ≤ payload.length) := Iff.rfl
  rw [goal]
  by_cases here : present
  · have inside : Serializer.sizeOfInt size ≤ rest.length := here
    obtain ⟨positive, same⟩ : 0 ≤ size ∧ Serializer.sizeOfInt size = size.toNat := by omega
    have filled : data.take (Serializer.sizeOfInt size) =
        rest.take (Serializer.sizeOfInt size) := by
      dsimp only [data]
      rw [if_pos here]
      exact List.take_left' (List.length_take_of_le inside)
    have long : Serializer.sizeOfInt size ≤ data.length := by
      have lengths := congrArg List.length filled
      rw [List.length_take, List.length_take] at lengths
      omega
    have sent : echoSent offset size data = rest.take (Serializer.sizeOfInt size) := by
      rw [echoSent, if_pos (by omega), load_getD data 0 long, filled]
    have brought : offset + 4 + Serializer.sizeOfInt size ≤ payload.length := by omega
    rw [if_pos here, sent, ← List.take_add]
    have found : payload.take (offset + 4 + Serializer.sizeOfInt size) <+: payload :=
      List.take_prefix _ _
    simp only [List.mem_range, found, brought, and_true]
    constructor
    · intro stays
      have last := stays (Serializer.sizeOfInt size - 1)
      omega
    · intro declared idx below
      omega
  · have short : rest.length < Serializer.sizeOfInt size := Nat.lt_of_not_le here
    refine iff_of_false ?_ (by omega)
    rintro ⟨-, -, brought⟩
    omega

theorem echo_sound_iff {payload front blank initial data : List UInt8} {offset : Nat} {size : Int}
    {stores : List Nat} (frontLength : front.length = offset)
    (small : offset + 4 ≤ maxPacketBufferSize)
    (read : offset + 4 ≤ payload.length → payload.length ≤ maxPacketBufferSize →
      front = payload.take offset ∧ size = int32At payload offset ∧
        (stores = if Serializer.sizeOfInt size ≤ (payload.drop (offset + 4)).length then
          List.range (Serializer.sizeOfInt size) else []) ∧
        data = if Serializer.sizeOfInt size ≤ (payload.drop (offset + 4)).length then
          (payload.drop (offset + 4)).take (Serializer.sizeOfInt size) ++
            initial.drop (Serializer.sizeOfInt size) else initial)
    (unread : maxPacketBufferSize < payload.length → front = blank ∧ size = 0 ∧ stores = []) :
    ((∀ idx ∈ stores, idx < maxEchoDataLength) ∧
        front ++ (encodeSigned 4 size ++ echoSent offset size data) <+: payload ∧
        offset + 4 + Serializer.sizeOfInt size ≤ payload.length) ↔
      if payload.length ≤ maxPacketBufferSize then
        offset + 4 ≤ payload.length ∧ EchoWhole payload offset
      else blank ++ List.replicate 4 0 <+: payload := by
  by_cases fits : payload.length ≤ maxPacketBufferSize
  · rw [if_pos fits]
    by_cases whole : offset + 4 ≤ payload.length
    · obtain ⟨rfl, rfl, rfl, rfl⟩ := read whole fits
      have front := @echo_front_iff payload initial offset whole fits
      exact front.trans (iff_and_self.mpr fun _ => whole)
    · refine iff_of_false ?_ (fun declared => whole declared.1)
      rintro ⟨-, -, brought⟩
      omega
  · obtain ⟨rfl, rfl, rfl⟩ := unread (by omega)
    have nothing : echoSent offset 0 data = [] := by
      rw [echoSent]
      split <;> rfl
    have brought : offset + 4 + Serializer.sizeOfInt 0 ≤ payload.length := by
      have none : Serializer.sizeOfInt 0 = 0 := rfl
      omega
    rw [if_neg fits, nothing, List.append_nil, and_iff_left brought]
    simp [show encodeSigned 4 0 = List.replicate 4 0 from rfl]

end PacketKind

theorem echoTail_reads {ser : Serializer} {body : List UInt8} (unpacks : ser.Unpacks body [])
    (whole : 4 ≤ body.length) (start : Int) (initial : List UInt8) :
    let size := decodeSigned (body.take 4)
    let call := (ser.valueInt32 start).1.valueBytes initial (ser.valueInt32 start).2
    (ser.valueInt32 start).2 = size ∧
      (call.1.stores = if Serializer.sizeOfInt size ≤ (body.drop 4).length then
        List.range (Serializer.sizeOfInt size) else []) ∧
      call.2 = if Serializer.sizeOfInt size ≤ (body.drop 4).length then
        (body.drop 4).take (Serializer.sizeOfInt size) ++ initial.drop (Serializer.sizeOfInt size)
        else initial := by
  intro size call
  obtain ⟨next, read⟩ := Serializer.scalar_read 4 (encodeSigned 4) decodeSigned unpacks start
  rw [if_pos whole] at next read
  have same : (ser.valueInt32 start).2 = size := read
  obtain ⟨stored, filled⟩ := Serializer.valueBytes_read next initial size
  dsimp only [call]
  rw [same]
  exact ⟨rfl, stored, filled⟩

theorem echoTail_empty {ser : Serializer} (unpacks : ser.Unpacks [] []) (start : Int)
    (none : start = 0) (initial : List UInt8) :
    (ser.valueInt32 start).2 = 0 ∧
      ((ser.valueInt32 start).1.valueBytes initial (ser.valueInt32 start).2).1.stores = [] := by
  subst none
  have kept : ser.valueInt32 0 = (ser, 0) :=
    Serializer.scalar_short 4 (encodeSigned 4) decodeSigned unpacks 0 (by decide)
  have stored := (Serializer.valueBytes_read unpacks initial 0).1
  rw [kept]
  exact ⟨rfl, stored⟩

theorem csPEcho_reserialize (payload : List UInt8) :
    csPEcho.reserialize payload =
      encode 4 (csPEcho.readType payload) ++
        (encodeSigned 4 (csPEcho.decoded payload).echoDataSize ++
          echoSent 4 (csPEcho.decoded payload).echoDataSize
            (csPEcho.decoded payload).echoData) := by
  apply PacketClass.reserialize_eq
  have packed := echoTail_sends (PacketClass.head_packs (csPEcho.readType payload))
    (csPEcho.decoded payload).echoDataSize (csPEcho.decoded payload).echoData
    (by rw [encode_length]; decide)
  rw [encode_length] at packed
  exact packed

theorem csPEcho_sound_iff (payload : List UInt8) :
    ((∀ idx ∈ (csPEcho.unpack (fun offset => payload.getD offset 0) payload.length).1.stores,
        idx < maxEchoDataLength) ∧ csPEcho.reserialize payload <+: payload ∧
      8 + Serializer.sizeOfInt (csPEcho.decoded payload).echoDataSize ≤ payload.length) ↔
      if payload.length ≤ maxPacketBufferSize then
        8 ≤ payload.length ∧ PacketKind.EchoWhole payload 4
      else encode 4 csPEcho.packetType ++ List.replicate 4 0 <+: payload := by
  have head := head_unpacks payload csPEcho.packetType
  rw [csPEcho_reserialize]
  apply PacketKind.echo_sound_iff (encode_length 4 _) (by decide)
  · intro whole fits
    rw [afterHead_of_whole (by omega) fits] at head
    obtain ⟨size, stored, filled⟩ := echoTail_reads head (by rw [List.length_drop]; omega)
      csPEcho.default.echoDataSize csPEcho.default.echoData
    have sizeEq : (csPEcho.decoded payload).echoDataSize = PacketKind.int32At payload 4 := size
    rw [List.drop_drop] at stored filled
    refine ⟨PacketClass.encode_readType csPEcho (by omega) fits, sizeEq, ?_, ?_⟩
    · rw [sizeEq]
      exact stored
    · rw [sizeEq]
      exact filled
  · intro long
    obtain ⟨size, stored⟩ := echoTail_empty (PacketClass.head_of_long csPEcho long)
      csPEcho.default.echoDataSize rfl csPEcho.default.echoData
    exact ⟨by rw [PacketClass.readType_of_long csPEcho long], size, stored⟩

theorem scPEcho_reserialize (payload : List UInt8) :
    scPEcho.reserialize payload =
      encode 4 (scPEcho.readType payload) ++ encodeSigned 8 (scPEcho.decoded payload).token ++
        (encodeSigned 4 (scPEcho.decoded payload).echoDataSize ++
          echoSent 12 (scPEcho.decoded payload).echoDataSize
            (scPEcho.decoded payload).echoData) := by
  apply PacketClass.reserialize_eq
  obtain ⟨tokenPacked, same⟩ := Serializer.scalar_packs 8 (encodeSigned 8) decodeSigned
    (PacketClass.head_packs (scPEcho.readType payload)) (scPEcho.decoded payload).token
    (by rw [encode_length, encodeSigned_length]; decide)
  have length : (encode 4 (scPEcho.readType payload) ++
      encodeSigned 8 (scPEcho.decoded payload).token).length = 12 := by
    rw [List.length_append, encode_length, encodeSigned_length]
  have packed := echoTail_sends tokenPacked (scPEcho.decoded payload).echoDataSize
    (scPEcho.decoded payload).echoData (by rw [length]; decide)
  rw [length] at packed
  exact packed

theorem scPEcho_sound_iff (payload : List UInt8) :
    ((∀ idx ∈ (scPEcho.unpack (fun offset => payload.getD offset 0) payload.length).1.stores,
        idx < maxEchoDataLength) ∧ scPEcho.reserialize payload <+: payload ∧
      16 + Serializer.sizeOfInt (scPEcho.decoded payload).echoDataSize ≤ payload.length) ↔
      if payload.length ≤ maxPacketBufferSize then
        16 ≤ payload.length ∧ PacketKind.EchoWhole payload 12
      else encode 4 scPEcho.packetType ++ List.replicate 8 0 ++ List.replicate 4 0 <+: payload := by
  have head := head_unpacks payload scPEcho.packetType
  rw [scPEcho_reserialize]
  apply PacketKind.echo_sound_iff
    (by rw [List.length_append, encode_length, encodeSigned_length]) (by decide)
  · intro whole fits
    rw [afterHead_of_whole (by omega) fits] at head
    obtain ⟨next, token⟩ := Serializer.scalar_read 8 (encodeSigned 8) decodeSigned head
      scPEcho.default.token
    have tokenThere : 8 ≤ (payload.drop 4).length := by
      rw [List.length_drop]
      omega
    rw [if_pos tokenThere, List.drop_drop] at next
    rw [if_pos tokenThere] at token
    have tokenEq : (scPEcho.decoded payload).token = decodeSigned ((payload.drop 4).take 8) := token
    obtain ⟨size, stored, filled⟩ := echoTail_reads next (by rw [List.length_drop]; omega)
      scPEcho.default.echoDataSize scPEcho.default.echoData
    have sizeEq : (scPEcho.decoded payload).echoDataSize = PacketKind.int32At payload 12 := size
    rw [List.drop_drop] at stored filled
    have chunk : ((payload.drop 4).take 8).length = 8 := List.length_take_of_le tokenThere
    have word := encodeSigned_decodeSigned ((payload.drop 4).take 8)
    rw [chunk] at word
    refine ⟨?_, sizeEq, ?_, ?_⟩
    · rw [PacketClass.encode_readType scPEcho (by omega) fits, tokenEq, word, ← List.take_add]
    · rw [sizeEq]
      exact stored
    · rw [sizeEq]
      exact filled
  · intro long
    have empty := PacketClass.head_of_long scPEcho long
    have token : ((Serializer.ofData (fun offset => payload.getD offset 0)
        payload.length).valueUInt32 scPEcho.packetType).1.valueInt64 scPEcho.default.token =
        (_, scPEcho.default.token) :=
      Serializer.scalar_short 8 (encodeSigned 8) decodeSigned empty scPEcho.default.token (by decide)
    have tokenEq : (scPEcho.decoded payload).token = 0 := congrArg Prod.snd token
    rw [← congrArg Prod.fst token] at empty
    obtain ⟨size, stored⟩ := echoTail_empty empty scPEcho.default.echoDataSize rfl
      scPEcho.default.echoData
    refine ⟨?_, size, stored⟩
    rw [PacketClass.readType_of_long scPEcho long, tokenEq]
    rfl

/-! The counted list of character records. -/

theorem CharacterDbData.position_separate : Member.Separate Position.members := by
  constructor
  · simp [Position.members]
  · simp [Position.members]

theorem CharacterDbData.serialize_reads {ser : Serializer} {bytes : List UInt8}
    {stores : List Nat} (unpacks : ser.Unpacks bytes stores) (enough : 20 ≤ bytes.length)
    (start : CharacterDbData) :
    (serialize ser start).1.Unpacks (bytes.drop 20) stores ∧
      (serialize ser start).2.wire = bytes.take 20 := by
  obtain ⟨next, token⟩ := Serializer.scalar_read 8 (encodeSigned 8) decodeSigned unpacks start.token
  rw [if_pos (by omega)] at next token
  obtain ⟨last, position⟩ := Member.values_read position_separate next
    (show 12 ≤ (bytes.drop 8).length by rw [List.length_drop]; omega) start.pos
  rw [List.drop_drop] at last
  have chunk : (bytes.take 8).length = 8 := List.length_take_of_le (by omega)
  have word := encodeSigned_decodeSigned (bytes.take 8)
  rw [chunk, ← token] at word
  refine ⟨last, ?_⟩
  calc (serialize ser start).2.wire
      = encodeSigned 8 (ser.valueInt64 start.token).2 ++ Member.encodeAll Position.members
          (Position.serialize (ser.valueInt64 start.token).1 start.pos).2 := rfl
    _ = bytes.take 8 ++ (bytes.drop 8).take 12 := congrArg₂ (· ++ ·) word position
    _ = bytes.take 20 := by rw [← List.take_add]

theorem entry_unpacks {ser : Serializer} {bytes : List UInt8} {stores : List Nat}
    (unpacks : ser.Unpacks bytes stores) (enough : 20 ≤ bytes.length) (start : CharacterDbData)
    (idx : Nat) :
    let entry := CharacterDbData.serialize ser start
    (ser.forSend = false ∧ entry.1.nDataSize < ser.nDataSize) ∧
      ({ entry.1 with stores := entry.1.stores ++ [idx] } : Serializer).Unpacks
        (bytes.drop 20) (stores ++ [idx]) := by
  intro entry
  obtain ⟨next, -⟩ := CharacterDbData.serialize_reads unpacks enough start
  refine ⟨⟨unpacks.reading, ?_⟩, next.reading, next.size, next.left, ?_⟩
  · rw [next.size, unpacks.size, List.length_drop]
    omega
  · dsimp only
    rw [next.stored]

theorem serializeEntries_reads (rounds idx : Nat) {ser : Serializer} {bytes : List UInt8}
    {stores : List Nat} (unpacks : ser.Unpacks bytes stores) (enough : 20 * rounds ≤ bytes.length)
    (data : List CharacterDbData) (inside : idx + rounds ≤ data.length) :
    (serializeEntries rounds idx ser data).2.take idx = data.take idx ∧
      (serializeEntries rounds idx ser data).2.length = data.length ∧
      (((serializeEntries rounds idx ser data).2.drop idx).take rounds).flatMap
        CharacterDbData.wire = bytes.take (20 * rounds) := by
  induction rounds generalizing idx ser bytes stores data with
  | zero => simp [serializeEntries]
  | succ rounds ih =>
      obtain ⟨filled, next⟩ := entry_unpacks unpacks (by omega) (data[idx]?.getD {}) idx
      have wire := (CharacterDbData.serialize_reads unpacks (by omega) (data[idx]?.getD {})).2
      obtain ⟨kept, length, rest⟩ := ih (idx + 1) next (by rw [List.length_drop]; omega)
        (data.set idx (CharacterDbData.serialize ser (data[idx]?.getD {})).2)
        (by rw [List.length_set]; omega)
      rw [List.length_set] at length
      rw [serializeEntries]
      dsimp only
      rw [if_pos filled]
      generalize (serializeEntries rounds (idx + 1) _ _).2 = final at kept length rest ⊢
      have here : idx < final.length := by omega
      have entry : final[idx] = (CharacterDbData.serialize ser (data[idx]?.getD {})).2 := by
        have same := congrArg (fun list => list[idx]?) kept
        simpa [List.getElem?_take, here, show idx < data.length by omega] using same
      refine ⟨?_, length, ?_⟩
      · have shorter := congrArg (List.take idx) kept
        simpa [List.take_take, List.take_set_of_le] using shorter
      · rw [List.drop_eq_getElem_cons here, List.take_succ_cons, List.flatMap_cons, rest, entry,
          wire, ← List.take_add, Nat.mul_succ, Nat.add_comm]

theorem serializeEntries_keeps (rounds idx : Nat) (ser : Serializer)
    (data : List CharacterDbData) {stored : Nat} (member : stored ∈ ser.stores) :
    stored ∈ (serializeEntries rounds idx ser data).1.stores := by
  induction rounds generalizing idx ser data with
  | zero => exact member
  | succ rounds ih =>
      have entry := CharacterDbData.serialize_stores ser (data[idx]?.getD {})
      rw [serializeEntries]
      apply ih
      split
      · rw [entry]
        exact List.mem_append_left _ member
      · rw [entry]
        exact member

theorem serializeEntries_stores_present {rounds position : Nat} (inside : position < rounds)
    (idx : Nat) {ser : Serializer} {bytes : List UInt8} {stores : List Nat}
    (unpacks : ser.Unpacks bytes stores) (enough : 20 * (position + 1) ≤ bytes.length)
    (data : List CharacterDbData) :
    idx + position ∈ (serializeEntries rounds idx ser data).1.stores := by
  induction rounds generalizing position idx ser bytes stores data with
  | zero => omega
  | succ rounds ih =>
      obtain ⟨filled, next⟩ := entry_unpacks unpacks (by omega) (data[idx]?.getD {}) idx
      rw [serializeEntries]
      dsimp only
      rw [if_pos filled]
      cases position with
      | zero => exact serializeEntries_keeps _ _ _ _ (List.mem_append_right _ (by simp))
      | succ position =>
          have later := ih (show position < rounds by omega) (idx + 1) next
            (by rw [List.length_drop]; omega)
            (data.set idx (CharacterDbData.serialize ser (data[idx]?.getD {})).2)
          rwa [Nat.add_assoc, Nat.add_comm 1] at later

namespace PacketKind

/-- The count at the front of a list is not positive, or the entries it declares are there and
fit the array. -/
def EntriesWhole (payload : List UInt8) : Prop :=
  int32At payload 4 ≤ 0 ∨
    (int32At payload 4 ≤ maxSendCountCharacterDbData ∧
      8 + 20 * int32At payload 4 ≤ payload.length)

end PacketKind

theorem scPEnterCharacterList_serialize (ser : Serializer) (packet : ScPEnterCharacterList) :
    (scPEnterCharacterList.serialize ser packet).1 =
      (serializeEntries (ser.valueInt32 packet.count).2.toNat 0 (ser.valueInt32 packet.count).1
        packet.data).1 := rfl

section EnterCharacterList

variable (payload : List UInt8)

theorem scPEnterCharacterList_reserialize :
    ∃ ser : Serializer,
      ser.Packs (encode 4 (scPEnterCharacterList.readType payload) ++
        encodeSigned 4 (scPEnterCharacterList.decoded payload).count) ∧
      ∀ bytes, (serializeEntries (scPEnterCharacterList.decoded payload).count.toNat 0 ser
          (scPEnterCharacterList.decoded payload).data).1.Packs bytes →
        scPEnterCharacterList.reserialize payload = bytes := by
  obtain ⟨packs, same⟩ := Serializer.scalar_packs 4 (encodeSigned 4) decodeSigned
    (PacketClass.head_packs (scPEnterCharacterList.readType payload))
    (scPEnterCharacterList.decoded payload).count
    (by rw [encode_length, encodeSigned_length]; decide)
  have count : ((Serializer.new.valueUInt32 (scPEnterCharacterList.readType payload)).1.valueInt32
      (scPEnterCharacterList.decoded payload).count).2 =
        (scPEnterCharacterList.decoded payload).count := same
  refine ⟨_, packs, ?_⟩
  intro bytes sent
  apply PacketClass.reserialize_eq
  rw [scPEnterCharacterList_serialize, count]
  exact sent

variable {payload}

theorem scPEnterCharacterList_reads (whole : 8 ≤ payload.length)
    (fits : payload.length ≤ maxPacketBufferSize) :
    ∃ ser : Serializer, ser.Unpacks (payload.drop 8) [] ∧
      (scPEnterCharacterList.decoded payload).count = PacketKind.int32At payload 4 ∧
      (scPEnterCharacterList.decoded payload).data =
        (serializeEntries (PacketKind.int32At payload 4).toNat 0 ser
          scPEnterCharacterList.default.data).2 ∧
      (scPEnterCharacterList.unpack (fun offset => payload.getD offset 0)
          payload.length).1.stores =
        (serializeEntries (PacketKind.int32At payload 4).toNat 0 ser
          scPEnterCharacterList.default.data).1.stores := by
  have head := head_unpacks payload scPEnterCharacterList.packetType
  rw [afterHead_of_whole (by omega) fits] at head
  have there : 4 ≤ (payload.drop 4).length := by
    rw [List.length_drop]
    omega
  obtain ⟨next, read⟩ := Serializer.scalar_read 4 (encodeSigned 4) decodeSigned head
    scPEnterCharacterList.default.count
  rw [if_pos there, List.drop_drop] at next
  rw [if_pos there] at read
  have count : (((Serializer.ofData (fun offset => payload.getD offset 0)
      payload.length).valueUInt32 scPEnterCharacterList.packetType).1.valueInt32
        scPEnterCharacterList.default.count).2 = PacketKind.int32At payload 4 := read
  refine ⟨_, next, count, ?_, ?_⟩
  · rw [← count]
    rfl
  · rw [← count]
    rfl

theorem scPEnterCharacterList_front (fits : payload.length ≤ maxPacketBufferSize)
    (least : 8 ≤ payload.length)
    (upper : (PacketKind.int32At payload 4).toNat ≤ maxSendCountCharacterDbData)
    (whole : 8 + 20 * (PacketKind.int32At payload 4).toNat ≤ payload.length) :
    scPEnterCharacterList.reserialize payload =
      payload.take (8 + 20 * (PacketKind.int32At payload 4).toNat) := by
  obtain ⟨ser, unpacks, count, data, -⟩ := scPEnterCharacterList_reads least fits
  obtain ⟨sender, packs, sends⟩ := scPEnterCharacterList_reserialize payload
  have twenty : maxSendCountCharacterDbData = 20 := rfl
  have capacity : scPEnterCharacterList.default.data.length = 20 := rfl
  obtain ⟨-, length, wire⟩ := serializeEntries_reads (PacketKind.int32At payload 4).toNat 0 unpacks
    (by rw [List.length_drop]; omega) scPEnterCharacterList.default.data (by omega)
  rw [← data] at length wire
  have front : encode 4 (scPEnterCharacterList.readType payload) ++
      encodeSigned 4 (scPEnterCharacterList.decoded payload).count = payload.take 8 := by
    rw [PacketClass.encode_readType _ (by omega) fits, count,
      PacketKind.int32At_encoded (by omega), ← List.take_add]
  rw [front] at packs
  have frontLength : (payload.take 8).length = 8 := List.length_take_of_le least
  have sent := serializeEntries_packs (PacketKind.int32At payload 4).toNat 0
    (scPEnterCharacterList.decoded payload).data packs (by omega) (by omega)
  rw [wire, ← List.take_add] at sent
  rw [count] at sends
  exact sends _ sent

theorem scPEnterCharacterList_overruns (fits : payload.length ≤ maxPacketBufferSize)
    (least : 8 ≤ payload.length)
    (more : maxSendCountCharacterDbData < (PacketKind.int32At payload 4).toNat)
    (brought : 8 + 20 * (PacketKind.int32At payload 4).toNat ≤ payload.length) :
    ¬∀ idx ∈ (scPEnterCharacterList.unpack (fun offset => payload.getD offset 0)
      payload.length).1.stores, idx < maxSendCountCharacterDbData := by
  obtain ⟨ser, unpacks, -, -, stored⟩ := scPEnterCharacterList_reads least fits
  have twenty : maxSendCountCharacterDbData = 20 := rfl
  intro stays
  have last := serializeEntries_stores_present
    (show 20 < (PacketKind.int32At payload 4).toNat by omega) 0 unpacks
    (by rw [List.length_drop]; omega) scPEnterCharacterList.default.data
  rw [← stored] at last
  have inside := stays _ last
  omega

theorem scPEnterCharacterList_sound_iff (payload : List UInt8) :
    ((∀ idx ∈ (scPEnterCharacterList.unpack (fun offset => payload.getD offset 0)
          payload.length).1.stores, idx < maxSendCountCharacterDbData) ∧
        scPEnterCharacterList.reserialize payload <+: payload ∧
        8 + 20 * (scPEnterCharacterList.decoded payload).count.toNat ≤ payload.length) ↔
      if payload.length ≤ maxPacketBufferSize then
        8 ≤ payload.length ∧ PacketKind.EntriesWhole payload
      else encode 4 scPEnterCharacterList.packetType ++ List.replicate 4 0 <+: payload := by
  have twenty : maxSendCountCharacterDbData = 20 := rfl
  have bound : maxPacketBufferSize = 10240 := rfl
  by_cases fits : payload.length ≤ maxPacketBufferSize
  · rw [if_pos fits]
    by_cases least : 8 ≤ payload.length
    · obtain ⟨ser, unpacks, count, data, stored⟩ := scPEnterCharacterList_reads least fits
      have declares : 8 ≤ payload.length ∧ PacketKind.EntriesWhole payload ↔
          (PacketKind.int32At payload 4).toNat ≤ maxSendCountCharacterDbData ∧
            8 + 20 * (PacketKind.int32At payload 4).toNat ≤ payload.length := by
        rw [PacketKind.EntriesWhole]
        omega
      rw [declares]
      by_cases more : maxSendCountCharacterDbData < (PacketKind.int32At payload 4).toNat
      · refine iff_of_false ?_ (by omega)
        rintro ⟨stays, -, brought⟩
        rw [count] at brought
        exact scPEnterCharacterList_overruns fits least more brought stays
      · by_cases whole : 8 + 20 * (PacketKind.int32At payload 4).toNat ≤ payload.length
        · refine iff_of_true ⟨?_, ?_, by rwa [count]⟩ ⟨by omega, whole⟩
          · intro idx member
            rw [stored] at member
            rcases serializeEntries_stores _ _ _ _ idx member with old | below
            · rw [unpacks.stored] at old
              cases old
            · omega
          · rw [scPEnterCharacterList_front fits least (by omega) whole]
            exact List.take_prefix _ _
        · refine iff_of_false ?_ (fun declared => whole declared.2)
          rintro ⟨-, -, brought⟩
          rw [count] at brought
          exact whole brought
    · refine iff_of_false ?_ (fun declared => least declared.1)
      rintro ⟨-, -, brought⟩
      omega
  · rw [if_neg fits]
    have empty := PacketClass.head_of_long scPEnterCharacterList (Nat.lt_of_not_le fits)
    have kept := Serializer.scalar_short 4 (encodeSigned 4) decodeSigned empty
      scPEnterCharacterList.default.count (by decide)
    have unread : ((Serializer.ofData (fun offset => payload.getD offset 0)
        payload.length).valueUInt32 scPEnterCharacterList.packetType).1.valueInt32
          scPEnterCharacterList.default.count = (_, 0) := kept
    have count : (scPEnterCharacterList.decoded payload).count = 0 := congrArg Prod.snd unread
    have stores : (scPEnterCharacterList.unpack (fun offset => payload.getD offset 0)
        payload.length).1.stores = [] := by
      rw [PacketClass.unpack, scPEnterCharacterList_serialize, unread]
      exact empty.stored
    obtain ⟨sender, packs, sends⟩ := scPEnterCharacterList_reserialize payload
    rw [count] at packs sends
    have brought : 8 + 20 * (0 : Int).toNat ≤ payload.length := by
      have none : (0 : Int).toNat = 0 := rfl
      omega
    rw [stores, sends _ packs, PacketClass.readType_of_long _ (Nat.lt_of_not_le fits), count,
      and_iff_left brought]
    simp [show encodeSigned 4 0 = List.replicate 4 0 from rfl]

end EnterCharacterList

/-! All packets of both protocols. -/

namespace PacketKind

def packetType : PacketKind → Nat
  | csAuth => csPAuth.packetType
  | csEnter => csPEnter.packetType
  | csLeave => csPLeave.packetType
  | csMove => csPMove.packetType
  | csInteraction => csPInteraction.packetType
  | csHeartbeat => csPHeartbeat.packetType
  | csEcho => csPEcho.packetType
  | scAuthResult => scPAuthResult.packetType
  | scEnter => scPEnter.packetType
  | scEnterCharacter => scPEnterCharacterList.packetType
  | scLeave => scPLeave.packetType
  | scMove => scPMove.packetType
  | scInteraction => scPInteraction.packetType
  | scHeartbeat => scPHeartbeat.packetType
  | scEcho => scPEcho.packetType

def fixedSize : PacketKind → Nat
  | csAuth => 8
  | csEnter => 12
  | csLeave => 12
  | csMove => 12
  | csInteraction => 16
  | csHeartbeat => 4
  | csEcho => 8
  | scAuthResult => 16
  | scEnter => 20
  | scEnterCharacter => 8
  | scLeave => 12
  | scMove => 20
  | scInteraction => 24
  | scHeartbeat => 4
  | scEcho => 16

def reserialize (payload : List UInt8) : PacketKind → List UInt8
  | csAuth => csPAuth.reserialize payload
  | csEnter => csPEnter.reserialize payload
  | csLeave => csPLeave.reserialize payload
  | csMove => csPMove.reserialize payload
  | csInteraction => csPInteraction.reserialize payload
  | csHeartbeat => csPHeartbeat.reserialize payload
  | csEcho => csPEcho.reserialize payload
  | scAuthResult => scPAuthResult.reserialize payload
  | scEnter => scPEnter.reserialize payload
  | scEnterCharacter => scPEnterCharacterList.reserialize payload
  | scLeave => scPLeave.reserialize payload
  | scMove => scPMove.reserialize payload
  | scInteraction => scPInteraction.reserialize payload
  | scHeartbeat => scPHeartbeat.reserialize payload
  | scEcho => scPEcho.reserialize payload

/-- The bytes of the array elements that the packet in the handler's hands declares. -/
def arraySize (payload : List UInt8) : PacketKind → Nat
  | csEcho => Serializer.sizeOfInt (csPEcho.decoded payload).echoDataSize
  | scEcho => Serializer.sizeOfInt (scPEcho.decoded payload).echoDataSize
  | scEnterCharacter => 20 * (scPEnterCharacterList.decoded payload).count.toNat
  | _ => 0

/-- The handler gets a packet, with no store outside of it, that is the front of its payload when
it is serialised again, and nothing that it declares is cut off. -/
def Sound (payload : List UInt8) (kind : PacketKind) : Prop :=
  (∀ array ∈ (kind.decode payload).array, ∀ idx ∈ (kind.decode payload).stores, idx < array.1) ∧
    kind.reserialize payload <+: payload ∧
    kind.fixedSize + kind.arraySize payload ≤ payload.length

def ArrayWhole (payload : List UInt8) : PacketKind → Prop
  | csEcho => EchoWhole payload 4
  | scEcho => EchoWhole payload 12
  | scEnterCharacter => EntriesWhole payload
  | _ => True

/-- The payload holds all of its packet. One that is too long for the serializer is not read at
all, and holds the packet that a new one is. -/
def Whole (payload : List UInt8) (kind : PacketKind) : Prop :=
  if payload.length ≤ maxPacketBufferSize then
    kind.fixedSize ≤ payload.length ∧ kind.ArrayWhole payload
  else encode 4 kind.packetType ++ List.replicate (kind.fixedSize - 4) 0 <+: payload

theorem sound_of_members {kind : PacketKind} {payload : List UInt8} {P : Type}
    (cls : PacketClass P) {members : List (Member P)}
    (layout : cls.serialize = Member.values members)
    (decodes : (kind.decode payload).array = none)
    (sends : kind.reserialize payload = cls.reserialize payload)
    (size : kind.fixedSize = 4 + Member.totalWidth members)
    (sameType : kind.packetType = cls.packetType) (plain : kind.ArrayWhole payload)
    (alone : kind.arraySize payload = 0)
    (blank : Member.encodeAll members cls.default =
      List.replicate (Member.totalWidth members) 0)
    (small : 4 + Member.totalWidth members ≤ maxPacketBufferSize)
    (lawful : ∀ member ∈ members, member.Lawful) (separate : Member.Separate members)
    (wide : ∀ member ∈ members, 0 < member.width) :
    Sound payload kind ↔ Whole payload kind := by
  have inside : ∀ array ∈ (kind.decode payload).array,
      ∀ idx ∈ (kind.decode payload).stores, idx < array.1 := by
    simp [decodes]
  rw [Sound, Whole, sends, size, sameType, Nat.add_sub_cancel_left, and_iff_right inside,
    PacketClass.reserialize_members_iff layout lawful separate wide blank small, and_iff_left plain,
    alone, Nat.add_zero]
  refine and_iff_left_of_imp fun front => ?_
  split at front
  · exact front
  · omega

theorem sound_of_array {kind : PacketKind} {payload : List UInt8} {P : Type}
    (cls : PacketClass P) {capacity : Nat} {size : P → Int}
    (decodes : kind.decode payload =
      cls.report (fun packet => some (capacity, size packet)) payload)
    (sends : kind.reserialize payload = cls.reserialize payload) :
    Sound payload kind ↔
      (∀ idx ∈ (cls.unpack (fun offset => payload.getD offset 0) payload.length).1.stores,
        idx < capacity) ∧ cls.reserialize payload <+: payload ∧
          kind.fixedSize + kind.arraySize payload ≤ payload.length := by
  rw [Sound, decodes, sends]
  simp [PacketClass.report]

/-- For every packet type and every payload, decoding is sound exactly when the payload holds all
of its packet. -/
theorem decode_sound_iff (kind : PacketKind) (payload : List UInt8) :
    Sound payload kind ↔ Whole payload kind := by
  cases kind with
  | csAuth =>
      refine sound_of_members csPAuth rfl rfl rfl rfl rfl trivial rfl rfl (by decide) ?_
        ⟨?_, ?_⟩ ?_
      all_goals simp
  | csEnter =>
      refine sound_of_members csPEnter rfl rfl rfl rfl rfl trivial rfl rfl (by decide) ?_
        ⟨?_, ?_⟩ ?_
      all_goals simp
  | csLeave =>
      refine sound_of_members csPLeave rfl rfl rfl rfl rfl trivial rfl rfl (by decide) ?_
        ⟨?_, ?_⟩ ?_
      all_goals simp
  | csMove =>
      refine sound_of_members csPMove rfl rfl rfl rfl rfl trivial rfl rfl (by decide) ?_
        ⟨?_, ?_⟩ ?_
      all_goals simp
  | csInteraction =>
      refine sound_of_members csPInteraction rfl rfl rfl rfl rfl trivial rfl rfl (by decide) ?_
        ⟨?_, ?_⟩ ?_
      all_goals simp
  | csHeartbeat =>
      refine sound_of_members csPHeartbeat rfl rfl rfl rfl rfl trivial rfl rfl (by decide) ?_
        ⟨?_, ?_⟩ ?_
      all_goals simp
  | csEcho => exact (sound_of_array csPEcho rfl rfl).trans (csPEcho_sound_iff payload)
  | scAuthResult =>
      refine sound_of_members scPAuthResult rfl rfl rfl rfl rfl trivial rfl rfl (by decide) ?_
        ⟨?_, ?_⟩ ?_
      all_goals simp
  | scEnter =>
      refine sound_of_members scPEnter rfl rfl rfl rfl rfl trivial rfl rfl (by decide) ?_
        ⟨?_, ?_⟩ ?_
      all_goals simp
  | scEnterCharacter =>
      exact (sound_of_array scPEnterCharacterList rfl rfl).trans
        (scPEnterCharacterList_sound_iff payload)
  | scLeave =>
      refine sound_of_members scPLeave rfl rfl rfl rfl rfl trivial rfl rfl (by decide) ?_
        ⟨?_, ?_⟩ ?_
      all_goals simp
  | scMove =>
      refine sound_of_members scPMove rfl rfl rfl rfl rfl trivial rfl rfl (by decide) ?_
        ⟨?_, ?_⟩ ?_
      all_goals simp
  | scInteraction =>
      refine sound_of_members scPInteraction rfl rfl rfl rfl rfl trivial rfl rfl (by decide) ?_
        ⟨?_, ?_⟩ ?_
      all_goals simp
  | scHeartbeat =>
      refine sound_of_members scPHeartbeat rfl rfl rfl rfl rfl trivial rfl rfl (by decide) ?_
        ⟨?_, ?_⟩ ?_
      all_goals simp
  | scEcho => exact (sound_of_array scPEcho rfl rfl).trans (scPEcho_sound_iff payload)

/-- A move of eight bytes: the handler gets `y` as zero. -/
theorem truncated_move_not_sound :
    ¬Sound (encode 4 csMove.packetType ++ encodeSigned 4 5) csMove := by
  rintro ⟨-, found, -⟩
  revert found
  decide

end PacketKind

end ProjectPl
