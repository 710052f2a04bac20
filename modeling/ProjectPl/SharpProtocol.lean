import ProjectPl.Dispatch
import ProjectPl.Protocol
import ProjectPl.SharpPacket
import ProjectPl.SharpProtocolCore

/-!
The C# library `PL_Network` against the C++ server. The two codecs agree on the layout of every
packet and on the frame around it, so a C# frame is byte for byte the frame that the C++ client
sends for the same fields. They do not agree on the numbers: `chat` stands in the middle of the
client's enumeration in C# only and moves the kinds behind it up by one.
-/

namespace ProjectPl

open LittleEndian DotNet Sharp

namespace Member

variable {P : Type}

theorem sharpValues_wrote {members : List (Member P)} {ser : Sharp.Serializer}
    {bytes : List UInt8} {room : Nat} (lawful : ∀ member ∈ members, member.Lawful) (packet : P)
    (wrote : ser.Wrote bytes ((encodeAll members packet).length + room)) :
    ∃ next, sharpValues members ser packet = .ok (next, packet) ∧
      next.Wrote (bytes ++ encodeAll members packet) room := by
  induction members generalizing ser bytes with
  | nil =>
      simp only [encodeAll, List.flatMap_nil, List.length_nil, Nat.zero_add] at wrote
      exact ⟨ser, rfl, by simpa [encodeAll] using wrote⟩
  | cons member rest ih =>
      have total : (encodeAll (member :: rest) packet).length + room =
          member.width + ((encodeAll rest packet).length + room) := by
        simp only [encodeAll, List.flatMap_cons, List.length_append, encodeSigned_length]
        omega
      rw [total] at wrote
      obtain ⟨first, written, one⟩ := Serializer.scalar_wrote (member.get packet)
        (encodeSigned_length member.width _) wrote
      obtain ⟨next, others, all⟩ := ih (fun other later => lawful other (by simp [later])) one
      refine ⟨next, ?_, ?_⟩
      · rw [sharpValues, sharpValue, written, ok_bind]
        dsimp only [pure, Except.pure]
        rw [ok_bind, lawful member (by simp) packet, others]
      · simpa [encodeAll, List.append_assoc] using all

theorem sharpValues_reads {members : List (Member P)} {ser : Sharp.Serializer} {rest : List UInt8}
    (packet start : P) (fits : Fits members packet) (wide : ∀ member ∈ members, member.width ≠ 0)
    (reads : ser.Reads (encodeAll members packet ++ rest)) :
    ∃ next, sharpValues members ser start = .ok (next, copyAll members packet start) ∧
      next.Reads rest := by
  induction members generalizing ser start with
  | nil => exact ⟨ser, rfl, reads⟩
  | cons member others ih =>
      have here : FitsSigned member.width (member.get packet) := fits member (by simp)
      have some : encodeSigned member.width (member.get packet) ≠ [] := by
        apply List.ne_nil_of_length_pos
        rw [encodeSigned_length]
        exact Nat.pos_of_ne_zero (wide member (by simp))
      simp only [encodeAll, List.flatMap_cons, List.append_assoc] at reads
      obtain ⟨first, read, one⟩ := Serializer.scalar_reads (member.get start)
        (encodeSigned_length member.width _) some reads
      obtain ⟨next, later, all⟩ := ih (member.set start (member.get packet))
        (fun other later => fits other (by simp [later]))
        (fun other later => wide other (by simp [later])) one
      refine ⟨next, ?_, all⟩
      rw [sharpValues, sharpValue, read, ok_bind]
      dsimp only [pure, Except.pure]
      rw [ok_bind, decodeSigned_encodeSigned here, later]
      rfl

end Member

namespace Sharp

theorem Subclass.base_writes {P : Type} {sub : Subclass P} {members : List (Member P)} {packet : P}
    (layout : sub.serialize = Member.sharpValues members)
    (lawful : ∀ member ∈ members, member.Lawful)
    (size : sub.getSize packet = 4 + (Member.encodeAll members packet).length)
    (small : (Member.encodeAll members packet).length ≤ 100) :
    (sub.base packet).Writes (Member.encodeAll members packet) := by
  constructor
  · have exact : int32 (sub.getSize packet) = sub.getSize packet :=
      int32_of_fits (by omega) (by omega)
    dsimp only [Subclass.base]
    rw [exact, size]
    omega
  · intro ser bytes room wrote
    obtain ⟨next, written, all⟩ := Member.sharpValues_wrote lawful packet wrote
    refine ⟨next, ?_, all⟩
    dsimp only [Subclass.base]
    rw [layout, written]
    rfl

theorem encoding_eq_framed (packetType : Nat) {data : List UInt8}
    (small : sizeofPacketHead + (4 + data.length) + sizeofPacketTail ≤ maxPacketBufferSize) :
    (framePacket packetType data).encoding .plNetwork = framed (encode 4 packetType ++ data) 0 0 := by
  have bound : maxPacketBufferSize = 10240 := rfl
  have length : encodeSigned 4 (8 + 4 + (data.length : Int) + 12) =
      encode 4 (sizeofPacketHead + (encode 4 packetType ++ data).length + sizeofPacketTail) := by
    rw [encodeSigned, List.length_append, encode_length]
    congr 1
    simp only [sizeofPacketHead, sizeofPacketTail] at small ⊢
    norm_num
    omega
  rw [framed, ← length]
  simp only [Packet.encoding, framePacket, Dialect.plNetwork, packetCheckHeadKey,
    packetCheckTailKey, List.append_assoc]

/-- Where a C# packet has the number and the bytes of a C++ packet, the C# client sends what the
C++ client sends. -/
theorem sends_as_carried {P : Type} {cls : ProjectPl.PacketClass P} {sent received : P}
    {wire : List UInt8} (carries : cls.Carries sent received wire) {base : PacketBase Nat}
    (writes : base.Writes wire) (sameType : base.packetType = cls.packetType)
    (typeBound : cls.packetType < 256 ^ 4) :
    ∃ ser, packetSerializer .plNetwork base = .ok ser ∧ ser.buffer = cls.sendPacket sent 0 := by
  have bound : maxPacketBufferSize = 10240 := rfl
  have head : sizeofPacketHead = 8 := rfl
  have tail : sizeofPacketTail = 12 := rfl
  have fits := carries.fits
  obtain ⟨ser, returned, buffer⟩ := packetSerializer_eq
    (plNetwork_lawful (sameType ▸ typeBound)) writes (by omega)
  refine ⟨ser, returned, ?_⟩
  rw [buffer, encoding_eq_framed _ fits, carries.sendPacket_eq, sameType]

/-! The C++ packet with the fields of a C# packet. The bytes of an echo are those of its text. -/

def echoBytes (echoMsg : List UInt16) : List UInt8 := Utf.utf8Encode (Utf.utf16Decode echoMsg)

namespace PacketCS

def toCall : PacketCS → C2SCall
  | auth packet => .auth { id := packet.id }
  | enter packet => .enter { token := packet.token }
  | leave packet => .leave { token := packet.token }
  | move packet => .move { x := packet.x, y := packet.y }
  | interaction packet =>
      .interaction
        { targetToken := packet.targetToken, interactionType := packet.interactionType }
  | heartbeat _ => .heartbeat {}
  | echo packet =>
      .echo
        { echoDataSize := (echoBytes packet.echoMsg).length
          echoData := echoBytes packet.echoMsg ++
            List.replicate (maxEchoDataLength - (echoBytes packet.echoMsg).length) 0 }

def typeCS : PacketCS → PacketTypeCS
  | auth _ => .auth
  | enter _ => .enter
  | leave _ => .leave
  | move _ => .move
  | interaction _ => .interaction
  | heartbeat _ => .heartbeat
  | echo _ => .echo

/-- Fields within their types, and an echo text of at most 32 bytes. -/
def Valid : PacketCS → Prop
  | auth packet => FitsSigned 4 packet.id
  | enter packet => FitsSigned 8 packet.token
  | leave packet => FitsSigned 8 packet.token
  | move packet => FitsSigned 4 packet.x ∧ FitsSigned 4 packet.y
  | interaction packet => FitsSigned 8 packet.targetToken ∧ FitsSigned 4 packet.interactionType
  | heartbeat _ => True
  | echo packet =>
      FitsSigned 4 packet.echoMsgLength ∧ (echoBytes packet.echoMsg).length ≤ maxEchoDataLength

/-- The C# client's frame reaches the server's handler of the same kind with the same fields. -/
def Agrees (packet : PacketCS) : Prop :=
  ∃ ser, packetSerializer .plNetwork packet.base = .ok ser ∧
    Arrives serverTable C2SCall.SameAs packet.toCall ser.buffer

end PacketCS

theorem sends_of_members {P S : Type} (cls : ProjectPl.PacketClass P) (sub : Subclass S)
    (packet : P) (object : S) {members : List (Member P)} {fields : List (Member S)}
    (layout : cls.serialize = Member.values members)
    (sharpLayout : sub.serialize = Member.sharpValues fields)
    (lawful : ∀ member ∈ members, member.Lawful) (sharpLawful : ∀ member ∈ fields, member.Lawful)
    (fits : Member.Fits members packet)
    (covers : Member.copyAll members packet cls.default = packet)
    (same : Member.encodeAll fields object = Member.encodeAll members packet)
    (small : (Member.encodeAll members packet).length ≤ 100)
    (size : sub.getSize object = 4 + (Member.encodeAll members packet).length)
    (sameType : sub.packetType = cls.packetType) (typeBound : cls.packetType < 256 ^ 4) :
    ∃ ser, packetSerializer .plNetwork (sub.base object) = .ok ser ∧
      ser.buffer = cls.sendPacket packet 0 := by
  have writes := Subclass.base_writes sharpLayout sharpLawful (by rw [same, size])
    (by rw [same]; exact small)
  rw [same] at writes
  exact sends_as_carried (Member.carries layout lawful fits covers small) writes sameType typeBound

namespace PacketCS

theorem Valid.sendable {packet : PacketCS} (valid : packet.Valid) : packet.toCall.Sendable := by
  cases packet with
  | auth packet => exact valid
  | enter packet => exact valid
  | leave packet => exact valid
  | move packet => exact valid
  | interaction packet => exact valid
  | heartbeat packet => trivial
  | echo packet =>
      have short := valid.2
      refine ⟨Int.natCast_nonneg _, Int.ofNat_le.mpr short, ?_⟩
      rw [List.length_append, List.length_replicate]
      omega

theorem agrees_of_sends {packet : PacketCS} (valid : packet.Valid)
    (sends : ∃ ser, packetSerializer .plNetwork packet.base = .ok ser ∧
      ser.buffer = packet.toCall.sendPacket 0) : packet.Agrees := by
  obtain ⟨ser, returned, buffer⟩ := sends
  refine ⟨ser, returned, ?_⟩
  rw [buffer]
  exact C2SCall.arrives _ valid.sendable 0

theorem agrees_of_before_chat {packet : PacketCS} (valid : packet.Valid)
    (before : packet.typeCS.toNat < PacketTypeCS.chat.toNat) : packet.Agrees := by
  cases packet with
  | auth packet =>
      refine agrees_of_sends valid (sends_of_members csPAuth packetCSAuth { id := packet.id } packet
        rfl rfl ?_ ?_ ?_ rfl rfl ?_ rfl rfl (by decide))
      · simp
      · simp
      · have fits : FitsSigned 4 packet.id := valid
        simpa [Member.Fits] using fits
      · simp [Member.encodeAll]
  | enter packet =>
      refine agrees_of_sends valid (sends_of_members csPEnter packetCSEnter { token := packet.token }
        packet rfl rfl ?_ ?_ ?_ rfl rfl ?_ rfl rfl (by decide))
      · simp
      · simp
      · have fits : FitsSigned 8 packet.token := valid
        simpa [Member.Fits] using fits
      · simp [Member.encodeAll]
  | leave packet =>
      refine agrees_of_sends valid (sends_of_members csPLeave packetCSLeave { token := packet.token }
        packet rfl rfl ?_ ?_ ?_ rfl rfl ?_ rfl rfl (by decide))
      · simp
      · simp
      · have fits : FitsSigned 8 packet.token := valid
        simpa [Member.Fits] using fits
      · simp [Member.encodeAll]
  | move packet =>
      refine agrees_of_sends valid (sends_of_members csPMove packetCSMove
        { x := packet.x, y := packet.y } packet rfl rfl ?_ ?_ ?_ rfl rfl ?_ rfl rfl (by decide))
      · simp
      · simp
      · have fits : FitsSigned 4 packet.x ∧ FitsSigned 4 packet.y := valid
        simpa [Member.Fits] using fits
      · simp [Member.encodeAll]
  | interaction packet =>
      refine agrees_of_sends valid (sends_of_members csPInteraction packetCSInteraction
        { targetToken := packet.targetToken, interactionType := packet.interactionType } packet
        rfl rfl ?_ ?_ ?_ rfl rfl ?_ rfl rfl (by decide))
      · simp
      · simp
      · have fits : FitsSigned 8 packet.targetToken ∧ FitsSigned 4 packet.interactionType := valid
        simpa [Member.Fits] using fits
      · simp [Member.encodeAll]
  | heartbeat packet => cases packet; exact absurd before (by decide)
  | echo packet => exact absurd before (by simp [typeCS, PacketTypeCS.toNat])

end PacketCS

/-! The kinds behind `chat`. -/

theorem deliver_number {Q : Type} (table : PacketTable Q) (heap : Nat → UInt8)
    (ring : CircleBuffer) (packetType : Nat) (data : List UInt8) (bound : packetType < 256 ^ 4)
    (small : sizeofPacketHead + (4 + data.length) + sizeofPacketTail ≤ maxPacketBufferSize)
    (capacity : ring.nBufferSize = maxPacketBufferSize) (empty : ring.contents = []) :
    ∃ payload, deliver table heap ring (framed (encode 4 packetType ++ data) 0 0) =
      some (if packetType < table.length then table.answer packetType payload (4 + data.length)
        else .outsideTable packetType) := by
  have length : (encode 4 packetType ++ data).length = 4 + data.length := by
    rw [List.length_append, encode_length]
  obtain ⟨payload, delivered, loaded⟩ := deliver_framed table heap ring
    (encode 4 packetType ++ data) 0 0 (by rw [length]; exact small) capacity empty
  rw [length] at delivered loaded
  have number : PacketTable.payloadType payload = packetType := by
    have front : Ring.load payload 0 4 = encode 4 packetType := by
      rw [Ring.load_add] at loaded
      exact (List.append_inj loaded (by rw [Ring.load_length, encode_length])).1
    rw [PacketTable.payloadType, front, decode_encode_of_lt bound]
  have read := PacketTable.valueUInt32_ofData payload (4 + data.length)
  rw [if_pos (by omega), number] at read
  exact ⟨payload, by rw [delivered, table.execute_eq payload _ packetType read]⟩

namespace Serializer

theorem scalar_write {V : Type} {width : Nat} {encode : V → List UInt8} {decode : List UInt8 → V}
    {ser : Serializer} {value : V} {result : Serializer × V}
    (done : ser.scalar width encode decode value = .ok result) : result.1.write = ser.write := by
  rw [scalar] at done
  split at done
  · obtain ⟨buffer, -, returned⟩ := bind_eq_ok done
    cases returned
    rfl
  · obtain ⟨bytes, -, returned⟩ := bind_eq_ok done
    cases returned
    rfl

theorem valueString_wrote {ser : Serializer} {bytes : List UInt8} {room : Nat}
    (text : List UInt16) {length : Nat} (inside : length ≤ (echoBytes text).length)
    (wrote : ser.Wrote bytes (length + room)) :
    ∃ next, ser.valueString text length = .ok (next, text) ∧
      next.Wrote (bytes ++ (echoBytes text).take length) room := by
  have taken : ((echoBytes text).take length).length = length := List.length_take_of_le inside
  rw [← taken] at wrote
  obtain ⟨buffer, copied, written⟩ := wrote.copy
  rw [taken] at copied written
  rw [arrayCopy_take inside] at copied
  rw [valueString, if_pos wrote.writing]
  refine ⟨_, ?_, written⟩
  rw [← echoBytes, copied]
  rfl

end Serializer

theorem packetSerializer_eq_ok {T : Type} {dialect : Dialect T} {base : PacketBase T}
    {ser : Serializer} (returned : packetSerializer dialect base = .ok ser) :
    ∃ before written, before.write = true ∧ base.serialize before = .ok written := by
  obtain ⟨blank, created, filled⟩ := bind_eq_ok returned
  obtain ⟨head, headWritten, typed⟩ := bind_eq_ok filled
  obtain ⟨number, numberWritten, rest⟩ := bind_eq_ok typed
  obtain ⟨written, bodyWritten, -⟩ := bind_eq_ok rest
  refine ⟨number.1, written, ?_, bodyWritten⟩
  obtain ⟨buffer, -, blankEq⟩ := bind_eq_ok created
  obtain ⟨check, checkWritten, lengthLeft⟩ := bind_eq_ok headWritten
  obtain ⟨length, lengthWritten, headEq⟩ := bind_eq_ok lengthLeft
  cases blankEq
  cases headEq
  rw [Serializer.scalar_write numberWritten, Serializer.scalar_write lengthWritten,
    Serializer.scalar_write checkWritten]

theorem echo_length_inside {packet : PacketCSEcho} {ser : Serializer}
    (returned : packetSerializer .plNetwork (packetCSEcho.base packet) = .ok ser) :
    0 ≤ packet.echoMsgLength ∧ packet.echoMsgLength ≤ (echoBytes packet.echoMsg).length := by
  obtain ⟨before, written, writing, serialized⟩ := packetSerializer_eq_ok returned
  obtain ⟨both, fields, -⟩ := bind_eq_ok serialized
  obtain ⟨length, lengthWritten, msgLeft⟩ := bind_eq_ok fields
  obtain ⟨msg, msgWritten, -⟩ := bind_eq_ok msgLeft
  have lengthWriting : length.1.write = true := by
    rw [Serializer.scalar_write lengthWritten, writing]
  have sameLength : length.2 = packet.echoMsgLength := by
    rw [Serializer.valueInt32, Serializer.scalar, if_pos writing] at lengthWritten
    obtain ⟨buffer, -, lengthEq⟩ := bind_eq_ok lengthWritten
    cases lengthEq
    rfl
  rw [Serializer.valueString, if_pos lengthWriting, sameLength] at msgWritten
  obtain ⟨buffer, copied, -⟩ := bind_eq_ok msgWritten
  obtain ⟨bounds, -⟩ := arrayCopy_eq_ok copied
  rw [echoBytes]
  omega

theorem echo_writes {packet : PacketCSEcho} {length : Nat}
    (own : packet.echoMsgLength = length) (inside : length ≤ (echoBytes packet.echoMsg).length)
    (short : length ≤ maxEchoDataLength) :
    (packetCSEcho.base packet).Writes
      (encodeSigned 4 length ++ (echoBytes packet.echoMsg).take length) := by
  have bound : maxEchoDataLength = 32 := rfl
  have total : (encodeSigned 4 (length : Int) ++ (echoBytes packet.echoMsg).take length).length =
      4 + length := by
    rw [List.length_append, encodeSigned_length, List.length_take_of_le inside]
  constructor
  · have exact : int32 (4 + 4 + (length : Int)) = 4 + 4 + length :=
      int32_of_fits (by omega) (by omega)
    dsimp only [Subclass.base, packetCSEcho]
    rw [own, exact, total]
    omega
  · intro ser bytes room wrote
    rw [total, Nat.add_assoc] at wrote
    obtain ⟨first, lengthWritten, one⟩ := Serializer.scalar_wrote (length : Int)
      (encodeSigned_length 4 _) wrote
    obtain ⟨next, msgWritten, all⟩ := Serializer.valueString_wrote packet.echoMsg inside one
    refine ⟨next, ?_, by rwa [← List.append_assoc]⟩
    dsimp only [Subclass.base, packetCSEcho]
    rw [own, Serializer.valueInt32, lengthWritten, ok_bind]
    dsimp only
    rw [msgWritten]
    rfl

namespace PacketCS

theorem not_agrees_of_writes {packet : PacketCS} {data : List UInt8}
    (bound : packet.base.packetType < 256 ^ 4) (writes : packet.base.Writes data)
    (small : sizeofPacketHead + (4 + data.length) + sizeofPacketTail ≤ maxPacketBufferSize)
    (other : ∀ payload received,
      (if packet.base.packetType < serverTable.length
        then serverTable.answer packet.base.packetType payload (4 + data.length)
        else .outsideTable packet.base.packetType) = .invoked received →
      ¬packet.toCall.SameAs received) : ¬packet.Agrees := by
  have head : sizeofPacketHead = 8 := rfl
  have tail : sizeofPacketTail = 12 := rfl
  have size : maxPacketBufferSize = 10240 := rfl
  rintro ⟨ser, returned, arrives⟩
  obtain ⟨made, same, buffer⟩ := packetSerializer_eq (plNetwork_lawful bound) writes (by omega)
  obtain rfl : made = ser := Except.ok.inj (same.symm.trans returned)
  rw [buffer, encoding_eq_framed _ small] at arrives
  obtain ⟨payload, delivered⟩ := deliver_number serverTable (fun _ => 0)
    (CircleBuffer.new maxPacketBufferSize fun _ => 0) packet.base.packetType data bound small
    rfl rfl
  obtain ⟨received, invoked, sameFields⟩ := arrives (fun _ => 0)
    (CircleBuffer.new maxPacketBufferSize fun _ => 0) rfl rfl
  exact other payload received (Option.some.inj (delivered.symm.trans invoked)) sameFields

/-- The number of the C# heartbeat is the server's number for an echo. -/
theorem heartbeat_not_agrees (packet : PacketCSHeaetbeat) : ¬(heartbeat packet).Agrees := by
  have writes : (packetCSHeaetbeat.base packet).Writes (Member.encodeAll [] packet) :=
    Subclass.base_writes rfl (by simp) rfl (by simp [Member.encodeAll])
  have bound : (heartbeat packet).base.packetType < 256 ^ 4 := show 7 < 256 ^ 4 by decide
  refine not_agrees_of_writes bound writes (show 8 + 4 + 12 ≤ 10240 by decide) ?_
  intro payload received invoked same
  have echoed : serverTable.answer 7 payload 4 = .invoked (.echo (csPEcho.unpack payload 4).2) := rfl
  cases echoed.symm.trans invoked
  cases same

/-- The number of the C# echo is past the end of the server's table. -/
theorem echo_not_agrees {packet : PacketCSEcho} (valid : (echo packet).Valid) :
    ¬(echo packet).Agrees := by
  intro agrees
  obtain ⟨ser, returned, -⟩ := id agrees
  obtain ⟨lower, upper⟩ := echo_length_inside returned
  have short := valid.2
  have most : maxEchoDataLength = 32 := rfl
  have bound : (echo packet).base.packetType < 256 ^ 4 := show 8 < 256 ^ 4 by decide
  have own : packet.echoMsgLength = packet.echoMsgLength.toNat := by omega
  have inside : packet.echoMsgLength.toNat ≤ (echoBytes packet.echoMsg).length := by omega
  have writes : (echo packet).base.Writes _ := echo_writes own inside (by omega)
  refine not_agrees_of_writes bound writes ?_ ?_ agrees
  · rw [List.length_append, encodeSigned_length, List.length_take_of_le inside]
    simp only [sizeofPacketHead, sizeofPacketTail, maxPacketBufferSize]
    omega
  · intro payload received invoked
    cases invoked

/-- A C# packet with any field values agrees with the server exactly when its number stands
before that of `chat`, the entry that only the C# enumeration has. -/
theorem packetCS_agrees_iff (packet : PacketCS) (valid : packet.Valid) :
    packet.Agrees ↔ packet.typeCS.toNat < PacketTypeCS.chat.toNat := by
  constructor
  · intro agrees
    cases packet with
    | heartbeat packet => exact absurd agrees (heartbeat_not_agrees packet)
    | echo packet => exact absurd agrees (echo_not_agrees valid)
    | _ => simp [typeCS, PacketTypeCS.toNat]
  · exact agrees_of_before_chat valid

theorem packetCS_agrees_iff_move :
    (move { x := -3, y := 7 }).Valid ∧ (move { x := -3, y := 7 }).Agrees :=
  have valid : (move { x := -3, y := 7 }).Valid := ⟨by decide, by decide⟩
  ⟨valid, (packetCS_agrees_iff _ valid).mpr (by decide)⟩

theorem heartbeat_taken_for_echo : (heartbeat {}).Valid ∧ ¬(heartbeat {}).Agrees :=
  ⟨trivial, heartbeat_not_agrees {}⟩

end PacketCS

/-! Server to client. Here the two enumerations have the same numbers. -/

theorem packetDeserializer_framed {packetType : Nat} (data : List UInt8) (packetTime : Nat)
    (bound : packetType < 256 ^ 4)
    (small : sizeofPacketHead + (4 + data.length) + sizeofPacketTail ≤ maxPacketBufferSize) :
    let frame := framed (encode 4 packetType ++ data) 0 packetTime
    packetDeserializer .plNetwork frame frame.length =
      .ok { head := { packetLength := 8 + 4 + data.length + 12 }
            body := { packetType := packetType, packetData := data }
            tail := { packetTime := packetTime % 256 ^ 4 } } := by
  have head : sizeofPacketHead = 8 := rfl
  have tail : sizeofPacketTail = 12 := rfl
  have size : maxPacketBufferSize = 10240 := rfl
  have own : decodeSigned (encode 4 (sizeofPacketHead + (encode 4 packetType ++ data).length +
      sizeofPacketTail)) = 8 + 4 + data.length + 12 := by
    have length : encode 4 (sizeofPacketHead + (encode 4 packetType ++ data).length +
        sizeofPacketTail) = encodeSigned 4 (8 + 4 + (data.length : Int) + 12) := by
      rw [encodeSigned, List.length_append, encode_length]
      congr 1
      norm_num
      omega
    rw [length]
    apply decodeSigned_encodeSigned
    constructor <;> norm_num <;> omega
  have reads := plNetwork_reads (encode_length 4 packetCheckHeadKey) (encode_length 4 _)
    (encode_length 4 packetType) (encode_length 4 packetCheckTailKey) (encode_length 4 0)
    (encode_length 4 packetTime) own
  simp only [own, decode_encode_of_lt bound, decode_encode] at reads
  dsimp only [framed]
  rw [List.append_assoc]
  exact reads

theorem Subclass.readBody_eq {P : Type} {sub : Subclass P} {members : List (Member P)}
    {packet start : P} (layout : sub.serialize = Member.sharpValues members)
    (fits : Member.Fits members packet) (wide : ∀ member ∈ members, member.width ≠ 0)
    (covers : Member.copyAll members packet start = packet) :
    sub.readBody start (Member.encodeAll members packet) = .ok packet := by
  obtain ⟨ser, created, reads⟩ := Serializer.ofBuffer_reads (Member.encodeAll members packet)
  rw [← List.append_nil (Member.encodeAll members packet)] at reads
  obtain ⟨next, read, -⟩ := Member.sharpValues_reads packet start fits wide reads
  rw [readBody, created, ok_bind, layout, read, covers]
  rfl

theorem Serializer.valueString_reads {ser : Serializer} {bytes : List UInt8} (text : List UInt16)
    (reads : ser.Reads bytes) :
    ∃ next, ser.valueString text bytes.length =
      .ok (next, Utf.utf16Encode (Utf.utf8Decode bytes)) := by
  obtain ⟨reading, before, layout, cursor⟩ := reads
  have inside : ¬ser.buffer.length < ser.offset + (bytes.length : Int).toNat := by
    rw [layout, cursor, List.length_append, Int.toNat_natCast]
    omega
  rw [valueString, if_neg (by simp [reading]), if_neg (by omega), if_neg inside, Int.toNat_natCast,
    layout, cursor, List.drop_left, List.take_length]
  exact ⟨_, rfl⟩

theorem packetSCEcho_readBody {token : Int} {bytes : List UInt8} (tokenFits : FitsSigned 8 token)
    (short : bytes.length ≤ maxEchoDataLength) :
    packetSCEcho.readBody {} (encodeSigned 8 token ++ (encodeSigned 4 bytes.length ++ bytes)) =
      .ok { token := token, echoMsgLength := bytes.length,
            echoMsg := Utf.utf16Encode (Utf.utf8Decode bytes) } := by
  have most : maxEchoDataLength = 32 := rfl
  let members : List (Member PacketSCEcho) :=
    [.int64 (·.token) fun p v => { p with token := v },
     .int32 (·.echoMsgLength) fun p v => { p with echoMsgLength := v }]
  let fields : PacketSCEcho := { token := token, echoMsgLength := bytes.length }
  have fits : Member.Fits members fields := by
    have lengthFits : FitsSigned 4 (bytes.length : Int) := by
      constructor <;> norm_num <;> omega
    simpa [Member.Fits, members, fields] using
      And.intro tokenFits lengthFits
  have wide : ∀ member ∈ members, member.width ≠ 0 := by
    simp [members]
  have wire : encodeSigned 8 token ++ (encodeSigned 4 (bytes.length : Int) ++ bytes) =
      Member.encodeAll members fields ++ bytes := by
    simp [Member.encodeAll, members, fields]
  obtain ⟨ser, created, reads⟩ := Serializer.ofBuffer_reads
    (Member.encodeAll members fields ++ bytes)
  obtain ⟨next, read, left⟩ := Member.sharpValues_reads fields {} fits wide reads
  obtain ⟨last, msg⟩ := Serializer.valueString_reads [] left
  rw [wire, Subclass.readBody, created, ok_bind]
  dsimp only [packetSCEcho]
  rw [read, ok_bind]
  dsimp only [Member.copyAll, List.foldl, members, fields, Member.int64, Member.int32]
  rw [msg]
  rfl

end Sharp

namespace S2CCall

def typeSC : S2CCall → PacketTypeSC
  | authResult _ => .authResult
  | enter _ => .enter
  | enterCharacter _ => .enterPlayer
  | leave _ => .leave
  | move _ => .move
  | interaction _ => .interaction
  | heartbeat _ => .heartbeat
  | echo _ => .echo

/-- The C# object has the fields of the C++ packet. Where the echo bytes are those of a text, the
string is that text. -/
def Recovers : S2CCall → PacketSC → Prop
  | authResult sent, .authResult received => received = { id := sent.id, token := sent.token }
  | enter sent, .enter received => received = { token := sent.token, x := sent.x, y := sent.y }
  | leave sent, .leave received => received = { token := sent.token }
  | move sent, .move received => received = { token := sent.token, x := sent.x, y := sent.y }
  | interaction sent, .interaction received =>
      received =
        { token := sent.token, targetToken := sent.targetToken,
          interactionType := sent.interactionType }
  | heartbeat _, .heartbeat _ => True
  | echo sent, .echo received =>
      received.token = sent.token ∧ received.echoMsgLength = sent.echoDataSize ∧
        ∀ text, sent.echoData.take sent.echoDataSize.toNat = Utf.utf8Encode text →
          received.echoMsg = Utf.utf16Encode text
  | _, _ => False

/-- The C# client reads a frame as the given packet: the constructor of `Packet` gives a body of
its number and the tail as it was made, and the class of that number recovers the fields. -/
def ReadBack (sent : S2CCall) (frame : List UInt8) (packetTime : Nat) : Prop :=
  ∃ packet received, packetDeserializer .plNetwork frame frame.length = .ok packet ∧
    packet.body.packetType = sent.typeSC.toNat ∧
    packet.tail = { checkTail := packetCheckTailKey, packetSeq := 0,
                    packetTime := packetTime % 256 ^ 4 } ∧
    PacketSC.ofBody packet.body.packetData sent.typeSC = some (.ok received) ∧
    sent.Recovers received

theorem readBack_of_carries {P : Type} {cls : ProjectPl.PacketClass P} {packet received : P}
    {wire : List UInt8} (carries : cls.Carries packet received wire) {sent : S2CCall}
    (sameType : cls.packetType = sent.typeSC.toNat) (bound : cls.packetType < 256 ^ 4)
    {object : PacketSC} (body : PacketSC.ofBody wire sent.typeSC = some (.ok object))
    (recovers : sent.Recovers object) (packetTime : Nat) :
    sent.ReadBack (cls.sendPacket packet packetTime) packetTime := by
  rw [carries.sendPacket_eq]
  exact ⟨_, object, packetDeserializer_framed wire packetTime bound carries.fits, sameType, rfl,
    body, recovers⟩

theorem readBack_of_members {P S : Type} (cls : ProjectPl.PacketClass P) (sub : Subclass S)
    (handler : S → PacketSC) (sent : S2CCall) (packet : P) (object : S) {start : S}
    {members : List (Member P)} {fields : List (Member S)}
    (layout : cls.serialize = Member.values members)
    (sharpLayout : sub.serialize = Member.sharpValues fields)
    (lawful : ∀ member ∈ members, member.Lawful) (fits : Member.Fits members packet)
    (covers : Member.copyAll members packet cls.default = packet)
    (sharpFits : Member.Fits fields object) (wide : ∀ member ∈ fields, member.width ≠ 0)
    (sharpCovers : Member.copyAll fields object start = object)
    (same : Member.encodeAll fields object = Member.encodeAll members packet)
    (small : (Member.encodeAll members packet).length ≤ 100)
    (sameType : cls.packetType = sent.typeSC.toNat) (bound : cls.packetType < 256 ^ 4)
    (reader : ∀ data, PacketSC.ofBody data sent.typeSC =
      some (handler <$> sub.readBody start data))
    (recovers : sent.Recovers (handler object)) (packetTime : Nat) :
    sent.ReadBack (cls.sendPacket packet packetTime) packetTime := by
  refine readBack_of_carries (Member.carries layout lawful fits covers small) sameType bound ?_
    recovers packetTime
  rw [reader, ← same, Subclass.readBody_eq sharpLayout sharpFits wide sharpCovers]
  rfl

theorem echo_readBack (sent : ScPEcho) (sendable : (echo sent).Sendable) (packetTime : Nat) :
    (echo sent).ReadBack (scPEcho.sendPacket sent packetTime) packetTime := by
  obtain ⟨tokenFits, fits⟩ := sendable
  obtain ⟨lower, upper, length⟩ := id fits
  have taken : (sent.echoData.take sent.echoDataSize.toNat).length = sent.echoDataSize.toNat :=
    List.length_take_of_le fits.inside
  have size : sent.echoDataSize = (sent.echoData.take sent.echoDataSize.toNat).length := by
    omega
  have body := packetSCEcho_readBody tokenFits
    (show (sent.echoData.take sent.echoDataSize.toNat).length ≤ maxEchoDataLength by omega)
  rw [← size] at body
  have read : PacketSC.ofBody _ (echo sent).typeSC = some (PacketSC.echo <$> Except.ok _) :=
    congrArg (fun result => some (PacketSC.echo <$> result)) body
  refine readBack_of_carries (scPEcho_carries sent tokenFits fits) rfl (by decide) read ?_
    packetTime
  refine ⟨rfl, rfl, ?_⟩
  intro text encoded
  dsimp only
  rw [encoded, Utf.utf8Decode_utf8Encode]

/-- Every packet of the server other than the list of characters is read by the C# client as the
packet of the same kind with the same fields. -/
theorem packetSC_readBack (sent : S2CCall) (sendable : sent.Sendable)
    (other : ∀ list, sent ≠ enterCharacter list) (packetTime : Nat) :
    sent.ReadBack (sent.sendPacket packetTime) packetTime := by
  cases sent with
  | authResult packet =>
      have fits : FitsSigned 4 packet.id ∧ FitsSigned 8 packet.token := sendable
      refine readBack_of_members scPAuthResult packetSCAuthResult .authResult (authResult packet)
        packet { id := packet.id, token := packet.token } rfl rfl ?_ ?_ rfl ?_ ?_ rfl rfl ?_ rfl
        (by decide) (fun _ => rfl) rfl packetTime
      · simp
      · simpa [Member.Fits] using fits
      · simpa [Member.Fits] using fits
      · simp
      · simp [Member.encodeAll]
  | enter packet =>
      have fits : FitsSigned 8 packet.token ∧ FitsSigned 4 packet.x ∧ FitsSigned 4 packet.y :=
        sendable
      refine readBack_of_members scPEnter packetSCEnter .enter (enter packet) packet
        { token := packet.token, x := packet.x, y := packet.y } rfl rfl ?_ ?_ rfl ?_ ?_ rfl rfl ?_
        rfl (by decide) (fun _ => rfl) rfl packetTime
      · simp
      · simpa [Member.Fits] using fits
      · simpa [Member.Fits] using fits
      · simp
      · simp [Member.encodeAll]
  | enterCharacter list => exact absurd rfl (other list)
  | leave packet =>
      have fits : FitsSigned 8 packet.token := sendable
      refine readBack_of_members scPLeave packetSCLeave .leave (leave packet) packet
        { token := packet.token } rfl rfl ?_ ?_ rfl ?_ ?_ rfl rfl ?_ rfl (by decide) (fun _ => rfl)
        rfl packetTime
      · simp
      · simpa [Member.Fits] using fits
      · simpa [Member.Fits] using fits
      · simp
      · simp [Member.encodeAll]
  | move packet =>
      have fits : FitsSigned 8 packet.token ∧ FitsSigned 4 packet.x ∧ FitsSigned 4 packet.y :=
        sendable
      refine readBack_of_members scPMove packetSCMove .move (move packet) packet
        { token := packet.token, x := packet.x, y := packet.y } rfl rfl ?_ ?_ rfl ?_ ?_ rfl rfl ?_
        rfl (by decide) (fun _ => rfl) rfl packetTime
      · simp
      · simpa [Member.Fits] using fits
      · simpa [Member.Fits] using fits
      · simp
      · simp [Member.encodeAll]
  | interaction packet =>
      have fits : FitsSigned 8 packet.token ∧ FitsSigned 8 packet.targetToken ∧
        FitsSigned 4 packet.interactionType := sendable
      refine readBack_of_members scPInteraction packetSCInteraction .interaction
        (interaction packet) packet
        { token := packet.token, targetToken := packet.targetToken,
          interactionType := packet.interactionType } rfl rfl ?_ ?_ rfl ?_ ?_ rfl rfl ?_ rfl
        (by decide) (fun _ => rfl) rfl packetTime
      · simp
      · simpa [Member.Fits] using fits
      · simpa [Member.Fits] using fits
      · simp
      · simp [Member.encodeAll]
  | heartbeat packet =>
      refine readBack_of_members scPHeartbeat packetSCHeartBeat .heartbeat (heartbeat packet) packet
        {} rfl rfl ?_ ?_ rfl ?_ ?_ rfl rfl ?_ rfl (by decide) (fun _ => rfl) trivial packetTime
      · simp
      · simp [Member.Fits]
      · simp [Member.Fits]
      · simp
      · simp [Member.encodeAll]
  | echo packet => exact echo_readBack packet sendable packetTime

theorem packetSC_readBack_echo :
    let sent := S2CCall.echo { token := 5, echoDataSize := 2,
                               echoData := [104, 105] ++ List.replicate 30 0 }
    sent.Sendable ∧ sent.ReadBack (sent.sendPacket 9) 9 := by
  intro sent
  have sendable : sent.Sendable := ⟨by decide, by decide, by decide, rfl⟩
  exact ⟨sendable, packetSC_readBack sent sendable (by intro list; simp [sent]) 9⟩

end S2CCall

end ProjectPl
