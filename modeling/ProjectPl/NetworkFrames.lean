import ProjectPl.CommonProtocol
import ProjectPl.NetworkFramesCore
import ProjectPl.SharpStrings

/-!
Whether the packets of `PL_Network` fill the buffer that `GetSize` asks for. Of the sums that the
classes add up by hand, one leaves a member out: `PacketCS_Chat` writes its chat type and does not
count it. The echoes fill their frame for every length inside the message's bytes.
-/

namespace ProjectPl

open LittleEndian DotNet

namespace Sharp

open Common

variable {P : Type}

def Subclass.Fills (sub : Subclass P) (packet : P) : Prop :=
  ∃ ser, FrameFilled .plNetwork (sub.base packet) ser

theorem Subclass.fills_iff {sub : Subclass P} {packet : P} {size : Nat} {valid : Prop}
    (spans : Spans (fun ser => sub.serialize ser packet) packet size valid) :
    sub.Fills packet ↔
      valid ∧ int32 (sub.getSize packet) = 4 + size ∧ size + 24 < 0x80000000 := by
  have body : bodyWriter (sub.base packet) = fun ser => do
      let written ← sub.serialize ser packet
      return (written.1, ()) := by
    funext ser
    simp only [bodyWriter, Subclass.base, bind_assoc, pure_bind]
  have written : Spans (bodyWriter (sub.base packet)) () size valid :=
    body ▸ spans.map fun _ => ()
  exact packetSerializer_fills_iff (encode_length 4 _) written

/-! Integer members are fields of numbers. -/

theorem sharpValues_eq (members : List (Member P)) :
    Member.sharpValues members = Field.values (members.map Field.number) := by
  induction members with
  | nil => rfl
  | cons member rest ih =>
      funext ser packet
      rw [Member.sharpValues, List.map_cons, Field.values, ih]
      rfl

theorem sharpValues_spans {members : List (Member P)}
    (lawful : ∀ member ∈ members, member.Lawful) (packet : P) :
    Spans (fun ser => Member.sharpValues members ser packet) packet
      (members.map Member.width).sum True := by
  have fields : ∀ field ∈ members.map Field.number, field.Lawful := by
    intro field listed
    obtain ⟨member, known, rfl⟩ := List.mem_map.mp listed
    exact lawful member known
  have written := Field.values_spans fields packet
  rw [← sharpValues_eq] at written
  refine written.congr ?_ ?_
  · rw [Field.sizes, List.map_map]
    rfl
  · simp [Field.AllValid, Field.Valid]

theorem Subclass.fills_of_members {sub : Subclass P} {members : List (Member P)}
    (layout : sub.serialize = Member.sharpValues members) (packet : P)
    (checked : (∀ member ∈ members, member.Lawful) ∧
      sub.getSize packet = 4 + (members.map Member.width).sum ∧
      (members.map Member.width).sum + 24 < 0x80000000) : sub.Fills packet := by
  obtain ⟨lawful, own, small⟩ := checked
  have spans := sharpValues_spans lawful packet
  rw [← layout] at spans
  refine (Subclass.fills_iff spans).mpr ⟨trivial, ?_, small⟩
  rw [own, int32_of_fits (by omega) (by omega)]

/-- A text of `length` bytes behind `head` bytes of integers, in a class that counts `counted` of
them. -/
theorem text_fills_iff {sub : Subclass P} {packet : P} {head counted : Nat} {length : Int}
    {text : List UInt16}
    (spans : Spans (fun ser => sub.serialize ser packet) packet (head + length.toNat)
      (0 ≤ length ∧ length ≤ (echoBytes text).length))
    (sum : sub.getSize packet = 4 + counted + length) (few : counted ≤ 12) :
    sub.Fills packet ↔ counted = head ∧ 0 ≤ length ∧ length ≤ (echoBytes text).length ∧
      head + length + 24 < 0x80000000 := by
  rw [Subclass.fills_iff spans, sum]
  constructor
  · rintro ⟨⟨lower, upper⟩, own, small⟩
    rw [int32_of_fits (by omega) (by omega)] at own
    exact ⟨by omega, lower, upper, by omega⟩
  · rintro ⟨rfl, lower, upper, small⟩
    refine ⟨⟨lower, upper⟩, ?_, by omega⟩
    rw [int32_of_fits (by omega) (by omega)]
    omega

theorem PacketCSEcho.spans (packet : PacketCSEcho) :
    Spans (fun ser => packetCSEcho.serialize ser packet) packet (4 + packet.echoMsgLength.toNat)
      (0 ≤ packet.echoMsgLength ∧ packet.echoMsgLength ≤ (echoBytes packet.echoMsg).length) := by
  have text := (Spans.valueString packet.echoMsg packet.echoMsgLength).map fun read =>
    PacketCSEcho.mk packet.echoMsgLength read
  have both := (int32_spans packet.echoMsgLength).andThen (fun length ser => do
    let msg ← ser.valueString packet.echoMsg length
    return (msg.1, PacketCSEcho.mk length msg.2)) text
  exact both.congr rfl (by simp)

theorem PacketSCEcho.spans (packet : PacketSCEcho) :
    Spans (fun ser => packetSCEcho.serialize ser packet) packet (12 + packet.echoMsgLength.toNat)
      (0 ≤ packet.echoMsgLength ∧ packet.echoMsgLength ≤ (echoBytes packet.echoMsg).length) := by
  have head : Spans (fun ser => Member.sharpValues
      [.int64 (·.token) fun p v => { p with token := v },
       .int32 (·.echoMsgLength) fun p v => { p with echoMsgLength := v }] ser packet)
      packet 12 True := sharpValues_spans (by simp) packet
  have text := (Spans.valueString packet.echoMsg packet.echoMsgLength).map fun read =>
    { packet with echoMsg := read }
  have both := head.andThen (fun front ser => do
    let msg ← ser.valueString front.echoMsg front.echoMsgLength
    return (msg.1, { front with echoMsg := msg.2 })) text
  exact both.congr rfl (by simp)

theorem PacketCSChat.spans (packet : PacketCSChat) :
    Spans (fun ser => packetCSChat.serialize ser packet) packet (6 + packet.chatMsgLength.toNat)
      (0 ≤ packet.chatMsgLength ∧ packet.chatMsgLength ≤ (echoBytes packet.chatMsg).length) := by
  have chatType : Spans (fun ser => ser.valueInt16 packet.chatType) packet.chatType 2 True :=
    Spans.scalar _ (encodeSigned_length 2 _)
  have text := (Spans.valueString packet.chatMsg packet.chatMsgLength).map fun read =>
    PacketCSChat.mk packet.chatType packet.chatMsgLength read
  have counted := (int32_spans packet.chatMsgLength).andThen (fun length ser => do
    let msg ← ser.valueString packet.chatMsg length
    return (msg.1, PacketCSChat.mk packet.chatType length msg.2)) text
  have all := chatType.andThen (fun chatType ser => do
    let length ← ser.valueInt32 packet.chatMsgLength
    let msg ← length.1.valueString packet.chatMsg length.2
    return (msg.1, PacketCSChat.mk chatType length.2 msg.2)) counted
  refine all.congr ?_ (by simp)
  omega

/-- What is left of a frame's 2 ^ 31 bytes bounds the message. -/
def EchoFits (echoMsgLength : Int) (echoMsg : List UInt16) (others : Int) : Prop :=
  0 ≤ echoMsgLength ∧ echoMsgLength ≤ (echoBytes echoMsg).length ∧
    others + echoMsgLength + 24 < 0x80000000

def NetworkPacket.Fits : NetworkPacket → Prop
  | csChat _ => False
  | cs (.echo packet) => EchoFits packet.echoMsgLength packet.echoMsg 4
  | sc (.echo packet) => EchoFits packet.echoMsgLength packet.echoMsg 12
  | _ => True

theorem PacketCSEcho.fills_iff (packet : PacketCSEcho) :
    packetCSEcho.Fills packet ↔ EchoFits packet.echoMsgLength packet.echoMsg 4 := by
  have sum : packetCSEcho.getSize packet = 4 + (4 : Nat) + packet.echoMsgLength := rfl
  rw [text_fills_iff packet.spans sum (by omega)]
  exact and_iff_right rfl

theorem PacketSCEcho.fills_iff (packet : PacketSCEcho) :
    packetSCEcho.Fills packet ↔ EchoFits packet.echoMsgLength packet.echoMsg 12 := by
  have sum : packetSCEcho.getSize packet = 4 + (12 : Nat) + packet.echoMsgLength := by
    simp only [packetSCEcho]
    omega
  rw [text_fills_iff packet.spans sum (by omega)]
  exact and_iff_right rfl

/-- The chat type takes two bytes more than `GetSize` says. -/
theorem PacketCSChat.not_fills (packet : PacketCSChat) : ¬packetCSChat.Fills packet := by
  have sum : packetCSChat.getSize packet = 4 + (4 : Nat) + packet.chatMsgLength := rfl
  rw [text_fills_iff packet.spans sum (by omega)]
  rintro ⟨same, -⟩
  omega

/-- A packet fills its frame unless it is a chat or an echo of a length that is not inside its
message. -/
theorem NetworkPacket.fills_iff_fits (packet : NetworkPacket) :
    (∃ ser, FrameFilled .plNetwork packet.base ser) ↔ packet.Fits := by
  cases packet with
  | csChat packet => exact iff_of_false packet.not_fills id
  | scEnterCharacter packet =>
      refine iff_of_true (Subclass.fills_of_members rfl packet ?_) trivial
      simp [packetSCEnterCharacter]
  | cs packet =>
      cases packet with
      | auth packet =>
          refine iff_of_true (Subclass.fills_of_members rfl packet ?_) trivial
          simp [packetCSAuth]
      | enter packet =>
          refine iff_of_true (Subclass.fills_of_members rfl packet ?_) trivial
          simp [packetCSEnter]
      | leave packet =>
          refine iff_of_true (Subclass.fills_of_members rfl packet ?_) trivial
          simp [packetCSLeave]
      | move packet =>
          refine iff_of_true (Subclass.fills_of_members rfl packet ?_) trivial
          simp [packetCSMove]
      | interaction packet =>
          refine iff_of_true (Subclass.fills_of_members rfl packet ?_) trivial
          simp [packetCSInteraction]
      | heartbeat packet =>
          refine iff_of_true (Subclass.fills_of_members rfl packet ?_) trivial
          simp [packetCSHeaetbeat]
      | echo packet => exact packet.fills_iff
  | sc packet =>
      cases packet with
      | authResult packet =>
          refine iff_of_true (Subclass.fills_of_members rfl packet ?_) trivial
          simp [packetSCAuthResult]
      | enter packet =>
          refine iff_of_true (Subclass.fills_of_members rfl packet ?_) trivial
          simp [packetSCEnter]
      | leave packet =>
          refine iff_of_true (Subclass.fills_of_members rfl packet ?_) trivial
          simp [packetSCLeave]
      | move packet =>
          refine iff_of_true (Subclass.fills_of_members rfl packet ?_) trivial
          simp [packetSCMove]
      | interaction packet =>
          refine iff_of_true (Subclass.fills_of_members rfl packet ?_) trivial
          simp [packetSCInteraction]
      | heartbeat packet =>
          refine iff_of_true (Subclass.fills_of_members rfl packet ?_) trivial
          simp [packetSCHeartBeat]
      | echo packet => exact packet.fills_iff

theorem NetworkPacket.empty_chat_overruns :
    ¬∃ ser, FrameFilled .plNetwork (csChat {}).base ser :=
  PacketCSChat.not_fills {}

/-! The setters keep the length inside the message, for any string. -/

theorem echoFits_of_set {echoMsg : List UInt16} {others : Int}
    (small : others + echoMsg.length + 24 < 0x80000000) :
    EchoFits echoMsg.length echoMsg others :=
  ⟨Int.natCast_nonneg _, Int.ofNat_le.mpr (length_le_echoBytes echoMsg), small⟩

theorem PacketCSEcho.setEchoMsg_fills {echoMsg : List UInt16}
    (small : echoMsg.length + 28 < 0x80000000) :
    packetCSEcho.Fills (PacketCSEcho.setEchoMsg echoMsg) :=
  (PacketCSEcho.fills_iff _).mpr (echoFits_of_set (by omega))

theorem PacketSCEcho.setData_fills (token : Int) {echoMsg : List UInt16}
    (small : echoMsg.length + 36 < 0x80000000) :
    packetSCEcho.Fills (PacketSCEcho.setData token echoMsg) :=
  (PacketSCEcho.fills_iff _).mpr (echoFits_of_set (by omega))

end Sharp

end ProjectPl
