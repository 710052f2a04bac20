import ProjectPl.SharpEchoCore
import ProjectPl.SharpParser
import ProjectPl.SharpStrings

/-!
One echo between the client and the server of version one. The server reads the client's frame
with the class `Packet` and answers. The client reads head, body and tail of the answer without
the packet number between head and body, so that the number and half of the token are read as
the token, the other half as the length of the text, and the length as the check word of the tail.
-/

namespace ProjectPl

open LittleEndian DotNet

namespace Sharp

theorem Relays.base_writes {P : Type} {sub : Subclass P} {packet start received : P}
    {data : List UInt8} (relays : Relays sub.serialize packet start received data)
    (size : sub.getSize packet = 4 + data.length) (small : data.length ≤ 1024) :
    (sub.base packet).Writes data := by
  constructor
  · dsimp only [Subclass.base]
    rw [size, int32_of_fits (by omega) (by omega)]
    omega
  · intro ser bytes room wrote
    obtain ⟨next, written, after⟩ := relays.writes ser bytes room wrote
    refine ⟨next, ?_, after⟩
    dsimp only [Subclass.base]
    rw [written]
    rfl

theorem Relays.readBody {P : Type} {sub : Subclass P} {packet start received : P}
    {data : List UInt8} (relays : Relays sub.serialize packet start received data) :
    sub.readBody start data = .ok received := by
  obtain ⟨ser, created, reads⟩ := Serializer.ofBuffer_reads data
  obtain ⟨next, read, -⟩ := relays.reads ser [] (by rwa [List.append_nil])
  rw [Subclass.readBody, created, ok_bind, read]
  rfl

/-! The frame on its way to the server. -/

theorem plNetwork_frame_length (packetType : Nat) (data : List UInt8) :
    ((framePacket packetType data).encoding .plNetwork).length = 24 + data.length := by
  simp only [Packet.encoding, framePacket, Dialect.plNetwork, List.length_append, encode_length,
    encodeSigned_length]
  omega

theorem plNetwork_frame_wellFormed (packetType : Nat) {data : List UInt8}
    (small : data.length ≤ 1024) :
    WellFormed PacketParser.maxBufferSize ((framePacket packetType data).encoding .plNetwork) := by
  have bound : PacketParser.maxBufferSize = 10240 := rfl
  have length := plNetwork_frame_length packetType data
  refine ⟨?_, by omega, by omega⟩
  rw [length, Packet.encoding, List.drop_left' (encode_length 4 _),
    List.take_left' (encodeSigned_length 4 _)]
  dsimp only [framePacket]
  rw [frameLength_eq _ (by omega)]
  omega

theorem bodyOf_plNetwork {packetType : Nat} (bound : packetType < 256 ^ 4) (data : List UInt8) :
    bodyOf .plNetwork ((framePacket packetType data).encoding .plNetwork) =
      { packetType := packetType, packetData := data } := by
  have length := plNetwork_frame_length packetType data
  have front : (framePacket packetType data).encoding .plNetwork =
      (encode 4 0 ++ encodeSigned 4 (8 + 4 + (data.length : Int) + 12)) ++
        (encode 4 packetType ++ (data ++ tailBytes)) := by
    rw [List.append_assoc]
    rfl
  have body : (framePacket packetType data).encoding .plNetwork =
      ((encode 4 0 ++ encodeSigned 4 (8 + 4 + (data.length : Int) + 12)) ++
        encode 4 packetType) ++ (data ++ tailBytes) := by
    simp only [front, List.append_assoc]
  have eight : (encode 4 0 ++ encodeSigned 4 (8 + 4 + (data.length : Int) + 12)).length = 8 := by
    rw [List.length_append, encode_length, encodeSigned_length]
  have number : (((framePacket packetType data).encoding .plNetwork).drop 8).take 4 =
      encode 4 packetType := by
    rw [front, List.drop_left' eight, List.take_left' (encode_length 4 _)]
  have inner : (((framePacket packetType data).encoding .plNetwork).drop 12).take
      (((framePacket packetType data).encoding .plNetwork).length - 24) = data := by
    rw [length, Nat.add_sub_cancel_left, body, List.drop_left' (by
      rw [List.length_append, eight, encode_length]), List.take_left]
  rw [bodyOf, number, inner]
  exact congrArg (fun number => ({ packetType := number, packetData := data } : PacketBody Nat))
    (decode_encode_of_lt bound)

theorem within_single {frame : List UInt8} {available : Nat} (fits : frame.length ≤ available) :
    Framing.within [frame] available = [frame] := by
  rw [Framing.within_of_fits fits, Framing.within]

theorem enqueued_single {frame : List UInt8}
    (wellFormed : WellFormed PacketParser.maxBufferSize frame)
    {events : List (RecvEvent PacketParser.maxBufferSize)} (whole : received events = frame) :
    enqueued (Run.run PacketParser.dataParsing PacketParser.new events).2 =
      [bodyOf .plNetwork frame] := by
  have upper := wellFormed.upper
  have cut : Cut PacketParser.maxBufferSize [frame] events := by
    refine ⟨by simpa using wellFormed, by simpa using whole, ?_⟩
    intro before event after split
    have total := congrArg List.length whole
    rw [split, received_append, List.length_append] at total
    have here : event.chunk.length ≤ (received (event :: after)).length := by
      rw [received, List.flatMap_cons, List.length_append]
      exact Nat.le_add_right _ _
    rw [Framing.undelivered]
    omega
  have oneEach : AtMostOneEach [frame] events := by
    intro before event after _
    have few : ∀ available, (Framing.within [frame] available).length ≤ 1 := by
      intro available
      rw [Framing.within]
      split <;> simp [Framing.within]
    exact (few _).trans (Nat.le_add_left 1 _)
  have bodies := (delivers_iff plNetwork_returnsBody (by decide) cut).mpr oneEach events []
    (List.append_nil events).symm
  rw [whole, within_single (Nat.le_refl _)] at bodies
  exact bodies

/-! The two packets. What the server reads of the text is `Utf.cut` of it, which for ASCII is the
text itself. -/

theorem send_eq {msg : List UInt16} (short : msg.length ≤ 900) :
    MainApp.send msg = .ok ((framePacket PacketTypeCS.echo.toNat
      (encodeSigned 4 msg.length ++ (echoBytes msg).take msg.length)).encoding .plNetwork) := by
  have fits : FitsSigned 4 (msg.length : Int) := by constructor <;> norm_num <;> omega
  have size : (encodeSigned 4 (msg.length : Int) ++ (echoBytes msg).take msg.length).length =
      4 + msg.length := by
    rw [List.length_append, encodeSigned_length,
      List.length_take_of_le (length_le_echoBytes msg)]
  have writes : (packetCSEcho.base (PacketCSEcho.setEchoMsg msg)).Writes _ :=
    (packetCSEcho_relays fits {}).base_writes (by rw [size]; dsimp only [packetCSEcho]; omega)
      (by omega)
  obtain ⟨ser, returned, wrote⟩ := packetSerializer_wrote
    (plNetwork_lawful (by decide : PacketTypeCS.echo.toNat < 256 ^ 4)) writes (by omega)
  rw [MainApp.send, returned, ok_bind, wrote.front]
  rfl

/-- The server's answer to the body of an echo. -/
def answer (body : PacketBody Nat) : Result (List (List UInt8)) := do
  let processed ← PacketHandler.packetProcess body
  PlayerSession.sendAll processed.2

theorem cut_length_le (msg : List UInt16) : (Utf.cut msg).length ≤ msg.length := by
  have decoded := Utf.utf16Encode_utf8Decode_length ((echoBytes msg).take msg.length)
  rw [List.length_take] at decoded
  exact decoded.trans (Nat.min_le_left _ _)

def echoed (msg : List UInt16) : List UInt8 :=
  encodeSigned 8 0 ++
    (encodeSigned 4 (Utf.cut msg).length ++ (echoBytes (Utf.cut msg)).take (Utf.cut msg).length)

theorem echoed_length (msg : List UInt16) : (echoed msg).length = 12 + (Utf.cut msg).length := by
  rw [echoed, List.length_append, List.length_append, encodeSigned_length, encodeSigned_length,
    List.length_take_of_le (length_le_echoBytes _)]
  omega

theorem answer_eq {msg : List UInt16} (short : msg.length ≤ 900) :
    answer { packetType := PacketTypeCS.echo.toNat,
             packetData := encodeSigned 4 msg.length ++ (echoBytes msg).take msg.length } =
      .ok [(framePacket PacketTypeSC.echo.toNat (echoed msg)).encoding .plNetwork] := by
  have shorter := cut_length_le msg
  have size := echoed_length msg
  have fits : FitsSigned 4 (msg.length : Int) := by constructor <;> norm_num <;> omega
  have cutFits : FitsSigned 4 ((Utf.cut msg).length : Int) := by
    constructor <;> norm_num <;> omega
  have read := (packetCSEcho_relays fits {}).readBody
  have handled : PacketHandler.csEcho (encodeSigned 4 msg.length ++
      (echoBytes msg).take msg.length) =
        .ok (true, [PacketSCEcho.setData 0 (Utf.cut msg)]) := by
    rw [PacketHandler.csEcho, read]
    rfl
  have relays : Relays packetSCEcho.serialize (PacketSCEcho.setData 0 (Utf.cut msg)) {} _
      (echoed msg) := packetSCEcho_relays (by decide) (length_le_echoBytes _) cutFits {}
  have writes : (packetSCEcho.base (PacketSCEcho.setData 0 (Utf.cut msg))).Writes (echoed msg) :=
    relays.base_writes (by rw [size]; dsimp only [packetSCEcho, PacketSCEcho.setData]; omega)
      (by omega)
  obtain ⟨ser, returned, buffer⟩ := packetSerializer_eq
    (plNetwork_lawful (by decide : PacketTypeSC.echo.toNat < 256 ^ 4)) writes (by omega)
  have processed : PacketHandler.packetProcess
      { packetType := PacketTypeCS.echo.toNat,
        packetData := encodeSigned 4 msg.length ++ (echoBytes msg).take msg.length } =
      .ok (true, [PacketSCEcho.setData 0 (Utf.cut msg)]) := handled
  rw [answer, processed, ok_bind]
  dsimp only [PlayerSession.sendAll]
  rw [returned, ok_bind, buffer]
  rfl

theorem decode_encodeSigned {size : Nat} (small : size ≤ 900) :
    decode (encodeSigned 4 size) = size := by
  have own : ((size : Int) % (256 ^ 4 : Nat)).toNat = size := by
    norm_num
    omega
  rw [encodeSigned, own, decode_encode_of_lt (by omega)]

/-- The client takes the number of the packet for a part of the token. -/
theorem receive_eq (msg : List UInt16) (junk : List UInt8) (short : msg.length ≤ 900) :
    ∃ head packet tail,
      MainApp.receive ((framePacket PacketTypeSC.echo.toNat (echoed msg)).encoding .plNetwork ++
        junk) ((framePacket PacketTypeSC.echo.toNat (echoed msg)).encoding .plNetwork).length =
          .ok (head, packet, tail) ∧
        packet.echoMsg = [] ∧ tail.checkTail = (Utf.cut msg).length := by
  have shorter := cut_length_le msg
  let frame := (framePacket PacketTypeSC.echo.toNat (echoed msg)).encoding .plNetwork
  let text := (echoBytes (Utf.cut msg)).take (Utf.cut msg).length
  let behind := text ++ tailBytes
  have enough : 12 ≤ behind.length := by
    rw [List.length_append]
    exact Nat.le_add_left 12 _
  have shifted : encode 4 PacketTypeSC.echo.toNat ++ encodeSigned 8 0 =
      encodeSigned 8 8 ++ (encodeSigned 4 0 ++ (echoBytes []).take 0) := by decide
  have layout : frame = encode 4 0 ++ (encodeSigned 4 (8 + 4 + ((echoed msg).length : Int) + 12) ++
      ((encodeSigned 8 8 ++ (encodeSigned 4 0 ++ (echoBytes []).take 0)) ++
        (encodeSigned 4 (Utf.cut msg).length ++ behind))) := by
    rw [← shifted]
    simp only [frame, behind, text, Packet.encoding, framePacket, Dialect.plNetwork, echoed,
      tailBytes, List.append_assoc]
  have parts : behind = behind.take 4 ++ ((behind.drop 4).take 4 ++ behind.drop 8) := by
    have later := List.take_append_drop 4 (behind.drop 4)
    rw [List.drop_drop] at later
    rw [later, List.take_append_drop]
  obtain ⟨ser, created, reads⟩ := Serializer.ofBuffer_reads frame
  have inside : frame.length ≤ (frame ++ junk).length := by
    rw [List.length_append]
    omega
  have copied := Serializer.ofBuffer_take inside
  rw [List.take_left, created] at copied
  rw [layout] at reads
  obtain ⟨one, headRead, oneReads⟩ := PacketHead.serialize_reads {} (encode_length 4 _)
    (encodeSigned_length 4 _) reads
  obtain ⟨two, packetRead, twoReads⟩ :=
    (packetSCEcho_relays (by decide) (Nat.zero_le _) (by decide) {}).reads one _ oneReads
  rw [parts] at twoReads
  obtain ⟨three, tailRead⟩ := PacketTail.serialize_reads (encodeSigned_length 4 _)
    (by rw [List.length_take]; omega) (by rw [List.length_take, List.length_drop]; omega) twoReads
  let head : PacketHead :=
    { checkHead := decode (encode 4 0)
      packetLength := decodeSigned (encodeSigned 4 (8 + 4 + ((echoed msg).length : Int) + 12)) }
  let packet : PacketSCEcho :=
    { token := 8, echoMsgLength := (0 : Nat), echoMsg := arrived [] 0 }
  let tail : PacketTail :=
    { checkTail := decode (encodeSigned 4 (Utf.cut msg).length)
      packetSeq := decode (behind.take 4)
      packetTime := decode ((behind.drop 4).take 4) }
  refine ⟨head, packet, tail, ?_, ?_, ?_⟩
  · rw [MainApp.receive, ← copied, ok_bind, headRead, ok_bind]
    dsimp only
    rw [packetRead, ok_bind, tailRead]
    rfl
  · rfl
  · exact decode_encodeSigned (by omega)

/-- The exchange of one message, however its frame is cut and whatever is left in the client's
buffer: the client reads `message`, and `checkTail` in the tail. -/
def Exchanges (msg message : List UInt16) (checkTail : Nat) : Prop :=
  ∃ frame body reply,
    MainApp.send msg = .ok frame ∧
    (∀ events : List (RecvEvent PacketParser.maxBufferSize), received events = frame →
      enqueued (Run.run PacketParser.dataParsing PacketParser.new events).2 = [body]) ∧
    answer body = .ok [reply] ∧ reply.length ≤ MainApp.recvBufferSize ∧
    ∀ junk : List UInt8, reply.length + junk.length = MainApp.recvBufferSize →
      ∃ head packet tail, MainApp.receive (reply ++ junk) reply.length = .ok (head, packet, tail) ∧
        packet.echoMsg = message ∧ tail.checkTail = checkTail

theorem exchanges_eq {msg : List UInt16} (short : msg.length ≤ 900) :
    Exchanges msg [] (Utf.cut msg).length := by
  have shorter := cut_length_le msg
  have size : (encodeSigned 4 (msg.length : Int) ++ (echoBytes msg).take msg.length).length ≤
      1024 := by
    rw [List.length_append, encodeSigned_length, List.length_take]
    omega
  refine ⟨_, _, _, send_eq short, ?_, answer_eq short, ?_, ?_⟩
  · intro events whole
    rw [enqueued_single (plNetwork_frame_wellFormed _ size) whole,
      bodyOf_plNetwork (by decide)]
  · rw [plNetwork_frame_length, echoed_length, MainApp.recvBufferSize]
    omega
  · intro junk _
    exact receive_eq msg junk short

theorem Exchanges.eq {msg message : List UInt16} {checkTail : Nat} (short : msg.length ≤ 900)
    (exchanges : Exchanges msg message checkTail) :
    message = [] ∧ checkTail = (Utf.cut msg).length := by
  obtain ⟨frame, body, reply, sent, hands, answered, -, reads⟩ := exchanges
  obtain ⟨known, itsBody, itsReply, itsSent, itsHands, itsAnswered, fits, itsReads⟩ :=
    exchanges_eq short
  obtain rfl : frame = known := Except.ok.inj (sent.symm.trans itsSent)
  have whole : frame.length ≤ PacketParser.maxBufferSize := by
    have bound : PacketParser.maxBufferSize = 10240 := rfl
    obtain rfl := Except.ok.inj (sent.symm.trans (send_eq short))
    rw [plNetwork_frame_length, List.length_append, encodeSigned_length, List.length_take]
    omega
  have once := received_ofChunk whole
  obtain rfl : body = itsBody :=
    List.singleton_inj.mp ((hands _ once).symm.trans (itsHands _ once))
  obtain rfl : reply = itsReply :=
    List.singleton_inj.mp (Except.ok.inj (answered.symm.trans itsAnswered))
  have full : reply.length +
      (List.replicate (MainApp.recvBufferSize - reply.length) (0 : UInt8)).length =
        MainApp.recvBufferSize := by
    rw [List.length_replicate]
    omega
  obtain ⟨head, packet, tail, read, rfl, rfl⟩ := reads _ full
  obtain ⟨itsHead, itsPacket, itsTail, itsRead, empty, length⟩ := itsReads _ full
  obtain ⟨-, rfl, rfl⟩ : head = itsHead ∧ packet = itsPacket ∧ tail = itsTail := by
    simpa using read.symm.trans itsRead
  exact ⟨empty, length⟩

/-- The text is empty and the check word a length, whatever was sent. -/
theorem echo_never_returns (msg : List UInt16) (short : msg.length ≤ 900) :
    ¬Exchanges msg msg 0x10000000 := by
  intro exchanges
  have shorter := cut_length_le msg
  have same := (exchanges.eq short).2
  omega

theorem echo_never_returns_hello : ¬Exchanges [0x48, 0x69] [0x48, 0x69] 0x10000000 :=
  echo_never_returns [0x48, 0x69] (by decide)

theorem hello_reads_empty :
    Exchanges [0x48, 0x69] [] 2 ∧ ¬Exchanges [0x48, 0x69] [0x48, 0x69] 0x10000000 := by
  have reads : Exchanges [0x48, 0x69] [] (Utf.cut [0x48, 0x69]).length := exchanges_eq (by decide)
  have two : (Utf.cut [0x48, 0x69]).length = 2 := by decide
  rw [two] at reads
  refine ⟨reads, ?_⟩
  intro exchanges
  cases (exchanges.eq (by decide)).1

end Sharp

end ProjectPl
