import ProjectPl.CommonFrames

/-!
Strings on the wire. The length in front of a string is the number of its UTF-16 units, the
serializer copies as many UTF-8 bytes. What arrives is the text that the decoder makes of these
bytes, so a string arrives as it was if all its characters are ASCII. The fields behind it are
read where they were written, whatever the string.
-/

namespace ProjectPl

open LittleEndian DotNet

namespace Sharp

/-! One action on both sides: what it writes of `sent` turns `start` into `received`. -/

structure Relays {V : Type} (action : Serializer → V → Result (Serializer × V))
    (sent start received : V) (data : List UInt8) : Prop where
  writes : ∀ (ser : Serializer) (bytes : List UInt8) (room : Nat),
    ser.Wrote bytes (data.length + room) →
      ∃ next, action ser sent = .ok (next, sent) ∧ next.Wrote (bytes ++ data) room
  reads : ∀ (ser : Serializer) (rest : List UInt8), ser.Reads (data ++ rest) →
    ∃ next, action ser start = .ok (next, received) ∧ next.Reads rest

/-- The buffer of `new Serializer()` up to the cursor that `SerializeBody` leaves. -/
def bodyBytes {P : Type} (serialize : Serializer → P → Result (Serializer × P)) (packet : P) :
    Result (List UInt8) := do
  let ser ← Serializer.ofLength (1024 * 10)
  let written ← serialize ser packet
  return written.1.buffer.take written.1.offset

/-- The object that is read from the bytes of an object is equal to it. -/
def Survives {P : Type} (serialize : Serializer → P → Result (Serializer × P))
    (readBody : List UInt8 → Result P) (packet : P) : Prop :=
  ∃ data, bodyBytes serialize packet = .ok data ∧ readBody data = .ok packet

theorem Serializer.Wrote.front {ser : Serializer} {bytes : List UInt8} {room : Nat}
    (wrote : ser.Wrote bytes room) : ser.buffer.take ser.offset = bytes := by
  obtain ⟨blank, layout, -⟩ := wrote.layout
  rw [layout, wrote.cursor, List.take_left]

section Buffers

variable {P : Type} {serialize : Serializer → P → Result (Serializer × P)}
  {sent start received : P} {data : List UInt8}

theorem Relays.produced (relays : Relays serialize sent start received data) {length : Nat}
    (enough : data.length ≤ length) :
    ∃ ser next, Serializer.ofLength length = .ok ser ∧ serialize ser sent = .ok (next, sent) ∧
      next.buffer.take next.offset = data := by
  obtain ⟨ser, created, blank⟩ := Serializer.ofLength_wrote length
  have room : data.length + (length - data.length) = length := by omega
  obtain ⟨next, written, wrote⟩ := relays.writes ser [] _ (room ▸ blank)
  have front := wrote.front
  rw [List.nil_append] at front
  exact ⟨ser, next, created, written, front⟩

theorem Relays.consumed (relays : Relays serialize sent start received data) :
    ∃ ser next, Serializer.ofBuffer data data.length = .ok ser ∧
      serialize ser start = .ok (next, received) := by
  obtain ⟨ser, created, reads⟩ := Serializer.ofBuffer_reads data
  obtain ⟨next, read, -⟩ := relays.reads ser [] (by rwa [List.append_nil])
  exact ⟨ser, next, created, read⟩

theorem Relays.survives_iff (relays : Relays serialize sent start received data)
    (small : data.length ≤ 1024 * 10) :
    Survives serialize (fun bytes => do
      let ser ← Serializer.ofBuffer bytes bytes.length
      let read ← serialize ser start
      return read.2) sent ↔ received = sent := by
  have produced : bodyBytes serialize sent = .ok data := by
    obtain ⟨ser, next, created, written, front⟩ := relays.produced small
    have opened : Serializer.ofLength (1024 * 10) = .ok ser := created
    rw [bodyBytes, opened, ok_bind, written, ok_bind, front]
    rfl
  obtain ⟨ser, next, created, read⟩ := relays.consumed
  constructor
  · rintro ⟨other, same, returned⟩
    obtain rfl : data = other := Except.ok.inj (produced.symm.trans same)
    dsimp only at returned
    rw [created, ok_bind, read] at returned
    exact Except.ok.inj returned
  · intro same
    refine ⟨data, produced, ?_⟩
    dsimp only
    rw [created, ok_bind, read, same]
    rfl

end Buffers

/-- What is read where the first `length` bytes of the string were written. -/
def arrived (sent : List UInt16) (length : Nat) : List UInt16 :=
  Utf.utf16Encode (Utf.utf8Decode ((echoBytes sent).take length))

theorem length_le_echoBytes (text : List UInt16) : text.length ≤ (echoBytes text).length :=
  Utf.length_le_utf8Encode_utf16Decode text

namespace Relays

theorem nothing {V : Type} (sent start : V) :
    Relays (fun ser value => .ok (ser, value)) sent start start [] := by
  constructor
  · intro ser bytes room wrote
    exact ⟨ser, rfl, by simpa using wrote⟩
  · intro ser rest reads
    exact ⟨ser, rfl, reads⟩

theorem scalar {width : Nat} (wide : width ≠ 0) {sent : Int} (fits : FitsSigned width sent)
    (start : Int) :
    Relays (fun ser value => ser.scalar width (encodeSigned width) decodeSigned value) sent start
      sent (encodeSigned width sent) := by
  have whole := encodeSigned_length width sent
  constructor
  · intro ser bytes room wrote
    rw [whole] at wrote
    exact Serializer.scalar_wrote sent whole wrote
  · intro ser rest reads
    have some : encodeSigned width sent ≠ [] := List.ne_nil_of_length_pos (by omega)
    have read : ∃ next, ser.scalar width (encodeSigned width) decodeSigned start =
        .ok (next, decodeSigned (encodeSigned width sent)) ∧ next.Reads rest :=
      Serializer.scalar_reads start whole some reads
    rwa [decodeSigned_encodeSigned fits] at read

theorem andThen {V : Type} {first second : Serializer → V → Result (Serializer × V)}
    {sent start middle received : V} {data more : List UInt8}
    (one : Relays first sent start middle data) (two : Relays second sent middle received more) :
    Relays (fun ser value => do
      let read ← first ser value
      second read.1 read.2) sent start received (data ++ more) := by
  constructor
  · intro ser bytes room wrote
    rw [List.length_append, Nat.add_assoc] at wrote
    obtain ⟨next, written, after⟩ := one.writes ser bytes _ wrote
    obtain ⟨last, others, all⟩ := two.writes next _ room after
    refine ⟨last, ?_, by rwa [← List.append_assoc]⟩
    rw [written, ok_bind]
    exact others
  · intro ser rest reads
    rw [List.append_assoc] at reads
    obtain ⟨next, read, after⟩ := one.reads ser _ reads
    obtain ⟨last, others, all⟩ := two.reads next rest after
    refine ⟨last, ?_, all⟩
    rw [read, ok_bind]
    exact others

theorem within {P V : Type} {action : Serializer → V → Result (Serializer × V)} (get : P → V)
    (set : P → V → P) (sent start : P) {value : V} {data : List UInt8}
    (relays : Relays action (get sent) (get start) value data)
    (stores : set sent (get sent) = sent) :
    Relays (fun ser object => do
      let read ← action ser (get object)
      return (read.1, set object read.2)) sent start (set start value) data := by
  constructor
  · intro ser bytes room wrote
    obtain ⟨next, written, after⟩ := relays.writes ser bytes room wrote
    refine ⟨next, ?_, after⟩
    rw [written, ok_bind, stores]
    rfl
  · intro ser rest reads
    obtain ⟨next, read, after⟩ := relays.reads ser rest reads
    refine ⟨next, ?_, after⟩
    rw [read]
    rfl

theorem image {V W : Type} {action : Serializer → V → Result (Serializer × V)}
    {other : Serializer → W → Result (Serializer × W)} (make : V → W)
    (same : ∀ ser value, other ser (make value) = do
      let read ← action ser value
      return (read.1, make read.2))
    {sent start received : V} {data : List UInt8} (relays : Relays action sent start received data) :
    Relays other (make sent) (make start) (make received) data := by
  constructor
  · intro ser bytes room wrote
    obtain ⟨next, written, after⟩ := relays.writes ser bytes room wrote
    refine ⟨next, ?_, after⟩
    rw [same, written]
    rfl
  · intro ser rest reads
    obtain ⟨next, read, after⟩ := relays.reads ser rest reads
    refine ⟨next, ?_, after⟩
    rw [same, read]
    rfl

theorem valueString {sent : List UInt16} {length : Nat} (inside : length ≤ (echoBytes sent).length)
    (start : List UInt16) :
    Relays (fun ser text => ser.valueString text length) sent start (arrived sent length)
      ((echoBytes sent).take length) := by
  have taken : ((echoBytes sent).take length).length = length := List.length_take_of_le inside
  constructor
  · intro ser bytes room wrote
    rw [taken] at wrote
    exact Serializer.valueString_wrote sent inside wrote
  · intro ser rest reads
    obtain ⟨reading, before, layout, cursor⟩ := reads
    have whole : ¬ser.buffer.length < ser.offset + (length : Int).toNat := by
      rw [layout, cursor, List.length_append, List.length_append, taken, Int.toNat_natCast]
      omega
    refine ⟨{ ser with offset := ser.offset + length }, ?_, reading,
      before ++ (echoBytes sent).take length, ?_, ?_⟩
    · rw [Serializer.valueString, if_neg (by simp [reading]), if_neg (by omega), if_neg whole,
        Int.toNat_natCast, layout, cursor, List.drop_left, List.take_append_of_le_length taken.ge,
        List.take_of_length_le taken.le]
      rfl
    · rw [layout, List.append_assoc]
    · rw [cursor, List.length_append, taken]

/-- A string with its length in front, as a pair. -/
def countedString (width : Nat) (ser : Serializer) (pair : Int × List UInt16) :
    Result (Serializer × Int × List UInt16) := do
  let count ← ser.scalar width (encodeSigned width) decodeSigned pair.1
  let text ← count.1.valueString pair.2 count.2
  return (text.1, count.2, text.2)

theorem pair {A B : Type} {first : Serializer → A → Result (Serializer × A)} {value : A}
    {sent received : B} {data more : List UInt8} (start : A × B)
    (one : Relays first value start.1 value data)
    (second : A → Serializer → B → Result (Serializer × B))
    (two : Relays (second value) sent start.2 received more) :
    Relays (fun ser pair => do
      let read ← first ser pair.1
      let other ← second read.2 read.1 pair.2
      return (other.1, read.2, other.2)) (value, sent) start (value, received) (data ++ more) := by
  constructor
  · intro ser bytes room wrote
    rw [List.length_append, Nat.add_assoc] at wrote
    obtain ⟨next, written, after⟩ := one.writes ser bytes _ wrote
    obtain ⟨last, others, all⟩ := two.writes next _ room after
    refine ⟨last, ?_, by rwa [← List.append_assoc]⟩
    simp only [written, ok_bind, others]
    rfl
  · intro ser rest reads
    rw [List.append_assoc] at reads
    obtain ⟨next, read, after⟩ := one.reads ser _ reads
    obtain ⟨last, others, all⟩ := two.reads next rest after
    refine ⟨last, ?_, all⟩
    simp only [read, ok_bind, others]
    rfl

theorem countedString_relays {width : Nat} (wide : width ≠ 0) {sent : List UInt16} {length : Nat}
    (inside : length ≤ (echoBytes sent).length) (fits : FitsSigned width length)
    (start : Int × List UInt16) :
    Relays (countedString width) (length, sent) start (length, arrived sent length)
      (encodeSigned width length ++ (echoBytes sent).take length) :=
  pair start (scalar wide fits start.1) (fun count ser text => ser.valueString text count)
    (valueString inside start.2)

end Relays

/-! The echoes of `PL_Network`. -/

theorem packetCSEcho_relays {msg : List UInt16} (fits : FitsSigned 4 msg.length)
    (start : PacketCSEcho) :
    Relays packetCSEcho.serialize { echoMsgLength := msg.length, echoMsg := msg } start
      { echoMsgLength := msg.length, echoMsg := Utf.cut msg }
      (encodeSigned 4 msg.length ++ (echoBytes msg).take msg.length) := by
  have string := Relays.within (fun packet : PacketCSEcho => (packet.echoMsgLength, packet.echoMsg))
    (fun _ pair => { echoMsgLength := pair.1, echoMsg := pair.2 })
    { echoMsgLength := msg.length, echoMsg := msg } start
    (Relays.countedString_relays (by decide) (length_le_echoBytes msg) fits
      (start.echoMsgLength, start.echoMsg)) rfl
  have same : packetCSEcho.serialize = fun ser packet => do
      let read ← Relays.countedString 4 ser (packet.echoMsgLength, packet.echoMsg)
      return (read.1, ({ echoMsgLength := read.2.1, echoMsg := read.2.2 } : PacketCSEcho)) := by
    funext ser packet
    simp only [packetCSEcho, Relays.countedString, Serializer.valueInt32, bind_assoc, pure_bind]
  rw [same]
  exact string

theorem packetSCEcho_relays {token : Int} (tokenFits : FitsSigned 8 token) {msg : List UInt16}
    {length : Nat} (inside : length ≤ (echoBytes msg).length) (fits : FitsSigned 4 length)
    (start : PacketSCEcho) :
    Relays packetSCEcho.serialize
      { token := token, echoMsgLength := length, echoMsg := msg } start
      { token := token, echoMsgLength := length, echoMsg := arrived msg length }
      (encodeSigned 8 token ++ (encodeSigned 4 length ++ (echoBytes msg).take length)) := by
  have number := Relays.within (fun packet : PacketSCEcho => packet.token)
    (fun packet value => { packet with token := value })
    { token := token, echoMsgLength := length, echoMsg := msg } start
    (Relays.scalar (by decide) tokenFits start.token) rfl
  have string := Relays.within (fun packet : PacketSCEcho => (packet.echoMsgLength, packet.echoMsg))
    (fun packet pair => { packet with echoMsgLength := pair.1, echoMsg := pair.2 })
    { token := token, echoMsgLength := length, echoMsg := msg } { start with token := token }
    (Relays.countedString_relays (by decide) inside fits (start.echoMsgLength, start.echoMsg)) rfl
  have same : packetSCEcho.serialize = fun ser packet => do
      let first ← (do
        let read ← ser.scalar 8 (encodeSigned 8) decodeSigned packet.token
        return (read.1, { packet with token := read.2 }))
      let read ← Relays.countedString 4 first.1 (first.2.echoMsgLength, first.2.echoMsg)
      return (read.1, { first.2 with echoMsgLength := read.2.1, echoMsg := read.2.2 }) := by
    funext ser packet
    simp only [packetSCEcho, Relays.countedString, Member.sharpValues, Member.sharpValue,
      Member.int64_width, Member.int32_width, Member.int64_get, Member.int32_get,
      Member.int64_set, Member.int32_set, bind_assoc, pure_bind]
  rw [same]
  exact number.andThen string

theorem fitsSigned_length {msg : List UInt16} (short : (echoBytes msg).length ≤ 1000) :
    FitsSigned 4 msg.length := by
  have inside := length_le_echoBytes msg
  constructor <;> norm_num <;> omega

theorem packetCSEcho_survives_iff {msg : List UInt16} (short : (echoBytes msg).length ≤ 1000) :
    Survives packetCSEcho.serialize (packetCSEcho.readBody {})
        { echoMsgLength := msg.length, echoMsg := msg } ↔ Utf.Narrow msg := by
  have relays := packetCSEcho_relays (fitsSigned_length short) {}
  have small : (encodeSigned 4 msg.length ++ (echoBytes msg).take msg.length).length ≤
      1024 * 10 := by
    rw [List.length_append, encodeSigned_length, List.length_take]
    omega
  refine (relays.survives_iff small).trans ?_
  rw [PacketCSEcho.mk.injEq, Utf.cut_eq_iff]
  exact and_iff_right rfl

theorem packetSCEcho_survives_iff {token : Int} (tokenFits : FitsSigned 8 token)
    {msg : List UInt16} (short : (echoBytes msg).length ≤ 1000) {length : Nat}
    (inside : length ≤ (echoBytes msg).length) :
    Survives packetSCEcho.serialize (packetSCEcho.readBody {})
        { token := token, echoMsgLength := length, echoMsg := msg } ↔
      arrived msg length = msg := by
  have fits : FitsSigned 4 (length : Int) := by constructor <;> norm_num <;> omega
  have relays := packetSCEcho_relays tokenFits inside fits {}
  have small : (encodeSigned 8 token ++
      (encodeSigned 4 length ++ (echoBytes msg).take length)).length ≤ 1024 * 10 := by
    rw [List.length_append, List.length_append, encodeSigned_length, encodeSigned_length,
      List.length_take]
    omega
  refine (relays.survives_iff small).trans ?_
  rw [PacketSCEcho.mk.injEq]
  exact (and_iff_right rfl).trans (and_iff_right rfl)

namespace Common

/-- What a string field is read as. -/
def Text.cut (text : Text) : Text := { text with text := Utf.cut text.text }

/-- The length is that of the string, which has at most 1000 bytes. -/
def Text.Own (text : Text) : Prop :=
  text.length = text.text.length ∧ (echoBytes text.text).length ≤ 1000

theorem Text.cut_eq_iff (text : Text) : text.cut = text ↔ Utf.Narrow text.text := by
  rw [← Utf.cut_eq_iff]
  constructor
  · exact fun same => congrArg Text.text same
  · intro same
    rw [Text.cut, same]

theorem Text.set_own {value : List UInt16} (short : (echoBytes value).length ≤ 1000) :
    (Text.set value).Own := by
  have inside := length_le_echoBytes value
  refine ⟨?_, short⟩
  dsimp only [Text.set]
  apply Int.bmod_eq_of_le_mul_two <;> omega

def Text.ofParts (length : Int) (text : List UInt16) : Text :=
  { length := int16 length, text := text, fits := int16_fitsSigned length }

/-- `Value(ref string, ref Int16)` on both fields. -/
def Text.value (ser : Serializer) (text : Text) : Result (Serializer × Text) := do
  let read ← ser.valueCountedString text.text text.length
  return (read.1, Text.ofParts read.2.2 read.2.1)

/-- What a string field is read as, with any length. -/
def Text.reached (text : Text) : Text :=
  { text with text := arrived text.text text.length.toNat }

theorem Text.value_reaches {sent : Text} (inside : sent.Inside) (start : Text) :
    Relays Text.value sent start sent.reached
      (encodeSigned 2 sent.length ++ (echoBytes sent.text).take sent.length.toNat) := by
  have exactLength := int16_length sent
  obtain ⟨length, units, fits⟩ := sent
  obtain ⟨lower, upper⟩ : 0 ≤ length ∧ length ≤ (echoBytes units).length := inside
  obtain ⟨count, rfl⟩ := Int.eq_ofNat_of_zero_le lower
  have string := Relays.within (fun text : Text => (text.length, text.text))
    (fun _ pair => Text.ofParts pair.1 pair.2)
    { length := count, text := units, fits := fits } start
    (Relays.countedString_relays (by decide) (Int.ofNat_le.mp upper) fits
      (start.length, start.text))
    (by simp only [Text.ofParts, exactLength])
  have same : Text.value = fun ser text => do
      let read ← Relays.countedString 2 ser (text.length, text.text)
      return (read.1, Text.ofParts read.2.1 read.2.2) := by
    funext ser text
    simp only [Text.value, Relays.countedString, Serializer.valueCountedString,
      Serializer.valueInt16, bind_assoc, pure_bind]
  rw [same]
  simp only [Text.ofParts, exactLength] at string ⊢
  exact string

theorem Text.Own.inside {text : Text} (own : text.Own) : text.Inside := by
  have inside := length_le_echoBytes text.text
  have length := own.1
  constructor <;> omega

theorem Text.Own.reached_eq {text : Text} (own : text.Own) : text.reached = text.cut := by
  have count : text.length.toNat = text.text.length := by rw [own.1, Int.toNat_natCast]
  rw [Text.reached, count]
  rfl

namespace Field

variable {P : Type}

/-- Numbers within their type and strings with their own length. -/
def Sendable (packet : P) : Field P → Prop
  | number member =>
      FitsSigned member.width (member.get packet) ∧ member.width ≠ 0 ∧ member.width ≤ 8
  | text get _ => (get packet).Own

def encode (packet : P) : Field P → List UInt8
  | number member => encodeSigned member.width (member.get packet)
  | text get _ => encodeSigned 2 (get packet).length ++
      (echoBytes (get packet).text).take (get packet).text.length

/-- The object that is read over `start`. -/
def relay (sent start : P) : Field P → P
  | number member => member.set start (member.get sent)
  | text get set => set start (get sent).cut

def relayAll (fields : List (Field P)) (sent start : P) : P :=
  fields.foldl (fun object field => field.relay sent object) start

theorem encode_length {field : Field P} {packet : P} (sendable : field.Sendable packet) :
    (field.encode packet).length ≤ 1002 := by
  cases field with
  | number member =>
      obtain ⟨-, -, narrow⟩ := sendable
      rw [encode, encodeSigned_length]
      omega
  | text get set =>
      obtain ⟨-, short⟩ := sendable
      rw [encode, List.length_append, encodeSigned_length, List.length_take]
      omega

theorem encodeAll_length {fields : List (Field P)} {packet : P}
    (sendable : ∀ field ∈ fields, field.Sendable packet) :
    (fields.flatMap (encode packet)).length ≤ fields.length * 1002 := by
  induction fields with
  | nil => exact Nat.zero_le _
  | cons field rest ih =>
      have here := encode_length (sendable field (by simp))
      have later := ih fun other mem => sendable other (by simp [mem])
      rw [List.flatMap_cons, List.length_append, List.length_cons]
      omega

def Fits (packet : P) : Field P → Prop
  | number member => FitsSigned member.width (member.get packet) ∧ member.width ≠ 0
  | text _ _ => True

def bytes (packet : P) : Field P → List UInt8
  | number member => encodeSigned member.width (member.get packet)
  | text get _ => encodeSigned 2 (get packet).length ++
      (echoBytes (get packet).text).take (get packet).length.toNat

/-- The object that is read over `start`, where the lengths of strings can be any. -/
def reach (sent start : P) : Field P → P
  | number member => member.set start (member.get sent)
  | text get set => set start (get sent).reached

def reachAll (fields : List (Field P)) (sent start : P) : P :=
  fields.foldl (fun object field => field.reach sent object) start

theorem value_reaches {field : Field P} (lawful : field.Lawful) {sent : P}
    (fits : field.Fits sent) (valid : field.Valid sent) (start : P) :
    Relays field.value sent start (field.reach sent start) (field.bytes sent) := by
  cases field with
  | number member =>
      obtain ⟨fits, wide⟩ := fits
      exact Relays.within member.get member.set sent start
        (Relays.scalar wide fits (member.get start)) (lawful sent)
  | text get set =>
      have string := Text.value_reaches valid (get start)
      have same : (Field.text get set).value = fun ser packet => do
          let read ← Text.value ser (get packet)
          return (read.1, set packet read.2) := by
        funext ser packet
        simp only [value, Text.value, Text.ofParts, bind_assoc, pure_bind]
      rw [same]
      exact Relays.within get set sent start string (lawful sent)

theorem value_relays {field : Field P} (lawful : field.Lawful) {sent : P}
    (sendable : field.Sendable sent) (start : P) :
    Relays field.value sent start (field.relay sent start) (field.encode sent) := by
  cases field with
  | number member =>
      obtain ⟨fits, wide, -⟩ := sendable
      exact value_reaches lawful ⟨fits, wide⟩ trivial start
  | text get set =>
      have own : (get sent).Own := sendable
      have string := value_reaches lawful trivial own.inside start
      rwa [reach, bytes, own.reached_eq, own.1, Int.toNat_natCast, ← own.1] at string

theorem values_relays_each {fields : List (Field P)} {sent : P} {read : P → Field P → P}
    {written : Field P → List UInt8}
    (each : ∀ field ∈ fields, ∀ start,
      Relays field.value sent start (read start field) (written field)) (start : P) :
    Relays (values fields) sent start (fields.foldl read start) (fields.flatMap written) := by
  induction fields generalizing start with
  | nil => exact Relays.nothing sent start
  | cons field others ih =>
      have one := each field (by simp) start
      have all := ih (fun other later => each other (by simp [later])) (read start field)
      exact one.andThen all

theorem values_relays {fields : List (Field P)} (lawful : ∀ field ∈ fields, field.Lawful)
    {sent : P} (sendable : ∀ field ∈ fields, field.Sendable sent) (start : P) :
    Relays (values fields) sent start (relayAll fields sent start)
      (fields.flatMap (encode sent)) :=
  values_relays_each (fun field mem => value_relays (lawful field mem) (sendable field mem)) start

theorem values_reaches {fields : List (Field P)} (lawful : ∀ field ∈ fields, field.Lawful)
    {sent : P} (fits : ∀ field ∈ fields, field.Fits sent) (valid : AllValid fields sent)
    (start : P) :
    Relays (values fields) sent start (reachAll fields sent start)
      (fields.flatMap (bytes sent)) :=
  values_relays_each
    (fun field mem => value_reaches (lawful field mem) (fits field mem) (valid field mem)) start

end Field

theorem Class.survives_iff {P : Type} (cls : Class P) {fields : List (Field P)}
    (layout : cls.serialize = Field.values fields) (start sent : P)
    (sendable : ∀ field ∈ fields, field.Lawful ∧ field.Sendable sent) (few : fields.length ≤ 10) :
    Survives cls.serialize (cls.readBody start) sent ↔
      Field.relayAll fields sent start = sent := by
  have relays := Field.values_relays (fun field mem => (sendable field mem).1)
    (fun field mem => (sendable field mem).2) start
  have small := Field.encodeAll_length fun field mem => (sendable field mem).2
  rw [← layout] at relays
  exact relays.survives_iff (by omega)

section Strings

variable {userId password name msg : List UInt16}

theorem packetCSAuth_survives_iff (userShort : (echoBytes userId).length ≤ 1000)
    (passwordShort : (echoBytes password).length ≤ 1000) :
    Survives packetCSAuth.serialize (packetCSAuth.readBody {})
        { userId := .set userId, password := .set password } ↔
      Utf.Narrow userId ∧ Utf.Narrow password := by
  have user := Text.set_own userShort
  have pass := Text.set_own passwordShort
  rw [Class.survives_iff packetCSAuth rfl _ _
    (by simp [PacketCSAuth.fields, Field.Sendable, user, pass]) (by decide)]
  simp [PacketCSAuth.fields, Field.relayAll, Field.relay, Text.cut_eq_iff, Text.set]

theorem packetWDAuthRequest_survives_iff (userShort : (echoBytes userId).length ≤ 1000)
    (passwordShort : (echoBytes password).length ≤ 1000) :
    Survives packetWDAuthRequest.serialize (packetWDAuthRequest.readBody {})
        { userId := .set userId, password := .set password } ↔
      Utf.Narrow userId ∧ Utf.Narrow password := by
  have user := Text.set_own userShort
  have pass := Text.set_own passwordShort
  rw [Class.survives_iff packetWDAuthRequest rfl _ _
    (by simp [PacketWDAuthRequest.fields, Field.Sendable, user, pass]) (by decide)]
  simp [PacketWDAuthRequest.fields, Field.relayAll, Field.relay, Text.cut_eq_iff, Text.set]

theorem packetCSCharacterCreate_survives_iff (short : (echoBytes name).length ≤ 1000) :
    Survives packetCSCharacterCreate.serialize (packetCSCharacterCreate.readBody {})
        { name := .set name } ↔ Utf.Narrow name := by
  have own := Text.set_own short
  rw [Class.survives_iff packetCSCharacterCreate rfl _ _
    (by simp [PacketCSCharacterCreate.fields, Field.Sendable, own]) (by decide)]
  simp [PacketCSCharacterCreate.fields, Field.relayAll, Field.relay, Text.cut_eq_iff, Text.set]

theorem packetCSChat_survives_iff {chatType : Int} (fits : FitsSigned 2 chatType)
    (short : (echoBytes msg).length ≤ 1000) :
    Survives packetCSChat.serialize (packetCSChat.readBody {})
        { chatType := chatType, chatMsg := .set msg } ↔ Utf.Narrow msg := by
  have own := Text.set_own short
  rw [Class.survives_iff packetCSChat rfl _ _
    (by simp [PacketCSChat.fields, Field.Sendable, own, fits]) (by decide)]
  simp [PacketCSChat.fields, Field.relayAll, Field.relay, Text.cut_eq_iff, Text.set]

theorem packetCSEcho_survives_iff (short : (echoBytes msg).length ≤ 1000) :
    Survives packetCSEcho.serialize (packetCSEcho.readBody {}) { msg := .set msg } ↔
      Utf.Narrow msg := by
  have own := Text.set_own short
  rw [Class.survives_iff packetCSEcho rfl _ _
    (by simp [PacketCSEcho.fields, Field.Sendable, own]) (by decide)]
  simp [PacketCSEcho.fields, Field.relayAll, Field.relay, Text.cut_eq_iff, Text.set]

theorem packetSCCharacterCreate_survives_iff {result cid : Int} (resultFits : FitsSigned 4 result)
    (cidFits : FitsSigned 8 cid) (short : (echoBytes name).length ≤ 1000) :
    Survives packetSCCharacterCreate.serialize (packetSCCharacterCreate.readBody {})
        { result := result, cid := cid, name := .set name } ↔ Utf.Narrow name := by
  have own := Text.set_own short
  rw [Class.survives_iff packetSCCharacterCreate rfl _ _
    (by simp [PacketSCCharacterCreate.fields, Field.Sendable, own, resultFits, cidFits])
    (by decide)]
  simp [PacketSCCharacterCreate.fields, Field.relayAll, Field.relay, Text.cut_eq_iff, Text.set]

theorem packetSCEcho_survives_iff {cid : Int} (fits : FitsSigned 8 cid)
    (short : (echoBytes msg).length ≤ 1000) :
    Survives packetSCEcho.serialize (packetSCEcho.readBody {})
        { cid := cid, msg := .set msg } ↔ Utf.Narrow msg := by
  have own := Text.set_own short
  rw [Class.survives_iff packetSCEcho rfl _ _
    (by simp [PacketSCEcho.fields, Field.Sendable, own, fits]) (by decide)]
  simp [PacketSCEcho.fields, Field.relayAll, Field.relay, Text.cut_eq_iff, Text.set]

end Strings

end Common

/-! The classes with strings, with every string stored by its setter. -/

inductive StringPacket
  | networkEcho (msg : List UInt16)
  | networkAnswer (token : Int) (fits : FitsSigned 8 token) (msg : List UInt16)
  | networkProperty (token : Int) (fits : FitsSigned 8 token) (msg : List UInt16)
  | auth (userId password : List UInt16)
  | characterCreate (name : List UInt16)
  | chat (chatType : Int) (fits : FitsSigned 2 chatType) (chatMsg : List UInt16)
  | echo (msg : List UInt16)
  | characterCreated (result cid : Int) (fits : FitsSigned 4 result ∧ FitsSigned 8 cid)
      (name : List UInt16)
  | echoAnswer (cid : Int) (fits : FitsSigned 8 cid) (msg : List UInt16)
  | authRequest (userId password : List UInt16)

namespace StringPacket

def strings : StringPacket → List (List UInt16)
  | networkEcho msg => [msg]
  | networkAnswer _ _ msg => [msg]
  | networkProperty _ _ msg => [msg]
  | auth userId password => [userId, password]
  | characterCreate name => [name]
  | chat _ _ chatMsg => [chatMsg]
  | echo msg => [msg]
  | characterCreated _ _ _ name => [name]
  | echoAnswer _ _ msg => [msg]
  | authRequest userId password => [userId, password]

/-- `networkAnswer` is made by `SetData`. The property `EchoMsg` of that class, unlike the others,
leaves the length as it is, which in a new object is zero. -/
def Survives : StringPacket → Prop
  | networkEcho msg =>
      Sharp.Survives packetCSEcho.serialize (packetCSEcho.readBody {})
        { echoMsgLength := msg.length, echoMsg := msg }
  | networkAnswer token _ msg =>
      Sharp.Survives packetSCEcho.serialize (packetSCEcho.readBody {})
        { token := token, echoMsgLength := msg.length, echoMsg := msg }
  | networkProperty token _ msg =>
      Sharp.Survives packetSCEcho.serialize (packetSCEcho.readBody {})
        { token := token, echoMsg := msg }
  | auth userId password =>
      Sharp.Survives Common.packetCSAuth.serialize (Common.packetCSAuth.readBody {})
        { userId := .set userId, password := .set password }
  | characterCreate name =>
      Sharp.Survives Common.packetCSCharacterCreate.serialize
        (Common.packetCSCharacterCreate.readBody {}) { name := .set name }
  | chat chatType _ chatMsg =>
      Sharp.Survives Common.packetCSChat.serialize (Common.packetCSChat.readBody {})
        { chatType := chatType, chatMsg := .set chatMsg }
  | echo msg =>
      Sharp.Survives Common.packetCSEcho.serialize (Common.packetCSEcho.readBody {})
        { msg := .set msg }
  | characterCreated result cid _ name =>
      Sharp.Survives Common.packetSCCharacterCreate.serialize
        (Common.packetSCCharacterCreate.readBody {})
        { result := result, cid := cid, name := .set name }
  | echoAnswer cid _ msg =>
      Sharp.Survives Common.packetSCEcho.serialize (Common.packetSCEcho.readBody {})
        { cid := cid, msg := .set msg }
  | authRequest userId password =>
      Sharp.Survives Common.packetWDAuthRequest.serialize (Common.packetWDAuthRequest.readBody {})
        { userId := .set userId, password := .set password }

/-- All characters ASCII, but for a replacement character at the end. -/
def Narrow : StringPacket → Prop
  | networkProperty _ _ msg => msg = []
  | packet => ∀ string ∈ packet.strings, Utf.Narrow string

/-- At most 1000 bytes in each string. -/
def Short (packet : StringPacket) : Prop :=
  ∀ string ∈ packet.strings, (echoBytes string).length ≤ 1000

theorem survives_iff_narrow (packet : StringPacket) (short : packet.Short) :
    packet.Survives ↔ packet.Narrow := by
  cases packet with
  | networkEcho msg =>
      have first := short msg (by simp [strings])
      refine (packetCSEcho_survives_iff first).trans ?_
      simp [Narrow, strings]
  | networkAnswer token fits msg =>
      have first := short msg (by simp [strings])
      have own := packetSCEcho_survives_iff fits first (length_le_echoBytes msg)
      refine (own.trans (Utf.cut_eq_iff msg)).trans ?_
      simp [Narrow, strings]
  | networkProperty token fits msg =>
      have first := short msg (by simp [strings])
      exact (packetSCEcho_survives_iff fits first (Nat.zero_le _)).trans eq_comm
  | auth userId password =>
      have user := short userId (by simp [strings])
      have pass := short password (by simp [strings])
      refine (Common.packetCSAuth_survives_iff user pass).trans ?_
      simp [Narrow, strings]
  | characterCreate name =>
      have first := short name (by simp [strings])
      refine (Common.packetCSCharacterCreate_survives_iff first).trans ?_
      simp [Narrow, strings]
  | chat chatType fits chatMsg =>
      have first := short chatMsg (by simp [strings])
      refine (Common.packetCSChat_survives_iff fits first).trans ?_
      simp [Narrow, strings]
  | echo msg =>
      have first := short msg (by simp [strings])
      refine (Common.packetCSEcho_survives_iff first).trans ?_
      simp [Narrow, strings]
  | characterCreated result cid fits name =>
      have first := short name (by simp [strings])
      refine (Common.packetSCCharacterCreate_survives_iff fits.1 fits.2 first).trans ?_
      simp [Narrow, strings]
  | echoAnswer cid fits msg =>
      have first := short msg (by simp [strings])
      refine (Common.packetSCEcho_survives_iff fits first).trans ?_
      simp [Narrow, strings]
  | authRequest userId password =>
      have user := short userId (by simp [strings])
      have pass := short password (by simp [strings])
      refine (Common.packetWDAuthRequest_survives_iff user pass).trans ?_
      simp [Narrow, strings]

theorem survives_iff_narrow_auth :
    (auth [0x61] [0x61, 0xE9]).Survives ↔ (auth [0x61] [0x61, 0xE9]).Narrow := by
  apply survives_iff_narrow
  intro string among
  rcases List.mem_cons.mp among with rfl | other
  · decide
  · obtain rfl := List.mem_singleton.mp other
    decide

/-- The length of one accented letter is one, which cuts it in two. -/
theorem echo_not_survives : (echo [0xE9]).Short ∧ ¬(echo [0xE9]).Survives := by
  have short : (echoBytes [0xE9]).length ≤ 1000 := by decide
  constructor
  · intro string among
    obtain rfl := List.mem_singleton.mp among
    exact short
  · intro survives
    have narrow := (Common.packetCSEcho_survives_iff short).mp survives
    simp [Utf.Narrow] at narrow

end StringPacket

end Sharp

end ProjectPl
