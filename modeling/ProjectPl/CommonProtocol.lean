import ProjectPl.CommonProtocolCore
import ProjectPl.SharpCommon
import ProjectPl.SharpProtocol

/-!
Whether the packets of `PL_Common` fill the buffer that `GetSize` asks for. A writing action spans
a fixed number of bytes once its lengths are right, and throws otherwise. So the frame of a packet
is filled exactly when every string has a length inside its bytes and the sum in `GetSize` is the
span of `Serialize`. For several classes it is not.
-/

namespace ProjectPl

open LittleEndian DotNet

namespace Member

variable {P : Type} (get : P → Int) (set : P → Int → P)

@[simp] theorem int16_width : (int16 get set).width = 2 := rfl

@[simp] theorem int16_get : (int16 get set).get = get := rfl

@[simp] theorem int16_set : (int16 get set).set = set := rfl

@[simp] theorem int16_lawful :
    (int16 get set).Lawful ↔ ∀ packet, set packet (get packet) = packet := Iff.rfl

end Member

namespace Sharp

/-- On a writing serializer with room, the action returns the value and fills `size` bytes, if
`valid`. If it returns at all, it was valid and moved the cursor by that many bytes. -/
structure Spans {V : Type} (action : Serializer → Result (Serializer × V)) (value : V)
    (size : Nat) (valid : Prop) : Prop where
  writes : valid → ∀ (ser : Serializer) (bytes : List UInt8) (room : Nat),
    ser.Wrote bytes (size + room) →
      ∃ next data, data.length = size ∧ action ser = .ok (next, value) ∧
        next.Wrote (bytes ++ data) room
  checks : ∀ (ser next : Serializer) (result : V), ser.write = true →
    action ser = .ok (next, result) →
      valid ∧ result = value ∧ next.write = true ∧ next.offset = ser.offset + size ∧
        next.buffer.length = ser.buffer.length

namespace Spans

section Rules

variable {V W : Type} {action : Serializer → Result (Serializer × V)} {value : V} {size : Nat}
  {valid : Prop}

theorem nothing (value : V) : Spans (fun ser => .ok (ser, value)) value 0 True := by
  constructor
  · intro _ ser bytes room wrote
    exact ⟨ser, [], rfl, rfl, by simpa using wrote⟩
  · intro ser next result writing done
    cases done
    exact ⟨trivial, rfl, writing, rfl, rfl⟩

theorem never {failure : Exception} (throws : ∀ ser, action ser = .error failure) (value : V) :
    Spans action value size False := by
  constructor
  · exact fun impossible => impossible.elim
  · intro ser next result _ done
    cases (throws ser).symm.trans done

theorem andThen (first : Spans action value size valid)
    (rest : V → Serializer → Result (Serializer × W)) {result : W} {more : Nat} {alsoValid : Prop}
    (second : Spans (rest value) result more alsoValid) :
    Spans (fun ser => do let read ← action ser; rest read.2 read.1) result (size + more)
      (valid ∧ alsoValid) := by
  constructor
  · rintro ⟨firstValid, secondValid⟩ ser bytes room wrote
    rw [Nat.add_assoc] at wrote
    obtain ⟨one, front, frontLength, done, oneWrote⟩ := first.writes firstValid ser bytes _ wrote
    obtain ⟨two, back, backLength, alsoDone, twoWrote⟩ :=
      second.writes secondValid one _ room oneWrote
    refine ⟨two, front ++ back, ?_, ?_, ?_⟩
    · rw [List.length_append, frontLength, backLength]
    · rw [done, ok_bind]
      exact alsoDone
    · rwa [← List.append_assoc]
  · intro ser next last writing done
    obtain ⟨⟨one, read⟩, firstDone, secondDone⟩ := bind_eq_ok done
    obtain ⟨firstValid, rfl, oneWriting, oneOffset, oneLength⟩ :=
      first.checks ser one read writing firstDone
    obtain ⟨secondValid, same, nextWriting, nextOffset, nextLength⟩ :=
      second.checks one next last oneWriting secondDone
    refine ⟨⟨firstValid, secondValid⟩, same, nextWriting, ?_, nextLength.trans oneLength⟩
    rw [nextOffset, oneOffset, Nat.add_assoc]

theorem map (spans : Spans action value size valid) (change : V → W) :
    Spans (fun ser => do let read ← action ser; return (read.1, change read.2)) (change value)
      size valid := by
  have both := spans.andThen (fun read ser => .ok (ser, change read)) (nothing (change value))
  constructor
  · intro ok
    exact both.writes ⟨ok, trivial⟩
  · intro ser next result writing done
    obtain ⟨⟨ok, -⟩, rest⟩ := both.checks ser next result writing done
    exact ⟨ok, rest⟩

theorem congr (spans : Spans action value size valid) {other : Nat} {condition : Prop}
    (same : size = other) (iff : valid ↔ condition) : Spans action value other condition := by
  subst same
  exact ⟨fun ok => spans.writes (iff.mpr ok), fun ser next result writing done =>
    (spans.checks ser next result writing done).imp iff.mp id⟩

end Rules

theorem scalar {V : Type} {width : Nat} {encode : V → List UInt8} {decode : List UInt8 → V}
    (value : V) (whole : (encode value).length = width) :
    Spans (fun ser => ser.scalar width encode decode value) value width True := by
  constructor
  · intro _ ser bytes room wrote
    obtain ⟨next, done, written⟩ := Serializer.scalar_wrote value whole wrote
    exact ⟨next, encode value, whole, done, written⟩
  · intro ser next result writing done
    rw [Serializer.scalar, if_pos writing] at done
    obtain ⟨buffer, copied, returned⟩ := bind_eq_ok done
    cases returned
    exact ⟨trivial, rfl, writing, rfl, arrayCopy_length copied (by omega) (by omega)⟩

/-- A string is written up to a length that has to lie inside its bytes. -/
theorem valueString (text : List UInt16) (length : Int) :
    Spans (fun ser => ser.valueString text length) text length.toNat
      (0 ≤ length ∧ length ≤ (echoBytes text).length) := by
  constructor
  · rintro ⟨lower, upper⟩ ser bytes room wrote
    have inside : length.toNat ≤ (echoBytes text).length := by omega
    obtain ⟨next, done, written⟩ := Serializer.valueString_wrote text inside wrote
    rw [Int.toNat_of_nonneg lower] at done
    exact ⟨next, _, List.length_take_of_le inside, done, written⟩
  · intro ser next result writing done
    rw [Serializer.valueString, if_pos writing, ← echoBytes] at done
    obtain ⟨buffer, copied, returned⟩ := bind_eq_ok done
    have inside := (arrayCopy_eq_ok copied).1
    cases returned
    exact ⟨by omega, rfl, writing, rfl, arrayCopy_length copied (by omega) (by omega)⟩

theorem valueCountedString (text : List UInt16) (length : Int) :
    Spans (fun ser => ser.valueCountedString text length) (text, length) (2 + length.toNat)
      (0 ≤ length ∧ length ≤ (echoBytes text).length) := by
  have count : Spans (fun ser => ser.valueInt16 length) length 2 True :=
    scalar length (encodeSigned_length 2 _)
  have both := count.andThen (fun count ser => do
    let text ← ser.valueString text count
    return (text.1, text.2, count)) ((valueString text length).map fun text => (text, length))
  exact both.congr rfl (by simp)

end Spans

namespace Common

/-- The length field lies inside the bytes of the string. -/
def Text.Inside (text : Text) : Prop := 0 ≤ text.length ∧ text.length ≤ (echoBytes text.text).length

theorem Text.length_lt (text : Text) : text.length.toNat < 0x8000 := by
  obtain ⟨length, units, lower, upper⟩ := text
  norm_num at upper ⊢
  omega

theorem int16_length (text : Text) : int16 text.length = text.length := by
  obtain ⟨length, units, lower, upper⟩ := text
  norm_num at lower upper
  apply Int.bmod_eq_of_le_mul_two <;> omega

namespace Field

variable {P Q : Type}

def Lawful : Field P → Prop
  | number member => member.Lawful
  | text get set => ∀ packet, set packet (get packet) = packet

def size (packet : P) : Field P → Nat
  | number member => member.width
  | text get _ => 2 + (get packet).length.toNat

def Valid (packet : P) : Field P → Prop
  | number _ => True
  | text get _ => (get packet).Inside

theorem value_spans {field : Field P} (lawful : field.Lawful) (packet : P) :
    Spans (fun ser => field.value ser packet) packet (field.size packet) (field.Valid packet) := by
  cases field with
  | number member =>
      have number : Spans (fun ser => ser.scalar member.width (encodeSigned member.width)
          decodeSigned (member.get packet)) (member.get packet) member.width True :=
        Spans.scalar _ (encodeSigned_length member.width _)
      have written := number.map fun read => member.set packet read
      rwa [lawful packet] at written
  | text get set =>
      have written := (Spans.valueCountedString (get packet).text (get packet).length).map
        fun read => set packet
          { length := int16 read.2, text := read.1, fits := int16_fitsSigned _ }
      have same : set packet
          { length := int16 (get packet).length, text := (get packet).text,
            fits := int16_fitsSigned _ } = packet := by
        simp only [int16_length]
        exact lawful packet
      rwa [same] at written

def sizes (fields : List (Field P)) (packet : P) : Nat := (fields.map (size packet)).sum

def AllValid (fields : List (Field P)) (packet : P) : Prop := ∀ field ∈ fields, field.Valid packet

section Lists

variable (packet : P) (fields : List (Field P))

@[simp] theorem number_lawful (member : Member P) : (number member).Lawful ↔ member.Lawful :=
  Iff.rfl

@[simp] theorem text_lawful (get : P → Text) (set : P → Text → P) :
    (text get set).Lawful ↔ ∀ packet, set packet (get packet) = packet := Iff.rfl

@[simp] theorem sizes_nil : sizes [] packet = 0 := rfl

@[simp] theorem sizes_number (member : Member P) :
    sizes (number member :: fields) packet = member.width + sizes fields packet := by
  simp [sizes, size]

@[simp] theorem sizes_text (get : P → Text) (set : P → Text → P) :
    sizes (text get set :: fields) packet =
      2 + (get packet).length.toNat + sizes fields packet := by
  simp [sizes, size]

@[simp] theorem allValid_nil : AllValid [] packet := by simp [AllValid]

@[simp] theorem allValid_number (member : Member P) :
    AllValid (number member :: fields) packet ↔ AllValid fields packet := by
  simp [AllValid, Valid]

@[simp] theorem allValid_text (get : P → Text) (set : P → Text → P) :
    AllValid (text get set :: fields) packet ↔ (get packet).Inside ∧ AllValid fields packet := by
  simp [AllValid, Valid]

theorem sizes_within (get : P → Q) (set : P → Q → P) (inner : List (Field Q)) :
    sizes (inner.map (within get set)) packet = sizes inner (get packet) := by
  induction inner with
  | nil => rfl
  | cons field rest ih => cases field <;> simp [within, ih]

end Lists

theorem values_spans {fields : List (Field P)} (lawful : ∀ field ∈ fields, field.Lawful)
    (packet : P) :
    Spans (fun ser => values fields ser packet) packet (sizes fields packet)
      (AllValid fields packet) := by
  induction fields with
  | nil => exact (Spans.nothing packet).congr rfl (by simp [AllValid])
  | cons field rest ih =>
      have first := value_spans (lawful field (by simp)) packet
      have others := ih fun other later => lawful other (by simp [later])
      have both := first.andThen (fun read ser => values rest ser read) others
      exact both.congr (by simp [sizes]) (by simp [AllValid])

theorem within_lawful {get : P → Q} {set : P → Q → P} {field : Field Q}
    (stores : ∀ packet, set packet (get packet) = packet) (lawful : field.Lawful) :
    (within get set field).Lawful := by
  cases field with
  | number member =>
      intro packet
      dsimp only
      rw [lawful, stores]
  | text inner store =>
      intro packet
      dsimp only
      rw [lawful, stores]

theorem map_within_lawful {inner : List (Field Q)} (get : P → Q) (set : P → Q → P)
    (stores : ∀ packet, set packet (get packet) = packet)
    (lawful : ∀ field ∈ inner, field.Lawful) :
    ∀ field ∈ inner.map (within get set), field.Lawful := by
  intro field mem
  obtain ⟨original, inside, rfl⟩ := List.mem_map.mp mem
  exact within_lawful stores (lawful original inside)

end Field

/-! Arrays. -/

theorem valueEach_spans {Q : Type} {value : Serializer → Q → Result (Serializer × Q)}
    {size : Q → Nat} {valid : Q → Prop}
    (each : ∀ element, Spans (fun ser => value ser element) element (size element) (valid element))
    (count : Nat) (array : List Q) :
    Spans (fun ser => valueEach value count array ser) array ((array.take count).map size).sum
      (count ≤ array.length ∧ ∀ element ∈ array.take count, valid element) := by
  induction count generalizing array with
  | zero => exact (Spans.nothing array).congr (by simp) (by simp)
  | succ count ih =>
      cases array with
      | nil => exact (Spans.never (fun _ => rfl) []).congr rfl (by simp)
      | cons element rest =>
          have both := (each element).andThen (fun element ser => do
            let others ← valueEach value count rest ser
            return (others.1, element :: others.2)) ((ih rest).map fun others => element :: others)
          exact both.congr (by simp) (by simp; tauto)

theorem valueReference_spans {Q : Type} {fields : List (Field Q)}
    (lawful : ∀ field ∈ fields, field.Lawful) (record : Option Q) :
    Spans (fun ser => valueReference fields ser record) record
      (record.elim 0 (Field.sizes fields)) (record.elim False (Field.AllValid fields)) := by
  cases record with
  | none => exact Spans.never (fun _ => rfl) none
  | some record => exact (Field.values_spans lawful record).map some

/-! Frames. -/

theorem uint32_spans (value : Nat) : Spans (fun ser => ser.valueUInt32 value) value 4 True :=
  Spans.scalar value (encode_length 4 value)

theorem int32_spans (value : Int) : Spans (fun ser => ser.valueInt32 value) value 4 True :=
  Spans.scalar value (encodeSigned_length 4 value)

theorem counted_spans {P Q : Type} {value : Serializer → Q → Result (Serializer × Q)}
    {size : Q → Nat} {valid : Q → Prop}
    (each : ∀ element, Spans (fun ser => value ser element) element (size element) (valid element))
    (make : Int → List Q → P) (count : Int) (array : List Q) :
    Spans (fun ser => do
        let number ← ser.valueInt32 count
        let elements ← valueEach value number.2.toNat array number.1
        return (elements.1, make number.2 elements.2))
      (make count array) (4 + ((array.take count.toNat).map size).sum)
      (count.toNat ≤ array.length ∧ ∀ element ∈ array.take count.toNat, valid element) := by
  have elements := (valueEach_spans each count.toNat array).map (make count)
  have both := (int32_spans count).andThen (fun count ser => do
    let elements ← valueEach value count.toNat array ser
    return (elements.1, make count elements.2)) elements
  exact both.congr rfl (by simp)

theorem head_spans (head : PacketHead) : Spans head.serialize head 8 True := by
  have both := (uint32_spans head.checkHead).andThen
    (fun check ser => do
      let length ← ser.valueInt32 head.packetLength
      return (length.1, ({ checkHead := check, packetLength := length.2 } : PacketHead)))
    ((int32_spans head.packetLength).map fun length => PacketHead.mk head.checkHead length)
  exact both.congr rfl (by simp)

theorem tail_spans (tail : PacketTail) : Spans tail.serialize tail 12 True := by
  have two := (uint32_spans tail.packetSeq).andThen
    (fun seq ser => do
      let time ← ser.valueUInt32 tail.packetTime
      return (time.1, ({ checkTail := tail.checkTail, packetSeq := seq, packetTime := time.2 } :
        PacketTail)))
    ((uint32_spans tail.packetTime).map fun time =>
      PacketTail.mk tail.checkTail tail.packetSeq time)
  have three := (uint32_spans tail.checkTail).andThen
    (fun check ser => do
      let seq ← ser.valueUInt32 tail.packetSeq
      let time ← seq.1.valueUInt32 tail.packetTime
      return (time.1, ({ checkTail := check, packetSeq := seq.2, packetTime := time.2 } :
        PacketTail)))
    two
  exact three.congr rfl (by simp)

/-! What `PacketSerializer` does, in either library. -/

section Frame

variable {T : Type}

/-- What `PacketSerializer` writes in front of the tail. -/
def frameFront (dialect : Dialect T) (base : PacketBase T) (head : PacketHead) (ser : Serializer) :
    Result (Serializer × Unit) := do
  let headed ← head.serialize ser
  let packetType ← dialect.valueType headed.1 base.packetType
  let written ← base.serialize packetType.1
  return (written, ())

theorem packetSerializer_front (dialect : Dialect T) (base : PacketBase T) :
    packetSerializer dialect base = (do
      let length := int32 (PacketHead.length + base.getSize + PacketTail.length)
      let ser ← Serializer.ofLength length
      let front ← frameFront dialect base { packetLength := length } ser
      let tail ← PacketTail.serialize {} front.1
      return tail.1) := by
  simp only [packetSerializer, frameFront, bind_assoc, pure_bind]

/-- The body as an action that returns nothing but its serializer. -/
def bodyWriter (base : PacketBase T) (ser : Serializer) : Result (Serializer × Unit) := do
  let written ← base.serialize ser
  return (written, ())

theorem frameFront_spans {dialect : Dialect T} {base : PacketBase T} {size : Nat} {valid : Prop}
    (typed : (dialect.encodeType base.packetType).length = 4)
    (spans : Spans (bodyWriter base) () size valid) (head : PacketHead) :
    Spans (frameFront dialect base head) () (8 + (4 + size)) valid := by
  have number : Spans (fun ser => dialect.valueType ser base.packetType) base.packetType 4 True :=
    Spans.scalar _ typed
  have both := number.andThen (fun _ ser => bodyWriter base ser) spans
  have all := (head_spans head).andThen (fun _ ser => do
    let packetType ← dialect.valueType ser base.packetType
    bodyWriter base packetType.1) both
  exact all.congr rfl (by simp)

/-- The buffer is filled to its end, which is where the tail is: the bytes between the head and
the tail are as many as `GetSize` says. -/
def FrameFilled (dialect : Dialect T) (base : PacketBase T) (ser : Serializer) : Prop :=
  packetSerializer dialect base = .ok ser ∧
    (ser.buffer.length : Int) = 8 + base.getSize + 12 ∧ ser.offset = ser.buffer.length ∧
    ser.buffer.drop (ser.buffer.length - 12) = tailBytes

section Filled

variable {dialect : Dialect T} {base : PacketBase T} {size : Nat} {valid : Prop}

theorem FrameFilled.sizes {ser : Serializer} (filled : FrameFilled dialect base ser)
    (typed : (dialect.encodeType base.packetType).length = 4)
    (spans : Spans (bodyWriter base) () size valid) :
    valid ∧ base.getSize = 4 + size ∧ size + 24 < 0x80000000 := by
  obtain ⟨written, length, offset, -⟩ := filled
  rw [packetSerializer_front] at written
  obtain ⟨blank, created, done⟩ := bind_eq_ok written
  obtain ⟨⟨one, none⟩, frontDone, rest⟩ := bind_eq_ok done
  obtain ⟨⟨two, tail⟩, tailDone, last⟩ := bind_eq_ok rest
  cases last
  obtain ⟨bytes, blankMade, blankEq⟩ := bind_eq_ok created
  cases blankEq
  obtain ⟨ok, -, writing, oneOffset, oneLength⟩ :=
    (frameFront_spans typed spans _).checks _ _ _ rfl frontDone
  obtain ⟨-, -, -, twoOffset, twoLength⟩ := (tail_spans {}).checks _ _ _ writing tailDone
  have upper := (int32_fitsSigned (PacketHead.length + base.getSize + PacketTail.length)).2
  rw [newBytes] at blankMade
  split at blankMade
  next => cases blankMade
  next positive =>
    cases blankMade
    dsimp only at oneOffset length offset twoOffset oneLength twoLength
    rw [List.length_replicate] at oneLength
    norm_num at upper
    exact ⟨ok, by omega, by omega⟩

theorem packetSerializer_fills (typed : (dialect.encodeType base.packetType).length = 4)
    (spans : Spans (bodyWriter base) () size valid) (ok : valid) (own : base.getSize = 4 + size)
    (small : size + 24 < 0x80000000) : ∃ ser, FrameFilled dialect base ser := by
  have total : int32 (PacketHead.length + base.getSize + PacketTail.length) =
      ((8 + (4 + size) + 12 : Nat) : Int) := by
    rw [PacketHead.length, PacketTail.length, own, int32_of_fits (by omega) (by omega)]
    omega
  obtain ⟨ser, created, blank⟩ := Serializer.ofLength_wrote (8 + (4 + size) + 12)
  obtain ⟨one, data, dataLength, frontDone, oneWrote⟩ :=
    (frameFront_spans typed spans _).writes ok ser [] 12 blank
  obtain ⟨two, tailDone, twoWrote⟩ := PacketTail.serialize_wrote {} oneWrote
  have buffer := twoWrote.buffer_eq
  have cursor := twoWrote.cursor
  rw [List.nil_append, List.append_assoc, List.append_assoc] at buffer cursor
  have whole : two.buffer = data ++ tailBytes := buffer
  have tailLength : tailBytes.length = 12 := rfl
  have count : two.buffer.length = 8 + (4 + size) + 12 := by
    rw [whole, List.length_append, dataLength, tailLength]
  refine ⟨two, ?_, ?_, ?_, ?_⟩
  · rw [packetSerializer_front, total]
    dsimp only
    rw [created, ok_bind, frontDone, ok_bind, tailDone]
    rfl
  · rw [count, own]
    omega
  · rw [cursor, buffer]
  · have before : two.buffer.length - 12 = data.length := by
      rw [count, dataLength]
      omega
    rw [before, whole, List.drop_left]

theorem packetSerializer_fills_iff (typed : (dialect.encodeType base.packetType).length = 4)
    (spans : Spans (bodyWriter base) () size valid) :
    (∃ ser, FrameFilled dialect base ser) ↔
      valid ∧ base.getSize = 4 + size ∧ size + 24 < 0x80000000 := by
  constructor
  · rintro ⟨ser, filled⟩
    exact filled.sizes typed spans
  · rintro ⟨ok, own, small⟩
    exact packetSerializer_fills typed spans ok own small

end Filled

end Frame

/-- `PacketSerializer` returns a buffer that is filled to its end, which is where the tail is: the
bytes between the head and the tail are as many as `GetSize` says. -/
def Class.FillsFrame {P : Type} (cls : Class P) (packet : P) : Prop :=
  ∃ base ser, cls.base packet = .ok base ∧ packetSerializer .plCommon base = .ok ser ∧
    (ser.buffer.length : Int) = 8 + base.getSize + 12 ∧ ser.offset = ser.buffer.length ∧
    ser.buffer.drop (ser.buffer.length - 12) = tailBytes

section Classes

variable {P : Type} {cls : Class P} {packet : P} {size : Nat} {valid : Prop} {getSize : Int}

theorem Class.fillsFrame_iff
    (spans : Spans (fun ser => cls.serialize ser packet) packet size valid)
    (returned : cls.getSize packet = .ok getSize) (small : size < 0x10000000) :
    cls.FillsFrame packet ↔ valid ∧ int32 getSize = 4 + size := by
  obtain ⟨base, made, sizeEq, body, typed⟩ : ∃ base, cls.base packet = .ok base ∧
      base.getSize = int32 getSize ∧ bodyWriter base = (fun ser => do
        let written ← cls.serialize ser packet
        return (written.1, ())) ∧
      (Dialect.plCommon.encodeType base.packetType).length = 4 := by
    rw [Class.base, returned]
    refine ⟨_, rfl, rfl, ?_, encodeSigned_length 4 _⟩
    funext ser
    simp only [bodyWriter, bind_assoc, pure_bind]
  have written : Spans (bodyWriter base) () size valid := body ▸ spans.map fun _ => ()
  have fills := packetSerializer_fills_iff typed written
  rw [sizeEq] at fills
  constructor
  · rintro ⟨other, ser, same, filled⟩
    obtain rfl : base = other := Except.ok.inj (made.symm.trans same)
    obtain ⟨ok, own, -⟩ := fills.mp ⟨ser, filled⟩
    exact ⟨ok, own⟩
  · rintro ⟨ok, own⟩
    obtain ⟨ser, filled⟩ := fills.mpr ⟨ok, own, by omega⟩
    exact ⟨base, ser, made, filled⟩

/-- A class whose `GetSize` throws has no frames. -/
theorem Class.not_fillsFrame {failure : Exception}
    (thrown : cls.getSize packet = .error failure) : ¬cls.FillsFrame packet := by
  rintro ⟨base, ser, made, -⟩
  rw [Class.base, thrown] at made
  cases made

theorem Class.fields_fillsFrame_iff {fields : List (Field P)}
    (layout : cls.serialize = Field.values fields) (lawful : ∀ field ∈ fields, field.Lawful)
    (returned : cls.getSize packet = .ok getSize)
    (small : Field.sizes fields packet < 0x10000000) :
    cls.FillsFrame packet ↔
      Field.AllValid fields packet ∧ int32 getSize = 4 + Field.sizes fields packet := by
  apply Class.fillsFrame_iff _ returned small
  rw [layout]
  exact Field.values_spans lawful packet

/-- A class whose `GetSize` adds up the lengths of its fields. -/
theorem Class.sized_fillsFrame_iff {fields : List (Field P)}
    (layout : cls.serialize = Field.values fields) (lawful : ∀ field ∈ fields, field.Lawful)
    (returned : cls.getSize packet = .ok getSize)
    (small : Field.sizes fields packet < 0x10000000)
    (agrees : Field.AllValid fields packet → getSize = 4 + Field.sizes fields packet) :
    cls.FillsFrame packet ↔ Field.AllValid fields packet := by
  rw [Class.fields_fillsFrame_iff layout lawful returned small]
  constructor
  · exact And.left
  · intro valid
    rw [agrees valid, int32_of_fits (by omega) (by omega)]
    exact ⟨valid, rfl⟩

/-- A class of numbers only. -/
theorem Class.fillsFrame_of_numbers {fields : List (Field P)}
    (layout : cls.serialize = Field.values fields) (returned : cls.getSize packet = .ok getSize)
    (numbers : (∀ field ∈ fields, field.Lawful) ∧ Field.AllValid fields packet ∧
      getSize = 4 + Field.sizes fields packet ∧ Field.sizes fields packet < 0x10000000) :
    cls.FillsFrame packet := by
  obtain ⟨lawful, valid, agrees, small⟩ := numbers
  exact (Class.sized_fillsFrame_iff layout lawful returned small fun _ => agrees).mpr valid

end Classes

end Common

end Sharp

end ProjectPl
