import ProjectPl.CommonFrames
import ProjectPl.RecordsCore
import ProjectPl.SharpStrings

/-!
Records and lists of `PL_Common` that are written and read again. Reading goes over a new object,
field by field, so an object comes back if the new object already has what is not on the wire. The
position of a `CharacterDbInfo` is not on it, and there are no records to read the characters of
`PacketSC_EnterOtherCharacter` into. A name comes back if its length is that of the text.
-/

namespace ProjectPl.Sharp

open LittleEndian DotNet

section ReadsBack

variable {P : Type} (serialize : Serializer → P → Result (Serializer × P))

/-- A buffer of `room` bytes up to the cursor that `serialize` leaves. -/
def writtenBytes (sent : P) (room : Nat) : Result (List UInt8) := do
  let ser ← Serializer.ofLength room
  let written ← serialize ser sent
  return written.1.buffer.take written.1.offset

def readOver (start : P) (data : List UInt8) : Result P := do
  let ser ← Serializer.ofBuffer data data.length
  let read ← serialize ser start
  return read.2

/-- Any buffer with room takes the bytes of `sent`, and what is read from them is `back`. -/
def ReadsBack (start sent back : P) : Prop :=
  ∃ data, (∀ room : Nat, data.length ≤ room → writtenBytes serialize sent room = .ok data) ∧
    readOver serialize start data = .ok back

end ReadsBack

section Rules

variable {P : Type} {serialize : Serializer → P → Result (Serializer × P)}
  {start sent received back : P} {data : List UInt8}

theorem Relays.readsBack (relays : Relays serialize sent start received data) :
    ReadsBack serialize start sent received := by
  refine ⟨data, ?_, ?_⟩
  · intro room enough
    obtain ⟨ser, next, created, written, front⟩ := relays.produced enough
    rw [writtenBytes, created, ok_bind, written, ok_bind, front]
    rfl
  · obtain ⟨ser, next, created, read⟩ := relays.consumed
    rw [readOver, created, ok_bind, read]
    rfl

theorem ReadsBack.unique (one : ReadsBack serialize start sent received)
    (other : ReadsBack serialize start sent back) : received = back := by
  obtain ⟨data, written, read⟩ := one
  obtain ⟨same, alsoWritten, alsoRead⟩ := other
  have first := written (data.length + same.length) (by omega)
  have second := alsoWritten (data.length + same.length) (by omega)
  obtain rfl : data = same := Except.ok.inj (first.symm.trans second)
  exact Except.ok.inj (read.symm.trans alsoRead)

theorem Relays.readsBack_iff (relays : Relays serialize sent start received data) :
    ReadsBack serialize start sent back ↔ received = back := by
  constructor
  · exact relays.readsBack.unique
  · rintro rfl
    exact relays.readsBack

theorem ReadsBack.valid {size : Nat} {valid : Prop}
    (spans : Spans (fun ser => serialize ser sent) sent size valid)
    (readsBack : ReadsBack serialize start sent back) : valid := by
  obtain ⟨data, written, -⟩ := readsBack
  obtain ⟨ser, created, body⟩ := bind_eq_ok (written data.length (Nat.le_refl _))
  obtain ⟨⟨next, result⟩, done, -⟩ := bind_eq_ok body
  obtain ⟨blank, -, returned⟩ := bind_eq_ok created
  cases returned
  exact (spans.checks _ next result rfl done).1

end Rules

namespace Common

theorem Field.readsBack_iff {P : Type} {fields : List (Field P)} {sent : P}
    (lawful : ∀ field ∈ fields, field.Lawful) (fits : ∀ field ∈ fields, field.Fits sent)
    (start back : P) :
    ReadsBack (values fields) start sent back ↔
      AllValid fields sent ∧ reachAll fields sent start = back := by
  constructor
  · intro readsBack
    have valid := readsBack.valid (values_spans lawful sent)
    exact ⟨valid, (values_reaches lawful fits valid start).readsBack_iff.mp readsBack⟩
  · rintro ⟨valid, same⟩
    exact (values_reaches lawful fits valid start).readsBack_iff.mpr same

/-! Names. -/

theorem arrived_of_ascii {text : List UInt16} (ascii : ∀ unit ∈ text, unit.toNat < 0x80)
    (length : Nat) : arrived text length = text.take length :=
  Utf.decode_take_ascii ascii length

theorem Text.reached_eq_iff {text : Text} (ascii : ∀ unit ∈ text.text, unit.toNat < 0x80) :
    text.Inside ∧ text.reached = text ↔ text.length = text.text.length := by
  have bytes : (echoBytes text.text).length = text.text.length :=
    Utf.utf8Encode_length_of_ascii ascii
  have same : text.reached = text ↔ text.text.length ≤ text.length.toNat := by
    rw [← List.take_eq_self_iff, ← arrived_of_ascii ascii]
    constructor
    · exact congrArg Text.text
    · intro same
      rw [Text.reached, same]
  rw [same, Text.Inside, bytes]
  omega

/-- The setter keeps the length of a name that has less than 32768 characters. -/
theorem Text.set_length_iff (name : List UInt16) :
    (Text.set name).length = (Text.set name).text.length ↔ name.length < 0x8000 := by
  dsimp only [Text.set]
  constructor
  · intro same
    have upper := (int16_fitsSigned name.length).2
    norm_num at upper
    omega
  · intro short
    apply Int.bmod_eq_of_le_mul_two <;> omega

/-! Arrays that `SetData` fills. -/

theorem foldlM_filled {P Q : Type} {setData : P → Q → Result P} {filled : List Q → P} {size : Nat}
    (each : ∀ front value, front.length < size →
      setData (filled front) value = .ok (filled (front ++ [value])))
    (front : List Q) {values : List Q} (few : (front ++ values).length ≤ size) :
    values.foldlM setData (filled front) = .ok (filled (front ++ values)) := by
  induction values generalizing front with
  | nil =>
      rw [List.append_nil]
      rfl
  | cons value rest ih =>
      rw [List.append_cons] at few ⊢
      have room : front.length < size := by
        rw [List.length_append, List.length_append, List.length_singleton] at few
        omega
      rw [List.foldlM_cons, each front value room, ok_bind, ih (front ++ [value]) few]

namespace PacketSCLeaveOtherCharacter

def ofCids (cids : List Int) : PacketSCLeaveOtherCharacter where
  count := cids.length
  leaveCharacterCid := cids ++ List.replicate (20 - cids.length) 0

theorem setData_ofCids (cids : List Int) (cid : Int) (room : cids.length < 20) :
    (ofCids cids).setData cid = .ok (ofCids (cids ++ [cid])) := by
  have array : (ofCids cids).leaveCharacterCid.length = 20 := by
    simp only [ofCids, List.length_append, List.length_replicate]
    omega
  have count : (ofCids cids).count = cids.length := rfl
  rw [setData, if_neg (by omega), count, Int.toNat_natCast, ofCids, set_front cids cid 0 room]
  simp [ofCids]

theorem foldlM_setData {cids : List Int} (few : cids.length ≤ 20) :
    cids.foldlM setData {} = .ok (ofCids cids) :=
  foldlM_filled setData_ofCids [] few

end PacketSCLeaveOtherCharacter

namespace PacketSCEnterOtherCharacter

def ofInfos (infos : List CharacterInfo) : PacketSCEnterOtherCharacter where
  count := infos.length
  characters := infos.map some ++ List.replicate (20 - infos.length) none

theorem setData_ofInfos (infos : List CharacterInfo) (info : CharacterInfo)
    (room : infos.length < 20) :
    (ofInfos infos).setData info = .ok (ofInfos (infos ++ [info])) := by
  have count : (ofInfos infos).count = infos.length := rfl
  have placed := set_front (infos.map some) (some info) none (by rwa [List.length_map])
  rw [List.length_map] at placed
  rw [setData, if_pos (by omega), if_neg (by omega), count, Int.toNat_natCast, ofInfos, placed]
  simp [ofInfos]

theorem foldlM_setData {infos : List CharacterInfo} (few : infos.length ≤ 20) :
    infos.foldlM setData {} = .ok (ofInfos infos) :=
  foldlM_filled setData_ofInfos [] few

end PacketSCEnterOtherCharacter

/-! Reading the arrays. -/

theorem valueEach_relays {Q : Type} {value : Serializer → Q → Result (Serializer × Q)}
    {encode : Q → List UInt8} {sent : List Q} {count : Nat}
    (each : ∀ element ∈ sent.take count, ∀ start,
      Relays value element start element (encode element))
    (inside : count ≤ sent.length) {start : List Q} (room : count ≤ start.length) :
    Relays (fun ser array => valueEach value count array ser) sent start
      (sent.take count ++ start.drop count) ((sent.take count).flatMap encode) := by
  induction count generalizing sent start with
  | zero => exact Relays.nothing sent start
  | succ count ih =>
      obtain ⟨element, others, rfl⟩ := List.exists_cons_of_length_pos (Nat.zero_lt_of_lt inside)
      obtain ⟨old, behind, rfl⟩ := List.exists_cons_of_length_pos (Nat.zero_lt_of_lt room)
      have one := each element (by simp) old
      have all := ih (fun other later => each other (by simp [later]))
        (Nat.le_of_succ_le_succ inside) (Nat.le_of_succ_le_succ room)
      have both := Relays.pair (old, behind) one
        (fun _ ser array => valueEach value count array ser) all
      rw [List.take_succ_cons, List.flatMap_cons]
      apply Relays.image (fun pair => pair.1 :: pair.2) _ both
      intro ser pair
      simp only [valueEach, bind_assoc, pure_bind]

def countedArray {Q : Type} (value : Serializer → Q → Result (Serializer × Q)) (ser : Serializer)
    (pair : Int × List Q) : Result (Serializer × Int × List Q) := do
  let count ← ser.valueInt32 pair.1
  let each ← valueEach value count.2.toNat pair.2 count.1
  return (each.1, count.2, each.2)

theorem countedArray_relays {Q : Type} {value : Serializer → Q → Result (Serializer × Q)}
    {encode : Q → List UInt8} {sent : List Q} {count : Nat}
    (each : ∀ element ∈ sent.take count, ∀ start,
      Relays value element start element (encode element)) (fits : FitsSigned 4 count)
    (inside : count ≤ sent.length) {start : Int × List Q} (room : count ≤ start.2.length) :
    Relays (countedArray value) (count, sent) start (count, sent.take count ++ start.2.drop count)
      (encodeSigned 4 count ++ (sent.take count).flatMap encode) := by
  have number : Relays Serializer.valueInt32 count start.1 count (encodeSigned 4 count) :=
    Relays.scalar (by decide) fits start.1
  exact Relays.pair start number (fun count ser array => valueEach value count.toNat array ser)
    (valueEach_relays each inside room)

theorem PacketSCLeaveOtherCharacter.readsBack {cids : List Int} (few : cids.length ≤ 20)
    (fits : ∀ cid ∈ cids, FitsSigned 8 cid) :
    ReadsBack packetSCLeaveOtherCharacter.serialize {} (ofCids cids) (ofCids cids) := by
  have countFits : FitsSigned 4 (cids.length : Int) := by constructor <;> norm_num <;> omega
  have sent : (ofCids cids).leaveCharacterCid.take cids.length = cids := List.take_left
  have each : ∀ cid ∈ (ofCids cids).leaveCharacterCid.take cids.length, ∀ start,
      Relays Serializer.valueInt64 cid start cid (encodeSigned 8 cid) := by
    intro cid among start
    exact Relays.scalar (by decide) (fits cid (sent ▸ among)) start
  have array := Relays.within
    (fun packet : PacketSCLeaveOtherCharacter => (packet.count, packet.leaveCharacterCid))
    (fun _ pair => { count := pair.1, leaveCharacterCid := pair.2 }) (ofCids cids) {}
    (countedArray_relays each countFits (by simp [ofCids]) (by simpa using few)) rfl
  have same : packetSCLeaveOtherCharacter.serialize = fun ser packet => do
      let read ← countedArray Serializer.valueInt64 ser (packet.count, packet.leaveCharacterCid)
      return (read.1, { count := read.2.1, leaveCharacterCid := read.2.2 }) := by
    funext ser packet
    simp only [packetSCLeaveOtherCharacter, countedArray, bind_assoc, pure_bind]
  have received := array.readsBack
  rw [← same, sent] at received
  dsimp only at received
  rwa [List.drop_replicate] at received

/-- No object with records is read, because there is none to read them into. -/
theorem PacketSCEnterOtherCharacter.readsBack_iff (infos : List CharacterInfo) :
    ReadsBack packetSCEnterOtherCharacter.serialize {} (ofInfos infos) (ofInfos infos) ↔
      infos = [] := by
  constructor
  · rintro ⟨data, -, read⟩
    have count : (infos.length : Int) ≤ 0 := (null_of_readBody read).1
    exact List.eq_nil_of_length_eq_zero (by omega)
  · rintro rfl
    have nothing : ∀ element ∈ (ofInfos []).characters.take 0, ∀ start,
        Relays (valueReference CharacterInfo.fields) element start element [] := by
      intro element among
      cases among
    have array := Relays.within
      (fun packet : PacketSCEnterOtherCharacter => (packet.count, packet.characters))
      (fun _ pair => { count := pair.1, characters := pair.2 }) (ofInfos []) {}
      (countedArray_relays nothing (by decide) (Nat.zero_le _) (Nat.zero_le _)) rfl
    have same : packetSCEnterOtherCharacter.serialize = fun ser packet => do
        let read ← countedArray (valueReference CharacterInfo.fields) ser
          (packet.count, packet.characters)
        return (read.1, { count := read.2.1, characters := read.2.2 }) := by
      funext ser packet
      simp only [packetSCEnterOtherCharacter, countedArray, bind_assoc, pure_bind]
    have received := array.readsBack
    rwa [← same] at received

/-! Records. -/

theorem Position.setPos_returns_iff (pos : Position) (zone x y z : Int) :
    (pos.setPos zone x y z).getPos = (x, y, z) ∧ (pos.setPos zone x y z).getZone = zone ↔
      x = z ∧ pos.z = z := by
  simp [setPos, getPos, getZone, eq_comm]

theorem Field.readsBack_of_numbers {P : Type} {fields : List (Field P)} {sent start : P}
    (lawful : ∀ field ∈ fields, field.Lawful) (fits : ∀ field ∈ fields, field.Fits sent)
    (numbers : AllValid fields sent) (all : reachAll fields sent start = sent) :
    ReadsBack (values fields) start sent sent :=
  (readsBack_iff lawful fits start sent).mpr ⟨numbers, all⟩

theorem Position.readsBack {pos : Position} (fits : ∀ field ∈ fields, field.Fits pos) :
    ReadsBack (Field.values fields) {} pos pos :=
  Field.readsBack_of_numbers fields_lawful fits (by simp [fields]) rfl

theorem PacketSCMove.readsBack {packet : PacketSCMove}
    (fits : ∀ field ∈ fields, field.Fits packet) :
    ReadsBack packetSCMove.serialize {} packet packet :=
  Field.readsBack_of_numbers fields_lawful fits packet.allValid_fields rfl

theorem PacketSCCharacterDelete.readsBack {packet : PacketSCCharacterDelete}
    (fits : ∀ field ∈ fields, field.Fits packet) :
    ReadsBack packetSCCharacterDelete.serialize {} packet packet :=
  Field.readsBack_of_numbers fields_lawful fits (by simp [fields]) rfl

theorem CharacterInfo.readsBack_iff {info : CharacterInfo}
    (fits : ∀ field ∈ fields, field.Fits info)
    (ascii : ∀ unit ∈ info.name.text, unit.toNat < 0x80) :
    ReadsBack (Field.values fields) new info info ↔ info.name.length = info.name.text.length := by
  have reached : Field.reachAll fields info new = { info with name := info.name.reached } := by
    simp [Field.reachAll, Field.reach, fields, Position.fields, Field.within]
  rw [Field.readsBack_iff fields_lawful fits, allValid_fields, ← Text.reached_eq_iff ascii, reached]
  refine and_congr_right fun _ => ⟨congrArg CharacterInfo.name, ?_⟩
  intro same
  rw [same]

namespace CharacterDbInfo

theorem fields_lawful : ∀ field ∈ fields, field.Lawful := by
  simp [fields]

theorem allValid_fields (info : CharacterDbInfo) :
    Field.AllValid fields info ↔ info.name.Inside := by
  simp [fields]

/-- `GetSize` counts the 16 bytes of the position that are not written. -/
theorem getSize_eq {info : CharacterDbInfo} (inside : info.name.Inside) :
    info.getSize = Field.sizes fields info + 16 := by
  have lower : 0 ≤ info.name.length := inside.1
  simp [fields, getSize, Position.getSize]
  omega

theorem readsBack_iff {info : CharacterDbInfo} (fits : ∀ field ∈ fields, field.Fits info)
    (ascii : ∀ unit ∈ info.name.text, unit.toNat < 0x80) :
    ReadsBack (Field.values fields) new info info ↔
      info.pos = {} ∧ info.name.length = info.name.text.length := by
  have reached : Field.reachAll fields info new =
      { info with name := info.name.reached, pos := {} } := rfl
  rw [Field.readsBack_iff fields_lawful fits, allValid_fields, ← Text.reached_eq_iff ascii, reached]
  constructor
  · rintro ⟨inside, same⟩
    exact ⟨(congrArg CharacterDbInfo.pos same).symm, inside, congrArg CharacterDbInfo.name same⟩
  · rintro ⟨home, inside, same⟩
    rw [same, ← home]
    exact ⟨inside, rfl⟩

end CharacterDbInfo

/-- Both orders in which the two properties can be set. -/
def PacketSCCharacterDelete.filled (result deleteCid : Int) : List PacketSCCharacterDelete :=
  [(setResult {} result).setDeleteCid deleteCid, (setDeleteCid {} deleteCid).setResult result]

theorem PacketSCCharacterDelete.returned_iff {result deleteCid : Int}
    (fits : FitsSigned 8 result ∧ FitsSigned 8 deleteCid) :
    (∀ sent ∈ filled result deleteCid,
      ∃ back, ReadsBack packetSCCharacterDelete.serialize {} sent back ∧
        back.getResult = result ∧ back.getDeleteCid = deleteCid) ↔ result = deleteCid := by
  have wide : ∀ value, FitsSigned 8 value → ∀ field ∈ fields, field.Fits (setResult {} value) := by
    intro value fits
    simp [fields, Field.Fits, setResult, fits]
    decide
  constructor
  · intro each
    obtain ⟨back, read, first, second⟩ := each _ (List.mem_cons_self ..)
    exact first.symm.trans second
  · rintro rfl sent among
    have same : sent = setResult {} result := by
      simpa [filled, setResult, setDeleteCid] using among
    exact ⟨sent, readsBack (same ▸ wide result fits.1), by rw [same]; exact ⟨rfl, rfl⟩⟩

end Common

theorem ItemDbInfo.readsBack {item : ItemDbInfo} (fits : ∀ field ∈ fields, field.Fits item) :
    ReadsBack (Common.Field.values fields) {} item item :=
  Common.Field.readsBack_of_numbers (by simp [fields]) fits (by simp [fields]) rfl

namespace Common

/-- What is written and read again, with the values that it is filled with. -/
inductive Record
  | placed (before : Position) (zone x y z : Int)
  | position (pos : Position) (fits : ∀ field ∈ Position.fields, field.Fits pos)
  | item (info : ItemDbInfo) (fits : ∀ field ∈ ItemDbInfo.fields, field.Fits info)
  | characterDb (uid cid : Int) (fits : FitsSigned 8 uid ∧ FitsSigned 8 cid) (name : List UInt16)
      (ascii : ∀ unit ∈ name, unit.toNat < 0x80) (pos : Position)
  | character (info : CharacterInfo) (fits : ∀ field ∈ CharacterInfo.fields, field.Fits info)
      (ascii : ∀ unit ∈ info.name.text, unit.toNat < 0x80)
  | move (packet : PacketSCMove) (fits : ∀ field ∈ PacketSCMove.fields, field.Fits packet)
  | enterOther (infos : List CharacterInfo) (few : infos.length ≤ 20)
  | leaveOther (cids : List Int) (few : cids.length ≤ 20) (fits : ∀ cid ∈ cids, FitsSigned 8 cid)
  | characterDelete (result deleteCid : Int) (fits : FitsSigned 8 result ∧ FitsSigned 8 deleteCid)

namespace Record

/-- The values come back from the setters of `Position`, and all others from the wire. -/
def RoundTrips : Record → Prop
  | placed before zone x y z =>
      (before.setPos zone x y z).getPos = (x, y, z) ∧ (before.setPos zone x y z).getZone = zone
  | position pos _ => ReadsBack (Field.values Position.fields) {} pos pos
  | item info _ => ReadsBack (Field.values ItemDbInfo.fields) {} info info
  | characterDb uid cid _ name _ pos =>
      ReadsBack (Field.values CharacterDbInfo.fields) .new
        { uid := uid, cid := cid, name := .set name, pos := pos }
        { uid := uid, cid := cid, name := .set name, pos := pos }
  | character info _ _ => ReadsBack (Field.values CharacterInfo.fields) .new info info
  | move packet _ => ReadsBack packetSCMove.serialize {} packet packet
  | enterOther infos _ =>
      ∃ sent, infos.foldlM PacketSCEnterOtherCharacter.setData {} = .ok sent ∧
        ReadsBack packetSCEnterOtherCharacter.serialize {} sent sent
  | leaveOther cids _ _ =>
      ∃ sent, cids.foldlM PacketSCLeaveOtherCharacter.setData {} = .ok sent ∧
        ReadsBack packetSCLeaveOtherCharacter.serialize {} sent sent
  | characterDelete result deleteCid _ =>
      ∀ sent ∈ PacketSCCharacterDelete.filled result deleteCid,
        ∃ back, ReadsBack packetSCCharacterDelete.serialize {} sent back ∧
          back.getResult = result ∧ back.getDeleteCid = deleteCid

/-- Values that are not stored over each other, and nothing that is not on the wire. -/
def Kept : Record → Prop
  | placed before _ x _ z => x = z ∧ before.z = z
  | characterDb _ _ _ name _ pos => pos = {} ∧ name.length < 0x8000
  | character info _ _ => info.name.length = info.name.text.length
  | enterOther infos _ => infos = []
  | characterDelete result deleteCid _ => result = deleteCid
  | _ => True

theorem roundTrips_iff_kept (record : Record) : record.RoundTrips ↔ record.Kept := by
  cases record with
  | placed before zone x y z => exact before.setPos_returns_iff zone x y z
  | position pos fits => exact iff_of_true (Position.readsBack fits) trivial
  | item info fits => exact iff_of_true (ItemDbInfo.readsBack fits) trivial
  | characterDb uid cid fits name ascii pos =>
      have wide : ∀ field ∈ CharacterDbInfo.fields, field.Fits
          { uid := uid, cid := cid, name := .set name, pos := pos } := by
        simp [CharacterDbInfo.fields, Field.Fits, fits]
      have iff := CharacterDbInfo.readsBack_iff wide ascii
      exact iff.trans (and_congr_right fun _ => Text.set_length_iff name)
  | character info fits ascii => exact CharacterInfo.readsBack_iff fits ascii
  | move packet fits => exact iff_of_true (PacketSCMove.readsBack fits) trivial
  | enterOther infos few =>
      refine Iff.trans ?_ (PacketSCEnterOtherCharacter.readsBack_iff infos)
      have filled := PacketSCEnterOtherCharacter.foldlM_setData few
      constructor
      · rintro ⟨sent, same, read⟩
        obtain rfl := Except.ok.inj (filled.symm.trans same)
        exact read
      · exact fun read => ⟨_, filled, read⟩
  | leaveOther cids few fits =>
      have filled := PacketSCLeaveOtherCharacter.foldlM_setData few
      exact iff_of_true ⟨_, filled, PacketSCLeaveOtherCharacter.readsBack few fits⟩ trivial
  | characterDelete result deleteCid fits => exact PacketSCCharacterDelete.returned_iff fits

/-- The third coordinate is stored over the first. -/
theorem placed_not_roundTrips : ¬(placed {} 1 2 3 4).RoundTrips := by
  rintro ⟨position, -⟩
  cases position

end Record

end Common

end ProjectPl.Sharp
