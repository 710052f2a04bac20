import ProjectPl.ProtocolCore
import ProjectPl.Serializer

/-!
Decoding payloads that no sender of ours built. The size of the echo bytes and the count of
the character list come from the wire, and `Value` checks them only against the bytes left
in the payload. A decoded packet therefore stays inside its arrays exactly when the size it
declares does.
-/

namespace ProjectPl

open Ring LittleEndian

inductive PacketKind
  | csAuth | csEnter | csLeave | csMove | csInteraction | csHeartbeat | csEcho
  | scAuthResult | scEnter | scEnterCharacter | scLeave | scMove | scInteraction | scHeartbeat
  | scEcho
  deriving DecidableEq, Repr

/-! What `PacketFunctor::Execute` does to a fixed-size array of the packet it decodes: the
elements stored, and the array's capacity with the size member read for it. -/

structure ArrayReport where
  stores : List Nat
  array : Option (Nat × Int)
  deriving DecidableEq, Repr

def PacketClass.report {P : Type} (cls : PacketClass P) (array : P → Option (Nat × Int))
    (payload : List UInt8) : ArrayReport :=
  let decoded := cls.unpack (fun offset => payload.getD offset 0) payload.length
  { stores := decoded.1.stores, array := array decoded.2 }

namespace PacketKind

def decode (payload : List UInt8) : PacketKind → ArrayReport
  | csAuth => csPAuth.report (fun _ => none) payload
  | csEnter => csPEnter.report (fun _ => none) payload
  | csLeave => csPLeave.report (fun _ => none) payload
  | csMove => csPMove.report (fun _ => none) payload
  | csInteraction => csPInteraction.report (fun _ => none) payload
  | csHeartbeat => csPHeartbeat.report (fun _ => none) payload
  | csEcho => csPEcho.report (fun packet => some (maxEchoDataLength, packet.echoDataSize)) payload
  | scAuthResult => scPAuthResult.report (fun _ => none) payload
  | scEnter => scPEnter.report (fun _ => none) payload
  | scEnterCharacter =>
      scPEnterCharacterList.report
        (fun packet => some (maxSendCountCharacterDbData, packet.count)) payload
  | scLeave => scPLeave.report (fun _ => none) payload
  | scMove => scPMove.report (fun _ => none) payload
  | scInteraction => scPInteraction.report (fun _ => none) payload
  | scHeartbeat => scPHeartbeat.report (fun _ => none) payload
  | scEcho => scPEcho.report (fun packet => some (maxEchoDataLength, packet.echoDataSize)) payload

def StaysInside (report : ArrayReport) : Prop :=
  match report.array with
  | none => report.stores = []
  | some (capacity, size) =>
      (∀ idx ∈ report.stores, idx < capacity) ∧ 0 ≤ size ∧ size ≤ capacity

instance : DecidablePred StaysInside
  | ⟨stores, none⟩ => inferInstanceAs (Decidable (stores = []))
  | ⟨stores, some (capacity, size)⟩ =>
      inferInstanceAs
        (Decidable ((∀ idx ∈ stores, idx < capacity) ∧ 0 ≤ size ∧ size ≤ capacity))

/-- Where the payload of a given length declares the size of the packet's array, with the
capacity of that array. A payload of `SC_P_ECHO` too short for the token is read one member
early, and one too long for the serializer is not read at all. -/
def sizeField (length : Nat) : PacketKind → Option (Nat × Nat)
  | csEcho =>
      if 8 ≤ length ∧ length ≤ maxPacketBufferSize then some (4, maxEchoDataLength) else none
  | scEcho =>
      if 16 ≤ length ∧ length ≤ maxPacketBufferSize then some (12, maxEchoDataLength)
      else if 8 ≤ length ∧ length < 12 then some (4, maxEchoDataLength)
      else none
  | scEnterCharacter =>
      if 8 ≤ length ∧ length ≤ maxPacketBufferSize then some (4, maxSendCountCharacterDbData)
      else none
  | _ => none

def int32At (payload : List UInt8) (offset : Nat) : Int :=
  decodeSigned ((payload.drop offset).take 4)

def DeclaresInside (payload : List UInt8) (kind : PacketKind) : Prop :=
  ∀ field ∈ kind.sizeField payload.length,
    0 ≤ int32At payload field.1 ∧ int32At payload field.1 ≤ field.2

end PacketKind

/-! Reading calls other than `Value(char*, int)` store into no array. -/

namespace Serializer

theorem scalar_stores {V : Type} (width : Nat) (encode : V → List UInt8)
    (decode : List UInt8 → V) (ser : Serializer) (value : V) :
    (ser.scalar width encode decode value).1.stores = ser.stores := by
  unfold scalar
  split
  · rfl
  · split <;> rfl

theorem valueBytes_stores {ser : Serializer} {bytes : List UInt8} {stores : List Nat}
    (unpacks : ser.Unpacks bytes stores) (pData : List UInt8) (len : Int) :
    ∀ idx ∈ (ser.valueBytes pData len).1.stores, idx ∈ stores ∨ idx < sizeOfInt len := by
  intro idx member
  by_cases short : bytes.length < sizeOfInt len
  · rw [valueBytes_short unpacks pData short, unpacks.stored] at member
    exact Or.inl member
  · have cut : bytes = bytes.take (sizeOfInt len) ++ bytes.drop (sizeOfInt len) :=
      (List.take_append_drop _ _).symm
    have chunk : (bytes.take (sizeOfInt len)).length = sizeOfInt len := by
      rw [List.length_take]
      omega
    rw [cut] at unpacks
    have stored := (valueBytes_unpacks unpacks pData chunk.symm).1.stored
    rw [stored, chunk] at member
    rcases List.mem_append.mp member with old | new
    · exact Or.inl old
    · exact Or.inr (List.mem_range.mp new)

end Serializer

theorem Member.values_stores {P : Type} (members : List (Member P)) (ser : Serializer)
    (packet : P) : (Member.values members ser packet).1.stores = ser.stores := by
  induction members generalizing ser packet with
  | nil => rfl
  | cons member rest ih =>
      rw [Member.values, ih]
      exact Serializer.scalar_stores _ _ _ _ _

theorem CharacterDbData.serialize_stores (ser : Serializer) (data : CharacterDbData) :
    (serialize ser data).1.stores = ser.stores := by
  simp only [serialize, Position.serialize, Member.values_stores]
  exact Serializer.scalar_stores _ _ _ _ _

theorem serializeEntries_stores (rounds idx : Nat) (ser : Serializer)
    (data : List CharacterDbData) :
    ∀ stored ∈ (serializeEntries rounds idx ser data).1.stores,
      stored ∈ ser.stores ∨ stored < idx + rounds := by
  induction rounds generalizing idx ser data with
  | zero =>
      intro stored member
      exact Or.inl member
  | succ rounds ih =>
      intro stored member
      rw [serializeEntries] at member
      have entry := CharacterDbData.serialize_stores ser (data[idx]?.getD {})
      rcases ih (idx + 1) _ _ stored member with before | later
      · split at before
        · simp only [entry, List.mem_append, List.mem_singleton] at before
          rcases before with old | new
          · exact Or.inl old
          · exact Or.inr (by omega)
        · rw [entry] at before
          exact Or.inl before
      · exact Or.inr (by omega)

/-! The bytes a serializer takes over from a payload, and those its head leaves. -/

def taken (payload : List UInt8) : List UInt8 :=
  if payload.length ≤ maxPacketBufferSize then payload else []

def afterHead (payload : List UInt8) : List UInt8 :=
  if 4 ≤ (taken payload).length then (taken payload).drop 4 else taken payload

theorem head_unpacks (payload : List UInt8) (packetType : Nat) :
    ((Serializer.ofData (fun offset => payload.getD offset 0) payload.length).valueUInt32
      packetType).1.Unpacks (afterHead payload) [] := by
  have start := Serializer.ofData_unpacks (fun offset => payload.getD offset 0) payload.length
  have whole : load (fun offset => payload.getD offset 0) 0 payload.length = payload := by
    rw [load_getD payload 0 (Nat.le_refl _), List.take_length]
  rw [whole] at start
  exact (Serializer.scalar_read 4 (encode 4) decode start packetType).1

/-- Every store of an echo body lies below the size it declares. -/
theorem echoTail_stores {ser : Serializer} {bytes : List UInt8} (unpacks : ser.Unpacks bytes [])
    (initial : List UInt8) (start : Int) (lower : 0 ≤ (ser.valueInt32 start).2)
    (upper : (ser.valueInt32 start).2 < 2 ^ 64) :
    ∀ idx ∈ ((ser.valueInt32 start).1.valueBytes initial (ser.valueInt32 start).2).1.stores,
      (idx : Int) < (ser.valueInt32 start).2 := by
  intro idx member
  have sizeRead := (Serializer.scalar_read 4 (encodeSigned 4) decodeSigned unpacks start).1
  rcases Serializer.valueBytes_stores sizeRead initial _ idx member with old | new
  · simp at old
  · rw [Serializer.sizeOfInt_of_nonneg lower upper] at new
    omega

/-- An array report stays inside exactly when its size does, provided that the stores lie
below the size. -/
theorem PacketKind.staysInside_iff (stores : List Nat) (capacity : Nat) (size : Int)
    (below : 0 ≤ size → size ≤ capacity → ∀ idx ∈ stores, (idx : Int) < size) :
    StaysInside { stores := stores, array := some (capacity, size) } ↔
      0 ≤ size ∧ size ≤ capacity := by
  simp only [StaysInside]
  constructor
  · exact fun inside => inside.2
  · rintro ⟨lower, upper⟩
    refine ⟨?_, lower, upper⟩
    intro idx member
    have bound := below lower upper idx member
    omega

theorem afterHead_of_whole {payload : List UInt8} (whole : 4 ≤ payload.length)
    (fits : payload.length ≤ maxPacketBufferSize) : afterHead payload = payload.drop 4 := by
  simp only [afterHead, taken, fits, whole, ↓reduceIte]

theorem afterHead_length_of_short (payload : List UInt8)
    (short : payload.length < 4 ∨ maxPacketBufferSize < payload.length) :
    (afterHead payload).length < 4 := by
  have bound : maxPacketBufferSize = 10240 := rfl
  by_cases fits : payload.length ≤ maxPacketBufferSize
  · have notWhole : ¬4 ≤ payload.length := by omega
    simp only [afterHead, taken, fits, notWhole, ↓reduceIte]
    omega
  · simp [afterHead, taken, fits]

/-- The size that a body declares at its front, as the field of the payload it comes from. -/
theorem front_size {payload body : List UInt8} {offset : Nat}
    (position : body = payload.drop offset) :
    (if 4 ≤ body.length then decodeSigned (body.take 4) else 0) =
      if offset + 4 ≤ payload.length then PacketKind.int32At payload offset else 0 := by
  subst position
  rw [List.length_drop]
  by_cases whole : offset + 4 ≤ payload.length
  · rw [if_pos (by omega), if_pos whole]
    rfl
  · rw [if_neg (by omega), if_neg whole]

namespace PacketKind

def declaredSize (payload : List UInt8) (kind : PacketKind) : Int :=
  match kind.sizeField payload.length with
  | some field => int32At payload field.1
  | none => 0

theorem declaredSize_some {payload : List UInt8} {kind : PacketKind} {field : Nat × Nat}
    (declared : kind.sizeField payload.length = some field) :
    kind.declaredSize payload = int32At payload field.1 := by
  simp only [declaredSize, declared]

theorem declaredSize_none {payload : List UInt8} {kind : PacketKind}
    (declared : kind.sizeField payload.length = none) : kind.declaredSize payload = 0 := by
  simp only [declaredSize, declared]

def capacity : PacketKind → Option Nat
  | csEcho => some maxEchoDataLength
  | scEcho => some maxEchoDataLength
  | scEnterCharacter => some maxSendCountCharacterDbData
  | _ => none

theorem sizeField_capacity {kind : PacketKind} {length capacity : Nat}
    (array : kind.capacity = some capacity) :
    ∀ field ∈ kind.sizeField length, field.2 = capacity := by
  intro field declared
  cases kind <;> simp only [PacketKind.capacity, sizeField, reduceCtorEq] at array declared
  all_goals grind

theorem declaresInside_iff (payload : List UInt8) (kind : PacketKind) (capacity : Nat)
    (same : ∀ field ∈ kind.sizeField payload.length, field.2 = capacity) :
    DeclaresInside payload kind ↔
      0 ≤ declaredSize payload kind ∧ declaredSize payload kind ≤ capacity := by
  unfold DeclaresInside declaredSize
  cases declared : kind.sizeField payload.length with
  | none => simp
  | some field =>
      have capacityEq := same field (by simp [declared])
      simp [capacityEq]

end PacketKind

theorem front_declared {payload : List UInt8} {kind : PacketKind} {capacity : Nat}
    (field : kind.sizeField payload.length =
      if 8 ≤ payload.length ∧ payload.length ≤ maxPacketBufferSize then some (4, capacity)
      else none) :
    (if 4 ≤ (afterHead payload).length then decodeSigned ((afterHead payload).take 4) else 0) =
      kind.declaredSize payload := by
  by_cases readable : 4 ≤ payload.length ∧ payload.length ≤ maxPacketBufferSize
  · rw [front_size (afterHead_of_whole readable.1 readable.2)]
    by_cases whole : 8 ≤ payload.length
    · rw [if_pos ⟨whole, readable.2⟩] at field
      rw [if_pos (by omega), PacketKind.declaredSize_some field]
    · rw [if_neg (by omega)] at field
      rw [if_neg (by omega), PacketKind.declaredSize_none field]
  · have short := afterHead_length_of_short payload (by omega)
    rw [if_neg (by omega)] at field
    rw [if_neg (by omega), PacketKind.declaredSize_none field]

theorem csEcho_size (payload : List UInt8) :
    (csPEcho.unpack (fun offset => payload.getD offset 0) payload.length).2.echoDataSize =
      PacketKind.csEcho.declaredSize payload :=
  (Serializer.scalar_read 4 (encodeSigned 4) decodeSigned
    (head_unpacks payload csPEcho.packetType) csPEcho.default.echoDataSize).2.trans
      (front_declared rfl)

theorem scEnterCharacter_count (payload : List UInt8) :
    (scPEnterCharacterList.unpack (fun offset => payload.getD offset 0) payload.length).2.count =
      PacketKind.scEnterCharacter.declaredSize payload :=
  (Serializer.scalar_read 4 (encodeSigned 4) decodeSigned
    (head_unpacks payload scPEnterCharacterList.packetType)
    scPEnterCharacterList.default.count).2.trans (front_declared rfl)

/-- The body of `SC_P_ECHO` behind its token, which is not there to skip when the payload is
too short for it. -/
def afterToken (payload : List UInt8) : List UInt8 :=
  if 8 ≤ (afterHead payload).length then (afterHead payload).drop 8 else afterHead payload

theorem afterToken_declared (payload : List UInt8) :
    (if 4 ≤ (afterToken payload).length then decodeSigned ((afterToken payload).take 4) else 0) =
      PacketKind.scEcho.declaredSize payload := by
  have field : PacketKind.scEcho.sizeField payload.length =
      if 16 ≤ payload.length ∧ payload.length ≤ maxPacketBufferSize then
        some (12, maxEchoDataLength)
      else if 8 ≤ payload.length ∧ payload.length < 12 then some (4, maxEchoDataLength)
      else none := rfl
  have bound : maxPacketBufferSize = 10240 := rfl
  by_cases readable : 4 ≤ payload.length ∧ payload.length ≤ maxPacketBufferSize
  · have body := afterHead_of_whole readable.1 readable.2
    by_cases tokenWhole : 12 ≤ payload.length
    · have position : afterToken payload = payload.drop 12 := by
        rw [afterToken, body, List.length_drop, if_pos (by omega), List.drop_drop]
      rw [front_size position]
      by_cases sizeWhole : 16 ≤ payload.length
      · rw [if_pos ⟨sizeWhole, readable.2⟩] at field
        rw [if_pos (by omega), PacketKind.declaredSize_some field]
      · rw [if_neg (by omega), if_neg (by omega)] at field
        rw [if_neg (by omega), PacketKind.declaredSize_none field]
    · have position : afterToken payload = payload.drop 4 := by
        rw [afterToken, body, List.length_drop, if_neg (by omega)]
      rw [front_size position]
      by_cases sizeWhole : 8 ≤ payload.length
      · rw [if_neg (by omega), if_pos (by omega)] at field
        rw [if_pos (by omega), PacketKind.declaredSize_some field]
      · rw [if_neg (by omega), if_neg (by omega)] at field
        rw [if_neg (by omega), PacketKind.declaredSize_none field]
  · have short := afterHead_length_of_short payload (by omega)
    have position : afterToken payload = afterHead payload := by
      rw [afterToken, if_neg (by omega)]
    rw [if_neg (by omega), if_neg (by omega)] at field
    rw [position, if_neg (by omega), PacketKind.declaredSize_none field]

theorem scEcho_token_unpacks (payload : List UInt8) :
    (((Serializer.ofData (fun offset => payload.getD offset 0) payload.length).valueUInt32
      scPEcho.packetType).1.valueInt64 scPEcho.default.token).1.Unpacks (afterToken payload) [] :=
  (Serializer.scalar_read 8 (encodeSigned 8) decodeSigned
    (head_unpacks payload scPEcho.packetType) scPEcho.default.token).1

theorem scEcho_size (payload : List UInt8) :
    (scPEcho.unpack (fun offset => payload.getD offset 0) payload.length).2.echoDataSize =
      PacketKind.scEcho.declaredSize payload :=
  (Serializer.scalar_read 4 (encodeSigned 4) decodeSigned
    (scEcho_token_unpacks payload) scPEcho.default.echoDataSize).2.trans
      (afterToken_declared payload)

namespace PacketKind

theorem report_staysInside_iff {kind : PacketKind} {payload : List UInt8} {P : Type}
    (cls : PacketClass P) (members : List (Member P))
    (layout : cls.serialize = Member.values members)
    (plain : kind.sizeField payload.length = none) :
    StaysInside (cls.report (fun _ => none) payload) ↔ DeclaresInside payload kind := by
  have stores : (cls.report (fun _ => none) payload).stores = [] := by
    simp only [PacketClass.report, PacketClass.unpack, layout, Member.values_stores]
    exact (head_unpacks payload cls.packetType).stored
  have stays : StaysInside (cls.report (fun _ => none) payload) := stores
  have declares : DeclaresInside payload kind := by
    simp [DeclaresInside, plain]
  exact iff_of_true stays declares

/-- For every packet type and every payload, decoding stays inside the packet's arrays
exactly when the size field that the payload declares does. -/
theorem decode_staysInside_iff (kind : PacketKind) (payload : List UInt8) :
    StaysInside (kind.decode payload) ↔ DeclaresInside payload kind := by
  cases kind with
  | csAuth => exact report_staysInside_iff csPAuth _ rfl rfl
  | csEnter => exact report_staysInside_iff csPEnter _ rfl rfl
  | csLeave => exact report_staysInside_iff csPLeave _ rfl rfl
  | csMove => exact report_staysInside_iff csPMove _ rfl rfl
  | csInteraction => exact report_staysInside_iff csPInteraction _ rfl rfl
  | csHeartbeat => exact report_staysInside_iff csPHeartbeat _ rfl rfl
  | scAuthResult => exact report_staysInside_iff scPAuthResult _ rfl rfl
  | scEnter => exact report_staysInside_iff scPEnter _ rfl rfl
  | scLeave => exact report_staysInside_iff scPLeave _ rfl rfl
  | scMove => exact report_staysInside_iff scPMove _ rfl rfl
  | scInteraction => exact report_staysInside_iff scPInteraction _ rfl rfl
  | scHeartbeat => exact report_staysInside_iff scPHeartbeat _ rfl rfl
  | csEcho =>
      have size := csEcho_size payload
      rw [declaresInside_iff payload csEcho maxEchoDataLength (sizeField_capacity rfl), ← size]
      apply staysInside_iff
      intro lower upper
      have bound : (maxEchoDataLength : Int) = 32 := rfl
      exact echoTail_stores (head_unpacks payload csPEcho.packetType) csPEcho.default.echoData
        csPEcho.default.echoDataSize lower (lt_of_le_of_lt upper (by decide))
  | scEnterCharacter =>
      have size := scEnterCharacter_count payload
      rw [declaresInside_iff payload scEnterCharacter maxSendCountCharacterDbData
        (sizeField_capacity rfl), ← size]
      apply staysInside_iff
      intro lower upper idx member
      rcases serializeEntries_stores _ _ _ _ idx member with old | below
      · have none : idx ∈ ([] : List Nat) := by
          rw [← (head_unpacks payload scPEnterCharacterList.packetType).stored]
          rwa [Serializer.valueInt32, Serializer.scalar_stores] at old
        simp at none
      · have below : idx < 0 + (scPEnterCharacterList.unpack
            (fun offset => payload.getD offset 0) payload.length).2.count.toNat := below
        omega
  | scEcho =>
      have size := scEcho_size payload
      rw [declaresInside_iff payload scEcho maxEchoDataLength (sizeField_capacity rfl), ← size]
      apply staysInside_iff
      intro lower upper
      have bound : (maxEchoDataLength : Int) = 32 := rfl
      exact echoTail_stores (scEcho_token_unpacks payload) scPEcho.default.echoData
        scPEcho.default.echoDataSize lower (lt_of_le_of_lt upper (by decide))

/-- Forty-one bytes of payload overrun the echo array: they declare 33 echo bytes and bring
them. -/
theorem csEcho_overrun :
    ¬StaysInside (csEcho.decode (encode 4 7 ++ encodeSigned 4 33 ++ List.replicate 33 0)) := by
  decide

end PacketKind

end ProjectPl
