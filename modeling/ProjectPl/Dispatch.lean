import ProjectPl.ProtocolCore
import ProjectPl.Serializer

/-!
What `PacketHandler::Execute` does with any payload at all. The type number is read through a
`Serializer` whose failures nobody looks at, so a payload that is too short, or too long for
the serializer, counts as type zero. The number then indexes the table as it came.
-/

namespace ProjectPl

open Ring LittleEndian

namespace PacketTable

variable {Q : Type}

def payloadType (data : Nat → UInt8) : Nat := decode (load data 0 4)

/-! The answer of a table by registration alone: a payload that carries a type number goes to
the handler registered for it, and to no other. -/

def registered (table : PacketTable Q) (packetType : Nat) : Option (PacketFunctor Q) :=
  (table[packetType]?).join

def answer (table : PacketTable Q) (packetType : Nat) (data : Nat → UInt8) (length : Nat) :
    Dispatch Q :=
  match table.registered packetType with
  | none => .returnedFalse
  | some functor => .invoked (functor data length)

def expected (table : PacketTable Q) (data : Nat → UInt8) (length : Nat) : Dispatch Q :=
  if 4 ≤ length then table.answer (payloadType data) data length else .returnedFalse

theorem answer_ne_outsideTable (table : PacketTable Q) (packetType index : Nat)
    (data : Nat → UInt8) (length : Nat) :
    table.answer packetType data length ≠ .outsideTable index := by
  unfold answer
  split <;> simp

theorem answer_eq_returnedFalse_iff (table : PacketTable Q) (packetType : Nat)
    (data : Nat → UInt8) (length : Nat) :
    table.answer packetType data length = .returnedFalse ↔ table.registered packetType = none := by
  unfold answer
  cases table.registered packetType with
  | none => simp
  | some functor => simp

/-! The number that `Execute` indexes with. -/

theorem valueUInt32_ofData (data : Nat → UInt8) (length : Nat) :
    ((Serializer.ofData data length).valueUInt32 0).2 =
      if 4 ≤ length ∧ length ≤ maxPacketBufferSize then payloadType data else 0 := by
  have read := (Serializer.scalar_read 4 (LittleEndian.encode 4) LittleEndian.decode
    (Serializer.ofData_unpacks data length) 0).2
  rw [Serializer.valueUInt32, read]
  by_cases fits : length ≤ maxPacketBufferSize
  · simp only [fits, ↓reduceIte, load_length, and_true]
    by_cases whole : 4 ≤ length
    · have front : (load data 0 length).take 4 = load data 0 4 := by
        have split := load_add data 0 4 (length - 4)
        rw [Nat.add_sub_cancel' whole] at split
        rw [split, List.take_left' (load_length data 0 4)]
      simp only [whole, ↓reduceIte, front, payloadType]
    · simp only [whole, ↓reduceIte]
  · simp [fits]

theorem execute_eq (table : PacketTable Q) (data : Nat → UInt8) (length index : Nat)
    (read : ((Serializer.ofData data length).valueUInt32 0).2 = index) :
    table.execute data length =
      if index < table.length then table.answer index data length else .outsideTable index := by
  simp only [execute, read]
  by_cases inside : index < table.length
  · rw [if_pos inside, List.getElem?_eq_getElem inside, answer, registered,
      List.getElem?_eq_getElem inside]
    cases table[index] with
    | none => rfl
    | some functor => rfl
  · rw [if_neg inside, List.getElem?_eq_none (by omega)]

/-! The payloads on which the table answers by registration. -/

def Dispatchable (table : PacketTable Q) (data : Nat → UInt8) (length : Nat) : Prop :=
  if length < 4 then table ≠ [] ∧ table.registered 0 = none
  else if length ≤ maxPacketBufferSize then payloadType data < table.length
  else table ≠ [] ∧ table.answer 0 data length = table.answer (payloadType data) data length

theorem execute_matches_table_iff (table : PacketTable Q) (data : Nat → UInt8) (length : Nat) :
    table.execute data length = table.expected data length ↔ table.Dispatchable data length := by
  have bound : maxPacketBufferSize = 10240 := rfl
  have read := valueUInt32_ofData data length
  unfold expected Dispatchable
  by_cases short : length < 4
  · rw [if_neg (by omega)] at read
    have untyped : ¬4 ≤ length := by omega
    rw [execute_eq table data length 0 read, if_neg untyped, if_pos short]
    by_cases nonempty : 0 < table.length
    · rw [if_pos nonempty, answer_eq_returnedFalse_iff]
      simp [List.ne_nil_of_length_pos nonempty]
    · simp [List.length_eq_zero_iff.mp (by omega : table.length = 0)]
  · have typed : 4 ≤ length := by omega
    rw [if_pos typed, if_neg short]
    by_cases fits : length ≤ maxPacketBufferSize
    · rw [if_pos ⟨typed, fits⟩] at read
      rw [execute_eq table data length _ read, if_pos fits]
      by_cases inside : payloadType data < table.length
      · simp [inside]
      · simp only [inside, ↓reduceIte, iff_false]
        exact fun same => answer_ne_outsideTable table _ _ data length same.symm
    · rw [if_neg (by omega)] at read
      rw [execute_eq table data length 0 read, if_neg fits]
      by_cases nonempty : 0 < table.length
      · simp [nonempty, List.ne_nil_of_length_pos nonempty]
      · rw [if_neg nonempty]
        constructor
        · exact fun same => absurd same.symm (answer_ne_outsideTable table _ _ data length)
        · intro dispatchable
          exact absurd (List.length_pos_of_ne_nil dispatchable.1) nonempty

/-- A payload of type 100, which the server's table does not have. -/
theorem type_outside_serverTable :
    serverTable.execute (fun offset => [100, 0, 0, 0].getD offset 0) 4 ≠
      serverTable.expected (fun offset => [100, 0, 0, 0].getD offset 0) 4 := by
  decide

end PacketTable

end ProjectPl
