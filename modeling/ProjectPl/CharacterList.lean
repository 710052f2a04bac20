import ProjectPl.World

/-!
The packets of `SendCharacterList::Operator`. They are meant to hold twenty characters each, but
`SetData` compares the wrong way around: it answers that the packet is full from the first
character on, so every character gets a packet of its own.
-/

namespace ProjectPl

namespace Server

/-- The places of the array that `SetData` writes to in the loop of `Operator`. -/
def setDataIndices : List CharacterDbData → ScPEnterCharacterList → List Int
  | [], _ => []
  | data :: rest, packet =>
      let next := packet.setData data
      packet.count :: if next.2 then setDataIndices rest {} else setDataIndices rest next.1

/-- As few packets as can be, all full but the last, with the entries one after the other. -/
structure Batched (entries : List CharacterDbData) (packets : List ScPEnterCharacterList) :
    Prop where
  fewest : packets.length =
    (entries.length + (maxSendCountCharacterDbData - 1)) / maxSendCountCharacterDbData
  full : ∀ packet ∈ packets.dropLast, packet.count = maxSendCountCharacterDbData
  sent : packets.flatMap (fun packet => packet.data.take packet.count.toNat) = entries
  inside : ∀ index ∈ setDataIndices entries {}, 0 ≤ index ∧ index < maxSendCountCharacterDbData

def listCommand (cause : Nat) (token : Int) (packet : ScPEnterCharacterList) : Queued :=
  ⟨cause, .sendPacketToUser token (.enterCharacter packet)⟩

theorem listCommand_injective (cause : Nat) (token : Int) :
    Function.Injective (listCommand cause token) := by
  intro first second same
  cases same
  rfl

theorem sendCharacterList_cmds {server : Server} {token zoneId : Int} {slot : Nat}
    {zone : CharacterMap} (user : server.getUserSession token = some slot)
    (found : server.zoneMap[zoneId]? = some zone) (cause : Nat) :
    (server.operator cause (.sendCharacterList token zoneId)).cmds = server.cmds ++
      (characterListPackets (server.getCharacterDbList zone token) {}).map
        (listCommand cause token) := by
  rw [operator, user, found]
  dsimp only
  rw [addAll_eq, List.map_map]
  rfl

theorem setDataIndices_eq (entries : List CharacterDbData) :
    setDataIndices entries {} = List.replicate entries.length 0 := by
  induction entries with
  | nil => rfl
  | cons data rest ih =>
      have full : (ScPEnterCharacterList.setData {} data).2 = true := rfl
      rw [setDataIndices, if_pos full, ih]
      rfl

theorem characterListPackets_batched_iff (entries : List CharacterDbData) :
    Batched entries (characterListPackets entries {}) ↔ entries.length ≤ 1 := by
  rw [World.characterListPackets_eq]
  constructor
  · intro batched
    have fewest := batched.fewest
    simp only [List.length_map, maxSendCountCharacterDbData] at fewest
    omega
  · intro few
    have indices : ∀ index ∈ setDataIndices entries {},
        (0 : Int) ≤ index ∧ index < maxSendCountCharacterDbData := by
      intro index member
      rw [setDataIndices_eq] at member
      rw [List.eq_of_mem_replicate member]
      decide
    cases entries with
    | nil => exact ⟨rfl, fun packet member => absurd member List.not_mem_nil, rfl, indices⟩
    | cons data rest =>
        have single : rest = [] := by
          rw [List.length_cons] at few
          exact List.eq_nil_of_length_eq_zero (by omega)
        subst single
        refine ⟨?_, fun packet member => absurd member List.not_mem_nil, rfl, indices⟩
        simp [maxSendCountCharacterDbData]

/-- The characters of the zone go to the requester in full packets, in the order of their tokens
and without its own, exactly when there is at most one other. -/
theorem sendCharacterList_batched_iff (server : Server) (cause : Nat) (token zoneId : Int)
    {slot : Nat} {zone : CharacterMap} (user : server.getUserSession token = some slot)
    (found : server.zoneMap[zoneId]? = some zone) :
    (∃ packets, (server.operator cause (.sendCharacterList token zoneId)).cmds =
        server.cmds ++ packets.map (listCommand cause token) ∧
      Batched ((zone.toList.filter fun entry => entry.1 ≠ token).map fun entry =>
        (server.sessions entry.2).nub.getDbData) packets) ↔
      (zone.toList.filter fun entry => entry.1 ≠ token).length ≤ 1 := by
  have entries := characterListPackets_batched_iff (server.getCharacterDbList zone token)
  rw [getCharacterDbList, List.length_map] at entries
  rw [sendCharacterList_cmds user found, ← entries]
  constructor
  · rintro ⟨packets, queued, batched⟩
    have same := (listCommand_injective cause token).list_map (List.append_cancel_left queued)
    rw [getCharacterDbList] at same
    rw [same]
    exact batched
  · exact fun batched => ⟨_, rfl, batched⟩

def zoneOf (others : List (Int × Nat)) : Server :=
  { userMap := Std.TreeMap.empty.insert 1 0
    zoneMap := Std.TreeMap.empty.insert 1 (Std.TreeMap.ofList ((1, 0) :: others)) }

theorem sendCharacterList_batched_one :
    ∃ packets, ((zoneOf [(2, 1)]).operator 0 (.sendCharacterList 1 1)).cmds =
        (zoneOf [(2, 1)]).cmds ++ packets.map (listCommand 0 1) ∧
      Batched (((Std.TreeMap.ofList [((1 : Int), 0), (2, 1)]).toList.filter
        fun entry => entry.1 ≠ 1).map fun entry =>
          ((zoneOf [(2, 1)]).sessions entry.2).nub.getDbData) packets :=
  (sendCharacterList_batched_iff (zoneOf [(2, 1)]) 0 1 1 rfl rfl).mpr (by decide)

/-- Two others: two packets, where one holds them all. -/
theorem sendCharacterList_two :
    ¬∃ packets, ((zoneOf [(2, 1), (3, 2)]).operator 0 (.sendCharacterList 1 1)).cmds =
        (zoneOf [(2, 1), (3, 2)]).cmds ++ packets.map (listCommand 0 1) ∧
      Batched (((Std.TreeMap.ofList [((1 : Int), 0), (2, 1), (3, 2)]).toList.filter
        fun entry => entry.1 ≠ 1).map fun entry =>
          ((zoneOf [(2, 1), (3, 2)]).sessions entry.2).nub.getDbData) packets := by
  rintro ⟨packets, queued, batched⟩
  have sent := congrArg List.length queued
  have two : ((zoneOf [(2, 1), (3, 2)]).operator 0 (.sendCharacterList 1 1)).cmds.length = 2 := by
    decide
  have one := batched.fewest
  rw [two, List.length_append, List.length_map, one] at sent
  revert sent
  decide

end Server

end ProjectPl
