import Mathlib

/-!
Blocks of equally wide slots in an address space, as an allocator hands them out: the blocks that
are live lie apart from each other and end within the address space.
-/

namespace Blocks

structure Block where
  start : Nat
  count : Nat
  deriving DecidableEq

def Block.slots (width : Nat) (block : Block) : List Nat :=
  (List.range block.count).map fun index => block.start + index * width

def Block.Apart (width : Nat) (one other : Block) : Prop :=
  one.start + one.count * width ≤ other.start ∨ other.start + other.count * width ≤ one.start

instance (width : Nat) (one other : Block) : Decidable (one.Apart width other) :=
  inferInstanceAs (Decidable (_ ∨ _))

def slots (width : Nat) (blocks : List Block) : List Nat := blocks.flatMap (Block.slots width)

/-- The blocks of an allocator below this address. -/
structure Placed (limit width : Nat) (blocks : List Block) : Prop where
  apart : blocks.Pairwise (Block.Apart width)
  inside : ∀ block ∈ blocks, block.start + block.count * width ≤ limit

variable {limit width : Nat} {block other : Block} {blocks : List Block}

theorem Block.mem_slots {address : Nat} : address ∈ block.slots width ↔
    ∃ index < block.count, block.start + index * width = address := by
  simp only [Block.slots, List.mem_map, List.mem_range]

theorem Block.mem_slots_bounds {address : Nat} (wide : 0 < width)
    (inside : address ∈ block.slots width) :
    block.start ≤ address ∧ address < block.start + block.count * width := by
  obtain ⟨index, bound, rfl⟩ := mem_slots.mp inside
  have below : (index + 1) * width ≤ block.count * width := Nat.mul_le_mul_right width bound
  rw [Nat.add_one_mul] at below
  omega

theorem Block.slots_nodup (wide : 0 < width) : (block.slots width).Nodup := by
  refine List.nodup_range.map ?_
  intro first second same
  exact Nat.eq_of_mul_eq_mul_right wide (Nat.add_left_cancel same)

theorem Block.slots_disjoint (wide : 0 < width) (apart : block.Apart width other) :
    (block.slots width).Disjoint (other.slots width) := by
  intro address inOne inOther
  have one := mem_slots_bounds wide inOne
  have two := mem_slots_bounds wide inOther
  rcases apart with before | after <;> omega

@[simp] theorem Block.slots_length : (block.slots width).length = block.count := by
  rw [Block.slots, List.length_map, List.length_range]

@[simp] theorem slots_append (one two : List Block) :
    slots width (one ++ two) = slots width one ++ slots width two := List.flatMap_append

@[simp] theorem slots_singleton : slots width [block] = block.slots width :=
  List.flatMap_singleton ..

theorem slots_length : (slots width blocks).length = (blocks.map Block.count).sum := by
  rw [slots, List.length_flatMap]
  simp only [Block.slots_length]

theorem Placed.slots_nodup (placed : Placed limit width blocks) (wide : 0 < width) :
    (slots width blocks).Nodup :=
  List.nodup_flatMap.mpr ⟨fun _ _ => Block.slots_nodup wide,
    placed.apart.imp fun apart => Block.slots_disjoint wide apart⟩

/-- There are no more slots than addresses. -/
theorem Placed.slots_length_le (placed : Placed limit width blocks) (wide : 0 < width) :
    (slots width blocks).length ≤ limit := by
  have within : slots width blocks ⊆ List.range limit := by
    intro address inside
    obtain ⟨block, member, slot⟩ := List.mem_flatMap.mp inside
    have bounds := Block.mem_slots_bounds wide slot
    have limited := placed.inside block member
    exact List.mem_range.mpr (by omega)
  have bound := (List.subperm_of_subset (placed.slots_nodup wide) within).length_le
  rwa [List.length_range] at bound

theorem Placed.append (placed : Placed limit width blocks)
    (apart : ∀ one ∈ blocks, one.Apart width block)
    (inside : block.start + block.count * width ≤ limit) :
    Placed limit width (blocks ++ [block]) where
  apart := List.pairwise_append.mpr ⟨placed.apart, List.pairwise_singleton .., by
    intro one member other last
    rw [List.mem_singleton.mp last]
    exact apart one member⟩
  inside := by
    intro one member
    rcases List.mem_append.mp member with old | new
    · exact placed.inside one old
    · rw [List.mem_singleton.mp new]
      exact inside

theorem placed_nil : Placed limit width [] := ⟨.nil, nofun⟩

end Blocks
