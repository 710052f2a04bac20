import ProjectPl.Lib.Blocks
import ProjectPl.Lib.Run

/-!
`ObjectPool` of `_lib/object_pool_mgr.h`. Pointers are addresses; the vectors have room to grow,
and what the allocator and the constructor of `T` do is an input of each call.
-/

namespace ProjectPl

open Blocks (Block)

structure ElementSize where
  bytes : Nat
  positive : 0 < bytes

structure ObjectPool where
  poolList : List Nat := []
  freeList : List Nat := []
  addBlockSize : Nat := 100
  deriving DecidableEq

structure PoolAnswer where
  chunk : Option Block := none
  object : Option Nat := none

/-- The pool among its users: the allocations so far and the objects in the hands of the callers
are counted from the requests and their answers. -/
structure PoolHistory where
  pool : ObjectPool := {}
  allocated : List Block := []
  handedOut : List Nat := []
  deriving DecidableEq

inductive PoolRequest
  | getFreeObjectPtr (allocation : Option Nat) (constructs : Bool)
  | setFreeObjectPtr (object : Nat)

namespace ObjectPool

def iota (size : ElementSize) (obj : Nat) : Nat → List Nat
  | 0 => []
  | count + 1 => obj :: iota size (obj + size.bytes) count

def addAlloc (size : ElementSize) (pool : ObjectPool) (obj : Nat) : ObjectPool :=
  let oldSize := pool.freeList.length
  let resized := pool.freeList ++ List.replicate pool.addBlockSize 0
  { poolList := pool.poolList ++ [obj]
    freeList := resized.take oldSize ++ iota size obj (resized.length - oldSize)
    addBlockSize := pool.addBlockSize * 2 % 2 ^ 64 }

/-- `AddAlloc`, if the allocator has a block. -/
def fill (size : ElementSize) (pool : ObjectPool) (allocation : Option Nat) :
    ObjectPool × Option Block :=
  if pool.freeList.isEmpty then
    match allocation with
    | none => (pool, none)
    | some obj => (pool.addAlloc size obj, some ⟨obj, pool.addBlockSize⟩)
  else (pool, none)

/-- With an empty free list after `AddAlloc` threw, and with a constructor that throws, nothing is
handed out. -/
def getFreeObjectPtr (size : ElementSize) (pool : ObjectPool) (allocation : Option Nat)
    (constructs : Bool) : ObjectPool × PoolAnswer :=
  let filled := pool.fill size allocation
  match filled.1.freeList.getLast? with
  | none => (filled.1, { chunk := filled.2 })
  | some object =>
      if constructs then
        ({ filled.1 with freeList := filled.1.freeList.dropLast },
          { chunk := filled.2, object := some object })
      else (filled.1, { chunk := filled.2 })

def setFreeObjectPtr (pool : ObjectPool) (object : Nat) : ObjectPool :=
  { pool with freeList := pool.freeList ++ [object] }

/-- `deallocate` of each chunk in the destructor, with the size that it recomputes. -/
def deallocations : Nat → List Nat → List Block
  | _, [] => []
  | chunkSize, chunk :: rest =>
      { start := chunk, count := chunkSize } :: deallocations (chunkSize * 2 % 2 ^ 64) rest

def destroy (pool : ObjectPool) : List Block := deallocations 100 pool.poolList

end ObjectPool

namespace PoolHistory

def perform (size : ElementSize) (history : PoolHistory) : PoolRequest → PoolHistory
  | .getFreeObjectPtr allocation constructs =>
      let answered := history.pool.getFreeObjectPtr size allocation constructs
      { pool := answered.1
        allocated := history.allocated ++ answered.2.chunk.toList
        handedOut := history.handedOut ++ answered.2.object.toList }
  | .setFreeObjectPtr object =>
      { history with
        pool := history.pool.setFreeObjectPtr object
        handedOut := history.handedOut.erase object }

/-- The allocator returns room that no live block has, and only objects in the hands of the caller
are returned. -/
def Permits (size : ElementSize) (history : PoolHistory) : PoolRequest → Prop
  | .getFreeObjectPtr allocation _ => history.pool.freeList = [] → ∀ obj, allocation = some obj →
      obj + history.pool.addBlockSize * size.bytes ≤ 2 ^ 64 ∧
        ∀ block ∈ history.allocated,
          block.Apart size.bytes ⟨obj, history.pool.addBlockSize⟩
  | .setFreeObjectPtr object => object ∈ history.handedOut

/-- The chunk sizes double, and the free objects and the ones handed out are the slots. -/
structure Accounted (size : ElementSize) (history : PoolHistory) : Prop where
  chunks : history.pool.poolList = history.allocated.map Block.start
  counts : history.allocated.map Block.count =
    (List.range history.allocated.length).map fun index => 100 * 2 ^ index
  nextCount : history.pool.addBlockSize = 100 * 2 ^ history.allocated.length
  few : history.allocated.length ≤ 57
  placed : Blocks.Placed (2 ^ 64) size.bytes history.allocated
  slots : (history.pool.freeList ++ history.handedOut).Perm
    (Blocks.slots size.bytes history.allocated)

variable {size : ElementSize} {history : PoolHistory}

theorem iota_eq (obj count : Nat) :
    ObjectPool.iota size obj count = Block.slots size.bytes ⟨obj, count⟩ := by
  induction count generalizing obj with
  | zero => rfl
  | succ count ih =>
      rw [ObjectPool.iota, ih, Block.slots, Block.slots, List.range_succ_eq_map, List.map_cons,
        List.map_map, Nat.zero_mul, Nat.add_zero]
      refine congrArg (obj :: ·) (List.map_congr_left fun index _ => ?_)
      simp only [Function.comp, Nat.succ_mul, Nat.add_assoc, Nat.add_comm size.bytes]

theorem addAlloc_freeList (pool : ObjectPool) (obj : Nat) :
    (pool.addAlloc size obj).freeList =
      pool.freeList ++ Block.slots size.bytes ⟨obj, pool.addBlockSize⟩ := by
  rw [ObjectPool.addAlloc]
  simp only [List.take_left, List.length_append, List.length_replicate, Nat.add_sub_cancel_left,
    iota_eq]

theorem sum_doubling (count : Nat) :
    ((List.range count).map fun index => 100 * 2 ^ index).sum = 100 * (2 ^ count - 1) := by
  induction count with
  | zero => rfl
  | succ count ih =>
      have positive : 0 < 2 ^ count := Nat.two_pow_pos count
      rw [List.range_succ, List.map_append, List.sum_append, ih, List.map_singleton,
        List.sum_singleton, Nat.pow_succ]
      omega

theorem new_accounted : Accounted size {} where
  chunks := rfl
  counts := rfl
  nextCount := rfl
  few := Nat.zero_le 57
  placed := Blocks.placed_nil
  slots := List.Perm.refl _

/-- A new chunk. Were there 58, they would have more slots than there are addresses. -/
theorem Accounted.addAlloc (accounted : Accounted size history) (obj : Nat)
    (room : obj + history.pool.addBlockSize * size.bytes ≤ 2 ^ 64)
    (apart : ∀ block ∈ history.allocated, block.Apart size.bytes ⟨obj, history.pool.addBlockSize⟩) :
    Accounted size { history with
      pool := history.pool.addAlloc size obj
      allocated := history.allocated ++ [⟨obj, history.pool.addBlockSize⟩] } := by
  have placed := accounted.placed.append apart room
  have counts : (history.allocated ++ [Block.mk obj history.pool.addBlockSize]).map Block.count =
      (List.range (history.allocated.length + 1)).map fun index => 100 * 2 ^ index := by
    rw [List.map_append, accounted.counts, List.map_singleton, accounted.nextCount,
      List.range_succ, List.map_append, List.map_singleton]
  have few : history.allocated.length + 1 ≤ 57 := by
    have total := placed.slots_length_le size.positive
    rw [Blocks.slots_length, counts, sum_doubling] at total
    by_contra many
    have grown : 2 ^ 58 ≤ 2 ^ (history.allocated.length + 1) :=
      Nat.pow_le_pow_right (by decide) (by omega)
    omega
  refine ⟨?_, ?_, ?_, ?_, placed, ?_⟩
  · simp only [ObjectPool.addAlloc, accounted.chunks, List.map_append, List.map_singleton]
  · rw [counts, List.length_append, List.length_singleton]
  · have narrow : 2 ^ (history.allocated.length + 1) ≤ 2 ^ 57 :=
      Nat.pow_le_pow_right (by decide) few
    simp only [ObjectPool.addAlloc, accounted.nextCount, List.length_append,
      List.length_singleton]
    rw [Nat.mod_eq_of_lt (by omega)]
    omega
  · rwa [List.length_append, List.length_singleton]
  · simp only [addAlloc_freeList, Blocks.slots_append, Blocks.slots_singleton]
    refine List.Perm.trans ?_ (accounted.slots.append_right _)
    rw [List.append_assoc, List.append_assoc]
    exact List.perm_append_comm.append_left _

/-! The calls. -/

section Get

variable {allocation : Option Nat} {constructs : Bool}
  (permitted : history.Permits size (.getFreeObjectPtr allocation constructs))
include permitted

theorem fill_accounted (accounted : Accounted size history) :
    Accounted size { history with
      pool := (history.pool.fill size allocation).1
      allocated := history.allocated ++ (history.pool.fill size allocation).2.toList } := by
  unfold ObjectPool.fill
  by_cases empty : history.pool.freeList.isEmpty
  · rw [if_pos empty]
    cases allocation with
    | none =>
        simp only [Option.toList_none, List.append_nil]
        exact accounted
    | some obj =>
        obtain ⟨room, apart⟩ := permitted (List.isEmpty_iff.mp empty) obj rfl
        exact accounted.addAlloc obj room apart
  · rw [if_neg empty]
    simp only [Option.toList_none, List.append_nil]
    exact accounted

theorem getFreeObjectPtr_accounted (accounted : Accounted size history) :
    Accounted size (history.perform size (.getFreeObjectPtr allocation constructs)) := by
  have filled := fill_accounted permitted accounted
  rw [perform, ObjectPool.getFreeObjectPtr]
  generalize history.pool.fill size allocation = next at filled ⊢
  dsimp only
  cases last : next.1.freeList.getLast? with
  | none =>
      simp only [Option.toList_none, List.append_nil]
      exact filled
  | some object =>
      cases constructs with
      | false =>
          simp only [Bool.false_eq_true, if_false, Option.toList_none, List.append_nil]
          exact filled
      | true =>
          have back : next.1.freeList.dropLast ++ [object] = next.1.freeList :=
            List.dropLast_append_getLast? object last
          refine ⟨filled.chunks, filled.counts, filled.nextCount, filled.few, filled.placed, ?_⟩
          refine List.Perm.trans ?_ filled.slots
          simp only [if_true, Option.toList_some]
          rw [← back, List.append_assoc]
          simp only [List.dropLast_concat]
          exact List.perm_append_comm.append_left _

end Get

theorem setFreeObjectPtr_accounted (accounted : Accounted size history) {object : Nat}
    (inUse : object ∈ history.handedOut) :
    Accounted size (history.perform size (.setFreeObjectPtr object)) := by
  refine ⟨accounted.chunks, accounted.counts, accounted.nextCount, accounted.few,
    accounted.placed, ?_⟩
  refine List.Perm.trans ?_ accounted.slots
  simp only [perform, ObjectPool.setFreeObjectPtr, List.append_assoc, List.singleton_append]
  exact (List.perm_cons_erase inUse).symm.append_left _

theorem perform_accounted {request : PoolRequest} (accounted : Accounted size history)
    (permitted : history.Permits size request) : Accounted size (history.perform size request) := by
  cases request with
  | getFreeObjectPtr allocation constructs =>
      exact getFreeObjectPtr_accounted permitted accounted
  | setFreeObjectPtr object => exact setFreeObjectPtr_accounted accounted permitted

/-! The destructor. -/

theorem deallocations_eq {blocks : List Block} (first : Nat) (few : first + blocks.length ≤ 57)
    (counts : blocks.map Block.count =
      (List.range blocks.length).map fun index => 100 * 2 ^ (first + index)) :
    ObjectPool.deallocations (100 * 2 ^ first) (blocks.map Block.start) = blocks := by
  induction blocks generalizing first with
  | nil => rfl
  | cons block rest ih =>
      rw [List.length_cons, List.range_succ_eq_map, List.map_cons, List.map_cons, List.map_map]
        at counts
      obtain ⟨here, later⟩ := List.cons.inj counts
      rw [List.length_cons] at few
      have narrow : 2 ^ first ≤ 2 ^ 56 := Nat.pow_le_pow_right (by decide) (by omega)
      have doubled : 100 * 2 ^ first * 2 % 2 ^ 64 = 100 * 2 ^ (first + 1) := by
        rw [Nat.pow_succ]
        omega
      have counts : rest.map Block.count =
          (List.range rest.length).map fun index => 100 * 2 ^ (first + 1 + index) := by
        rw [later]
        refine List.map_congr_left fun index _ => ?_
        rw [Function.comp_apply, Nat.succ_eq_one_add, ← Nat.add_assoc]
      rw [List.map_cons, ObjectPool.deallocations, doubled, ih (first + 1) (by omega) counts]
      cases block
      cases here
      rfl

theorem Accounted.destroy (accounted : Accounted size history) :
    history.pool.destroy = history.allocated := by
  rw [ObjectPool.destroy, accounted.chunks]
  exact deallocations_eq 0 (by rw [Nat.zero_add]; exact accounted.few)
    (by simpa only [Nat.zero_add] using accounted.counts)

/-- The accounting of the memory in the words of its user. -/
structure Exact (size : ElementSize) (history : PoolHistory) : Prop where
  distinct : history.pool.freeList.Nodup
  apart : history.pool.freeList.Disjoint history.handedOut
  slots : ∀ address, address ∈ history.pool.freeList ∨ address ∈ history.handedOut ↔
    address ∈ Blocks.slots size.bytes history.allocated
  doubling : ∀ (index : Nat) (chunk : Block), history.allocated[index]? = some chunk →
    chunk.count = 100 * 2 ^ index
  total : (Blocks.slots size.bytes history.allocated).length =
    100 * (2 ^ history.pool.poolList.length - 1)
  released : history.pool.destroy = history.allocated

theorem Accounted.exact (accounted : Accounted size history) : Exact size history := by
  have nodup := accounted.slots.nodup_iff.mpr (accounted.placed.slots_nodup size.positive)
  obtain ⟨distinct, _, apart⟩ := List.nodup_append'.mp nodup
  refine ⟨distinct, apart, ?_, ?_, ?_, accounted.destroy⟩
  · intro address
    rw [← List.mem_append, accounted.slots.mem_iff]
  · intro index chunk there
    have counted := congrArg (·[index]?) accounted.counts
    simp only [List.getElem?_map, there, Option.map_some] at counted
    obtain ⟨position, inside, isCount⟩ := Option.map_eq_some_iff.mp counted.symm
    obtain ⟨_, rfl⟩ := List.getElem?_eq_some_iff.mp inside
    rw [← isCount, List.getElem_range]
  · rw [Blocks.slots_length, accounted.counts, sum_doubling, accounted.chunks, List.length_map]

/-- Every run of permitted calls accounts for its memory. -/
theorem run_exact (size : ElementSize) (requests : List PoolRequest)
    (permitted : Run.Along (perform size) (Permits size) {} requests) :
    Exact size (requests.foldl (perform size) {}) :=
  (Run.Along.invariant (fun _ _ => perform_accounted) new_accounted permitted).exact

theorem word_positive : 0 < 8 := by decide

def word : ElementSize where
  bytes := 8
  positive := word_positive

def twoObjects : List PoolRequest :=
  [.getFreeObjectPtr (some 4096) true, .getFreeObjectPtr none true, .setFreeObjectPtr 4888]

theorem twoObjects_permitted : Run.Along (perform word) (Permits word) {} twoObjects := by
  refine ⟨?_, nofun, ?_, trivial⟩
  · rintro _ _ ⟨⟩
    exact ⟨by decide, nofun⟩
  · change 4888 ∈ (_ : List Nat)
    decide

theorem twoObjects_exact : Run.Along (perform word) (Permits word) {} twoObjects ∧
    Exact word (twoObjects.foldl (perform word) {}) :=
  ⟨twoObjects_permitted, run_exact word twoObjects twoObjects_permitted⟩

end PoolHistory

end ProjectPl
