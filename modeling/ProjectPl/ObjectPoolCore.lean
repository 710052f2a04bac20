import Mathlib

/-!
`ObjectMgrBase` of `_lib/object_pool_mgr.h` with the `ObjectPool` inside it. Pointers are
numbers: a block of the allocator is a run of numbers that were never handed out before.
The free list is a vector whose back is the next object to hand out.
-/

namespace ProjectPl

structure ObjectMgr where
  freeList : List Nat := []
  usedList : List Nat := []
  addBlockSize : Nat := 100
  allocated : Nat := 0
  deriving DecidableEq, Repr

namespace ObjectMgr

def addAlloc (mgr : ObjectMgr) : ObjectMgr :=
  { mgr with
    freeList := mgr.freeList ++ (List.range mgr.addBlockSize).map (mgr.allocated + ·)
    addBlockSize := mgr.addBlockSize * 2
    allocated := mgr.allocated + mgr.addBlockSize }

def getFreeObject (mgr : ObjectMgr) : ObjectMgr × Nat :=
  let filled := if mgr.freeList = [] then mgr.addAlloc else mgr
  let obj := filled.freeList.getLastD 0
  ({ filled with
      freeList := filled.freeList.dropLast
      usedList := filled.usedList ++ [obj] }, obj)

def setFreeObject (mgr : ObjectMgr) (obj : Nat) : ObjectMgr :=
  { mgr with
    usedList := if obj ∈ mgr.usedList then mgr.usedList.filter (· ≠ obj) else mgr.usedList
    freeList := mgr.freeList ++ [obj] }

/-! A pool is kept when no object is listed twice and the next block is new. -/

structure Kept (mgr : ObjectMgr) : Prop where
  distinct : (mgr.freeList ++ mgr.usedList).Nodup
  below : ∀ obj ∈ mgr.freeList ++ mgr.usedList, obj < mgr.allocated
  positive : 0 < mgr.addBlockSize

theorem new_kept : Kept {} := by
  refine ⟨?_, ?_, ?_⟩ <;> simp

/-! A new block of objects behind the free ones. -/

theorem block_distinct {free used : List Nat} {allocated : Nat} (distinct : (free ++ used).Nodup)
    (below : ∀ obj ∈ free ++ used, obj < allocated) (size : Nat) :
    ((free ++ (List.range size).map (allocated + ·)) ++ used).Nodup ∧
      ∀ obj ∈ (free ++ (List.range size).map (allocated + ·)) ++ used,
        obj < allocated + size := by
  have block : ((List.range size).map (allocated + ·)).Nodup :=
    List.nodup_range.map (fun first second same => Nat.add_left_cancel same)
  refine ⟨?_, ?_⟩
  · rw [List.nodup_append'] at distinct ⊢
    obtain ⟨free, used, apart⟩ := distinct
    refine ⟨List.nodup_append'.mpr ⟨free, block, ?_⟩, used, ?_⟩
    · intro obj listed fresh
      obtain ⟨step, -, rfl⟩ := List.mem_map.mp fresh
      have bound := below _ (List.mem_append_left _ listed)
      omega
    · intro obj listed inUse
      rcases List.mem_append.mp listed with old | fresh
      · exact apart old inUse
      · obtain ⟨step, -, rfl⟩ := List.mem_map.mp fresh
        have bound := below _ (List.mem_append_right _ inUse)
        omega
  · intro obj listed
    simp only [List.mem_append, List.mem_map, List.mem_range] at listed
    rcases listed with (old | ⟨step, inside, rfl⟩) | inUse
    · have bound := below obj (List.mem_append_left _ old)
      omega
    · omega
    · have bound := below obj (List.mem_append_right _ inUse)
      omega

theorem addAlloc_kept {mgr : ObjectMgr} (kept : mgr.Kept) : mgr.addAlloc.Kept := by
  obtain ⟨distinct, below, positive⟩ := kept
  obtain ⟨nodup, bound⟩ := block_distinct distinct below mgr.addBlockSize
  refine ⟨nodup, bound, ?_⟩
  simp only [addAlloc]
  omega

theorem getFreeObject_kept {mgr : ObjectMgr} (kept : mgr.Kept) :
    mgr.getFreeObject.1.Kept ∧ mgr.getFreeObject.2 ∉ mgr.usedList ∧
      mgr.getFreeObject.1.usedList = mgr.usedList ++ [mgr.getFreeObject.2] := by
  obtain ⟨filled, filledEq, filledKept, some, sameUsed⟩ : ∃ filled,
      (if mgr.freeList = [] then mgr.addAlloc else mgr) = filled ∧ filled.Kept ∧
        filled.freeList ≠ [] ∧ filled.usedList = mgr.usedList := by
    by_cases empty : mgr.freeList = []
    · refine ⟨mgr.addAlloc, if_pos empty, addAlloc_kept kept, ?_, rfl⟩
      have positive := kept.positive
      simp only [addAlloc, empty, List.nil_append, ne_eq, List.map_eq_nil_iff, List.range_eq_nil]
      omega
    · exact ⟨mgr, if_neg empty, kept, empty, rfl⟩
  have back : filled.freeList.dropLast ++ [filled.freeList.getLastD 0] = filled.freeList := by
    rw [List.getLastD_eq_getLast?, List.getLast?_eq_some_getLast some]
    exact List.dropLast_append_getLast some
  obtain ⟨distinct, below, positive⟩ := filledKept
  rw [← back, List.append_assoc] at distinct below
  simp only [getFreeObject, filledEq]
  refine ⟨⟨?_, ?_, positive⟩, ?_, ?_⟩
  · have moved : (filled.freeList.dropLast ++ (filled.usedList ++
        [filled.freeList.getLastD 0])).Perm (filled.freeList.dropLast ++
          ([filled.freeList.getLastD 0] ++ filled.usedList)) :=
      List.Perm.append_left _ List.perm_append_comm
    exact moved.nodup_iff.mpr distinct
  · intro obj listed
    apply below
    simp only [List.mem_append] at listed ⊢
    tauto
  · have apart := (List.nodup_append'.mp distinct).2.1
    rw [← sameUsed]
    exact (List.nodup_cons.mp apart).1
  · rw [sameUsed]

theorem setFreeObject_kept {mgr : ObjectMgr} {obj : Nat} (kept : mgr.Kept)
    (inUse : obj ∈ mgr.usedList) :
    (mgr.setFreeObject obj).Kept ∧
      ∀ other, other ∈ (mgr.setFreeObject obj).usedList ↔ other ∈ mgr.usedList ∧ other ≠ obj := by
  obtain ⟨distinct, below, positive⟩ := kept
  obtain ⟨free, used, apart⟩ := List.nodup_append'.mp distinct
  simp only [setFreeObject, inUse, ↓reduceIte]
  refine ⟨⟨?_, ?_, positive⟩, ?_⟩
  · rw [List.nodup_append']
    refine ⟨List.nodup_append'.mpr ⟨free, List.nodup_singleton obj, ?_⟩, used.filter _, ?_⟩
    · intro other listed same
      rw [List.mem_singleton.mp same] at listed
      exact apart listed inUse
    · intro other listed kept
      obtain ⟨otherUsed, different⟩ := List.mem_filter.mp kept
      rcases List.mem_append.mp listed with old | new
      · exact apart old otherUsed
      · simp only [List.mem_singleton] at new
        simp [new] at different
  · intro other listed
    apply below
    simp only [List.mem_append, List.mem_singleton, List.mem_filter] at listed ⊢
    rcases listed with (old | rfl) | ⟨otherUsed, -⟩
    · exact Or.inl old
    · exact Or.inr inUse
    · exact Or.inr otherUsed
  · intro other
    simp [List.mem_filter]

end ObjectMgr

/-! `ObjectPoolMgrBase` of the same header, the pool of `ConnectorMgr`. It allocates its objects
itself, hands them out from the front, and takes back only what is in use. -/

structure ObjectPoolMgr where
  freeList : List Nat
  usedList : List Nat
  poolCount : Nat
  deriving DecidableEq, Repr

namespace ObjectPoolMgr

def new (initCount : Nat) : ObjectPoolMgr :=
  let poolCount := max initCount 1
  { freeList := List.range poolCount, usedList := [], poolCount := poolCount }

def addAlloc (mgr : ObjectPoolMgr) : ObjectPoolMgr :=
  let addPool := mgr.poolCount * 2
  { mgr with
    freeList := mgr.freeList ++ (List.range addPool).map (mgr.poolCount + ·)
    poolCount := mgr.poolCount + addPool }

def getFreeObject (mgr : ObjectPoolMgr) : ObjectPoolMgr × Option Nat :=
  let filled := if mgr.freeList = [] then mgr.addAlloc else mgr
  match filled.freeList with
  | [] => (filled, none)
  | obj :: rest =>
      ({ filled with freeList := rest, usedList := filled.usedList ++ [obj] }, some obj)

def setFreeObject (mgr : ObjectPoolMgr) (obj : Nat) : ObjectPoolMgr :=
  if obj ∈ mgr.usedList then
    { mgr with usedList := mgr.usedList.filter (· ≠ obj), freeList := obj :: mgr.freeList }
  else mgr

structure Kept (mgr : ObjectPoolMgr) : Prop where
  distinct : (mgr.freeList ++ mgr.usedList).Nodup
  below : ∀ obj ∈ mgr.freeList ++ mgr.usedList, obj < mgr.poolCount

theorem new_kept (initCount : Nat) : (new initCount).Kept := by
  refine ⟨?_, ?_⟩
  · simp [new, List.nodup_range]
  · simp [new]

theorem addAlloc_kept {mgr : ObjectPoolMgr} (kept : mgr.Kept) : mgr.addAlloc.Kept := by
  obtain ⟨distinct, below⟩ := kept
  obtain ⟨nodup, bound⟩ := ObjectMgr.block_distinct distinct below (mgr.poolCount * 2)
  exact ⟨nodup, bound⟩

theorem getFreeObject_kept {mgr : ObjectPoolMgr} (kept : mgr.Kept) :
    mgr.getFreeObject.1.Kept ∧ ∀ obj ∈ mgr.usedList, obj ∈ mgr.getFreeObject.1.usedList := by
  obtain ⟨filled, filledEq, filledKept, used⟩ : ∃ filled,
      (if mgr.freeList = [] then mgr.addAlloc else mgr) = filled ∧ filled.Kept ∧
        filled.usedList = mgr.usedList := by
    by_cases empty : mgr.freeList = []
    · exact ⟨mgr.addAlloc, if_pos empty, addAlloc_kept kept, rfl⟩
    · exact ⟨mgr, if_neg empty, kept, rfl⟩
  simp only [getFreeObject, filledEq]
  cases free : filled.freeList with
  | nil => exact ⟨filledKept, fun obj inUse => used ▸ inUse⟩
  | cons front rest =>
      obtain ⟨distinct, below⟩ := filledKept
      rw [free] at distinct below
      refine ⟨⟨?_, ?_⟩, ?_⟩
      · have moved : (rest ++ (filled.usedList ++ [front])).Perm
            (front :: rest ++ filled.usedList) := by
          rw [← List.append_assoc]
          exact List.perm_append_singleton front (rest ++ filled.usedList)
        exact moved.nodup_iff.mpr distinct
      · intro obj listed
        apply below
        simp only [List.mem_append, List.mem_cons, List.not_mem_nil, or_false] at listed ⊢
        tauto
      · intro obj inUse
        rw [← used] at inUse
        exact List.mem_append_left _ inUse

theorem setFreeObject_kept {mgr : ObjectPoolMgr} (kept : mgr.Kept) (obj : Nat) :
    (mgr.setFreeObject obj).Kept ∧
      ∀ other, other ∈ (mgr.setFreeObject obj).usedList ↔ other ∈ mgr.usedList ∧ other ≠ obj := by
  unfold setFreeObject
  split
  next inUse =>
    obtain ⟨distinct, below⟩ := kept
    obtain ⟨free, used, apart⟩ := List.nodup_append'.mp distinct
    refine ⟨⟨?_, ?_⟩, ?_⟩
    · refine List.nodup_append'.mpr ⟨List.nodup_cons.mpr ⟨?_, free⟩, used.filter _, ?_⟩
      · exact fun listed => apart listed inUse
      · intro other listed kept
        obtain ⟨otherUsed, different⟩ := List.mem_filter.mp kept
        rcases List.mem_cons.mp listed with same | old
        · simp [same] at different
        · exact apart old otherUsed
    · intro other listed
      apply below
      simp only [List.mem_append, List.mem_cons, List.mem_filter] at listed ⊢
      rcases listed with (rfl | old) | ⟨otherUsed, -⟩
      · exact Or.inr inUse
      · exact Or.inl old
      · exact Or.inr otherUsed
    · intro other
      simp [List.mem_filter]
  next unused =>
    refine ⟨kept, ?_⟩
    intro other
    constructor
    · intro inUse
      refine ⟨inUse, ?_⟩
      rintro rfl
      exact unused inUse
    · exact fun inUse => inUse.1

end ObjectPoolMgr

end ProjectPl
