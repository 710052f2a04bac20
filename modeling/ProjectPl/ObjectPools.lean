import ProjectPl.ObjectPoolsCore

/-!
An `ObjectPoolMgrBase` is split into free and used objects whatever is returned to it. An
`ObjectMgrBase` is so just as long as nothing is returned that is not in use: its test looks for
the object in the used list, but the pool takes the object in either case.
-/

namespace ProjectPl

open DotNet

namespace ObjectPoolMgrBase

variable {Pointer : Type}

section

variable (heap : Heap Pointer)

def block (first count : Nat) : List Pointer := (List.range' first count).map heap.new

theorem block_append (first count more : Nat) :
    block heap first count ++ block heap (first + count) more =
      block heap first (count + more) := by
  rw [block, block, ← List.map_append, List.range'_append_1, block]

theorem block_nodup (first count : Nat) : (block heap first count).Nodup := by
  rw [block]
  exact List.Nodup.map heap.fresh List.nodup_range'

theorem block_valid {first count : Nat} {obj : Pointer} (made : obj ∈ block heap first count) :
    obj ≠ heap.null := by
  obtain ⟨number, -, rfl⟩ := List.mem_map.mp made
  exact heap.valid number

theorem allocate_eq (count : Nat) (mgr : ObjectPoolMgrBase Pointer) :
    allocate heap count mgr =
      { mgr with
        poolList := mgr.poolList ++ block heap mgr.allocated count
        freeList := mgr.freeList ++ block heap mgr.allocated count
        allocated := mgr.allocated + count } := by
  induction count generalizing mgr with
  | zero => simp [allocate, block]
  | succ count ih =>
      rw [allocate, ih]
      simp only [block, List.range'_succ, List.map_cons, List.append_assoc, List.singleton_append]
      rw [Nat.add_assoc, Nat.add_comm 1 count]

/-- All objects ever made are in the pool list, counted, and each is free or used. -/
structure Whole (mgr : ObjectPoolMgrBase Pointer) : Prop where
  pool : mgr.poolList = block heap 0 mgr.allocated
  lists : (mgr.freeList ++ mgr.usedList).Perm mgr.poolList
  count : mgr.poolCount = mgr.allocated
  positive : 0 < mgr.allocated

theorem allocate_pool {mgr : ObjectPoolMgrBase Pointer}
    (pool : mgr.poolList = block heap 0 mgr.allocated) (count : Nat) :
    (allocate heap count mgr).poolList = block heap 0 (allocate heap count mgr).allocated := by
  have grown := block_append heap 0 mgr.allocated count
  rw [Nat.zero_add] at grown
  simp only [allocate_eq]
  rw [pool, grown]

theorem allocate_lists {mgr : ObjectPoolMgrBase Pointer}
    (lists : (mgr.freeList ++ mgr.usedList).Perm mgr.poolList) (count : Nat) :
    ((allocate heap count mgr).freeList ++ (allocate heap count mgr).usedList).Perm
      (allocate heap count mgr).poolList := by
  simp only [allocate_eq]
  refine List.Perm.trans ?_ (lists.append_right _)
  rw [List.append_assoc, List.append_assoc]
  exact List.perm_append_comm.append_left _

theorem new_whole (initCount : Int) : (new heap initCount).Whole heap := by
  have made : (new heap initCount).allocated = (max initCount 1).toNat := by
    simp [new, allocate_eq]
  have start : ([] ++ [] : List Pointer).Perm [] := List.Perm.nil
  constructor
  · exact allocate_pool heap rfl _
  · rw [new]
    exact allocate_lists heap start _
  · rw [made]
    simp only [new, allocate_eq]
    omega
  · rw [made]
    omega

variable {heap}

theorem addAlloc_eq {mgr : ObjectPoolMgrBase Pointer} (whole : mgr.Whole heap)
    (fits : mgr.poolCount * 3 < 2 ^ 31) :
    mgr.addAlloc heap = { allocate heap (mgr.allocated * 2) mgr with
      poolCount := mgr.poolCount * 3 } := by
  have count := whole.count
  have doubled : int32 (mgr.poolCount * 2) = mgr.poolCount * 2 :=
    int32_of_fits (by omega) (by omega)
  have loops : (mgr.poolCount * 2).toNat = mgr.allocated * 2 := by omega
  have kept : (allocate heap (mgr.allocated * 2) mgr).poolCount = mgr.poolCount := by
    rw [allocate_eq]
  have tripled : int32 (mgr.poolCount + mgr.poolCount * 2) = mgr.poolCount * 3 := by
    rw [int32_of_fits (by omega) (by omega)]
    omega
  rw [addAlloc, doubled, loops]
  dsimp only
  rw [kept, tripled]

theorem addAlloc_whole {mgr : ObjectPoolMgrBase Pointer} (whole : mgr.Whole heap)
    (fits : mgr.poolCount * 3 < 2 ^ 31) : (mgr.addAlloc heap).Whole heap := by
  obtain ⟨pool, lists, count, positive⟩ := whole
  have made : (allocate heap (mgr.allocated * 2) mgr).allocated =
      mgr.allocated + mgr.allocated * 2 := by
    rw [allocate_eq]
  rw [addAlloc_eq ⟨pool, lists, count, positive⟩ fits]
  constructor
  · exact allocate_pool heap pool _
  · exact allocate_lists heap lists _
  · change mgr.poolCount * 3 = ((allocate heap (mgr.allocated * 2) mgr).allocated : Int)
    omega
  · change 0 < (allocate heap (mgr.allocated * 2) mgr).allocated
    omega

theorem addAlloc_keeps {mgr : ObjectPoolMgrBase Pointer} (whole : mgr.Whole heap)
    (fits : mgr.poolCount * 3 < 2 ^ 31) :
    (mgr.addAlloc heap).freeList ≠ [] ∧ (mgr.addAlloc heap).usedList = mgr.usedList := by
  have positive := whole.positive
  rw [addAlloc_eq whole fits, allocate_eq]
  constructor
  · apply List.ne_nil_of_length_pos
    simp only [block, List.length_append, List.length_map, List.length_range']
    omega
  · rfl

/-- What `GetFreeObject` does: it hands out the front of a list that was grown if it was empty. -/
theorem getFreeObject_spec {mgr : ObjectPoolMgrBase Pointer} (whole : mgr.Whole heap)
    (fits : Fits mgr .getFreeObject) :
    ∃ (filled : ObjectPoolMgrBase Pointer) (rest : List Pointer), filled.Whole heap ∧
      filled.usedList = mgr.usedList ∧ filled.freeList = (mgr.getFreeObject heap).2 :: rest ∧
      (mgr.getFreeObject heap).1 =
        { filled with
          freeList := rest
          usedList := filled.usedList ++ [(mgr.getFreeObject heap).2] } := by
  obtain ⟨filled, filledEq, filledWhole, some, used⟩ : ∃ filled : ObjectPoolMgrBase Pointer,
      (if mgr.freeList.isEmpty then mgr.addAlloc heap else mgr) = filled ∧ filled.Whole heap ∧
        filled.freeList ≠ [] ∧ filled.usedList = mgr.usedList := by
    by_cases empty : mgr.freeList = []
    · obtain ⟨free, used⟩ := addAlloc_keeps whole (fits empty)
      refine ⟨mgr.addAlloc heap, ?_, addAlloc_whole whole (fits empty), free, used⟩
      simp [empty]
    · refine ⟨mgr, ?_, whole, empty, rfl⟩
      simp [empty]
  obtain ⟨obj, rest, free⟩ := List.exists_cons_of_ne_nil some
  have got : mgr.getFreeObject heap =
      ({ filled with freeList := rest, usedList := filled.usedList ++ [obj] }, obj) := by
    rw [getFreeObject, filledEq, free]
  rw [got]
  exact ⟨filled, rest, filledWhole, used, free, rfl⟩

theorem getFreeObject_whole {mgr : ObjectPoolMgrBase Pointer} (whole : mgr.Whole heap)
    (fits : Fits mgr .getFreeObject) : (mgr.getFreeObject heap).1.Whole heap := by
  obtain ⟨filled, rest, ⟨pool, lists, count, positive⟩, -, free, next⟩ :=
    getFreeObject_spec whole fits
  rw [next]
  refine ⟨pool, ?_, count, positive⟩
  rw [free] at lists
  refine List.Perm.trans ?_ lists
  rw [← List.append_assoc]
  exact List.perm_append_singleton _ _

theorem nodup_lists {mgr : ObjectPoolMgrBase Pointer} (whole : mgr.Whole heap) :
    (mgr.freeList ++ mgr.usedList).Nodup := by
  rw [whole.lists.nodup_iff, whole.pool]
  exact block_nodup heap 0 mgr.allocated

theorem getFreeObject_unused {mgr : ObjectPoolMgrBase Pointer} (whole : mgr.Whole heap)
    (fits : Fits mgr .getFreeObject) :
    (mgr.getFreeObject heap).2 ≠ heap.null ∧ (mgr.getFreeObject heap).2 ∉ mgr.usedList := by
  obtain ⟨filled, rest, filledWhole, used, free, -⟩ := getFreeObject_spec whole fits
  constructor
  · have member := filledWhole.lists.subset
      (List.mem_append_left _ (free ▸ List.mem_cons_self))
    rw [filledWhole.pool] at member
    exact block_valid heap member
  · intro inUse
    have distinct := nodup_lists filledWhole
    rw [free, List.cons_append, List.nodup_cons] at distinct
    exact distinct.1 (List.mem_append_right _ (used ▸ inUse))

end

variable [DecidableEq Pointer] {heap : Heap Pointer}

theorem setFreeObject_unused {mgr : ObjectPoolMgrBase Pointer} {obj : Pointer}
    (unused : obj ∉ mgr.usedList) : mgr.setFreeObject obj = mgr :=
  if_neg unused

theorem setFreeObject_whole {mgr : ObjectPoolMgrBase Pointer} (whole : mgr.Whole heap)
    (obj : Pointer) : (mgr.setFreeObject obj).Whole heap := by
  by_cases inUse : obj ∈ mgr.usedList
  · have distinct := (List.nodup_append'.mp (nodup_lists whole)).2.1
    have erased : mgr.usedList.filter (· ≠ obj) = mgr.usedList.erase obj := by
      rw [distinct.erase_eq_filter]
      exact List.filter_congr fun other _ => by simp [bne, BEq.beq]
    obtain ⟨pool, lists, count, positive⟩ := whole
    rw [setFreeObject, if_pos inUse]
    refine ⟨pool, ?_, count, positive⟩
    refine List.Perm.trans ?_ lists
    dsimp only
    rw [erased, List.cons_append]
    refine List.perm_middle.symm.trans ?_
    exact (List.perm_cons_erase inUse).symm.append_left _
  · rw [setFreeObject_unused inUse]
    exact whole

theorem step_whole {mgr : ObjectPoolMgrBase Pointer} (whole : mgr.Whole heap)
    (call : PoolCall Pointer) (fits : Fits mgr call) : (mgr.step heap call).Whole heap := by
  cases call with
  | getFreeObject => exact getFreeObject_whole whole fits
  | setFreeObject obj => exact setFreeObject_whole whole obj

structure Partitioned (mgr : ObjectPoolMgrBase Pointer) : Prop where
  free : mgr.freeList.Nodup
  used : mgr.usedList.Nodup
  apart : mgr.freeList.Disjoint mgr.usedList
  pool : mgr.poolList.Nodup
  objects : ∀ obj, obj ∈ mgr.poolList ↔ obj ∈ mgr.freeList ∨ obj ∈ mgr.usedList
  count : (mgr.poolList.length : Int) = mgr.poolCount

omit [DecidableEq Pointer] in
theorem whole_partitioned {mgr : ObjectPoolMgrBase Pointer} (whole : mgr.Whole heap) :
    mgr.Partitioned := by
  obtain ⟨free, used, apart⟩ := List.nodup_append'.mp (nodup_lists whole)
  refine ⟨free, used, apart, ?_, ?_, ?_⟩
  · rw [whole.pool]
    exact block_nodup heap 0 mgr.allocated
  · intro obj
    rw [← whole.lists.mem_iff, List.mem_append]
  · rw [whole.pool, whole.count]
    simp [block]

/-- Whatever pointers are returned, the pool stays split into free and used objects. -/
theorem calls_partitioned (heap : Heap Pointer) (initCount : Int)
    (calls : List (PoolCall Pointer))
    (fits : Run.Along (step heap) Fits (new heap initCount) calls) :
    (calls.foldl (step heap) (new heap initCount)).Partitioned ∧
      (Fits (calls.foldl (step heap) (new heap initCount)) .getFreeObject →
        ((calls.foldl (step heap) (new heap initCount)).getFreeObject heap).2 ≠ heap.null ∧
          ((calls.foldl (step heap) (new heap initCount)).getFreeObject heap).2 ∉
            (calls.foldl (step heap) (new heap initCount)).usedList) ∧
      ∀ obj, obj ∉ (calls.foldl (step heap) (new heap initCount)).usedList →
        (calls.foldl (step heap) (new heap initCount)).setFreeObject obj =
          calls.foldl (step heap) (new heap initCount) := by
  have whole := Run.Along.invariant
    (fun mgr call (whole : Whole heap mgr) fits => step_whole whole call fits)
    (new_whole heap initCount) fits
  refine ⟨whole_partitioned whole, getFreeObject_unused whole, ?_⟩
  exact fun obj unused => setFreeObject_unused unused

def numbered : Heap Nat :=
  { null := 0
    new := fun count => count + 1
    fresh := Nat.succ_injective
    valid := Nat.succ_ne_zero }

/-- A pool of one grows, and gets back a foreign pointer, an object and the same object again. -/
def returnsTwice : List (PoolCall Nat) :=
  [.getFreeObject, .getFreeObject, .setFreeObject 99, .setFreeObject 1, .setFreeObject 1]

theorem calls_partitioned_returnsTwice :
    (returnsTwice.foldl (step numbered) (new numbered 1)).Partitioned := by
  have small : ∀ mgr : ObjectPoolMgrBase Nat, mgr.poolCount = 1 → Fits mgr .getFreeObject := by
    intro mgr one _
    omega
  refine (calls_partitioned numbered 1 returnsTwice ?_).1
  exact ⟨small _ (by decide), small _ (by decide), trivial, trivial, trivial, trivial⟩

/-! `ObjectPoolMgr` is this pool with the objects numbered in the order they were made. -/

structure Numbers (heap : Heap Pointer) (small : ObjectPoolMgr) (mgr : ObjectPoolMgrBase Pointer) :
    Prop where
  free : mgr.freeList = small.freeList.map heap.new
  used : mgr.usedList = small.usedList.map heap.new
  count : mgr.allocated = small.poolCount

omit [DecidableEq Pointer] in
theorem new_numbers (initCount : Nat) :
    Numbers heap (ObjectPoolMgr.new initCount) (new heap initCount) := by
  have loops : (max (initCount : Int) 1).toNat = max initCount 1 := by omega
  rw [new, loops, allocate_eq]
  refine ⟨?_, rfl, Nat.zero_add _⟩
  simp [ObjectPoolMgr.new, block, List.range_eq_range']

omit [DecidableEq Pointer] in
theorem addAlloc_numbers {small : ObjectPoolMgr} {mgr : ObjectPoolMgrBase Pointer}
    (numbers : Numbers heap small mgr) (whole : mgr.Whole heap)
    (fits : mgr.poolCount * 3 < 2 ^ 31) : Numbers heap small.addAlloc (mgr.addAlloc heap) := by
  obtain ⟨free, used, count⟩ := numbers
  rw [addAlloc_eq whole fits, allocate_eq]
  refine ⟨?_, used, ?_⟩
  · simp only [ObjectPoolMgr.addAlloc, List.map_append, block, free, count,
      List.range'_eq_map_range]
  · simp only [ObjectPoolMgr.addAlloc, count]

omit [DecidableEq Pointer] in
theorem getFreeObject_numbers {small : ObjectPoolMgr} {mgr : ObjectPoolMgrBase Pointer}
    (numbers : Numbers heap small mgr) (whole : mgr.Whole heap)
    (fits : Fits mgr .getFreeObject) :
    Numbers heap small.getFreeObject.1 (mgr.getFreeObject heap).1 ∧
      small.getFreeObject.2.map heap.new = some (mgr.getFreeObject heap).2 := by
  obtain ⟨filled, grown, filledEq, grownEq, filledNumbers, some⟩ :
      ∃ (filled : ObjectPoolMgr) (grown : ObjectPoolMgrBase Pointer),
        (if small.freeList = [] then small.addAlloc else small) = filled ∧
          (if mgr.freeList.isEmpty then mgr.addAlloc heap else mgr) = grown ∧
            Numbers heap filled grown ∧ grown.freeList ≠ [] := by
    by_cases empty : small.freeList = []
    · have free : mgr.freeList = [] := by rw [numbers.free, empty, List.map_nil]
      refine ⟨_, _, if_pos empty, if_pos (List.isEmpty_iff.mpr free), ?_, ?_⟩
      · exact addAlloc_numbers numbers whole (fits free)
      · exact (addAlloc_keeps whole (fits free)).1
    · have free : mgr.freeList ≠ [] := by simpa [numbers.free] using empty
      exact ⟨_, _, if_neg empty, if_neg (mt List.isEmpty_iff.mp free), numbers, free⟩
  obtain ⟨free, used, count⟩ := filledNumbers
  rw [ObjectPoolMgr.getFreeObject, getFreeObject, filledEq, grownEq]
  cases smallFree : filled.freeList with
  | nil =>
      rw [smallFree] at free
      exact absurd free some
  | cons obj rest =>
      rw [smallFree, List.map_cons] at free
      rw [free]
      refine ⟨⟨rfl, ?_, count⟩, rfl⟩
      rw [used, List.map_append, List.map_singleton]

theorem setFreeObject_numbers {small : ObjectPoolMgr} {mgr : ObjectPoolMgrBase Pointer}
    (numbers : Numbers heap small mgr) (obj : Nat) :
    Numbers heap (small.setFreeObject obj) (mgr.setFreeObject (heap.new obj)) := by
  obtain ⟨free, used, count⟩ := numbers
  have listed : heap.new obj ∈ mgr.usedList ↔ obj ∈ small.usedList := by
    rw [used, List.mem_map_of_injective heap.fresh]
  by_cases inUse : obj ∈ small.usedList
  · rw [ObjectPoolMgr.setFreeObject, setFreeObject, if_pos inUse, if_pos (listed.mpr inUse)]
    refine ⟨?_, ?_, count⟩
    · rw [free, List.map_cons]
    · dsimp only
      rw [used, List.filter_map]
      congr 1
      exact List.filter_congr fun other _ => by simp [heap.fresh.eq_iff]
  · rw [ObjectPoolMgr.setFreeObject, if_neg inUse, setFreeObject_unused (mt listed.mp inUse)]
    exact ⟨free, used, count⟩

end ObjectPoolMgrBase

namespace ObjectMgr

theorem getFreeObject_listed {mgr : ObjectMgr} (kept : mgr.Kept) {obj : Nat}
    (listed : obj ∈ mgr.freeList ++ mgr.usedList) :
    obj ∈ mgr.getFreeObject.1.freeList ++ mgr.getFreeObject.1.usedList := by
  have whole : mgr.getFreeObject.1.freeList ++ [mgr.getFreeObject.2] =
      (if mgr.freeList = [] then mgr.addAlloc else mgr).freeList := by
    have some : (if mgr.freeList = [] then mgr.addAlloc else mgr).freeList ≠ [] := by
      have positive := kept.positive
      split
      next empty =>
        simp only [addAlloc, empty, List.nil_append, ne_eq, List.map_eq_nil_iff,
          List.range_eq_nil]
        omega
      next some => exact some
    simp only [getFreeObject]
    rw [List.getLastD_eq_getLast?, List.getLast?_eq_some_getLast some]
    exact List.dropLast_append_getLast some
  rw [(getFreeObject_kept kept).2.2]
  rcases List.mem_append.mp listed with free | used
  · have filled : obj ∈ mgr.getFreeObject.1.freeList ++ [mgr.getFreeObject.2] := by
      rw [whole]
      split
      next empty => simp [empty] at free
      next => exact free
    rw [List.mem_append] at filled ⊢
    rw [List.mem_append]
    tauto
  · exact List.mem_append_right _ (List.mem_append_left _ used)

theorem setFreeObject_listed {mgr : ObjectMgr} {obj other : Nat}
    (listed : other ∈ mgr.freeList ++ mgr.usedList) :
    other ∈ (mgr.setFreeObject obj).freeList ++ (mgr.setFreeObject obj).usedList := by
  by_cases same : other = obj
  · subst same
    simp [setFreeObject]
  · simp only [List.mem_append] at listed
    by_cases inUse : obj ∈ mgr.usedList
    · simpa [setFreeObject, inUse, same] using listed
    · simpa [setFreeObject, inUse, same] using listed

theorem setFreeObject_doubled {mgr : ObjectMgr} {obj : Nat}
    (listed : obj ∈ mgr.freeList ++ mgr.usedList) (unused : obj ∉ mgr.usedList) :
    ¬(mgr.setFreeObject obj).freeList.Nodup := by
  intro distinct
  have free := (List.mem_append.mp listed).resolve_right unused
  exact (List.nodup_append'.mp distinct).2.2 free (List.mem_singleton_self obj)

end ObjectMgr

namespace ObjectMgrRun

/-- What has been handed out is still known to the pool. -/
structure Known (run : ObjectMgrRun) : Prop where
  kept : run.mgr.Kept
  issued : ∀ obj ∈ run.issued, obj ∈ run.mgr.freeList ++ run.mgr.usedList

theorem initial_known : Known {} :=
  ⟨ObjectMgr.new_kept, fun _ member => absurd member List.not_mem_nil⟩

theorem step_known (run : ObjectMgrRun) (call : ObjectMgrCall) (known : run.Known)
    (returns : run.ReturnsUsed call) : (run.step call).Known := by
  obtain ⟨kept, issued⟩ := known
  cases call with
  | getFreeObject =>
      constructor
      · exact (ObjectMgr.getFreeObject_kept kept).1
      · intro obj member
        rcases List.mem_append.mp member with earlier | now
        · exact ObjectMgr.getFreeObject_listed kept (issued obj earlier)
        · rw [List.mem_singleton.mp now]
          simp only [step]
          rw [(ObjectMgr.getFreeObject_kept kept).2.2]
          simp
  | setFreeObject issue =>
      simp only [step]
      split
      next => exact ⟨kept, issued⟩
      next obj found =>
        constructor
        · exact (ObjectMgr.setFreeObject_kept kept (returns obj found)).1
        · exact fun other member => ObjectMgr.setFreeObject_listed (issued other member)

/-- No object is listed twice, and the next one handed out is not in use. -/
structure Exclusive (run : ObjectMgrRun) : Prop where
  free : run.mgr.freeList.Nodup
  used : run.mgr.usedList.Nodup
  apart : run.mgr.freeList.Disjoint run.mgr.usedList
  next : run.mgr.getFreeObject.2 ∉ run.mgr.usedList

theorem Known.exclusive {run : ObjectMgrRun} (known : run.Known) : run.Exclusive := by
  obtain ⟨free, used, apart⟩ := List.nodup_append'.mp known.kept.distinct
  exact ⟨free, used, apart, (ObjectMgr.getFreeObject_kept known.kept).2.1⟩

theorem step_breaks (run : ObjectMgrRun) (call : ObjectMgrCall) (known : run.Known)
    (violated : ¬run.ReturnsUsed call) : ¬(run.step call).Exclusive := by
  cases call with
  | getFreeObject => exact absurd trivial violated
  | setFreeObject issue =>
      simp only [ReturnsUsed, not_forall] at violated
      obtain ⟨obj, found, unused⟩ := violated
      have listed := known.issued obj (List.mem_of_getElem? found)
      have doubled := ObjectMgr.setFreeObject_doubled listed unused
      simp only [step, found]
      exact fun exclusive => doubled exclusive.free

/-- The lists stay apart all along exactly when every object returned is in use then. -/
theorem always_exclusive_iff (calls : List ObjectMgrCall) :
    (∀ before after, calls = before ++ after → (before.foldl step {}).Exclusive) ↔
      Run.Along step ReturnsUsed {} calls :=
  Run.always_iff_along step_known (fun _ known => known.exclusive) step_breaks initial_known calls

/-- The first object is returned twice, and then handed out twice. -/
theorem returned_twice_issued_twice :
    ¬∀ before after, [.getFreeObject, .setFreeObject 0, .setFreeObject 0, .getFreeObject] =
      before ++ after → (before.foldl step {}).Exclusive := by
  intro always
  have exclusive := always
    [.getFreeObject, .setFreeObject 0, .setFreeObject 0, .getFreeObject] [] rfl
  have inUse : ([.getFreeObject, .setFreeObject 0, .setFreeObject 0, .getFreeObject].foldl
      step {}).mgr.getFreeObject.2 ∈ ([.getFreeObject, .setFreeObject 0, .setFreeObject 0,
        .getFreeObject].foldl step {}).mgr.usedList := by
    decide
  exact exclusive.next inUse

end ObjectMgrRun

end ProjectPl
