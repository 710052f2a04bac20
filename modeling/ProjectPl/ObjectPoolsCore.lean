import ProjectPl.Lib.DotNet
import ProjectPl.Lib.Run
import ProjectPl.ObjectPoolCore

/-!
The two object pools of `_lib/object_pool_mgr.h` over runs of calls. `ObjectPoolMgrBase` is the
one `ObjectPoolMgr` abbreviates: here with its list of all objects, its `int` count, and any
pointers as arguments. `ObjectMgrBase` keeps the model it has, and the run records what its
`GetFreeObject` has returned.
-/

namespace ProjectPl

open DotNet (int32)

/-- What `new T` answers, the first call first. Nothing is deleted before the pool is. -/
structure Heap (Pointer : Type) where
  null : Pointer
  new : Nat → Pointer
  fresh : Function.Injective new
  valid : ∀ count, new count ≠ null

/-- `allocated` counts the objects made so far. -/
structure ObjectPoolMgrBase (Pointer : Type) where
  poolList : List Pointer := []
  freeList : List Pointer := []
  usedList : List Pointer := []
  poolCount : Int := 0
  allocated : Nat := 0

inductive PoolCall (Pointer : Type)
  | getFreeObject
  | setFreeObject (obj : Pointer)

namespace ObjectPoolMgrBase

variable {Pointer : Type}

section

variable (heap : Heap Pointer)

/-- The loop of the constructor and of `AddAlloc`. -/
def allocate : Nat → ObjectPoolMgrBase Pointer → ObjectPoolMgrBase Pointer
  | 0, mgr => mgr
  | count + 1, mgr =>
      let obj := heap.new mgr.allocated
      allocate count
        { mgr with
          poolList := mgr.poolList ++ [obj]
          freeList := mgr.freeList ++ [obj]
          allocated := mgr.allocated + 1 }

def new (initCount : Int) : ObjectPoolMgrBase Pointer :=
  let poolCount := max initCount 1
  allocate heap poolCount.toNat { poolCount := poolCount }

def addAlloc (mgr : ObjectPoolMgrBase Pointer) : ObjectPoolMgrBase Pointer :=
  let addPool := int32 (mgr.poolCount * 2)
  let grown := allocate heap addPool.toNat mgr
  { grown with poolCount := int32 (grown.poolCount + addPool) }

def getFreeObject (mgr : ObjectPoolMgrBase Pointer) : ObjectPoolMgrBase Pointer × Pointer :=
  let filled := if mgr.freeList.isEmpty then mgr.addAlloc heap else mgr
  match filled.freeList with
  | [] => (filled, heap.null)
  | obj :: rest =>
      ({ filled with freeList := rest, usedList := filled.usedList ++ [obj] }, obj)

end

variable [DecidableEq Pointer]

def setFreeObject (mgr : ObjectPoolMgrBase Pointer) (obj : Pointer) : ObjectPoolMgrBase Pointer :=
  if obj ∈ mgr.usedList then
    { mgr with usedList := mgr.usedList.filter (· ≠ obj), freeList := obj :: mgr.freeList }
  else mgr

def step (heap : Heap Pointer) (mgr : ObjectPoolMgrBase Pointer) :
    PoolCall Pointer → ObjectPoolMgrBase Pointer
  | .getFreeObject => (mgr.getFreeObject heap).1
  | .setFreeObject obj => mgr.setFreeObject obj

/-- Growing triples the pool. The call stays below the limit of `int`. -/
def Fits (mgr : ObjectPoolMgrBase Pointer) : PoolCall Pointer → Prop
  | .getFreeObject => mgr.freeList = [] → mgr.poolCount * 3 < 2 ^ 31
  | .setFreeObject _ => True

end ObjectPoolMgrBase

/-! Calls on `ObjectMgrBase` with pointers that it has handed out before, named by the number of
the `GetFreeObject` that returned them. -/

structure ObjectMgrRun where
  mgr : ObjectMgr := {}
  issued : List Nat := []

inductive ObjectMgrCall
  | getFreeObject
  | setFreeObject (issue : Nat)

namespace ObjectMgrRun

def step (run : ObjectMgrRun) : ObjectMgrCall → ObjectMgrRun
  | .getFreeObject =>
      let issued := run.mgr.getFreeObject
      { mgr := issued.1, issued := run.issued ++ [issued.2] }
  | .setFreeObject issue =>
      match run.issued[issue]? with
      | none => run
      | some obj => { run with mgr := run.mgr.setFreeObject obj }

/-- The object returned is one that is in use. -/
def ReturnsUsed (run : ObjectMgrRun) : ObjectMgrCall → Prop
  | .getFreeObject => True
  | .setFreeObject issue => ∀ obj, run.issued[issue]? = some obj → obj ∈ run.mgr.usedList

end ObjectMgrRun

end ProjectPl
