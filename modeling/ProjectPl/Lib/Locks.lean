import Mathlib

/-!
Threads that share data and exclusive, non-recursive locks. What a thread runs is `Code`: it
takes and gives back locks and acts on the data, one step at a time, and every choice depends on
the data read. The steps of the threads interleave in any order.

Two threads deadlock on a pair of locks only if each holds one of them and goes on to the other
before it gives its own back. Such a crossing begins at the moment one of the two locks is taken,
and the order in which each thread nests its locks says for which pairs it can.
-/

namespace Locks

variable {τ κ δ α β : Type}

/-- `acquire` hands on the data at the moment the lock is taken, `act` the data before its
change. -/
inductive Code (κ δ α : Type)
  | ret (value : α)
  | acquire (lock : κ) (next : δ → Code κ δ α)
  | act (change : δ → δ) (next : δ → Code κ δ α)
  | release (lock : κ) (next : Code κ δ α)

namespace Code

def bind : Code κ δ α → (α → Code κ δ β) → Code κ δ β
  | .ret value, next => next value
  | .acquire lock rest, next => .acquire lock fun data => (rest data).bind next
  | .act change rest, next => .act change fun data => (rest data).bind next
  | .release lock rest, next => .release lock (rest.bind next)

instance : Monad (Code κ δ) where
  pure := .ret
  bind := bind

def read (view : δ → α) : Code κ δ α := .act id fun data => .ret (view data)

def modify (change : δ → δ) : Code κ δ Unit := .act change fun _ => .ret ()

/-- The body runs with the lock held, as the scope of a lock guard does. -/
def guarded (lock : κ) (body : δ → Code κ δ α) : Code κ δ α :=
  .acquire lock fun data => (body data).bind fun value => .release lock (.ret value)

/-! Code with no other thread around: the data it leaves and what it returns. -/

def alone : Code κ δ α → δ → δ × α
  | .ret value, data => (data, value)
  | .acquire _ next, data => (next data).alone data
  | .act change next, data => (next data).alone (change data)
  | .release _ next, data => next.alone data

@[simp] theorem alone_pure (value : α) (data : δ) :
    (pure value : Code κ δ α).alone data = (data, value) := rfl

@[simp] theorem alone_bind (code : Code κ δ α) (next : α → Code κ δ β) (data : δ) :
    (code >>= next).alone data = (next (code.alone data).2).alone (code.alone data).1 := by
  induction code generalizing data with
  | ret value => rfl
  | acquire lock rest ih => exact ih data data
  | act change rest ih => exact ih data (change data)
  | release lock rest ih => exact ih data

@[simp] theorem alone_read (view : δ → α) (data : δ) :
    (read view : Code κ δ α).alone data = (data, view data) := rfl

@[simp] theorem alone_modify (change : δ → δ) (data : δ) :
    (modify change : Code κ δ Unit).alone data = (change data, ()) := rfl

@[simp] theorem alone_guarded (lock : κ) (body : δ → Code κ δ α) (data : δ) :
    (guarded lock body).alone data = (body data).alone data :=
  alone_bind (body data) (fun value => .release lock (.ret value)) data

theorem alone_forM_cons (body : α → Code κ δ Unit) (item : α) (rest : List α) (data : δ) :
    ((item :: rest).forM body).alone data = (rest.forM body).alone ((body item).alone data).1 :=
  alone_bind (body item) (fun _ => rest.forM body) data

/-! The order of the locks: code that starts with the locks `held`, the last one taken in front,
takes another only under locks that may have it nested inside, gives them back last in first out
and ends with `after`. -/

def Nests (order : κ → κ → Prop) : List κ → Code κ δ α → List κ → Prop
  | held, .ret _, after => held = after
  | held, .acquire lock next, after =>
      (∀ outer ∈ held, order outer lock) ∧ ∀ data, Nests order (lock :: held) (next data) after
  | held, .act _ next, after => ∀ data, Nests order held (next data) after
  | held, .release lock next, after => ∃ rest, held = lock :: rest ∧ Nests order rest next after

section Nests

variable {order : κ → κ → Prop} {held middle after : List κ}

theorem nests_pure (value : α) : Nests order held (pure value : Code κ δ α) held := rfl

theorem nests_read (view : δ → α) : Nests order held (read view : Code κ δ α) held :=
  fun _ => rfl

theorem nests_modify (change : δ → δ) : Nests order held (modify change : Code κ δ Unit) held :=
  fun _ => rfl

theorem Nests.bind {code : Code κ δ α} {next : α → Code κ δ β}
    (first : Nests order held code middle)
    (later : ∀ value, Nests order middle (next value) after) :
    Nests order held (code >>= next) after := by
  induction code generalizing held with
  | ret value =>
      subst first
      exact later value
  | acquire lock rest ih => exact ⟨first.1, fun data => ih data (first.2 data)⟩
  | act change rest ih => exact fun data => ih data (first data)
  | release lock rest ih =>
      obtain ⟨below, rfl, inner⟩ := first
      exact ⟨below, rfl, ih inner⟩

theorem Nests.forM {body : α → Code κ δ Unit} (each : ∀ item, Nests order held (body item) held)
    (items : List α) : Nests order held (items.forM body) held := by
  induction items with
  | nil => exact nests_pure ()
  | cons item rest ih => exact (each item).bind fun _ => ih

theorem Nests.guarded {lock : κ} {body : δ → Code κ δ α}
    (allowed : ∀ outer ∈ held, order outer lock)
    (inner : ∀ data, Nests order (lock :: held) (body data) (lock :: held)) :
    Nests order held (guarded lock body) held :=
  ⟨allowed, fun data => (inner data).bind fun _ => ⟨held, rfl, rfl⟩⟩

end Nests

/-! On some way through, the code takes `inner` before it gives `outer` back. -/

def Reaches (outer inner : κ) : Code κ δ α → Prop
  | .ret _ => False
  | .acquire lock next => lock = inner ∨ ∃ data, Reaches outer inner (next data)
  | .act _ next => ∃ data, Reaches outer inner (next data)
  | .release lock next => lock ≠ outer ∧ Reaches outer inner next

theorem Nests.order_of_reaches {order : κ → κ → Prop} {held after : List κ} {code : Code κ δ α}
    {outer inner : κ} (nests : Nests order held code after) (inside : outer ∈ held)
    (reaches : Reaches outer inner code) : order outer inner := by
  induction code generalizing held with
  | ret value => exact absurd reaches id
  | acquire lock next ih =>
      rcases reaches with rfl | ⟨data, later⟩
      · exact nests.1 outer inside
      · exact ih data (nests.2 data) (List.mem_cons_of_mem _ inside) later
  | act change next ih =>
      obtain ⟨data, later⟩ := reaches
      exact ih data (nests data) inside later
  | release lock next ih =>
      obtain ⟨rest, rfl, below⟩ := nests
      rcases List.mem_cons.mp inside with same | deeper
      · exact absurd same.symm reaches.1
      · exact ih below deeper reaches.2

def Avoids (lock : κ) : Code κ δ α → Prop
  | .ret _ => True
  | .acquire other next => other ≠ lock ∧ ∀ data, Avoids lock (next data)
  | .act _ next => ∀ data, Avoids lock (next data)
  | .release _ next => Avoids lock next

theorem Avoids.not_reaches {outer inner : κ} {code : Code κ δ α} (avoids : Avoids inner code) :
    ¬Reaches outer inner code := by
  induction code with
  | ret value => exact id
  | acquire lock next ih =>
      rintro (same | ⟨data, later⟩)
      · exact avoids.1 same
      · exact ih data (avoids.2 data) later
  | act change next ih =>
      rintro ⟨data, later⟩
      exact ih data (avoids data) later
  | release lock next ih => exact fun reaches => ih avoids reaches.2

theorem reaches_bind {outer inner : κ} {code : Code κ δ α} {next : α → Code κ δ β}
    (reaches : Reaches outer inner (code >>= next)) :
    Reaches outer inner code ∨ ∃ value, Reaches outer inner (next value) := by
  induction code with
  | ret value => exact Or.inr ⟨value, reaches⟩
  | acquire lock rest ih =>
      rcases reaches with same | ⟨data, later⟩
      · exact Or.inl (Or.inl same)
      · exact (ih data later).imp_left fun found => Or.inr ⟨data, found⟩
  | act change rest ih =>
      obtain ⟨data, later⟩ := reaches
      exact (ih data later).imp_left fun found => ⟨data, found⟩
  | release lock rest ih =>
      exact (ih reaches.2).imp_left fun found => ⟨reaches.1, found⟩

end Code

/-! The machine: the shared data, which thread holds each lock, and what each thread has left to
run. A thread with nothing left is idle and can be given more. -/

structure Machine (τ κ δ : Type) where
  data : δ
  holder : κ → Option τ := fun _ => none
  code : τ → Code κ δ Unit := fun _ => .ret ()

namespace Machine

def start [DecidableEq τ] (machine : Machine τ κ δ) (thread : τ) (code : Code κ δ Unit) :
    Machine τ κ δ :=
  match machine.code thread with
  | .ret _ => { machine with code := Function.update machine.code thread code }
  | _ => machine

/-- One step of a thread. One that asks for a lock that is taken stays where it is. -/
def move [DecidableEq τ] [DecidableEq κ] (machine : Machine τ κ δ) (thread : τ) : Machine τ κ δ :=
  match machine.code thread with
  | .ret _ => machine
  | .acquire lock next =>
      if machine.holder lock = none then
        { machine with
          holder := Function.update machine.holder lock (some thread)
          code := Function.update machine.code thread (next machine.data) }
      else machine
  | .act change next =>
      { machine with
        data := change machine.data
        code := Function.update machine.code thread (next machine.data) }
  | .release lock next =>
      { machine with
        holder := Function.update machine.holder lock none
        code := Function.update machine.code thread next }

/-- A change of the data from outside the threads. -/
def outside (machine : Machine τ κ δ) (change : δ → δ) : Machine τ κ δ :=
  { machine with data := change machine.data }

def WaitsFor (machine : Machine τ κ δ) (thread other : τ) : Prop :=
  ∃ lock next, machine.code thread = .acquire lock next ∧ machine.holder lock = some other

def Deadlocked (machine : Machine τ κ δ) (thread other : τ) : Prop :=
  machine.WaitsFor thread other ∧ machine.WaitsFor other thread

/-- Each thread holds one of the two locks and goes on to the other's before it gives its own
back. -/
structure Crossed (machine : Machine τ κ δ) (thread other : τ) (mine theirs : κ) : Prop where
  holds : machine.holder mine = some thread
  wants : (machine.code thread).Reaches mine theirs
  otherHolds : machine.holder theirs = some other
  otherWants : (machine.code other).Reaches theirs mine

theorem Deadlocked.crossed {machine : Machine τ κ δ} {thread other : τ}
    (deadlocked : machine.Deadlocked thread other) :
    ∃ mine theirs, machine.Crossed thread other mine theirs := by
  obtain ⟨⟨theirs, next, asks, held⟩, mine, otherNext, otherAsks, otherHeld⟩ := deadlocked
  refine ⟨mine, theirs, otherHeld, ?_, held, ?_⟩
  · rw [asks]
    exact Or.inl rfl
  · rw [otherAsks]
    exact Or.inl rfl

theorem move_avoids [DecidableEq τ] [DecidableEq κ] {machine : Machine τ κ δ} {thread : τ}
    {lock : κ} (avoids : (machine.code thread).Avoids lock) (mover : τ) :
    ((machine.move mover).code thread).Avoids lock := by
  by_cases self : thread = mover
  · subst self
    unfold move
    cases remaining : machine.code thread with
    | ret value => exact avoids
    | acquire taken next =>
        rw [remaining] at avoids
        dsimp only
        split
        · simpa only [Function.update_self] using avoids.2 machine.data
        · rw [remaining]
          exact avoids
    | act change next =>
        rw [remaining] at avoids
        simpa only [Function.update_self] using avoids machine.data
    | release given next =>
        rw [remaining] at avoids
        simpa only [Function.update_self, Code.Avoids] using avoids
  · unfold move
    cases machine.code mover with
    | ret value => exact avoids
    | acquire taken next =>
        dsimp only
        split
        · simpa only [Function.update_of_ne self] using avoids
        · exact avoids
    | act change next => simpa only [Function.update_of_ne self] using avoids
    | release given next => simpa only [Function.update_of_ne self] using avoids

/-! What a thread holds is what its code still has to give back. -/

structure Orderly (machine : Machine τ κ δ) (order : κ → κ → Prop) (thread : τ)
    (held : List κ) : Prop where
  distinct : held.Nodup
  holds : ∀ lock, machine.holder lock = some thread ↔ lock ∈ held
  nests : (machine.code thread).Nests order held []

section Orderly

variable {machine : Machine τ κ δ} {order : κ → κ → Prop} {thread other : τ} {held : List κ}

theorem idle_orderly (data : δ) :
    Orderly ({ data := data } : Machine τ κ δ) order thread [] := by
  refine ⟨List.nodup_nil, ?_, rfl⟩
  intro lock
  simp

theorem Orderly.start_self [DecidableEq τ] (orderly : machine.Orderly order thread held)
    {code : Code κ δ Unit} (nests : code.Nests order [] []) :
    ∃ later, (machine.start thread code).Orderly order thread later := by
  unfold start
  cases remaining : machine.code thread with
  | ret value =>
      have empty : held = [] := by simpa only [remaining, Code.Nests] using orderly.nests
      refine ⟨held, orderly.distinct, orderly.holds, ?_⟩
      simpa only [Function.update_self, empty] using nests
  | acquire lock next => exact ⟨held, orderly⟩
  | act change next => exact ⟨held, orderly⟩
  | release lock next => exact ⟨held, orderly⟩

theorem Orderly.move_self [DecidableEq τ] [DecidableEq κ]
    (orderly : machine.Orderly order thread held) :
    ∃ later, (machine.move thread).Orderly order thread later := by
  unfold move
  cases remaining : machine.code thread with
  | ret value => exact ⟨held, orderly⟩
  | acquire lock next =>
      have nests := orderly.nests
      rw [remaining] at nests
      dsimp only
      split
      · rename_i free
        have fresh : lock ∉ held := by
          intro inside
          rw [(orderly.holds lock).mpr inside] at free
          cases free
        refine ⟨lock :: held, List.nodup_cons.mpr ⟨fresh, orderly.distinct⟩, ?_, ?_⟩
        · intro taken
          by_cases same : taken = lock
          · simp [same]
          · simp [same, orderly.holds]
        · simpa only [Function.update_self] using nests.2 machine.data
      · exact ⟨held, orderly⟩
  | act change next =>
      have nests := orderly.nests
      rw [remaining] at nests
      refine ⟨held, orderly.distinct, orderly.holds, ?_⟩
      simpa only [Function.update_self] using nests machine.data
  | release lock next =>
      have nests := orderly.nests
      rw [remaining] at nests
      obtain ⟨rest, rfl, below⟩ := nests
      obtain ⟨gone, distinct⟩ := List.nodup_cons.mp orderly.distinct
      refine ⟨rest, distinct, ?_, ?_⟩
      · intro taken
        by_cases same : taken = lock
        · simp [same, gone]
        · simp [same, orderly.holds]
      · simpa only [Function.update_self] using below

theorem Orderly.start_other [DecidableEq τ] (orderly : machine.Orderly order other held)
    (apart : other ≠ thread) (code : Code κ δ Unit) :
    (machine.start thread code).Orderly order other held := by
  unfold start
  cases machine.code thread with
  | ret value =>
      refine ⟨orderly.distinct, orderly.holds, ?_⟩
      simpa only [Function.update_of_ne apart] using orderly.nests
  | acquire lock next => exact orderly
  | act change next => exact orderly
  | release lock next => exact orderly

theorem Orderly.move_other [DecidableEq τ] [DecidableEq κ]
    (orderly : machine.Orderly order other held) (apart : other ≠ thread) {mine : List κ}
    {ours : κ → κ → Prop} (mover : machine.Orderly ours thread mine) :
    (machine.move thread).Orderly order other held := by
  unfold move
  cases remaining : machine.code thread with
  | ret value => exact orderly
  | acquire lock next =>
      dsimp only
      split
      · rename_i free
        refine ⟨orderly.distinct, ?_, ?_⟩
        · intro taken
          rw [← orderly.holds taken]
          by_cases same : taken = lock
          · simp [same, free, apart.symm]
          · simp [same]
        · simpa only [Function.update_of_ne apart] using orderly.nests
      · exact orderly
  | act change next =>
      refine ⟨orderly.distinct, orderly.holds, ?_⟩
      simpa only [Function.update_of_ne apart] using orderly.nests
  | release lock next =>
      have nests := mover.nests
      rw [remaining] at nests
      obtain ⟨rest, rfl, -⟩ := nests
      have owned : machine.holder lock = some thread :=
        (mover.holds lock).mpr (List.mem_cons_self ..)
      refine ⟨orderly.distinct, ?_, ?_⟩
      · intro taken
        rw [← orderly.holds taken]
        by_cases same : taken = lock
        · simp [same, owned, apart.symm]
        · simp [same]
      · simpa only [Function.update_of_ne apart] using orderly.nests

theorem Crossed.opposed {ours theirs : κ → κ → Prop} {first second : κ} {locks : List κ}
    (crossed : machine.Crossed thread other first second)
    (orderly : machine.Orderly ours thread held)
    (otherOrderly : machine.Orderly theirs other locks) : ours first second ∧ theirs second first :=
  ⟨orderly.nests.order_of_reaches ((orderly.holds first).mp crossed.holds) crossed.wants,
    otherOrderly.nests.order_of_reaches ((otherOrderly.holds second).mp crossed.otherHolds)
      crossed.otherWants⟩

end Orderly

/-! A crossing begins when one of its two locks is taken. -/

section Crossed

variable {machine : Machine τ κ δ} {thread other : τ} {mine theirs : κ}

theorem Crossed.symm (crossed : machine.Crossed thread other mine theirs) :
    machine.Crossed other thread theirs mine :=
  ⟨crossed.otherHolds, crossed.otherWants, crossed.holds, crossed.wants⟩

/-- The step takes a lock that the thread nests the other's lock in, while the other thread
nests the two the other way round. -/
def Crosses (machine : Machine τ κ δ) (thread other : τ) (mine theirs : κ) : Prop :=
  ∃ next, machine.code thread = .acquire mine next ∧ (next machine.data).Reaches mine theirs ∧
    machine.holder theirs = some other ∧ (machine.code other).Reaches theirs mine

theorem crossed_of_move [DecidableEq τ] [DecidableEq κ] (apart : other ≠ thread)
    (crossed : (machine.move thread).Crossed thread other mine theirs) :
    machine.Crossed thread other mine theirs ∨ machine.Crosses thread other mine theirs := by
  obtain ⟨holds, wants, otherHolds, otherWants⟩ := crossed
  revert holds wants otherHolds otherWants
  unfold move
  cases remaining : machine.code thread with
  | ret value =>
      intro holds wants otherHolds otherWants
      exact Or.inl ⟨holds, wants, otherHolds, otherWants⟩
  | acquire lock next =>
      dsimp only
      split
      · simp only [Function.update_self, Function.update_of_ne apart]
        intro holds wants otherHolds otherWants
        have theirsKept : machine.holder theirs = some other := by
          by_cases same : theirs = lock
          · simp [same, apart.symm] at otherHolds
          · simpa [same] using otherHolds
        by_cases same : mine = lock
        · subst same
          exact Or.inr ⟨next, remaining, wants, theirsKept, otherWants⟩
        · refine Or.inl ⟨by simpa [same] using holds, ?_, theirsKept, otherWants⟩
          rw [remaining]
          exact Or.inr ⟨machine.data, wants⟩
      · intro holds wants otherHolds otherWants
        exact Or.inl ⟨holds, wants, otherHolds, otherWants⟩
  | act change next =>
      simp only [Function.update_self, Function.update_of_ne apart]
      intro holds wants otherHolds otherWants
      refine Or.inl ⟨holds, ?_, otherHolds, otherWants⟩
      rw [remaining]
      exact ⟨machine.data, wants⟩
  | release lock next =>
      simp only [Function.update_self, Function.update_of_ne apart]
      intro holds wants otherHolds otherWants
      have mineKept : mine ≠ lock := by
        rintro rfl
        simp at holds
      have theirsKept : theirs ≠ lock := by
        rintro rfl
        simp at otherHolds
      refine Or.inl ⟨by simpa [mineKept] using holds, ?_, by simpa [theirsKept] using otherHolds,
        otherWants⟩
      rw [remaining]
      exact ⟨mineKept.symm, wants⟩

theorem crossed_of_start [DecidableEq τ] {order : κ → κ → Prop} {held : List κ}
    {code : Code κ δ Unit} (orderly : machine.Orderly order thread held)
    (crossed : (machine.start thread code).Crossed thread other mine theirs) :
    machine.Crossed thread other mine theirs := by
  obtain ⟨holds, wants, otherHolds, otherWants⟩ := crossed
  revert holds wants otherHolds otherWants
  unfold start
  cases remaining : machine.code thread with
  | ret value =>
      intro holds
      have empty : held = [] := by simpa only [remaining, Code.Nests] using orderly.nests
      have inside := (orderly.holds mine).mp holds
      simp [empty] at inside
  | acquire lock next => exact fun holds wants otherHolds otherWants =>
      ⟨holds, wants, otherHolds, otherWants⟩
  | act change next => exact fun holds wants otherHolds otherWants =>
      ⟨holds, wants, otherHolds, otherWants⟩
  | release lock next => exact fun holds wants otherHolds otherWants =>
      ⟨holds, wants, otherHolds, otherWants⟩

end Crossed

end Machine

end Locks
