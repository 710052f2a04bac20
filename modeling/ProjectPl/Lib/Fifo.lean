import Mathlib

/-!
The bounded first-in first-out queue that a ring buffer stands for: the contents are a
list, a write is all or nothing, a read copies without consuming, and an erase consumes
without copying. A refused operation answers with a failure code and changes nothing.
-/

namespace Fifo

variable {α : Type*}

inductive Op (α : Type*)
  | write (values : List α)
  | read (count : Nat)
  | erase (count : Nat)
  | reset

structure Response (α : Type*) where
  returned : Option Nat
  copied : List α := []

def step (failure capacity : Nat) (queue : List α) : Op α → List α × Response α
  | .write values =>
      if queue.length + values.length ≤ capacity then
        (queue ++ values, { returned := some (queue.length + values.length) })
      else (queue, { returned := some failure })
  | .read count =>
      if count ≤ queue.length then
        (queue, { returned := some count, copied := queue.take count })
      else (queue, { returned := some failure })
  | .erase count =>
      if count ≤ queue.length then
        (queue.drop count, { returned := some (queue.length - count) })
      else (queue, { returned := some failure })
  | .reset => ([], { returned := none })

end Fifo
