import Mathlib

/-!
Flat memories with block copies, and circular windows into them. A window of a ring
of `capacity` cells starts at an offset that may rest on the end of the ring, so the
offsets `0` and `capacity` name the same cell.
-/

namespace Ring

variable {α : Type*}

def load (memory : Nat → α) (start count : Nat) : List α :=
  (List.range count).map fun offset => memory (start + offset)

def store (memory : Nat → α) (start : Nat) (values : List α) : Nat → α := fun address =>
  if start ≤ address then values[address - start]?.getD (memory address) else memory address

@[simp] theorem load_length (memory : Nat → α) (start count : Nat) :
    (load memory start count).length = count := by
  simp [load]

theorem load_getElem? (memory : Nat → α) (start count offset : Nat) :
    (load memory start count)[offset]? =
      if offset < count then some (memory (start + offset)) else none := by
  by_cases below : offset < count
  · simp [load, below]
  · simp [load, below]

theorem store_outside (memory : Nat → α) (start : Nat) (values : List α) (address : Nat)
    (outside : address < start ∨ start + values.length ≤ address) :
    store memory start values address = memory address := by
  unfold store
  split
  · rw [List.getElem?_eq_none (by omega), Option.getD_none]
  · rfl

theorem store_inside (memory : Nat → α) (start : Nat) (values : List α) (offset : Nat)
    (inside : offset < values.length) :
    store memory start values (start + offset) = values[offset] := by
  simp [store, inside]

theorem load_add (memory : Nat → α) (start first second : Nat) :
    load memory start (first + second) =
      load memory start first ++ load memory (start + first) second := by
  simp [load, List.range_add, Function.comp_def, Nat.add_assoc]

theorem load_shift (memory : Nat → α) (start count : Nat) :
    load (fun offset => memory (start + offset)) 0 count = load memory start count := by
  simp [load]

theorem load_congr (memory other : Nat → α) (start count : Nat)
    (same : ∀ offset < count, memory (start + offset) = other (start + offset)) :
    load memory start count = load other start count := by
  apply List.map_congr_left
  intro offset member
  exact same offset (List.mem_range.mp member)

theorem load_store (memory : Nat → α) (start : Nat) (values : List α) :
    load (store memory start values) start values.length = values := by
  apply List.ext_getElem
  · simp
  · intro offset inside outside
    simp only [load, List.getElem_map, List.getElem_range]
    exact store_inside memory start values offset outside

theorem load_getD (values : List α) (blank : α) {count : Nat} (inside : count ≤ values.length) :
    load (fun offset => values.getD offset blank) 0 count = values.take count := by
  apply List.ext_getElem?
  intro offset
  rw [load_getElem?, List.getElem?_take]
  by_cases below : offset < count
  · rw [if_pos below, if_pos below, Nat.zero_add, List.getD_eq_getElem _ _ (by omega),
      List.getElem?_eq_getElem]
  · rw [if_neg below, if_neg below]

def index (capacity start offset : Nat) : Nat :=
  if start + offset < capacity then start + offset else start + offset - capacity

def window (memory : Nat → α) (capacity start count : Nat) : List α :=
  (List.range count).map fun offset => memory (index capacity start offset)

@[simp] theorem window_length (memory : Nat → α) (capacity start count : Nat) :
    (window memory capacity start count).length = count := by
  simp [window]

theorem window_getElem? (memory : Nat → α) (capacity start count offset : Nat) :
    (window memory capacity start count)[offset]? =
      if offset < count then some (memory (index capacity start offset)) else none := by
  by_cases below : offset < count
  · simp [window, below]
  · simp [window, below]

theorem window_take (memory : Nat → α) (capacity start count n : Nat) (enough : n ≤ count) :
    (window memory capacity start count).take n = window memory capacity start n := by
  simp only [window, ← List.map_take, List.take_range]
  rw [Nat.min_eq_left enough]

/-- Dropping from the front of a window moves its start, with a wrap at the end. -/
theorem window_drop (memory : Nat → α) (capacity start count n next : Nat)
    (moved : next = start + n ∨ next + capacity = start + n)
    (startBound : start ≤ capacity) (enough : n ≤ count) (fits : count ≤ capacity) :
    (window memory capacity start count).drop n = window memory capacity next (count - n) := by
  apply List.ext_getElem?
  intro offset
  rw [List.getElem?_drop, window_getElem?, window_getElem?]
  by_cases below : offset < count - n
  · have sameIndex : index capacity start (n + offset) = index capacity next offset := by
      unfold index
      split <;> split <;> omega
    rw [if_pos (by omega), if_pos below, sameIndex]
  · rw [if_neg (by omega), if_neg below]

theorem load_eq_window (memory : Nat → α) (capacity start count : Nat)
    (straight : start + count ≤ capacity) :
    load memory start count = window memory capacity start count := by
  apply List.ext_getElem?
  intro offset
  rw [load_getElem?, window_getElem?]
  by_cases below : offset < count
  · rw [if_pos below, if_pos below, index, if_pos (by omega)]
  · rw [if_neg below, if_neg below]

theorem load_append_eq_window (memory : Nat → α) (capacity start count : Nat)
    (startBound : start ≤ capacity) (wraps : capacity - start ≤ count) :
    load memory start (capacity - start) ++ load memory 0 (count - (capacity - start)) =
      window memory capacity start count := by
  apply List.ext_getElem?
  intro offset
  rw [List.getElem?_append, load_length, load_getElem?, load_getElem?, window_getElem?]
  by_cases first : offset < capacity - start
  · rw [if_pos first, if_pos first, if_pos (by omega), index, if_pos (by omega)]
  · rw [if_neg first]
    by_cases below : offset < count
    · have sameIndex : index capacity start offset = 0 + (offset - (capacity - start)) := by
        unfold index
        split <;> omega
      rw [if_pos (by omega), if_pos below, sameIndex]
    · rw [if_neg (by omega), if_neg below]

/-- Filling the free cells right after a window extends it by the values stored. -/
theorem window_store (memory filled : Nat → α) (capacity start count : Nat) (values : List α)
    (kept : ∀ offset < count,
      filled (index capacity start offset) = memory (index capacity start offset))
    (stored : ∀ offset (inside : offset < values.length),
      filled (index capacity start (count + offset)) = values[offset]) :
    window filled capacity start (count + values.length) =
      window memory capacity start count ++ values := by
  apply List.ext_getElem?
  intro offset
  rw [List.getElem?_append, window_length, window_getElem?, window_getElem?]
  by_cases old : offset < count
  · rw [if_pos (by omega), if_pos old, if_pos old, kept offset old]
  · rw [if_neg old]
    by_cases new : offset - count < values.length
    · have split : count + (offset - count) = offset := by omega
      rw [if_pos (by omega), List.getElem?_eq_getElem new, ← stored _ new, split]
    · rw [if_neg (by omega), List.getElem?_eq_none (by omega)]

end Ring
