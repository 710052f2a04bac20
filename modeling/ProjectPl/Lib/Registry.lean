import Mathlib

/-!
What a key finds in a map after a change. A registration that finds the key taken leaves it.
-/

namespace Registry

variable {Key Value : Type*} [Ord Key] [Std.TransOrd Key] [Std.LawfulEqOrd Key] [DecidableEq Key]
  (map : Std.TreeMap Key Value) (key other : Key) (value : Value)

theorem lookup_insertIfNew [DecidableEq Value] :
    (map.insertIfNew key value)[other]? =
      if key = other ∧ map[other]? = none then some value else map[other]? := by
  rw [Std.TreeMap.getElem?_insertIfNew]
  by_cases same : key = other
  · subst same
    simp
  · simp [same]

theorem lookup_insertIfNew_fresh [DecidableEq Value] {map : Std.TreeMap Key Value} {key : Key}
    (fresh : map[key]? = none) (other : Key) (value : Value) :
    (map.insertIfNew key value)[other]? = if key = other then some value else map[other]? := by
  rw [lookup_insertIfNew]
  by_cases same : key = other
  · rw [if_pos ⟨same, same ▸ fresh⟩, if_pos same]
  · rw [if_neg fun both => same both.1, if_neg same]

theorem lookup_erase :
    (map.erase key)[other]? = if key = other then none else map[other]? := by
  rw [Std.TreeMap.getElem?_erase]
  by_cases same : key = other
  · subst same
    simp
  · simp [same]

end Registry
