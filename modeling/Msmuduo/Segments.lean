import Mathlib.Algebra.Order.Ring.Nat
import Mathlib.Data.List.Basic
import Mathlib.Tactic.Ring

/-!
# Lists in segments

A long list that is kept in segments of one size: the element at an index is in the
segment of the quotient, at the place of the remainder.
-/

namespace Msmuduo.Segments

set_option autoImplicit false

universe u v

variable {Name : Type u} {Value : Type v} {values : Name → List Value} {names : List Name}
  {size : Nat}

theorem length_flatMap (sized : ∀ name ∈ names, (values name).length = size) :
    (names.flatMap values).length = names.length * size := by
  induction names with
  | nil => simp
  | cons name names ih =>
      rw [List.flatMap_cons, List.length_append, sized name (by simp),
        ih fun other member => sized other (by simp [member]), List.length_cons]
      ring

theorem getElem?_flatMap (sized : ∀ name ∈ names, (values name).length = size)
    {segment place : Nat} {name : Name} (there : names[segment]? = some name)
    (inside : place < size) :
    (names.flatMap values)[segment * size + place]? = (values name)[place]? := by
  induction names generalizing segment with
  | nil => cases there
  | cons first names ih =>
      have front : (values first).length = size := sized first (by simp)
      cases segment with
      | zero =>
          cases there
          rw [List.flatMap_cons, Nat.zero_mul, Nat.zero_add,
            List.getElem?_append_left (by rw [front]; exact inside)]
      | succ segment =>
          have split : (segment + 1) * size + place = (segment * size + place) + size := by ring
          rw [List.flatMap_cons, split, List.getElem?_append_right (by rw [front]; omega), front,
            Nat.add_sub_cancel]
          exact ih (fun other member => sized other (by simp [member])) there

/-- Another list of values differs at one index when one segment does at one place. -/
theorem flatMap_set {changed : Name → List Value} (distinct : names.Nodup)
    (sized : ∀ name ∈ names, (values name).length = size) {segment place : Nat} {name : Name}
    {value : Value} (there : names[segment]? = some name) (inside : place < size)
    (set : changed name = (values name).set place value)
    (others : ∀ other, other ≠ name → changed other = values other) :
    names.flatMap changed = (names.flatMap values).set (segment * size + place) value := by
  induction names generalizing segment with
  | nil => cases there
  | cons first names ih =>
      obtain ⟨notLater, laterDistinct⟩ := List.nodup_cons.mp distinct
      have front : (values first).length = size := sized first (by simp)
      cases segment with
      | zero =>
          cases there
          have later : names.flatMap changed = names.flatMap values := by
            apply List.flatMap_congr
            intro other member
            apply others
            intro same
            rw [same] at member
            exact notLater member
          rw [List.flatMap_cons, List.flatMap_cons, later, set, Nat.zero_mul, Nat.zero_add,
            List.set_append_left _ _ (by rw [front]; exact inside)]
      | succ segment =>
          have member : name ∈ names := List.mem_of_getElem? there
          have apart : first ≠ name := by
            intro same
            rw [same] at notLater
            exact notLater member
          have split : (segment + 1) * size + place = (segment * size + place) + size := by ring
          rw [List.flatMap_cons, List.flatMap_cons, others first apart, split,
            List.set_append_right _ _ (by rw [front]; omega), front, Nat.add_sub_cancel,
            ih laterDistinct (fun other member => sized other (by simp [member])) there]

end Msmuduo.Segments
