import Mathlib.Data.List.Nodup
import Mathlib.Logic.Function.Basic

/-!
# Sets with keys

A set whose elements are told apart by a key, as a hashed container with an equality
on the keys has them: at most one element for every key. Such sets are often split
into shards by a function of the key. What is found under a key depends on the
operations on this key alone, whichever shard it falls into.
-/

namespace Msmuduo

set_option autoImplicit false

universe u v

variable {Element : Type u} {Key : Type v} [DecidableEq Key]

structure KeyedSet (key : Element → Key) where
  elements : List Element
  distinct : (elements.map key).Nodup

namespace KeyedSet

variable {key : Element → Key}

def empty : KeyedSet key := ⟨[], List.nodup_nil⟩

def find (set : KeyedSet key) (wanted : Key) : Option Element :=
  set.elements.find? fun element => key element = wanted

/-- Takes the element with the key out, if there is one. -/
def erase (set : KeyedSet key) (wanted : Key) : KeyedSet key where
  elements := set.elements.filter fun element => key element ≠ wanted
  distinct := set.distinct.sublist (List.filter_sublist.map key)

/-- An element whose key is there already is not inserted. -/
def insert (set : KeyedSet key) (element : Element) : KeyedSet key :=
  if fresh : set.find (key element) = none then
    { elements := element :: set.elements
      distinct := by
        rw [List.map_cons, List.nodup_cons]
        constructor
        · intro member
          obtain ⟨other, inside, same⟩ := List.mem_map.mp member
          have absent := List.find?_eq_none.mp fresh other inside
          exact absent (by simp [same])
        · exact set.distinct }
  else set

@[simp]
theorem find_empty (wanted : Key) : (empty : KeyedSet key).find wanted = none := rfl

theorem find_key {set : KeyedSet key} {wanted : Key} {element : Element}
    (found : set.find wanted = some element) : key element = wanted := by
  have holds := List.find?_some found
  simpa using holds

theorem find_erase (set : KeyedSet key) (gone wanted : Key) :
    (set.erase gone).find wanted = if wanted = gone then none else set.find wanted := by
  unfold find erase
  rw [List.find?_filter]
  by_cases same : wanted = gone
  · rw [if_pos same, List.find?_eq_none]
    intro element _
    simp [same]
  · rw [if_neg same]
    congr 1
    funext element
    by_cases here : key element = wanted
    · simp [here, same]
    · simp [here]

theorem find_insert {set : KeyedSet key} {element : Element}
    (fresh : set.find (key element) = none) (wanted : Key) :
    (set.insert element).find wanted =
      if wanted = key element then some element else set.find wanted := by
  unfold insert
  rw [dif_pos fresh]
  unfold find
  rw [List.find?_cons]
  by_cases same : wanted = key element
  · rw [if_pos same]
    simp [same]
  · rw [if_neg same]
    simp [Ne.symm same]

/-! ## Shards -/

section

variable {shards : Nat → KeyedSet key}

theorem find_update_erase (place : Key → Nat) (gone wanted : Key) :
    (Function.update shards (place gone) ((shards (place gone)).erase gone) (place wanted)).find
        wanted =
      if wanted = gone then none else (shards (place wanted)).find wanted := by
  by_cases same : place wanted = place gone
  · rw [same, Function.update_self, find_erase]
  · have apart : wanted ≠ gone := fun equal => same (by rw [equal])
    rw [Function.update_of_ne same, if_neg apart]

theorem find_update_insert (place : Key → Nat) {element : Element} {set : KeyedSet key}
    (fresh : set.find (key element) = none)
    (others : ∀ wanted, wanted ≠ key element →
      set.find wanted = (shards (place (key element))).find wanted) (wanted : Key) :
    (Function.update shards (place (key element)) (set.insert element) (place wanted)).find wanted =
      if wanted = key element then some element else (shards (place wanted)).find wanted := by
  by_cases same : place wanted = place (key element)
  · rw [same, Function.update_self, find_insert fresh]
    by_cases here : wanted = key element
    · rw [if_pos here, if_pos here]
    · rw [if_neg here, if_neg here, others wanted here]
  · have apart : wanted ≠ key element := fun equal => same (by rw [equal])
    rw [Function.update_of_ne same, if_neg apart]

end

end KeyedSet

end Msmuduo
