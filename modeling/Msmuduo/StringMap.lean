import Mathlib.Data.List.Sort
import Msmuduo.HttpServer

/-!
# Maps of strings

`StringMap.assign` keeps the entries in key order. After assigning entries from
left to right a key has the value that was assigned last, and a map in key order
is the result of assigning its own entries. After inserting them it has the
value that was inserted first. A map is known by the values of its keys.
-/

namespace Msmuduo.StringMap

set_option autoImplicit false

/-- The keys are strictly increasing, as in every `std::map`. -/
def Ordered (map : StringMap) : Prop := map.Pairwise fun left right => left.1 < right.1

instance (map : StringMap) : Decidable (Ordered map) :=
  inferInstanceAs (Decidable (List.Pairwise _ _))

/-- Assigns entries from left to right. -/
def assignAll (entries : List (List Byte × List Byte)) (map : StringMap) : StringMap :=
  entries.foldl (fun map entry => assign entry.1 entry.2 map) map

theorem mem_assign {key value : List Byte} {map : StringMap} {entry : List Byte × List Byte}
    (member : entry ∈ assign key value map) : entry = (key, value) ∨ entry ∈ map := by
  induction map with
  | nil => simpa [assign] using member
  | cons first rest ih =>
      unfold assign at member
      split at member
      · simpa using member
      · split at member
        · rcases List.mem_cons.mp member with here | later
          · exact Or.inl here
          · exact Or.inr (List.mem_cons_of_mem _ later)
        · rcases List.mem_cons.mp member with here | later
          · exact Or.inr (by simp [here])
          · rcases ih later with new | old
            · exact Or.inl new
            · exact Or.inr (List.mem_cons_of_mem _ old)

theorem assign_ordered {map : StringMap} (ordered : Ordered map) (key value : List Byte) :
    Ordered (assign key value map) := by
  induction map with
  | nil => exact List.pairwise_singleton _ _
  | cons first rest ih =>
      rcases List.pairwise_cons.mp ordered with ⟨smallest, later⟩
      unfold assign
      split
      · next before =>
        apply List.pairwise_cons.mpr
        refine ⟨?_, ordered⟩
        intro other member
        rcases List.mem_cons.mp member with rfl | member
        · exact before
        · exact List.lt_trans before (smallest other member)
      · next behind =>
        split
        · next same =>
          apply List.pairwise_cons.mpr
          refine ⟨?_, later⟩
          intro other member
          rw [same]
          exact smallest other member
        · next distinct =>
          apply List.pairwise_cons.mpr
          refine ⟨?_, ih later⟩
          intro other member
          rcases mem_assign member with rfl | member
          · exact Std.lt_of_le_of_ne behind (Ne.symm distinct)
          · exact smallest other member

theorem assignAll_ordered (entries : List (List Byte × List Byte)) {map : StringMap}
    (ordered : Ordered map) : Ordered (assignAll entries map) := by
  induction entries generalizing map with
  | nil => exact ordered
  | cons entry entries ih => exact ih (assign_ordered ordered entry.1 entry.2)

theorem lookup_entry (entry : List Byte × List Byte) (rest : StringMap) (name : List Byte) :
    (entry :: rest).lookup name = if name = entry.1 then some entry.2 else rest.lookup name := by
  rw [List.lookup_cons]
  by_cases same : name = entry.1
  · rw [if_pos same, beq_iff_eq.mpr same]
  · rw [if_neg same, beq_false_of_ne same]

theorem lookup_assign (map : StringMap) (key value name : List Byte) :
    (assign key value map).lookup name = if name = key then some value else map.lookup name := by
  induction map with
  | nil => exact lookup_entry (key, value) [] name
  | cons first rest ih =>
      unfold assign
      split
      · exact lookup_entry (key, value) (first :: rest) name
      · split
        · next same =>
          rw [lookup_entry, lookup_entry, ← same]
          by_cases found : name = key
          · rw [if_pos found, if_pos found]
          · simp only [if_neg found]
        · next distinct =>
          rw [lookup_entry, ih, lookup_entry]
          by_cases found : name = key
          · have missed : name ≠ first.1 := by rwa [found]
            simp only [if_neg missed, if_pos found]
          · simp only [if_neg found]

/-- A later entry replaces an earlier one with the same key. -/
theorem lookup_assignAll (entries : List (List Byte × List Byte)) (map : StringMap)
    (name : List Byte) :
    (assignAll entries map).lookup name =
      (entries.reverse.lookup name).or (map.lookup name) := by
  induction entries generalizing map with
  | nil => rfl
  | cons entry entries ih =>
      change (assignAll entries (assign entry.1 entry.2 map)).lookup name = _
      rw [ih, lookup_assign, List.reverse_cons, List.lookup_append, lookup_entry, Option.or_assoc]
      by_cases same : name = entry.1
      · rw [if_pos same, if_pos same]
        rfl
      · rw [if_neg same, if_neg same]
        rfl

/-- An entry behind all others goes to the end. -/
theorem assign_last {map : StringMap} {key : List Byte}
    (last : ∀ entry ∈ map, entry.1 < key) (value : List Byte) :
    assign key value map = map ++ [(key, value)] := by
  induction map with
  | nil => rfl
  | cons first rest ih =>
      have before := last first (by simp)
      have notBefore : ¬key < first.1 := fun after =>
        List.lt_irrefl key (List.lt_trans after before)
      have distinct : key ≠ first.1 := by
        intro same
        rw [← same] at before
        exact List.lt_irrefl key before
      unfold assign
      rw [if_neg notBefore, if_neg distinct, ih fun entry member => last entry (by simp [member])]
      rfl

theorem assignAll_append {front back : StringMap} (ordered : Ordered (front ++ back)) :
    assignAll back front = front ++ back := by
  induction back generalizing front with
  | nil => simp [assignAll]
  | cons entry back ih =>
      have last : ∀ other ∈ front, other.1 < entry.1 := by
        intro other member
        exact (List.pairwise_append.mp ordered).2.2 other member entry (by simp)
      have split : front ++ entry :: back = front ++ [entry] ++ back := by simp
      change assignAll back (assign entry.1 entry.2 front) = _
      rw [assign_last last, split]
      rw [split] at ordered
      exact ih ordered

theorem assignAll_self {map : StringMap} (ordered : Ordered map) : assignAll map [] = map :=
  assignAll_append ordered

/-! ### Values and entries -/

theorem mem_iff_lookup {map : StringMap} (ordered : Ordered map) (key value : List Byte) :
    (key, value) ∈ map ↔ map.lookup key = some value := by
  induction map with
  | nil => simp
  | cons first rest ih =>
      rcases List.pairwise_cons.mp ordered with ⟨smallest, later⟩
      rw [lookup_entry, List.mem_cons]
      by_cases same : key = first.1
      · rw [if_pos same]
        constructor
        · rintro (rfl | member)
          · rfl
          · exact absurd (smallest _ member) (same ▸ List.lt_irrefl key)
        · intro found
          exact Or.inl (Prod.ext same (Option.some.inj found).symm)
      · have other : (key, value) ≠ first := fun equal => same (congrArg Prod.fst equal)
        rw [if_neg same, ← ih later]
        exact or_iff_right other

theorem ordered_ext {left right : StringMap} (leftOrdered : Ordered left)
    (rightOrdered : Ordered right) (same : ∀ key, left.lookup key = right.lookup key) :
    left = right := by
  have irrefl : Std.Irrefl fun left right : List Byte × List Byte => left.1 < right.1 :=
    ⟨fun entry => List.lt_irrefl entry.1⟩
  have antisymm : Std.Antisymm fun left right : List Byte × List Byte => left.1 < right.1 :=
    ⟨fun left right before after => absurd after (List.lt_asymm before)⟩
  refine List.Subset.antisymm_of_pairwise leftOrdered rightOrdered ?_ ?_
  · rintro ⟨key, value⟩ member
    rw [mem_iff_lookup leftOrdered, same] at member
    exact (mem_iff_lookup rightOrdered key value).mpr member
  · rintro ⟨key, value⟩ member
    rw [mem_iff_lookup rightOrdered, ← same] at member
    exact (mem_iff_lookup leftOrdered key value).mpr member

/-! ### Insertion -/

/-- `map.insert(make_pair(key, value))`, which leaves a key alone that is
already there. -/
def insert (key value : List Byte) (map : StringMap) : StringMap :=
  if (map.lookup key).isSome then map else assign key value map

/-- Inserts entries from left to right. -/
def insertAll (entries : List (List Byte × List Byte)) (map : StringMap) : StringMap :=
  entries.foldl (fun map entry => insert entry.1 entry.2 map) map

theorem insert_ordered {map : StringMap} (ordered : Ordered map) (key value : List Byte) :
    Ordered (insert key value map) := by
  unfold insert
  split
  · exact ordered
  · exact assign_ordered ordered key value

theorem insertAll_ordered (entries : List (List Byte × List Byte)) {map : StringMap}
    (ordered : Ordered map) : Ordered (insertAll entries map) := by
  induction entries generalizing map with
  | nil => exact ordered
  | cons entry entries ih => exact ih (insert_ordered ordered entry.1 entry.2)

theorem lookup_insert (map : StringMap) (key value name : List Byte) :
    (insert key value map).lookup name =
      (map.lookup name).or (if name = key then some value else none) := by
  unfold insert
  split
  · next present =>
    by_cases same : name = key
    · rw [same, Option.or_of_isSome present]
    · rw [if_neg same, Option.or_none]
  · next absent =>
    rw [lookup_assign]
    by_cases same : name = key
    · rw [if_pos same, if_pos same, same, Option.not_isSome_iff_eq_none.mp absent]
      rfl
    · rw [if_neg same, if_neg same, Option.or_none]

/-- An earlier entry keeps a later one with the same key out. -/
theorem lookup_insertAll (entries : List (List Byte × List Byte)) (map : StringMap)
    (name : List Byte) :
    (insertAll entries map).lookup name = (map.lookup name).or (entries.lookup name) := by
  induction entries generalizing map with
  | nil => exact (Option.or_none).symm
  | cons entry entries ih =>
      change (insertAll entries (insert entry.1 entry.2 map)).lookup name = _
      rw [ih, lookup_insert, lookup_entry, Option.or_assoc]
      by_cases same : name = entry.1
      · rw [if_pos same, if_pos same]
        rfl
      · rw [if_neg same, if_neg same]
        rfl

end Msmuduo.StringMap
