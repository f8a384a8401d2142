import Mathlib.Data.List.Basic
import Mathlib.Data.List.Nodup
import Mathlib.Data.List.TakeWhile
import Mathlib.Order.Lattice

/-!
# Ordered sets

The part of `std::set` the program uses: a set kept in increasing order, with
insertion, erasure, the first element and the split at a lower bound. A value
carries the proof that its elements are strictly increasing, so an element is
held once and iteration visits the smaller elements first.
-/

namespace Msmuduo

set_option autoImplicit false

universe u

structure OrderedSet (Element : Type u) [LinearOrder Element] where
  elements : List Element
  increasing : elements.Pairwise (· < ·)

namespace OrderedSet

variable {Element : Type u} [LinearOrder Element]

instance : Membership Element (OrderedSet Element) where
  mem set element := element ∈ set.elements

instance (element : Element) (set : OrderedSet Element) : Decidable (element ∈ set) :=
  inferInstanceAs (Decidable (element ∈ set.elements))

theorem nodup (set : OrderedSet Element) : set.elements.Nodup :=
  set.increasing.imp fun smaller => smaller.ne

def size (set : OrderedSet Element) : Nat := set.elements.length

def empty : OrderedSet Element := ⟨[], List.Pairwise.nil⟩

@[simp]
theorem not_mem_empty (element : Element) : element ∉ (empty : OrderedSet Element) :=
  List.not_mem_nil

/-- The place of a new element is in front of the first larger one. -/
def place (element : Element) : List Element → List Element
  | [] => [element]
  | first :: rest =>
      if element < first then element :: first :: rest
      else if first < element then first :: place element rest
      else first :: rest

theorem mem_place (element other : Element) (elements : List Element) :
    other ∈ place element elements ↔ other = element ∨ other ∈ elements := by
  induction elements with
  | nil => simp [place]
  | cons first rest ih =>
      unfold place
      split_ifs with before behind
      · simp
      · simp only [List.mem_cons, ih]
        exact or_left_comm
      · have same : element = first := le_antisymm (not_lt.mp behind) (not_lt.mp before)
        simp [same]

theorem place_increasing (element : Element) (elements : List Element)
    (increasing : elements.Pairwise (· < ·)) :
    (place element elements).Pairwise (· < ·) := by
  induction elements with
  | nil => simp [place]
  | cons first rest ih =>
      obtain ⟨smallest, later⟩ := List.pairwise_cons.mp increasing
      unfold place
      split_ifs with before behind
      · refine List.pairwise_cons.mpr ⟨?_, increasing⟩
        intro other member
        rcases List.mem_cons.mp member with rfl | member
        · exact before
        · exact before.trans (smallest other member)
      · refine List.pairwise_cons.mpr ⟨?_, ih later⟩
        intro other member
        rcases (mem_place element other rest).mp member with rfl | member
        · exact behind
        · exact smallest other member
      · exact increasing

/-- `insert`, which leaves a set that has the element as it is. -/
def insert (set : OrderedSet Element) (element : Element) : OrderedSet Element :=
  ⟨place element set.elements, place_increasing element set.elements set.increasing⟩

@[simp]
theorem mem_insert (set : OrderedSet Element) (element other : Element) :
    other ∈ set.insert element ↔ other = element ∨ other ∈ set :=
  mem_place element other set.elements

/-- `erase` by key. -/
def erase (set : OrderedSet Element) (element : Element) : OrderedSet Element :=
  ⟨set.elements.erase element, set.increasing.sublist List.erase_sublist⟩

@[simp]
theorem mem_erase (set : OrderedSet Element) (element other : Element) :
    other ∈ set.erase element ↔ other ≠ element ∧ other ∈ set :=
  set.nodup.mem_erase_iff

/-- The elements in front of `lower_bound(bound)`, in order. -/
def below (set : OrderedSet Element) (bound : Element) : List Element :=
  set.elements.takeWhile (· < bound)

/-- What is left when the range in front of `lower_bound(bound)` is erased. -/
def eraseBelow (set : OrderedSet Element) (bound : Element) : OrderedSet Element :=
  ⟨set.elements.dropWhile (· < bound),
    set.increasing.sublist (List.dropWhile_sublist _)⟩

theorem lt_of_mem_below {set : OrderedSet Element} {bound element : Element}
    (member : element ∈ set.below bound) : element < bound := by
  simpa using List.mem_takeWhile_imp member

theorem le_of_mem_eraseBelow {set : OrderedSet Element} {bound element : Element}
    (member : element ∈ set.eraseBelow bound) : bound ≤ element := by
  rcases set with ⟨elements, increasing⟩
  change element ∈ elements.dropWhile (· < bound) at member
  induction elements with
  | nil => cases member
  | cons first rest ih =>
      obtain ⟨smallest, later⟩ := List.pairwise_cons.mp increasing
      rw [List.dropWhile_cons] at member
      split_ifs at member with smaller
      · exact ih later member
      · have bounded : bound ≤ first := by simpa using smaller
        rcases List.mem_cons.mp member with rfl | member
        · exact bounded
        · exact bounded.trans (smallest element member).le

theorem mem_below_or_eraseBelow (set : OrderedSet Element) (bound element : Element) :
    element ∈ set ↔ element ∈ set.below bound ∨ element ∈ set.eraseBelow bound := by
  change element ∈ set.elements ↔
    element ∈ set.elements.takeWhile (· < bound) ∨ element ∈ set.elements.dropWhile (· < bound)
  rw [← List.mem_append, List.takeWhile_append_dropWhile]

theorem mem_below (set : OrderedSet Element) (bound element : Element) :
    element ∈ set.below bound ↔ element ∈ set ∧ element < bound := by
  rw [mem_below_or_eraseBelow set bound element]
  constructor
  · intro member
    exact ⟨Or.inl member, lt_of_mem_below member⟩
  · rintro ⟨member | member, smaller⟩
    · exact member
    · exact absurd (le_of_mem_eraseBelow member) (not_le.mpr smaller)

@[simp]
theorem mem_eraseBelow (set : OrderedSet Element) (bound element : Element) :
    element ∈ set.eraseBelow bound ↔ element ∈ set ∧ bound ≤ element := by
  rw [mem_below_or_eraseBelow set bound element]
  constructor
  · intro member
    exact ⟨Or.inr member, le_of_mem_eraseBelow member⟩
  · rintro ⟨member | member, larger⟩
    · exact absurd larger (not_le.mpr (lt_of_mem_below member))
    · exact member

theorem below_eq_filter (set : OrderedSet Element) (bound : Element) :
    set.below bound = set.elements.filter (· < bound) := by
  obtain ⟨elements, increasing⟩ := set
  change elements.takeWhile (· < bound) = elements.filter (· < bound)
  induction elements with
  | nil => rfl
  | cons first rest ih =>
      obtain ⟨smallest, later⟩ := List.pairwise_cons.mp increasing
      rw [List.takeWhile_cons, List.filter_cons, ih later]
      split_ifs with smaller
      · rfl
      · have bounded : bound ≤ first := by simpa using smaller
        symm
        rw [List.filter_eq_nil_iff]
        intro other member
        simpa using bounded.trans (smallest other member).le

theorem below_nodup (set : OrderedSet Element) (bound : Element) :
    (set.below bound).Nodup :=
  set.nodup.sublist (List.takeWhile_sublist _)

theorem head_le {set : OrderedSet Element} {first element : Element}
    (head : set.elements.head? = some first) (member : element ∈ set) : first ≤ element := by
  obtain ⟨elements, increasing⟩ := set
  cases elements with
  | nil => cases head
  | cons smallest rest =>
      cases head
      rcases List.mem_cons.mp member with rfl | later
      · exact le_refl _
      · exact ((List.pairwise_cons.mp increasing).1 element later).le

/-- Two sets have one size when each projects one to one on the same keys. -/
theorem size_eq_of_keys {Other Key : Type*} [LinearOrder Other]
    (set : OrderedSet Element) (other : OrderedSet Other)
    (key : Element → Key) (otherKey : Other → Key)
    (injective : ∀ first ∈ set, ∀ second ∈ set, key first = key second → first = second)
    (otherInjective : ∀ first ∈ other, ∀ second ∈ other,
      otherKey first = otherKey second → first = second)
    (same : ∀ value, (∃ element ∈ set, key element = value) ↔
      ∃ element ∈ other, otherKey element = value) :
    set.size = other.size := by
  have keys : (set.elements.map key).Nodup :=
    List.Nodup.map_on injective set.nodup
  have otherKeys : (other.elements.map otherKey).Nodup :=
    List.Nodup.map_on otherInjective other.nodup
  have agree : (set.elements.map key).Perm (other.elements.map otherKey) := by
    rw [List.perm_ext_iff_of_nodup keys otherKeys]
    intro value
    rw [List.mem_map, List.mem_map]
    exact same value
  simpa [size] using agree.length_eq

end OrderedSet

end Msmuduo
