import Mathlib.Data.List.Basic

/-!
# Condition variables

The threads that share a condition variable stand at places. Some of them wait and
are not notified yet, and some are about to look at what the others wait for.
`notify` wakes one of the waiting threads, whichever that is, and a thread may wake
for no reason as well.

What the threads wait for is counted in items. No wakeup is lost as long as the
items are covered: when a thread waits unnotified, there are at least as many
threads about to look as there are items. So an item is never there while all who
could take it wait.
-/

namespace Msmuduo

set_option autoImplicit false

/-- A woken thread goes on from `woken` and looks. -/
structure ConditionVariable (Place : Type) where
  waits : Place → Bool
  looks : Place → Bool
  woken : Place → Place
  asleep : ∀ place, waits place = true → looks place = false
  roused : ∀ place, waits place = true →
    looks (woken place) = true ∧ waits (woken place) = false

namespace ConditionVariable

variable {Place : Type}

section

variable (c : ConditionVariable Place) (places : List Place)

/-- The `i`-th thread wakes, if it waits. -/
def wakeup (i : Nat) : List Place :=
  match places[i]? with
  | some place => if c.waits place then places.set i (c.woken place) else places
  | none => places

/-- Wakes one of the waiting threads: the one at `choice`, or the first where none
waits at `choice`. -/
def notify (choice : Nat) : List Place :=
  if places[choice]?.any c.waits then c.wakeup places choice
  else c.wakeup places (places.findIdx c.waits)

def notifyAll : List Place :=
  places.map fun place => if c.waits place then c.woken place else place

end

/-! ## Counting places -/

theorem countP_set_add (counts : Place → Bool) {places : List Place} {i : Nat} {old : Place}
    (here : places[i]? = some old) (new : Place) :
    (places.set i new).countP counts + (counts old).toNat =
      places.countP counts + (counts new).toNat := by
  induction places generalizing i with
  | nil => cases here
  | cons place places ih =>
      cases i with
      | zero =>
          cases here
          simp only [List.set_cons_zero, List.countP_cons]
          cases counts old <;> cases counts new <;> simp
      | succ i =>
          have later := ih here
          simp only [List.set_cons_succ, List.countP_cons]
          omega

variable {c : ConditionVariable Place} {places : List Place}

theorem wakeup_cases (i : Nat) :
    c.wakeup places i = places ∨ ∃ place, places[i]? = some place ∧ c.waits place = true ∧
      c.wakeup places i = places.set i (c.woken place) := by
  unfold wakeup
  cases here : places[i]? with
  | none => exact Or.inl rfl
  | some place =>
      cases waiting : c.waits place with
      | false => exact Or.inl (if_neg (Bool.eq_false_iff.mp waiting))
      | true => exact Or.inr ⟨place, rfl, waiting, if_pos waiting⟩

theorem wakeup_waiting {i : Nat} {place : Place} (here : places[i]? = some place)
    (waiting : c.waits place = true) : c.wakeup places i = places.set i (c.woken place) := by
  unfold wakeup
  rw [here]
  exact if_pos waiting

/-- Nobody waits, or one thread that does is woken. -/
theorem notify_cases (choice : Nat) :
    ((∀ place ∈ places, c.waits place = false) ∧ c.notify places choice = places) ∨
      ∃ i place, places[i]? = some place ∧ c.waits place = true ∧
        c.notify places choice = places.set i (c.woken place) := by
  unfold notify
  by_cases chosen : places[choice]?.any c.waits = true
  · rw [if_pos chosen]
    rcases (Option.any_eq_true _ _).mp chosen with ⟨place, here, waiting⟩
    exact Or.inr ⟨choice, place, here, waiting, wakeup_waiting here waiting⟩
  · rw [if_neg chosen]
    by_cases found : places.findIdx c.waits < places.length
    · have here := List.getElem?_eq_getElem found
      have waiting := List.findIdx_getElem (w := found)
      exact Or.inr ⟨_, _, here, waiting, wakeup_waiting here waiting⟩
    · left
      have none : ∀ place ∈ places, c.waits place = false := by
        intro place member
        cases waiting : c.waits place with
        | false => rfl
        | true => exact absurd (List.findIdx_lt_length_of_exists ⟨place, member, waiting⟩) found
      refine ⟨none, ?_⟩
      unfold wakeup
      rw [List.getElem?_eq_none_iff.mpr (Nat.not_lt.mp found)]

theorem wakeup_none (none : ∀ place ∈ places, c.waits place = false) (i : Nat) :
    c.wakeup places i = places := by
  rcases wakeup_cases i with unchanged | ⟨place, here, waiting, -⟩
  · exact unchanged
  · rw [none place (List.mem_of_getElem? here)] at waiting
    cases waiting

theorem notify_none (none : ∀ place ∈ places, c.waits place = false) (choice : Nat) :
    c.notify places choice = places := by
  unfold notify
  split
  · exact wakeup_none none choice
  · exact wakeup_none none _

theorem notifyAll_none (none : ∀ place ∈ places, c.waits place = false) :
    c.notifyAll places = places := by
  apply (List.map_congr_left _).trans (List.map_id places)
  intro place member
  rw [none place member]
  rfl

theorem length_wakeup (i : Nat) : (c.wakeup places i).length = places.length := by
  rcases wakeup_cases i with unchanged | ⟨place, -, -, woken⟩
  · rw [unchanged]
  · rw [woken, List.length_set]

theorem length_notify (choice : Nat) : (c.notify places choice).length = places.length := by
  unfold notify
  split
  · exact length_wakeup choice
  · exact length_wakeup _

section

variable {counts : Place → Bool}

theorem countP_woken
    (same : ∀ place, c.waits place = true → counts (c.woken place) = counts place) {i : Nat}
    {place : Place} (here : places[i]? = some place) (waiting : c.waits place = true) :
    (places.set i (c.woken place)).countP counts = places.countP counts := by
  have counted := countP_set_add counts here (c.woken place)
  rw [same place waiting] at counted
  exact Nat.add_right_cancel counted

/-- What does not change when a thread wakes is kept by `notify`. -/
theorem countP_notify
    (same : ∀ place, c.waits place = true → counts (c.woken place) = counts place)
    (choice : Nat) : (c.notify places choice).countP counts = places.countP counts := by
  rcases notify_cases choice with ⟨-, unchanged⟩ | ⟨i, place, here, waiting, notified⟩
  · rw [unchanged]
  · rw [notified]
    exact countP_woken same here waiting

theorem countP_wakeup
    (same : ∀ place, c.waits place = true → counts (c.woken place) = counts place)
    (i : Nat) : (c.wakeup places i).countP counts = places.countP counts := by
  rcases wakeup_cases i with unchanged | ⟨place, here, waiting, woken⟩
  · rw [unchanged]
  · rw [woken]
    exact countP_woken same here waiting

theorem countP_notifyAll
    (same : ∀ place, c.waits place = true → counts (c.woken place) = counts place) :
    (c.notifyAll places).countP counts = places.countP counts := by
  unfold notifyAll
  rw [List.countP_map]
  apply List.countP_congr
  intro place _
  cases waiting : c.waits place with
  | false => simp [waiting]
  | true => simp [waiting, same place waiting]

end

/-! ## No lost wakeup -/

def Covered (c : ConditionVariable Place) (items : Nat) (places : List Place) : Prop :=
  (∃ place ∈ places, c.waits place = true) → items ≤ places.countP c.looks

namespace Covered

variable {items : Nat}

theorem of_none (none : ∀ place ∈ places, c.waits place = false) : Covered c items places := by
  rintro ⟨place, member, waiting⟩
  rw [none place member] at waiting
  cases waiting

theorem zero : Covered c 0 places := fun _ => Nat.zero_le _

/-- With an item there and nobody about to look, nobody waits. -/
theorem nobody_waits (covered : Covered c items places) (positive : 0 < items)
    (noLook : ∀ place ∈ places, c.looks place = false) :
    ∀ place ∈ places, c.waits place = false := by
  intro place member
  cases waiting : c.waits place with
  | false => rfl
  | true =>
      have enough := covered ⟨place, member, waiting⟩
      have zero : places.countP c.looks = 0 := by
        apply List.countP_eq_zero.mpr
        intro other otherMember
        rw [noLook other otherMember]
        exact Bool.false_ne_true
      omega

/-- A thread moves on without going to wait. It takes an item with it if it stops
looking. -/
theorem set (covered : Covered c items places) {i later : Nat} {old new : Place}
    (here : places[i]? = some old)
    (supply : later + (c.looks old).toNat ≤ items + (c.looks new).toNat)
    (up : c.waits new = false) : Covered c later (places.set i new) := by
  rintro ⟨place, member, waiting⟩
  rcases List.mem_or_eq_of_mem_set member with before | rfl
  · have enough := covered ⟨place, before, waiting⟩
    have counted := countP_set_add c.looks here new
    omega
  · rw [up] at waiting
    cases waiting

/-- Every new item comes with a notification. -/
theorem notify (covered : Covered c items places) (choice : Nat) :
    Covered c (items + 1) (c.notify places choice) := by
  rcases notify_cases choice with ⟨none, unchanged⟩ | ⟨i, place, here, waiting, notified⟩
  · rw [unchanged]
    exact of_none none
  · rw [notified]
    apply covered.set here _ (c.roused place waiting).2
    rw [c.asleep place waiting, (c.roused place waiting).1]
    exact Nat.le_refl _

theorem wakeup (covered : Covered c items places) (i : Nat) :
    Covered c items (c.wakeup places i) := by
  rcases wakeup_cases i with unchanged | ⟨place, here, waiting, woken⟩
  · rw [unchanged]
    exact covered
  · rw [woken]
    apply covered.set here _ (c.roused place waiting).2
    rw [c.asleep place waiting]
    exact Nat.le_add_right _ _

theorem fewer (covered : Covered c items places) {less : Nat} (le : less ≤ items) :
    Covered c less places :=
  fun waiting => Nat.le_trans le (covered waiting)

end Covered

end ConditionVariable

end Msmuduo
