import Msmuduo.Machine

/-!
# Runs that never end

An endless run takes one event after another and meets no fault. It is fair to
a kind of event when events of that kind come again and again. The rule below
turns a rank that these events lower, and that no other event changes, into the
fact that something finally happens.
-/

namespace Msmuduo.Machine

set_option autoImplicit false

universe u v w x

variable {State : Type u} {Event : Type v} {Fault : Type w}

structure Endless (step : State → Event → Except Fault State) (start : State) where
  states : Nat → State
  events : Nat → Event
  starts : states 0 = start
  taken : ∀ time, step (states time) (events time) = .ok (states (time + 1))

namespace Endless

variable {step : State → Event → Except Fault State} {start : State}

/-- Every state of an endless run is the end of a run. -/
theorem reached (endless : Endless step start) (time : Nat) :
    ∃ events, run step start events = .ok (endless.states time) := by
  induction time with
  | zero =>
      refine ⟨[], ?_⟩
      rw [endless.starts]
      rfl
  | succ time ih =>
      obtain ⟨events, ran⟩ := ih
      refine ⟨events ++ [endless.events time], ?_⟩
      rw [run_append _ ran, run_singleton]
      exact endless.taken time

/-- Events of the kind come again and again. -/
def Fair (endless : Endless step start) (kind : Event → Prop) : Prop :=
  ∀ time, ∃ later, time ≤ later ∧ kind (endless.events later)

/-- While `Waiting` holds and no event of the kind comes, nothing is lost. -/
theorem waits_until (endless : Endless step start) {kind : Event → Prop}
    {Waiting Done : State → Prop} {Rank : Type x} {rank : State → Rank}
    (waits : ∀ time, Waiting (endless.states time) → ¬kind (endless.events time) →
      Done (endless.states (time + 1)) ∨ Waiting (endless.states (time + 1)) ∧
        rank (endless.states (time + 1)) = rank (endless.states time))
    {time : Nat} (now : Waiting (endless.states time)) (distance : Nat)
    (next : kind (endless.events (time + distance))) :
    ∃ later, time ≤ later ∧ (Done (endless.states later) ∨
      (kind (endless.events later) ∧ Waiting (endless.states later) ∧
        rank (endless.states later) = rank (endless.states time))) := by
  induction distance generalizing time with
  | zero => exact ⟨time, Nat.le_refl _, .inr ⟨next, now, rfl⟩⟩
  | succ distance ih =>
      by_cases here : kind (endless.events time)
      · exact ⟨time, Nat.le_refl _, .inr ⟨here, now, rfl⟩⟩
      · rcases waits time now here with done | ⟨still, same⟩
        · exact ⟨time + 1, Nat.le_succ _, .inl done⟩
        · have shifted : time + (distance + 1) = time + 1 + distance := by omega
          rw [shifted] at next
          obtain ⟨later, after, outcome⟩ := ih still next
          refine ⟨later, Nat.le_of_succ_le after, ?_⟩
          rw [← same]
          exact outcome

/-- An event of the kind ends the waiting or lowers the rank, every other event
ends it or leaves the rank alone, and events of the kind keep coming: then the
waiting ends. -/
theorem leads_to (endless : Endless step start) {kind : Event → Prop}
    (fair : endless.Fair kind) {Waiting Done : State → Prop} {Rank : Type x}
    {rank : State → Rank} {lower : Rank → Rank → Prop} (founded : WellFounded lower)
    (waits : ∀ time, Waiting (endless.states time) → ¬kind (endless.events time) →
      Done (endless.states (time + 1)) ∨ Waiting (endless.states (time + 1)) ∧
        rank (endless.states (time + 1)) = rank (endless.states time))
    (advances : ∀ time, Waiting (endless.states time) → kind (endless.events time) →
      Done (endless.states (time + 1)) ∨ Waiting (endless.states (time + 1)) ∧
        lower (rank (endless.states (time + 1))) (rank (endless.states time)))
    {time : Nat} (now : Waiting (endless.states time)) :
    ∃ later, time ≤ later ∧ Done (endless.states later) := by
  induction at_ : rank (endless.states time) using founded.induction generalizing time with
  | _ value ih =>
      obtain ⟨event, after, next⟩ := fair time
      obtain ⟨distance, same⟩ := Nat.exists_eq_add_of_le after
      rw [same] at next
      obtain ⟨here, since, outcome⟩ := endless.waits_until waits now distance next
      rcases outcome with done | ⟨comes, still, sameRank⟩
      · exact ⟨here, since, done⟩
      · rcases advances here still comes with done | ⟨waiting, lowered⟩
        · exact ⟨here + 1, Nat.le_succ_of_le since, done⟩
        · rw [sameRank, at_] at lowered
          obtain ⟨later, afterwards, done⟩ := ih _ lowered waiting rfl
          exact ⟨later, Nat.le_trans (Nat.le_succ_of_le since) afterwards, done⟩

/-- What no other event ends still holds when an event of the kind comes. -/
theorem persists (endless : Endless step start) {kind : Event → Prop}
    (fair : endless.Fair kind) {Waiting : State → Prop}
    (kept : ∀ time, Waiting (endless.states time) → ¬kind (endless.events time) →
      Waiting (endless.states (time + 1)))
    {time : Nat} (now : Waiting (endless.states time)) :
    ∃ later, time ≤ later ∧ kind (endless.events later) ∧ Waiting (endless.states later) := by
  obtain ⟨event, after, next⟩ := fair time
  obtain ⟨distance, same⟩ := Nat.exists_eq_add_of_le after
  rw [same] at next
  let never : State → Prop := fun _ => False
  let flat : State → Unit := fun _ => ()
  have waits : ∀ time, Waiting (endless.states time) → ¬kind (endless.events time) →
      never (endless.states (time + 1)) ∨ Waiting (endless.states (time + 1)) ∧
        flat (endless.states (time + 1)) = flat (endless.states time) :=
    fun time still other => .inr ⟨kept time still other, rfl⟩
  obtain ⟨later, since, outcome⟩ := endless.waits_until waits now distance next
  rcases outcome with none | ⟨comes, still, -⟩
  · exact none.elim
  · exact ⟨later, since, comes, still⟩

end Endless

/-- The states along a schedule. A fault would leave the state alone. -/
def follow (step : State → Event → Except Fault State) (start : State) (events : Nat → Event) :
    Nat → State
  | 0 => start
  | time + 1 =>
      match step (follow step start events time) (events time) with
      | .ok next => next
      | .error _ => follow step start events time

/-- Where no step faults, every schedule is that of an endless run. -/
theorem exists_endless {step : State → Event → Except Fault State} {start : State}
    (Invariant : State → Prop)
    (advances : ∀ state event, Invariant state →
      ∃ next, step state event = .ok next ∧ Invariant next)
    (initial : Invariant start) (events : Nat → Event) :
    ∃ endless : Endless step start, endless.events = events ∧
      endless.states = follow step start events := by
  have stepped : ∀ time, Invariant (follow step start events time) →
      step (follow step start events time) (events time) =
        .ok (follow step start events (time + 1)) ∧
      Invariant (follow step start events (time + 1)) := by
    intro time invariant
    obtain ⟨next, taken, nextInvariant⟩ := advances _ (events time) invariant
    have reached : follow step start events (time + 1) = next := by
      simp only [follow, taken]
    rw [reached]
    exact ⟨taken, nextInvariant⟩
  have always : ∀ time, Invariant (follow step start events time) := by
    intro time
    induction time with
    | zero => exact initial
    | succ time ih => exact (stepped time ih).2
  exact ⟨⟨follow step start events, events, rfl, fun time => (stepped time (always time)).1⟩,
    rfl, rfl⟩

end Msmuduo.Machine
