import Mathlib.Data.List.Basic
import Mathlib.Data.List.Induction

/-!
# Runs of a partial step function

A machine is a step function that either moves to a new state or stops with a
fault. A fault stands for a failed assertion: nothing runs after it. A run is
a list of events taken one after another. This module states once how an
invariant, and an invariant under a condition on every step, is carried from
one step to a whole run; the developments below only prove their step lemmas.
-/

namespace Msmuduo.Machine

set_option autoImplicit false

universe u v w

variable {State : Type u} {Event : Type v} {Fault : Type w}

/-- An assertion of the program: execution goes on only when it holds. -/
def require (condition : Prop) [Decidable condition] (fault : Fault) :
    Except Fault Unit :=
  if condition then .ok () else .error fault

theorem require_ok {condition : Prop} [Decidable condition] {fault : Fault}
    (holds : condition) : require condition fault = .ok () := by
  simp [require, holds]

theorem require_error {condition : Prop} [Decidable condition] {fault : Fault}
    (fails : ¬condition) : require condition fault = .error fault := by
  simp [require, fails]

theorem require_inv {condition : Prop} [Decidable condition] {fault : Fault}
    (passed : require condition fault = .ok ()) : condition := by
  by_contra fails
  rw [require_error fails] at passed
  cases passed

theorem bind_ok_inv {First Second : Type u} {first : Except Fault First}
    {second : First → Except Fault Second} {result : Second}
    (ran : (first >>= second) = .ok result) :
    ∃ value, first = .ok value ∧ second value = .ok result := by
  cases first with
  | error fault => cases ran
  | ok value => exact ⟨value, rfl, ran⟩

theorem map_ok_inv {First Second : Type u} {function : First → Second}
    {first : Except Fault First} {result : Second}
    (ran : function <$> first = .ok result) :
    ∃ value, first = .ok value ∧ function value = result := by
  cases first with
  | error fault => cases ran
  | ok value => exact ⟨value, rfl, Except.ok.inj ran⟩

/-- A step behind a guard was taken, or the guard fails. -/
theorem guarded_inv {Value : Type u} {guard : Prop} [Decidable guard] {first second final : Value}
    (ran : (if guard then .ok first else .ok second : Except Fault Value) = .ok final) :
    (guard ∧ final = first) ∨ (¬guard ∧ final = second) := by
  by_cases holds : guard
  · rw [if_pos holds] at ran
    exact Or.inl ⟨holds, (Except.ok.inj ran).symm⟩
  · rw [if_neg holds] at ran
    exact Or.inr ⟨holds, (Except.ok.inj ran).symm⟩

/-- The first fault ends the run: the events behind it are never taken. -/
def run (step : State → Event → Except Fault State) :
    State → List Event → Except Fault State
  | state, [] => .ok state
  | state, event :: rest =>
      match step state event with
      | .ok next => run step next rest
      | .error fault => .error fault

/-- Every step the run really takes from `state` meets the condition. Events
behind a fault are not taken, so nothing is asked of them. -/
def AllSteps (step : State → Event → Except Fault State)
    (condition : State → Event → Prop) : State → List Event → Prop
  | _, [] => True
  | state, event :: rest =>
      condition state event ∧
        match step state event with
        | .ok next => AllSteps step condition next rest
        | .error _ => True

/-- Every state the run reaches, the first one included, has the property. -/
def Throughout (step : State → Event → Except Fault State)
    (property : State → Prop) : State → List Event → Prop
  | state, [] => property state
  | state, event :: rest =>
      property state ∧
        match step state event with
        | .ok next => Throughout step property next rest
        | .error _ => True

instance decidableAllSteps (step : State → Event → Except Fault State)
    (condition : State → Event → Prop)
    [decidable : ∀ state event, Decidable (condition state event)] :
    ∀ (state : State) (events : List Event),
      Decidable (AllSteps step condition state events)
  | _, [] => isTrue trivial
  | state, event :: rest =>
      match taken : step state event, decidable state event with
      | _, isFalse fails => isFalse fun admitted => fails admitted.1
      | .error _, isTrue holds => isTrue ⟨holds, by rw [taken]; trivial⟩
      | .ok next, isTrue holds =>
          match decidableAllSteps step condition next rest with
          | isTrue later => isTrue ⟨holds, by rw [taken]; exact later⟩
          | isFalse fails => isFalse fun admitted => fails (by
              have later := admitted.2
              rw [taken] at later
              exact later)

section

variable {step : State → Event → Except Fault State}

theorem AllSteps.head {condition : State → Event → Prop} {state : State}
    {event : Event} {rest : List Event}
    (admitted : AllSteps step condition state (event :: rest)) :
    condition state event := admitted.1

theorem AllSteps.tail {condition : State → Event → Prop} {state next : State}
    {event : Event} {rest : List Event}
    (admitted : AllSteps step condition state (event :: rest))
    (taken : step state event = .ok next) : AllSteps step condition next rest := by
  have later := admitted.2
  rw [taken] at later
  exact later

theorem AllSteps.weaken {strong weak : State → Event → Prop} {state : State}
    {events : List Event} (admitted : AllSteps step strong state events)
    (implies : ∀ state event, strong state event → weak state event) :
    AllSteps step weak state events := by
  induction events generalizing state with
  | nil => trivial
  | cons event events ih =>
      constructor
      · exact implies state event admitted.head
      · cases taken : step state event with
        | ok next => exact ih (admitted.tail taken)
        | error fault => trivial

theorem AllSteps.both {first second : State → Event → Prop} {state : State}
    {events : List Event} (admitted : AllSteps step first state events)
    (also : AllSteps step second state events) :
    AllSteps step (fun state event => first state event ∧ second state event) state events := by
  induction events generalizing state with
  | nil => trivial
  | cons event events ih =>
      constructor
      · exact ⟨admitted.head, also.head⟩
      · cases taken : step state event with
        | ok next => exact ih (admitted.tail taken) (also.tail taken)
        | error fault => trivial

theorem all_steps_singleton {condition : State → Event → Prop} (state : State)
    (event : Event) : AllSteps step condition state [event] ↔ condition state event := by
  constructor
  · exact AllSteps.head
  · intro holds
    refine ⟨holds, ?_⟩
    split <;> trivial

theorem throughout_cons_ok {property : State → Prop} {state next : State}
    {event : Event} (rest : List Event) (taken : step state event = .ok next) :
    Throughout step property state (event :: rest) ↔
      property state ∧ Throughout step property next rest := by
  simp only [Throughout, taken]

theorem all_steps_cons_ok {condition : State → Event → Prop} {state next : State}
    {event : Event} (rest : List Event) (taken : step state event = .ok next) :
    AllSteps step condition state (event :: rest) ↔
      condition state event ∧ AllSteps step condition next rest := by
  simp only [AllSteps, taken]

theorem Throughout.start {property : State → Prop} {state : State}
    {events : List Event} (throughout : Throughout step property state events) :
    property state := by
  cases events with
  | nil => exact throughout
  | cons event rest => exact throughout.1

/-- The property holds in the last state. -/
theorem Throughout.last {property : State → Prop} {state final : State} {events : List Event}
    (throughout : Throughout step property state events)
    (ran : run step state events = .ok final) : property final := by
  induction events generalizing state with
  | nil =>
      cases ran
      exact throughout
  | cons event events ih =>
      cases taken : step state event with
      | ok next =>
          have later := throughout.2
          rw [taken] at later
          apply ih later
          simpa [run, taken] using ran
      | error fault =>
          simp [run, taken] at ran

@[simp]
theorem run_nil (state : State) : run step state [] = .ok state := rfl

theorem run_cons_ok {state next : State} {event : Event} (rest : List Event)
    (taken : step state event = .ok next) :
    run step state (event :: rest) = run step next rest := by
  simp [run, taken]

theorem run_cons_error {state : State} {event : Event} {fault : Fault}
    (rest : List Event) (failed : step state event = .error fault) :
    run step state (event :: rest) = .error fault := by
  simp [run, failed]

theorem run_singleton (state : State) (event : Event) :
    run step state [event] = step state event := by
  unfold run
  split
  · next next taken => exact taken.symm
  · next fault failed => exact failed.symm

/-- A run that ends without a fault took its first event and then ran the
rest. -/
theorem run_cons_inv {state final : State} {event : Event} {rest : List Event}
    (ran : run step state (event :: rest) = .ok final) :
    ∃ next, step state event = .ok next ∧ run step next rest = .ok final := by
  cases taken : step state event with
  | ok next =>
      rw [run_cons_ok rest taken] at ran
      exact ⟨next, rfl, ran⟩
  | error fault =>
      rw [run_cons_error rest taken] at ran
      cases ran

theorem run_append {state middle : State} {events : List Event}
    (rest : List Event) (ran : run step state events = .ok middle) :
    run step state (events ++ rest) = run step middle rest := by
  induction events generalizing state with
  | nil =>
      cases ran
      rfl
  | cons event events ih =>
      obtain ⟨next, taken, ranRest⟩ := run_cons_inv ran
      rw [List.cons_append, run_cons_ok _ taken]
      exact ih ranRest

theorem run_append_inv {state final : State} {events rest : List Event}
    (ran : run step state (events ++ rest) = .ok final) :
    ∃ middle, run step state events = .ok middle ∧ run step middle rest = .ok final := by
  induction events generalizing state with
  | nil => exact ⟨state, rfl, ran⟩
  | cons event events ih =>
      rw [List.cons_append] at ran
      obtain ⟨next, taken, ranRest⟩ := run_cons_inv ran
      obtain ⟨middle, ranEvents, ranLast⟩ := ih ranRest
      exact ⟨middle, (run_cons_ok events taken).trans ranEvents, ranLast⟩

/-- A property of a run and the state it ends in, which every further step
keeps, holds of every run. -/
theorem run_history {start : State} (Property : List Event → State → Prop)
    (initial : Property [] start)
    (kept : ∀ events state event next, run step start events = .ok state →
      Property events state → step state event = .ok next → Property (events ++ [event]) next)
    {events : List Event} {final : State} (ran : run step start events = .ok final) :
    Property events final := by
  induction events using List.reverseRecOn generalizing final with
  | nil =>
      cases ran
      exact initial
  | append_singleton events event ih =>
      obtain ⟨state, before, last⟩ := run_append_inv ran
      rw [run_singleton] at last
      exact kept events state event final before (ih before) last

theorem all_steps_append {condition : State → Event → Prop} {state middle : State}
    {events : List Event} (rest : List Event) (ran : run step state events = .ok middle) :
    AllSteps step condition state (events ++ rest) ↔
      AllSteps step condition state events ∧ AllSteps step condition middle rest := by
  induction events generalizing state with
  | nil =>
      cases ran
      simp [AllSteps]
  | cons event events ih =>
      obtain ⟨next, taken, ranRest⟩ := run_cons_inv ran
      rw [List.cons_append, all_steps_cons_ok _ taken, all_steps_cons_ok _ taken, ih ranRest,
        and_assoc]

/-- An invariant kept by every step that meets the condition holds at the
end of every run of such steps. -/
theorem run_keeps (Invariant : State → Prop) (condition : State → Event → Prop)
    (kept : ∀ state event next, Invariant state → condition state event →
      step state event = .ok next → Invariant next)
    {state final : State} {events : List Event}
    (initial : Invariant state) (admitted : AllSteps step condition state events)
    (ran : run step state events = .ok final) : Invariant final := by
  induction events generalizing state with
  | nil =>
      cases ran
      exact initial
  | cons event events ih =>
      obtain ⟨next, taken, ranRest⟩ := run_cons_inv ran
      exact ih (kept state event next initial admitted.head taken)
        (admitted.tail taken) ranRest

/-- An invariant kept by every step that meets the condition, and what follows
from it, holds in every state of such a run. -/
theorem throughout_keeps (Invariant : State → Prop) (condition : State → Event → Prop)
    {property : State → Prop}
    (kept : ∀ state event next, Invariant state → condition state event →
      step state event = .ok next → Invariant next)
    (implies : ∀ state, Invariant state → property state)
    {state : State} {events : List Event} (initial : Invariant state)
    (admitted : AllSteps step condition state events) :
    Throughout step property state events := by
  induction events generalizing state with
  | nil => exact implies state initial
  | cons event events ih =>
      constructor
      · exact implies state initial
      · cases taken : step state event with
        | error fault => trivial
        | ok next =>
            exact ih (kept state event next initial admitted.head taken) (admitted.tail taken)

theorem all_steps_of_forall (condition : State → Event → Prop)
    {events : List Event}
    (every : ∀ state, ∀ event ∈ events, condition state event) (state : State) :
    AllSteps step condition state events := by
  induction events generalizing state with
  | nil => trivial
  | cons event events ih =>
      refine ⟨every state event (by simp), ?_⟩
      split
      · next next _ =>
        exact ih (fun state later member => every state later (by simp [member])) next
      · trivial

/-- A run in which some step fails the condition ends in what such a step leads to
and no step leads out of. -/
theorem run_fails (Invariant Failed : State → Prop) (condition : State → Event → Prop)
    (kept : ∀ state event next, Invariant state → step state event = .ok next → Invariant next)
    (fails : ∀ state event next, Invariant state → ¬condition state event →
      step state event = .ok next → Failed next)
    (stays : ∀ state event next, Invariant state → Failed state →
      step state event = .ok next → Failed next)
    {state final : State} {events : List Event} (initial : Invariant state)
    (rejected : ¬AllSteps step condition state events)
    (ran : run step state events = .ok final) : Failed final := by
  induction events generalizing state with
  | nil => exact absurd trivial rejected
  | cons event events ih =>
      obtain ⟨next, taken, ranRest⟩ := run_cons_inv ran
      have invariant := kept state event next initial taken
      by_cases holds : condition state event
      · have later : ¬AllSteps step condition next events := by
          intro admitted
          exact rejected ((all_steps_cons_ok events taken).mpr ⟨holds, admitted⟩)
        exact ih invariant later ranRest
      · have both := run_keeps (fun state => Invariant state ∧ Failed state) (fun _ _ => True)
          (fun state event next before _ taken =>
            ⟨kept state event next before.1 taken, stays state event next before.1 before.2 taken⟩)
          ⟨invariant, fails state event next initial holds taken⟩
          (all_steps_of_forall _ (fun _ _ _ => trivial) next) ranRest
        exact both.2

theorem run_invariant (Invariant : State → Prop)
    (kept : ∀ state event next, Invariant state →
      step state event = .ok next → Invariant next)
    {state final : State} {events : List Event}
    (initial : Invariant state) (ran : run step state events = .ok final) :
    Invariant final :=
  run_keeps Invariant (fun _ _ => True)
    (fun state event next invariant _ taken => kept state event next invariant taken)
    initial (all_steps_of_forall _ (fun _ _ _ => trivial) state) ran

/-- When the condition on a step decides whether the property survives it,
the property lasts exactly through the runs whose steps meet the condition. -/
theorem throughout_iff_all_steps (Invariant : State → Prop) {property : State → Prop}
    {condition : State → Event → Prop} {events : List Event}
    (decides : ∀ state next, ∀ event ∈ events, Invariant state → property state →
      step state event = .ok next → Invariant next ∧ (property next ↔ condition state event))
    (faulty : ∀ state fault, ∀ event ∈ events, Invariant state → property state →
      step state event = .error fault → condition state event)
    {state : State} (initial : Invariant state) (holds : property state) :
    Throughout step property state events ↔ AllSteps step condition state events := by
  induction events generalizing state with
  | nil => exact ⟨fun _ => trivial, fun _ => holds⟩
  | cons event events ih =>
      cases taken : step state event with
      | error fault =>
          simp only [Throughout, AllSteps, taken, and_true]
          exact ⟨fun _ => faulty state fault event List.mem_cons_self initial holds taken,
            fun _ => holds⟩
      | ok next =>
          obtain ⟨invariant, decided⟩ :=
            decides state next event List.mem_cons_self initial holds taken
          have rest := fun survives => ih
            (fun state next event member => decides state next event (.tail _ member))
            (fun state fault event member => faulty state fault event (.tail _ member))
            invariant survives
          rw [throughout_cons_ok events taken, all_steps_cons_ok events taken]
          constructor
          · intro throughout
            have survives := throughout.2.start
            exact ⟨decided.mp survives, (rest survives).mp throughout.2⟩
          · intro admitted
            have survives := decided.mpr admitted.1
            exact ⟨holds, (rest survives).mpr admitted.2⟩

/-- Forward simulation by a total abstract step. Every admitted step from a
related pair succeeds and ends in a related pair, so an admitted run never
meets a fault and ends related to the abstract run. -/
theorem run_simulates {Abstract : Type*} (Related : State → Abstract → Prop)
    (abstractStep : Abstract → Event → Abstract) {condition : State → Event → Prop}
    (advances : ∀ state abstract event, Related state abstract →
      condition state event →
      ∃ next, step state event = .ok next ∧ Related next (abstractStep abstract event))
    {state : State} (abstract : Abstract) {events : List Event}
    (initial : Related state abstract)
    (admitted : AllSteps step condition state events) :
    ∃ final, run step state events = .ok final ∧
      Related final (events.foldl abstractStep abstract) := by
  induction events generalizing state abstract with
  | nil => exact ⟨state, rfl, initial⟩
  | cons event events ih =>
      obtain ⟨next, taken, related⟩ := advances state abstract event initial admitted.head
      obtain ⟨final, ran, finalRelated⟩ := ih _ related (admitted.tail taken)
      exact ⟨final, (run_cons_ok events taken).trans ran, finalRelated⟩

/-- When every admitted step from an invariant state succeeds and keeps the
invariant, a run of admitted steps never meets a fault. -/
theorem run_succeeds (Invariant : State → Prop)
    {condition : State → Event → Prop}
    (advances : ∀ state event, Invariant state → condition state event →
      ∃ next, step state event = .ok next ∧ Invariant next)
    {state : State} {events : List Event}
    (initial : Invariant state) (admitted : AllSteps step condition state events) :
    ∃ final, run step state events = .ok final ∧ Invariant final :=
  run_simulates (fun state (_ : Unit) => Invariant state) (fun abstract _ => abstract)
    (fun state _ event invariant => advances state event invariant) () initial admitted

end

end Msmuduo.Machine
