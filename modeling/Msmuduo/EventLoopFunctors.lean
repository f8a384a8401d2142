import Msmuduo.EventLoop

/-!
# Functors run once and in order

Whatever threads and functors queue, in whatever order their calls fall
between the steps of the loop, the functors that have run, those swapped out
and those still in `pendingFunctors_` make up everything that was ever pushed,
in the order of the pushes. A batch is what `pendingFunctors_` held at the
swap, and it does not grow.
-/

namespace Msmuduo.EventLoop

open Msmuduo.Machine

set_option autoImplicit false

variable {Functor : Type}

/-! ### Where the loop thread stands -/

def Control.isCalling : Control Functor → Bool
  | .atSwap => true
  | .running _ _ => true
  | _ => false

/-- The flags follow the position of the loop thread, which is in `wakeup`
only for a functor. -/
structure Shape (q : EventLoop Functor) : Prop where
  looping : q.control ≠ .outside → q.looping = true
  calling : q.callingPendingFunctors = q.control.isCalling
  inFunctor : q.inWakeup = true → ∃ rest, q.control = .running true rest
  blocking : q.blocking 1 = true

theorem shape_new (capacity : Nat) : Shape (new Functor capacity) where
  looping := fun inside => absurd rfl inside
  calling := rfl
  inFunctor := fun inside => by cases inside
  blocking := by
    simp [new, makeSocketNonblocking]

theorem SameLoop.shape {q next : EventLoop Functor} (same : SameLoop q next) (shape : Shape q)
    (inFunctor : next.inWakeup = true → ∃ rest, q.control = .running true rest) :
    Shape next where
  looping := by
    rw [same.control, same.looping]
    exact shape.looping
  calling := by
    rw [same.calling, same.control]
    exact shape.calling
  inFunctor := by
    rw [same.control]
    exact inFunctor
  blocking := by
    rw [same.blocking]
    exact shape.blocking

theorem queueInLoop_inWakeup {q : EventLoop Functor} {thread : Thread} {cb : Functor}
    (inside : (q.queueInLoop thread cb).inWakeup = true) :
    q.inWakeup = true ∨ thread = .loop ∧ q.callingPendingFunctors = true := by
  unfold queueInLoop at inside
  cases thread with
  | other id => exact Or.inl inside
  | loop =>
      cases calling : q.callingPendingFunctors with
      | true => exact Or.inr ⟨rfl, rfl⟩
      | false =>
          left
          simpa [pushBack, calling] using inside

theorem wakeup_inWakeup {q : EventLoop Functor} {thread : Thread}
    (inside : (q.wakeup thread).inWakeup = true) : q.inWakeup = true := by
  unfold wakeup at inside
  cases thread with
  | other id =>
      split_ifs at inside
      · exact inside
      · exact inside
      · exact inside
  | loop =>
      split_ifs at inside
      · cases inside
      · exact inside
      · cases inside

theorem quitCalled_inWakeup (q : EventLoop Functor) (thread : Thread) :
    (q.quitCalled thread).inWakeup = q.inWakeup := by
  cases thread with
  | other id => rfl
  | loop => rfl

theorem Shape.outside_of_idle {q : EventLoop Functor} (shape : Shape q)
    (idle : q.looping = false) : q.control = .outside := by
  by_contra inside
  rw [shape.looping inside] at idle
  cases idle

theorem Shape.moves {q next : EventLoop Functor} {event : Event Functor} (shape : Shape q)
    (moves : Moves q event next) : Shape next := by
  -- Where the loop thread is not in a functor it is not in `wakeup`.
  have outsideWakeup : (∀ rest, q.control ≠ .running true rest) → q.inWakeup ≠ true := by
    intro elsewhere inside
    obtain ⟨rest, here⟩ := shape.inFunctor inside
    exact elsewhere rest here
  cases moves with
  | stays => exact shape
  | queued thread cb free =>
      apply (queueInLoop_same q thread cb).shape shape
      intro inside
      rcases queueInLoop_inWakeup inside with before | ⟨rfl, calling⟩
      · exact shape.inFunctor before
      · rw [shape.calling] at calling
        simp only [canCall, Bool.and_eq_true] at free
        cases here : q.control with
        | running started rest =>
            rw [here] at free
            exact ⟨rest, by rw [show started = true from free.1]⟩
        | atSwap =>
            rw [here] at free
            cases free.1
        | _ =>
            rw [here] at calling
            cases calling
  | woken thread =>
      apply (wakeup_same q thread).shape shape
      intro inside
      exact shape.inFunctor (wakeup_inWakeup inside)
  | quitted thread =>
      apply (quitCalled_same q thread).shape shape
      rw [quitCalled_inWakeup]
      exact shape.inFunctor
  | looped free idle =>
      have here := shape.outside_of_idle idle
      constructor
      · exact fun _ => rfl
      · have calling := shape.calling
        rw [here] at calling
        exact calling
      · intro inside
        exact absurd inside (outsideWakeup (by simp [here]))
      · exact shape.blocking
  | tested here =>
      have notWaking := outsideWakeup (by simp [here])
      have calling := shape.calling
      rw [here] at calling
      unfold test
      split_ifs
      · exact ⟨fun inside => absurd rfl inside, calling, fun inside => absurd inside notWaking,
          shape.blocking⟩
      · exact ⟨fun _ => shape.looping (by simp [here]), calling,
          fun inside => absurd inside notWaking, shape.blocking⟩
  | polled here =>
      have calling := shape.calling
      rw [here] at calling
      exact ⟨fun _ => shape.looping (by simp [here]), calling,
        fun inside => absurd inside (outsideWakeup (by simp [here])), shape.blocking⟩
  | read here =>
      have calling := shape.calling
      rw [here] at calling
      exact ⟨fun _ => shape.looping (by simp [here]), calling,
        fun inside => absurd inside (outsideWakeup (by simp [here])), shape.blocking⟩
  | handled here =>
      exact ⟨fun _ => shape.looping (by simp [here]), rfl,
        fun inside => absurd inside (outsideWakeup (by simp [here])), shape.blocking⟩
  | swapped here =>
      have calling := shape.calling
      rw [here] at calling
      exact ⟨fun _ => shape.looping (by simp [here]), calling,
        fun inside => absurd inside (outsideWakeup (by simp [here])), shape.blocking⟩
  | ran here free =>
      have calling := shape.calling
      rw [here] at calling
      exact ⟨fun _ => shape.looping (by simp [here]), calling,
        fun inside => absurd (inside.symm.trans free) (by simp), shape.blocking⟩
  | finished here free =>
      exact ⟨fun _ => shape.looping (by simp [here]), rfl,
        fun inside => absurd (inside.symm.trans free) (by simp), shape.blocking⟩

theorem shape_run {capacity : Nat} {events : List (Event Functor)} {q : EventLoop Functor}
    (ran : run step (new Functor capacity) events = .ok q) : Shape q :=
  run_invariant Shape (fun _ _ _ shape taken => shape.moves (step_moves taken))
    (shape_new capacity) ran

/-! ### What was pushed -/

/-- The executed, the swapped out and the pending functors are those pushed,
in that order. -/
def Accounted (q : EventLoop Functor) : Prop :=
  q.pushed = q.executed ++ q.control.rest ++ q.pendingFunctors

theorem Accounted.moves {q next : EventLoop Functor} {event : Event Functor}
    (accounted : Accounted q) (shape : Shape q) (moves : Moves q event next) :
    Accounted next := by
  unfold Accounted at accounted ⊢
  cases moves with
  | stays => exact accounted
  | queued thread cb =>
      have same := queueInLoop_same q thread cb
      rw [queueInLoop_pushed, queueInLoop_pendingFunctors, same.executed, same.control, accounted]
      simp
  | woken thread =>
      have same := wakeup_same q thread
      rw [wakeup_pushed, wakeup_pendingFunctors, same.executed, same.control]
      exact accounted
  | quitted thread =>
      have same := quitCalled_same q thread
      rw [quitCalled_pushed, quitCalled_pendingFunctors, same.executed, same.control]
      exact accounted
  | looped free idle =>
      rw [shape.outside_of_idle idle] at accounted
      exact accounted
  | tested here =>
      rw [here] at accounted
      unfold test
      split_ifs
      · exact accounted
      · exact accounted
  | polled here =>
      rw [here] at accounted
      exact accounted
  | read here =>
      rw [here] at accounted
      exact accounted
  | handled here =>
      rw [here] at accounted
      exact accounted
  | swapped here =>
      rw [here] at accounted
      simpa [swapFunctors, Control.rest] using accounted
  | ran here =>
      rw [here] at accounted
      simpa [callFunctor, Control.rest] using accounted
  | finished here =>
      rw [here] at accounted
      exact accounted

theorem accounted_run {capacity : Nat} {events : List (Event Functor)} {q : EventLoop Functor}
    (ran : run step (new Functor capacity) events = .ok q) : Accounted q := by
  have kept : Shape q ∧ Accounted q := by
    refine run_invariant (fun q => Shape q ∧ Accounted q) ?_ ⟨shape_new capacity, rfl⟩ ran
    intro state event next before taken
    have moves := step_moves taken
    exact ⟨before.1.moves moves, before.2.moves before.1 moves⟩
  exact kept.2

/-! ### A batch -/

/-- While a batch is run: it was swapped out at the end of `before`, its
functors that have been called and its functors that are left are those
pending then, and everything queued since is pending now. -/
def BatchFixed (capacity : Nat) (events : List (Event Functor)) (q : EventLoop Functor) : Prop :=
  ∀ started rest, q.control = .running started rest →
    ∃ before during start called, events = before ++ .swap :: during ∧
      run step (new Functor capacity) before = .ok start ∧ start.control = .atSwap ∧
      called ++ rest = start.pendingFunctors ∧ q.executed = start.executed ++ called ∧
      q.pushed = start.pushed ++ q.pendingFunctors

/-- What other threads and the running functor do leaves the batch alone. -/
theorem BatchFixed.extend {capacity : Nat} {events : List (Event Functor)}
    {q next : EventLoop Functor} {event : Event Functor} (fixed : BatchFixed capacity events q)
    (same : SameLoop q next) (fresh : List (Queued Functor))
    (pushed : next.pushed = q.pushed ++ fresh)
    (pending : next.pendingFunctors = q.pendingFunctors ++ fresh) :
    BatchFixed capacity (events ++ [event]) next := by
  intro started rest here
  rw [same.control] at here
  obtain ⟨before, during, start, called, split, ran, atSwap, batch, executed, later⟩ :=
    fixed started rest here
  refine ⟨before, during ++ [event], start, called, ?_, ran, atSwap, batch, ?_, ?_⟩
  · rw [split, List.append_assoc, List.cons_append]
  · rw [same.executed]
    exact executed
  · rw [pushed, pending, later, List.append_assoc]

theorem batch_fixed_run {capacity : Nat} {events : List (Event Functor)}
    {q : EventLoop Functor} (ran : run step (new Functor capacity) events = .ok q) :
    BatchFixed capacity events q := by
  refine run_history (BatchFixed capacity) ?_ ?_ ran
  · intro started rest here
    cases here
  · intro events q event next ran fixed taken
    cases step_moves taken with
    | stays =>
        exact fixed.extend ⟨rfl, rfl, rfl, rfl, rfl, rfl⟩ [] (by simp) (by simp)
    | queued thread cb =>
        exact fixed.extend (queueInLoop_same q thread cb) [⟨cb, q.callerOf thread⟩]
          (queueInLoop_pushed q thread cb) (queueInLoop_pendingFunctors q thread cb)
    | woken thread =>
        exact fixed.extend (wakeup_same q thread) [] (by simp) (by simp)
    | quitted thread =>
        exact fixed.extend (quitCalled_same q thread) [] (by simp) (by simp)
    | swapped here =>
        intro started rest running
        cases running
        exact ⟨events, [], q, [], rfl, ran, here, rfl, (List.append_nil _).symm,
          (List.append_nil _).symm⟩
    | @ran begun task left here =>
        intro started rest running
        cases running
        obtain ⟨before, during, start, called, split, ranBefore, atSwap, batch, executed, later⟩ :=
          fixed begun (task :: left) here
        refine ⟨before, during ++ [.callFunctor], start, called ++ [task], ?_, ranBefore, atSwap,
          ?_, ?_, later⟩
        · rw [split, List.append_assoc, List.cons_append]
        · rw [List.append_assoc, List.singleton_append]
          exact batch
        · rw [← List.append_assoc, ← executed]
          rfl
    | looped =>
        intro started rest running
        cases running
    | tested here =>
        intro started rest running
        unfold test at running
        split_ifs at running
    | polled here =>
        intro started rest running
        cases running
    | read here =>
        intro started rest running
        cases running
    | handled here =>
        intro started rest running
        cases running
    | finished here =>
        intro started rest running
        cases running

/-- The loop over the functors ends when all of them have been called. -/
theorem Moves.stays_running {q next : EventLoop Functor} {event : Event Functor}
    (moves : Moves q event next) (shape : Shape q) {started : Bool}
    {rest : List (Queued Functor)} (here : q.control = .running started rest) :
    (∃ started rest, next.control = .running started rest) ∨ rest = [] := by
  cases moves with
  | stays => exact Or.inl ⟨started, rest, here⟩
  | queued thread cb =>
      exact Or.inl ⟨started, rest, (queueInLoop_same q thread cb).control.trans here⟩
  | woken thread => exact Or.inl ⟨started, rest, (wakeup_same q thread).control.trans here⟩
  | quitted thread =>
      exact Or.inl ⟨started, rest, (quitCalled_same q thread).control.trans here⟩
  | ran => exact Or.inl ⟨_, _, rfl⟩
  | finished same =>
      rw [here] at same
      cases same
      exact Or.inr rfl
  | looped free idle =>
      rw [shape.outside_of_idle idle] at here
      cases here
  | tested same =>
      rw [here] at same
      cases same
  | polled same =>
      rw [here] at same
      cases same
  | read same =>
      rw [here] at same
      cases same
  | handled same =>
      rw [here] at same
      cases same
  | swapped same =>
      rw [here] at same
      cases same

/-- Functors run once and in order. What has been executed is a prefix of what
was pushed, and what is missing is swapped out or pending. A batch is what was
pending at its swap: a functor queued later is pending and not in the batch,
and the loop over the batch is left when every one of its functors has been
called. -/
theorem functors_run_in_order {capacity : Nat} {events : List (Event Functor)}
    {q : EventLoop Functor} (ran : run step (new Functor capacity) events = .ok q) :
    q.executed <+: q.pushed ∧
    q.pushed = q.executed ++ q.control.rest ++ q.pendingFunctors ∧
    (∀ started rest, q.control = .running started rest →
      ∃ before during start called, events = before ++ .swap :: during ∧
        run step (new Functor capacity) before = .ok start ∧ start.control = .atSwap ∧
        called ++ rest = start.pendingFunctors ∧ q.executed = start.executed ++ called ∧
        q.pushed = start.pushed ++ q.pendingFunctors) ∧
    (∀ event next started rest, step q event = .ok next → q.control = .running started rest →
      (∃ started rest, next.control = .running started rest) ∨ rest = []) := by
  have accounted := accounted_run ran
  refine ⟨?_, accounted, batch_fixed_run ran, ?_⟩
  · refine ⟨q.control.rest ++ q.pendingFunctors, ?_⟩
    rw [← List.append_assoc]
    exact accounted.symm
  · intro event next started rest taken here
    exact (step_moves taken).stays_running (shape_run ran) here

/-- A functor that queues itself again while its batch, with a functor of
another thread in it, is being run. -/
def requeueing : List (Event Nat) :=
  [.loop, .test, .queueInLoop (.other 7) 1, .wakeup (.other 7), .poll, .handleRead,
    .queueInLoop .loop 2, .finishHandling, .swap, .callFunctor, .queueInLoop .loop 1,
    .wakeup .loop, .queueInLoop (.other 7) 3]

theorem functors_run_in_order_requeueing :
    ∃ q, run step (new Nat 64) requeueing = .ok q ∧ q.executed <+: q.pushed ∧
      q.executed.map Queued.functor = [1] ∧ q.control.rest.map Queued.functor = [2] ∧
      q.pendingFunctors.map Queued.functor = [1, 3] := by
  obtain ⟨q, ran⟩ : ∃ q, run step (new Nat 64) requeueing = .ok q := ⟨_, rfl⟩
  have reached : (run step (new Nat 64) requeueing).toOption.map
      (fun q => (q.executed.map Queued.functor, q.control.rest.map Queued.functor,
        q.pendingFunctors.map Queued.functor)) = some ([1], [2], [1, 3]) := by
    decide
  rw [ran] at reached
  simp only [Except.toOption, Option.map_some, Option.some.injEq, Prod.mk.injEq] at reached
  exact ⟨q, ran, (functors_run_in_order ran).1, reached.1, reached.2.1, reached.2.2⟩

end Msmuduo.EventLoop
