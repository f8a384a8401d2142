import Msmuduo.EventLoopFunctors

/-!
# Waking the loop up

Before the loop thread blocks in `poll` with functors pending, someone has to
have seen to it that `poll` returns. Who queues from another thread sends
bytes, and so does a functor; an event handler need not, since the functors
are run before the next `poll`. The loop's own thread sends nothing outside
`loop` either: what it queues there waits for `poll` to return by itself.

The second part is about the price of the bytes a functor sends. The write end
of the socket is left blocking, and the only reader is the loop thread.
-/

namespace Msmuduo.EventLoop

open Msmuduo.Machine

set_option autoImplicit false

variable {Functor : Type}

/-! ### Functors that wait -/

/-- Bytes are unread, or a thread that has queued a functor is about to send
its own, or the loop thread is. -/
def Answered (q : EventLoop Functor) : Prop :=
  0 < q.wakeupBytes ∨
    (∃ task ∈ q.pendingFunctors, ∃ id ∈ q.waking, task.caller = .otherThread id) ∨
    q.inWakeup = true

/-- The handlers are run and the functors not yet swapped out. -/
def Control.beforeSwap : Control Functor → Bool
  | .handling _ => true
  | .atSwap => true
  | _ => false

/-- A pending functor is answered for, unless it will be swapped out before
the next `poll` or was queued outside `loop` by the loop's own thread. -/
def WillWake (q : EventLoop Functor) : Prop :=
  q.control.beforeSwap = false →
    (∃ task ∈ q.pendingFunctors, task.caller ≠ .outsideLoop) → Answered q

theorem Answered.mono {q next : EventLoop Functor} (answered : Answered q)
    (bytes : q.wakeupBytes ≤ next.wakeupBytes)
    (pending : ∀ task ∈ q.pendingFunctors, task ∈ next.pendingFunctors)
    (waking : ∀ id ∈ q.waking, id ∈ next.waking)
    (inWakeup : q.inWakeup = true → next.inWakeup = true) : Answered next := by
  rcases answered with unread | ⟨task, member, id, sending, queued⟩ | inside
  · exact Or.inl (Nat.lt_of_lt_of_le unread bytes)
  · exact Or.inr (Or.inl ⟨task, pending task member, id, waking id sending, queued⟩)
  · exact Or.inr (Or.inr (inWakeup inside))

/-- A call of `queueInLoop` that does not come from the loop's own thread
outside `loop`, nor from a handler, leaves someone to wake the loop up. -/
theorem queueInLoop_answered {q : EventLoop Functor} (shape : Shape q) (thread : Thread)
    (cb : Functor) (late : q.control.beforeSwap = false)
    (counted : q.callerOf thread ≠ .outsideLoop) : Answered (q.queueInLoop thread cb) := by
  cases thread with
  | other id =>
      refine Or.inr (Or.inl ⟨⟨cb, .otherThread id⟩, ?_, id, ?_, rfl⟩)
      · simp [callerOf]
      · simp [queueInLoop, enterWakeup]
  | loop =>
      have calling : q.callingPendingFunctors = true := by
        rw [shape.calling]
        cases here : q.control with
        | running started rest => rfl
        | atSwap => rfl
        | handling readable => simp [here, Control.beforeSwap] at late
        | outside => simp [callerOf, here, Control.caller] at counted
        | atTest => simp [callerOf, here, Control.caller] at counted
        | atPoll => simp [callerOf, here, Control.caller] at counted
      refine Or.inr (Or.inr ?_)
      simp [queueInLoop, pushBack, calling, enterWakeup]

theorem queueInLoop_mono {q : EventLoop Functor} (thread : Thread) (cb : Functor)
    (answered : Answered q) : Answered (q.queueInLoop thread cb) := by
  apply answered.mono
  · cases thread with
    | other id => exact Nat.le_refl _
    | loop =>
        unfold queueInLoop
        dsimp only
        split_ifs
        · exact Nat.le_refl _
        · exact Nat.le_refl _
  · intro task member
    rw [queueInLoop_pendingFunctors]
    exact List.mem_append_left _ member
  · intro id member
    cases thread with
    | other other =>
        simp only [queueInLoop, enterWakeup, pushBack, ne_eq, reduceCtorEq, not_false_eq_true,
          true_or, ↓reduceIte]
        exact List.mem_append_left _ member
    | loop =>
        unfold queueInLoop
        dsimp only
        split_ifs
        · exact member
        · exact member
  · intro inside
    cases thread with
    | other id => exact inside
    | loop =>
        unfold queueInLoop
        dsimp only
        split_ifs
        · rfl
        · exact inside

/-- Who sends leaves bytes behind, and who cannot stays where it is. -/
theorem wakeup_answered {q : EventLoop Functor} (shape : Shape q) (thread : Thread)
    (answered : Answered q) : Answered (q.wakeup thread) := by
  unfold wakeup
  split_ifs with room blocks
  · exact Or.inl (Nat.add_pos_right _ (by decide))
  · exact answered
  · exact absurd shape.blocking blocks

theorem quitCalled_mono {q : EventLoop Functor} (thread : Thread) (answered : Answered q) :
    Answered (q.quitCalled thread) := by
  cases thread with
  | loop => exact answered
  | other id =>
      apply answered.mono
      · exact Nat.le_refl _
      · exact fun _ member => member
      · exact fun _ member => List.mem_append_left _ member
      · exact fun inside => inside

theorem WillWake.moves {q next : EventLoop Functor} {event : Event Functor}
    (wakes : WillWake q) (shape : Shape q) (moves : Moves q event next) : WillWake next := by
  intro late counted
  cases moves with
  | stays => exact wakes late counted
  | queued thread cb =>
      rw [(queueInLoop_same q thread cb).control] at late
      rw [queueInLoop_pendingFunctors] at counted
      by_cases own : q.callerOf thread = .outsideLoop
      · -- The functors from before are still the ones that count.
        obtain ⟨task, member, other⟩ := counted
        rcases List.mem_append.mp member with before | added
        · exact queueInLoop_mono thread cb (wakes late ⟨task, before, other⟩)
        · rw [List.mem_singleton.mp added] at other
          exact absurd own other
      · exact queueInLoop_answered shape thread cb late own
  | woken thread =>
      rw [(wakeup_same q thread).control] at late
      rw [wakeup_pendingFunctors] at counted
      exact wakeup_answered shape thread (wakes late counted)
  | quitted thread =>
      rw [(quitCalled_same q thread).control] at late
      rw [quitCalled_pendingFunctors] at counted
      exact quitCalled_mono thread (wakes late counted)
  | looped free idle =>
      have here := shape.outside_of_idle idle
      exact wakes (by rw [here]; rfl) counted
  | tested here =>
      have before : q.control.beforeSwap = false := by
        rw [here]
        rfl
      unfold test at counted ⊢
      split_ifs at counted ⊢
      · exact wakes before counted
      · exact wakes before counted
  | polled here => cases late
  | read here => cases late
  | handled here => cases late
  | swapped here =>
      obtain ⟨task, member, -⟩ := counted
      cases member
  | ran here => exact wakes (by rw [here]; rfl) counted
  | finished here => exact wakes (by rw [here]; rfl) counted

theorem will_wake_run {capacity : Nat} {events : List (Event Functor)} {q : EventLoop Functor}
    (ran : run step (new Functor capacity) events = .ok q) : WillWake q := by
  have kept : Shape q ∧ WillWake q := by
    refine run_invariant (fun q => Shape q ∧ WillWake q) ?_ ⟨shape_new capacity, ?_⟩ ran
    · intro state event next before taken
      have moves := step_moves taken
      exact ⟨before.1.moves moves, before.2.moves before.1 moves⟩
    · intro late counted
      obtain ⟨task, member, -⟩ := counted
      cases member
  exact kept.2

/-- Before the loop thread blocks in `poll` with functors pending, bytes are
unread or another thread has queued a functor and is about to send, or all
that is pending was queued outside `loop` by the loop's own thread. -/
theorem pending_functors_wake_poll {capacity : Nat} {events : List (Event Functor)}
    {q : EventLoop Functor} (ran : run step (new Functor capacity) events = .ok q)
    (here : q.control = .atPoll) :
    0 < q.wakeupBytes ∨
      (∃ task ∈ q.pendingFunctors, ∃ id ∈ q.waking, task.caller = .otherThread id) ∨
      ∀ task ∈ q.pendingFunctors, task.caller = .outsideLoop := by
  by_cases counted : ∃ task ∈ q.pendingFunctors, task.caller ≠ .outsideLoop
  · rcases will_wake_run ran (by rw [here]; rfl) counted with unread | sending | inside
    · exact Or.inl unread
    · exact Or.inr (Or.inl sending)
    · obtain ⟨rest, running⟩ := (shape_run ran).inFunctor inside
      rw [here] at running
      cases running
  · right
    right
    intro task member
    by_contra other
    exact counted ⟨task, member, other⟩

/-- Another thread has queued and not sent when the loop reaches `poll`. -/
theorem pending_functors_wake_poll_sending :
    ∃ q, run step (new Nat 64) [.loop, .queueInLoop (.other 7) 1, .test] = .ok q ∧
      q.control = .atPoll ∧ q.pendingFunctors ≠ [] ∧ (0 < q.wakeupBytes ∨
        (∃ task ∈ q.pendingFunctors, ∃ id ∈ q.waking, task.caller = .otherThread id) ∨
        ∀ task ∈ q.pendingFunctors, task.caller = .outsideLoop) := by
  obtain ⟨q, ran, here, waiting⟩ : ∃ q, run step (new Nat 64)
      [.loop, .queueInLoop (.other 7) 1, .test] = .ok q ∧ q.control = .atPoll ∧
      q.pendingFunctors ≠ [] := ⟨_, rfl, by decide, by decide⟩
  exact ⟨q, ran, here, waiting, pending_functors_wake_poll ran here⟩

/-- A functor queued by the loop's own thread before `loop` is entered: the
loop thread is about to block, no byte is unread and no thread will send. -/
theorem queued_before_loop_not_woken :
    ∃ q, run step (new Nat 64) [.queueInLoop .loop 1, .loop, .test] = .ok q ∧
      q.control = .atPoll ∧ q.pendingFunctors ≠ [] ∧
      ¬(0 < q.wakeupBytes ∨
        ∃ task ∈ q.pendingFunctors, ∃ id ∈ q.waking, task.caller = .otherThread id) := by
  refine ⟨_, rfl, ?_, ?_, ?_⟩
  · decide
  · decide
  · decide

/-! ### The loop thread in its own socket -/

/-- A functor queues only when the socket has room for its bytes, and another
thread does not take the room while the functor is in `wakeup`. -/
def Roomy (q : EventLoop Functor) : Event Functor → Prop
  | .queueInLoop .loop _ => q.canCall .loop = true → q.callingPendingFunctors = true →
      q.wakeupBytes + 8 ≤ q.capacity
  | .wakeup (.other id) => q.isWaking (.other id) = true → q.inWakeup = true →
      q.wakeupBytes + 16 ≤ q.capacity
  | _ => True

instance (q : EventLoop Functor) (event : Event Functor) : Decidable (Roomy q event) :=
  match event with
  | .queueInLoop .loop _ => inferInstanceAs (Decidable (q.canCall .loop = true →
      q.callingPendingFunctors = true → q.wakeupBytes + 8 ≤ q.capacity))
  | .wakeup (.other id) => inferInstanceAs (Decidable (q.isWaking (.other id) = true →
      q.inWakeup = true → q.wakeupBytes + 16 ≤ q.capacity))
  | .queueInLoop (.other _) _ => isTrue trivial
  | .runInLoop _ _ => isTrue trivial
  | .wakeup .loop => isTrue trivial
  | .quit _ => isTrue trivial
  | .loop => isTrue trivial
  | .test => isTrue trivial
  | .poll => isTrue trivial
  | .handleRead => isTrue trivial
  | .finishHandling => isTrue trivial
  | .swap => isTrue trivial
  | .callFunctor => isTrue trivial
  | .finishFunctors => isTrue trivial

theorem not_blocked_of_free {q : EventLoop Functor} (free : q.inWakeup = false) :
    ¬Blocked q := by
  intro blocked
  rw [blocked.1] at free
  cases free

theorem SameLoop.not_blocked {q next : EventLoop Functor} (same : SameLoop q next)
    (open_ : ¬Blocked q) (inWakeup : next.inWakeup = true → q.inWakeup = true)
    (bytes : next.wakeupBytes ≤ q.wakeupBytes) : ¬Blocked next := by
  intro blocked
  obtain ⟨inside, blocking, full⟩ := blocked
  rw [same.blocking] at blocking
  rw [same.capacity] at full
  exact open_ ⟨inWakeup inside, blocking, by omega⟩

theorem queueInLoop_wakeupBytes (q : EventLoop Functor) (thread : Thread) (cb : Functor) :
    (q.queueInLoop thread cb).wakeupBytes = q.wakeupBytes := by
  unfold queueInLoop
  dsimp only
  split_ifs
  · cases thread with
    | loop => rfl
    | other id => rfl
  · rfl

/-- A functor enters `wakeup` and is held there if there is no room. -/
theorem queueInLoop_not_blocked_iff {q : EventLoop Functor} (shape : Shape q)
    (free : q.canCall .loop = true) (cb : Functor) :
    ¬Blocked (q.queueInLoop .loop cb) ↔
      (q.callingPendingFunctors = true → q.wakeupBytes + 8 ≤ q.capacity) := by
  have same := queueInLoop_same q .loop cb
  have bytes := queueInLoop_wakeupBytes q .loop cb
  cases calling : q.callingPendingFunctors with
  | true =>
      have inside : (q.queueInLoop .loop cb).inWakeup = true := by
        simp [queueInLoop, pushBack, calling, enterWakeup]
      unfold Blocked
      rw [inside, same.blocking, shape.blocking, same.capacity, bytes]
      simp
  | false =>
      have outside : (q.queueInLoop .loop cb).inWakeup = false := by
        simp only [canCall, Bool.and_eq_true, Bool.not_eq_true'] at free
        simpa [queueInLoop, pushBack, calling] using free.2
      simp [not_blocked_of_free outside]

/-- Another thread's bytes may take the room the loop thread is about to use. -/
theorem wakeup_other_not_blocked_iff {q : EventLoop Functor} (shape : Shape q)
    (open_ : ¬Blocked q) (id : Nat) :
    ¬Blocked (q.wakeup (.other id)) ↔
      (q.inWakeup = true → q.wakeupBytes + 16 ≤ q.capacity) := by
  cases inside : q.inWakeup with
  | false =>
      have outside : (q.wakeup (.other id)).inWakeup = false := by
        by_contra entered
        have before := wakeup_inWakeup (Bool.not_eq_false _ ▸ entered)
        rw [inside] at before
        cases before
      simp [not_blocked_of_free outside]
  | true =>
      have room : q.wakeupBytes + 8 ≤ q.capacity := by
        by_contra full
        exact open_ ⟨inside, shape.blocking, Nat.lt_of_not_le full⟩
      unfold Blocked wakeup
      rw [if_pos room]
      simp only [leaveWakeup, inside, shape.blocking, true_and, forall_const]
      omega

/-- No other step holds the loop thread. -/
theorem Moves.not_blocked {q next : EventLoop Functor} {event : Event Functor}
    (moves : Moves q event next) (shape : Shape q) (open_ : ¬Blocked q)
    (other : ∀ cb, event ≠ .queueInLoop .loop cb) (notSent : ∀ id, event ≠ .wakeup (.other id)) :
    ¬Blocked next := by
  have elsewhere : (∀ rest, q.control ≠ .running true rest) → q.inWakeup = false := by
    intro away
    by_contra inside
    obtain ⟨rest, here⟩ := shape.inFunctor (Bool.not_eq_false _ ▸ inside)
    exact away rest here
  cases moves with
  | stays => exact open_
  | queued thread cb free called =>
      have away : thread ≠ .loop := by
        rcases called with direct | ⟨-, away⟩
        · intro own
          rw [own] at direct
          exact other cb direct
        · exact away
      apply (queueInLoop_same q thread cb).not_blocked open_
      · intro inside
        rcases queueInLoop_inWakeup inside with before | ⟨own, -⟩
        · exact before
        · exact absurd own away
      · exact Nat.le_of_eq (queueInLoop_wakeupBytes q thread cb)
  | woken thread inside =>
      cases thread with
      | other id => exact absurd rfl (notSent id)
      | loop =>
          unfold wakeup
          split_ifs
          · exact not_blocked_of_free rfl
          · exact open_
          · exact not_blocked_of_free rfl
  | quitted thread =>
      apply (quitCalled_same q thread).not_blocked open_
      · rw [quitCalled_inWakeup]
        exact fun inside => inside
      · cases thread with
        | loop => exact Nat.le_refl _
        | other id => exact Nat.le_refl _
  | looped free =>
      simp only [canCall, Bool.and_eq_true, Bool.not_eq_true'] at free
      exact not_blocked_of_free free.2
  | tested here =>
      have free := elsewhere (by simp [here])
      unfold test
      split_ifs
      · exact not_blocked_of_free free
      · exact not_blocked_of_free free
  | polled here => exact not_blocked_of_free (elsewhere (by simp [here]))
  | read here free => exact not_blocked_of_free free
  | handled here free => exact not_blocked_of_free free
  | swapped here => exact not_blocked_of_free (elsewhere (by simp [here]))
  | ran here free => exact not_blocked_of_free free
  | finished here free => exact not_blocked_of_free free

theorem step_blocked_iff (q : EventLoop Functor) (event : Event Functor)
    (next : EventLoop Functor) (shape : Shape q) (open_ : ¬Blocked q)
    (taken : step q event = .ok next) : ¬Blocked next ↔ Roomy q event := by
  have moves := step_moves taken
  cases event with
  | queueInLoop thread cb =>
      cases thread with
      | other id =>
          simp only [Roomy, iff_true]
          exact moves.not_blocked shape open_ (by simp) (by simp)
      | loop =>
          cases taken
          simp only [Roomy]
          split_ifs with free
          · rw [queueInLoop_not_blocked_iff shape free cb]
            simp [free]
          · simp [free, open_]
  | wakeup thread =>
      cases thread with
      | loop =>
          simp only [Roomy, iff_true]
          exact moves.not_blocked shape open_ (by simp) (by simp)
      | other id =>
          cases taken
          simp only [Roomy]
          split_ifs with inside
          · rw [wakeup_other_not_blocked_iff shape open_ id]
            simp [inside]
          · simp [inside, open_]
  | _ =>
      simp only [Roomy, iff_true]
      exact moves.not_blocked shape open_ (by simp) (by simp)

/-- The loop thread is never held in `wakeup` exactly in the runs in which
there is room whenever a functor queues. -/
theorem loop_thread_not_blocked_iff (capacity : Nat) (events : List (Event Functor)) :
    Throughout step (fun q => ¬Blocked q) (new Functor capacity) events ↔
      AllSteps step Roomy (new Functor capacity) events := by
  apply throughout_iff_all_steps Shape
  · intro q next event _ shape open_ taken
    exact ⟨shape.moves (step_moves taken), step_blocked_iff q event next shape open_ taken⟩
  · intro q fault event _ _ _ failed
    cases event with
    | loop => trivial
    | _ =>
        simp only [step] at failed
        first
          | cases failed
          | split at failed <;> cases failed
  · exact shape_new capacity
  · exact not_blocked_of_free rfl

-- A functor that queues two others does no harm when there is room for both.
example : AllSteps step Roomy (new Nat 24)
    [.queueInLoop .loop 1, .loop, .test, .poll, .finishHandling, .swap, .callFunctor,
      .queueInLoop .loop 2, .wakeup .loop, .queueInLoop .loop 3, .wakeup .loop] := by
  decide

/-! ### A functor that queues too much -/

/-- Nobody but the loop thread reads the socket, so it stays there. -/
theorem Blocked.moves {q next : EventLoop Functor} {event : Event Functor} (blocked : Blocked q)
    (shape : Shape q) (moves : Moves q event next) : Blocked next := by
  obtain ⟨inside, blocking, full⟩ := blocked
  obtain ⟨rest, here⟩ := shape.inFunctor inside
  have noRoom : ¬q.wakeupBytes + 8 ≤ q.capacity := Nat.not_le.mpr full
  have held : ∀ thread, q.wakeup thread = q := by
    intro thread
    rw [wakeup, if_neg noRoom, if_pos blocking]
  have busy : q.canCall .loop ≠ true := by simp [canCall, inside]
  cases moves with
  | stays => exact ⟨inside, blocking, full⟩
  | queued thread cb free =>
      cases thread with
      | loop => exact absurd free busy
      | other id => exact ⟨inside, blocking, full⟩
  | woken thread =>
      rw [held]
      exact ⟨inside, blocking, full⟩
  | quitted thread free =>
      cases thread with
      | loop => exact absurd free busy
      | other id => exact ⟨inside, blocking, full⟩
  | looped free => exact absurd free busy
  | tested elsewhere =>
      rw [here] at elsewhere
      cases elsewhere
  | polled elsewhere =>
      rw [here] at elsewhere
      cases elsewhere
  | swapped elsewhere =>
      rw [here] at elsewhere
      cases elsewhere
  | read _ free => exact absurd (inside.symm.trans free) (by simp)
  | handled _ free => exact absurd (inside.symm.trans free) (by simp)
  | ran _ free => exact absurd (inside.symm.trans free) (by simp)
  | finished _ free => exact absurd (inside.symm.trans free) (by simp)

theorem blocked_forever {q later : EventLoop Functor} {rest : List (Event Functor)}
    (shape : Shape q) (blocked : Blocked q) (ran : run step q rest = .ok later) :
    Blocked later := by
  have kept : Shape later ∧ Blocked later := by
    refine run_invariant (fun q => Shape q ∧ Blocked q) ?_ ⟨shape, blocked⟩ ran
    intro state event next before taken
    have moves := step_moves taken
    exact ⟨before.1.moves moves, before.2.moves before.1 moves⟩
  exact kept.2

/-- A functor is being run and has room for so many more wakeups. -/
structure Filling (q : EventLoop Unit) (count : Nat) : Prop where
  calling : q.callingPendingFunctors = true
  free : q.inWakeup = false
  inFunctor : q.control.inUserCode = true
  room : q.wakeupBytes + 8 * count ≤ q.capacity

/-- Every further functor it queues takes eight bytes. -/
theorem Filling.fills {q : EventLoop Unit} {count : Nat} (filling : Filling q count) :
    ∃ full, run step q (List.replicate count [.queueInLoop .loop (), .wakeup .loop]).flatten =
        .ok full ∧ Filling full 0 ∧ full.capacity = q.capacity ∧
      full.wakeupBytes = q.wakeupBytes + 8 * count := by
  induction count generalizing q with
  | zero =>
      exact ⟨q, rfl, ⟨filling.calling, filling.free, filling.inFunctor, filling.room⟩, rfl, rfl⟩
  | succ count ih =>
      obtain ⟨calling, free, inFunctor, room⟩ := filling
      have canCall : q.canCall .loop = true := by simp [EventLoop.canCall, inFunctor, free]
      have queued : step q (.queueInLoop .loop ()) = .ok (q.queueInLoop .loop ()) := by
        simp [step, canCall]
      have fits : q.wakeupBytes + 8 ≤ q.capacity := by omega
      have same := queueInLoop_same q .loop ()
      have inside : (q.queueInLoop .loop ()).inWakeup = true := by
        simp [queueInLoop, pushBack, calling, enterWakeup]
      have bytes := queueInLoop_wakeupBytes q .loop ()
      have sent : step (q.queueInLoop .loop ()) (.wakeup .loop) =
          .ok ((q.queueInLoop .loop ()).wakeup .loop) := by
        simp [step, isWaking, inside]
      have opened : (q.queueInLoop .loop ()).wakeup .loop =
          { (q.queueInLoop .loop ()).leaveWakeup .loop with
            wakeupBytes := q.wakeupBytes + 8 } := by
        rw [wakeup, bytes, same.capacity, if_pos fits]
      have next : Filling ((q.queueInLoop .loop ()).wakeup .loop) count := by
        rw [opened]
        refine ⟨same.calling.trans calling, rfl, ?_, ?_⟩
        · exact (congrArg Control.inUserCode same.control).trans inFunctor
        · change q.wakeupBytes + 8 + 8 * count ≤ (q.queueInLoop .loop ()).capacity
          rw [same.capacity]
          omega
      obtain ⟨full, ran, filled, capacity, total⟩ := ih next
      refine ⟨full, ?_, filled, ?_, ?_⟩
      · rw [List.replicate_succ, List.flatten_cons, List.cons_append, List.cons_append,
          List.nil_append, run_cons_ok _ queued, run_cons_ok _ sent]
        exact ran
      · rw [capacity, opened]
        exact same.capacity
      · rw [total, opened]
        change q.wakeupBytes + 8 + 8 * count = q.wakeupBytes + 8 * (count + 1)
        omega

/-- One functor queues one functor more than the socket has room for. -/
def selfDeadlock (capacity : Nat) : List (Event Unit) :=
  [.queueInLoop .loop (), .loop, .test, .poll, .finishHandling, .swap, .callFunctor] ++
    ((List.replicate (capacity / 8) [.queueInLoop .loop (), .wakeup .loop]).flatten ++
      [.queueInLoop .loop ()])

theorem selfDeadlock_blocks (capacity : Nat) :
    ∃ q, run step (new Unit capacity) (selfDeadlock capacity) = .ok q ∧ Blocked q := by
  obtain ⟨first, ran, filling⟩ : ∃ first, run step (new Unit capacity)
      [.queueInLoop .loop (), .loop, .test, .poll, .finishHandling, .swap, .callFunctor] =
        .ok first ∧ (Filling first (capacity / 8) ∧ first.capacity = capacity ∧
          first.wakeupBytes = 0) := by
    refine ⟨_, rfl, ⟨rfl, rfl, rfl, ?_⟩, rfl, rfl⟩
    change 0 + 8 * (capacity / 8) ≤ capacity
    omega
  obtain ⟨filling, capacityFirst, bytesFirst⟩ := filling
  obtain ⟨full, ranFull, filled, capacityFull, bytesFull⟩ := filling.fills
  have shape : Shape full := shape_run ((run_append _ ran).trans ranFull)
  have canCall : full.canCall .loop = true := by
    simp [EventLoop.canCall, filled.inFunctor, filled.free]
  refine ⟨full.queueInLoop .loop (), ?_, ?_⟩
  · rw [selfDeadlock, run_append _ ran, run_append _ ranFull, run_singleton]
    simp [step, canCall]
  · by_contra open_
    have room := (queueInLoop_not_blocked_iff shape canCall ()).mp open_ filled.calling
    rw [bytesFull, capacityFull, capacityFirst, bytesFirst] at room
    omega

/-- With a socket that takes 64 KiB the loop thread comes to stand in
`wakeup`, and whatever the other threads do it does not get out. -/
theorem loop_thread_blocks_itself :
    ∃ q, run step (new Unit 65536) (selfDeadlock 65536) = .ok q ∧ Blocked q ∧
      ∀ rest later, run step q rest = .ok later → Blocked later := by
  obtain ⟨q, ran, blocked⟩ := selfDeadlock_blocks 65536
  refine ⟨q, ran, blocked, ?_⟩
  intro rest later ranLater
  exact blocked_forever (shape_run ran) blocked ranLater

end Msmuduo.EventLoop
