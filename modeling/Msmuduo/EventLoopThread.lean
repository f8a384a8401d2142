import Msmuduo.EventLoopFunctors

/-!
# The thread of an event loop

`EventLoopThread` starts a thread that makes an `EventLoop`, publishes it in
`loop_` and calls its `loop`. The owner waits in `startLoop` until the loop is
published; its destructor calls `quit` on the loop and joins the thread. The
loop is published before `loop` has run, and `loop` begins by setting `quit_`
to false.

The owner is one of the other threads of the loop, the one with number 0.
-/

namespace Msmuduo

open Msmuduo.Machine

set_option autoImplicit false

namespace EventLoopThread

/-- Where the owner stands: before `startLoop`, in its `while`, after it, and
in the destructor before the test of `loop_`, before and in `quit`, in `join`
and behind it. -/
inductive Owner where
  | fresh
  | starting
  | started
  | destroying
  | quitting
  | inQuit
  | joining
  | done
  deriving DecidableEq, Repr

/-- Where `threadFunc` stands: not begun, before the loop is published, before
the call of `loop`, in it, behind it, and after `loop_` is cleared. -/
inductive Worker where
  | notStarted
  | initializing
  | published
  | looping
  | returned
  | finished
  deriving DecidableEq, Repr

end EventLoopThread

open EventLoopThread in
structure EventLoopThread (Functor : Type) where
  loop : EventLoop Functor
  published : Bool
  exiting : Bool
  owner : Owner
  worker : Worker

namespace EventLoopThread

open EventLoop (Thread Fault)

variable {Functor : Type}

def new (Functor : Type) (capacity : Nat) : EventLoopThread Functor where
  loop := EventLoop.new Functor capacity
  published := false
  exiting := false
  owner := .fresh
  worker := .notStarted

inductive Event (Functor : Type) where
  | startLoop
  | loopFound
  | destroy
  | testLoop
  | quit
  | wakeup
  | join
  | publish
  | callLoop
  | loopReturned
  | clearLoop
  | loopStep (event : EventLoop.Event Functor)
  deriving DecidableEq, Repr

/-- What the loop thread does inside `loop`, and other threads than the owner
to the loop. -/
def isLoopStep : EventLoop.Event Functor → Bool
  | .loop => false
  | .queueInLoop (.other 0) _ => false
  | .runInLoop (.other 0) _ => false
  | .wakeup (.other 0) => false
  | .quit (.other 0) => false
  | _ => true

/-- An event that cannot happen where its thread stands changes nothing. -/
def step (t : EventLoopThread Functor) :
    Event Functor → Except Fault (EventLoopThread Functor)
  | .startLoop =>
      match t.owner with
      | .fresh => .ok { t with owner := .starting, worker := .initializing }
      | _ => .ok t
  | .loopFound =>
      match t.owner with
      | .starting => .ok (if t.published then { t with owner := .started } else t)
      | _ => .ok t
  | .destroy =>
      match t.owner with
      | .started => .ok { t with exiting := true, owner := .destroying }
      | _ => .ok t
  | .testLoop =>
      match t.owner with
      | .destroying => .ok { t with owner := if t.published then .quitting else .done }
      | _ => .ok t
  | .quit =>
      match t.owner with
      | .quitting => .ok { t with loop := t.loop.quitCalled (.other 0), owner := .inQuit }
      | _ => .ok t
  | .wakeup =>
      match t.owner with
      | .inQuit =>
          let loop := t.loop.wakeup (.other 0)
          .ok { t with loop := loop, owner := if loop.isWaking (.other 0) then .inQuit else .joining }
      | _ => .ok t
  | .join =>
      match t.owner with
      | .joining => .ok (if t.worker = .finished then { t with owner := .done } else t)
      | _ => .ok t
  | .publish =>
      match t.worker with
      | .initializing => .ok { t with published := true, worker := .published }
      | _ => .ok t
  | .callLoop =>
      match t.worker with
      | .published => do
          let loop ← t.loop.enterLoop
          return { t with loop := loop, worker := .looping }
      | _ => .ok t
  | .loopReturned =>
      match t.worker with
      | .looping =>
          match t.loop.control with
          | .outside => .ok { t with worker := .returned }
          | _ => .ok t
      | _ => .ok t
  | .clearLoop =>
      match t.worker with
      | .returned => .ok { t with published := false, worker := .finished }
      | _ => .ok t
  | .loopStep event =>
      if isLoopStep event ∧ t.worker ≠ .notStarted then do
        let loop ← t.loop.step event
        return { t with loop := loop }
      else .ok t

/-- The destructor waits for the thread while the loop thread is going to poll
with `quit_` false: it is in `loop` with `quit_` false, or about to enter `loop`
and set it to false. -/
def QuitLost (t : EventLoopThread Functor) : Prop :=
  t.owner = .joining ∧ (t.worker = .published ∨
    t.worker = .looping ∧ t.loop.control ≠ .outside ∧ t.loop.quit = false)

/-- `quit` is called when `loop` has set `quit_` to false. -/
def QuitsAfterReset (t : EventLoopThread Functor) : Event Functor → Prop
  | .quit => t.owner = .quitting → t.worker ≠ .published
  | _ => True

/-! ### A request that is heard -/

def Worker.begun : Worker → Bool
  | .notStarted => false
  | .initializing => false
  | _ => true

/-- `loop` has set `quit_` to false. -/
def Worker.entered : Worker → Bool
  | .looping => true
  | .returned => true
  | .finished => true
  | _ => false

/-- Either `loop` has left its `while`, or `quit_` will end it. -/
def Ending (loop : EventLoop Functor) : Prop :=
  loop.control = .outside ∨ loop.quit = true

structure Heard (t : EventLoopThread Functor) : Prop where
  fresh : t.owner = .fresh → t.worker = .notStarted ∧ t.published = false
  published : t.published = true → t.worker.begun = true
  tested : t.owner = .quitting → t.worker.begun = true
  heard : t.owner = .inQuit ∨ t.owner = .joining →
    t.worker.entered = true ∧ (t.worker = .looping → Ending t.loop)

theorem heard_new (capacity : Nat) : Heard (new Functor capacity) where
  fresh := fun _ => ⟨rfl, rfl⟩
  published := fun published => by cases published
  tested := fun tested => by cases tested
  heard := fun called => by rcases called with called | called <;> cases called

/-- Only `loop` itself sets `quit_` to false. -/
theorem Ending.moves {q next : EventLoop Functor} {event : EventLoop.Event Functor}
    (ending : Ending q) (moves : EventLoop.Moves q event next) (inside : event ≠ .loop) :
    Ending next := by
  have quits : q.control ≠ .outside → q.quit = true := by
    intro within
    rcases ending with outside | quit
    · exact absurd outside within
    · exact quit
  cases moves with
  | stays => exact ending
  | queued thread cb =>
      unfold Ending
      rw [(EventLoop.queueInLoop_same q thread cb).control, EventLoop.queueInLoop_quit]
      exact ending
  | woken thread =>
      unfold Ending
      rw [(EventLoop.wakeup_same q thread).control, EventLoop.wakeup_quit]
      exact ending
  | quitted thread => exact Or.inr (EventLoop.quitCalled_quit q thread)
  | looped => exact absurd rfl inside
  | tested here =>
      unfold EventLoop.test
      split_ifs with quit
      · exact Or.inl rfl
      · exact absurd (quits (by simp [here])) quit
  | polled here => exact Or.inr (quits (by simp [here]))
  | read here => exact Or.inr (quits (by simp [here]))
  | handled here => exact Or.inr (quits (by simp [here]))
  | swapped here => exact Or.inr (quits (by simp [here]))
  | ran here => exact Or.inr (quits (by simp [here]))
  | finished here => exact Or.inr (quits (by simp [here]))

/-- The owner goes on without calling `quit`. -/
theorem Heard.ownerMoves {t next : EventLoopThread Functor} (heard : Heard t)
    (worker : next.worker = t.worker) (published : next.published = t.published)
    (loop : next.worker = .looping → next.loop = t.loop)
    (fresh : next.owner ≠ .fresh) (tested : next.owner = .quitting → t.published = true)
    (called : next.owner = .inQuit ∨ next.owner = .joining →
      t.owner = .inQuit ∨ t.owner = .joining) : Heard next where
  fresh := fun same => absurd same fresh
  published := by
    rw [worker, published]
    exact heard.published
  tested := by
    intro same
    rw [worker]
    exact heard.published (tested same)
  heard := by
    intro same
    have before := heard.heard (called same)
    rw [worker]
    refine ⟨before.1, ?_⟩
    intro looping
    rw [loop (worker.trans looping)]
    exact before.2 looping

/-- The thread goes on, and what it needs not to have missed was heard. -/
theorem Heard.workerMoves {t next : EventLoopThread Functor} (heard : Heard t)
    (owner : next.owner = t.owner) (started : t.worker ≠ .notStarted)
    (begun : next.worker.begun = true)
    (entered : t.worker.entered = true →
      next.worker.entered = true ∧ (next.worker = .looping →
        t.worker = .looping ∧ (Ending t.loop → Ending next.loop))) : Heard next where
  fresh := by
    intro same
    rw [owner] at same
    exact absurd (heard.fresh same).1 started
  published := fun _ => begun
  tested := fun _ => begun
  heard := by
    intro called
    rw [owner] at called
    have before := heard.heard called
    obtain ⟨after, stays⟩ := entered before.1
    refine ⟨after, ?_⟩
    intro looping
    obtain ⟨same, ending⟩ := stays looping
    exact ending (before.2 same)

theorem Heard.starts {t : EventLoopThread Functor} (heard : Heard t) (fresh : t.owner = .fresh) :
    Heard { t with owner := .starting, worker := .initializing } where
  fresh := fun same => by cases same
  published := by
    intro published
    rw [(heard.fresh fresh).2] at published
    cases published
  tested := fun same => by cases same
  heard := by
    intro called
    rcases called with same | same <;> cases same

/-- What was tested has begun, and `loop` has set `quit_` to false since. -/
theorem Heard.quits {t : EventLoopThread Functor} (heard : Heard t)
    (quitting : t.owner = .quitting) (late : t.worker ≠ .published) :
    Heard { t with loop := t.loop.quitCalled (.other 0), owner := .inQuit } := by
  have begun := heard.tested quitting
  have entered : t.worker.entered = true := by
    cases here : t.worker with
    | published => exact absurd here late
    | notStarted =>
        rw [here] at begun
        cases begun
    | initializing =>
        rw [here] at begun
        cases begun
    | looping => rfl
    | returned => rfl
    | finished => rfl
  constructor
  · intro same
    cases same
  · exact heard.published
  · intro same
    cases same
  · intro _
    exact ⟨entered, fun _ => Or.inr (EventLoop.quitCalled_quit t.loop _)⟩

theorem Heard.wakes {t : EventLoopThread Functor} {owner : Owner} (heard : Heard t)
    (inQuit : t.owner = .inQuit) (calls : owner = .inQuit ∨ owner = .joining) :
    Heard { t with loop := t.loop.wakeup (.other 0), owner := owner } := by
  have before := heard.heard (Or.inl inQuit)
  constructor
  · intro same
    dsimp only at same
    rw [same] at calls
    rcases calls with called | called <;> cases called
  · exact heard.published
  · intro same
    dsimp only at same
    rw [same] at calls
    rcases calls with called | called <;> cases called
  · intro _
    refine ⟨before.1, ?_⟩
    intro looping
    unfold Ending
    rw [(EventLoop.wakeup_same t.loop _).control, EventLoop.wakeup_quit]
    exact before.2 looping

theorem Heard.loopMoves {t : EventLoopThread Functor} {loop : EventLoop Functor}
    {event : EventLoop.Event Functor} (heard : Heard t)
    (moves : EventLoop.Moves t.loop event loop) (inside : event ≠ .loop) :
    Heard { t with loop := loop } where
  fresh := heard.fresh
  published := heard.published
  tested := heard.tested
  heard := by
    intro called
    have before := heard.heard called
    exact ⟨before.1, fun looping => (before.2 looping).moves moves inside⟩

theorem step_heard (t : EventLoopThread Functor) (event : Event Functor)
    (next : EventLoopThread Functor) (heard : Heard t) (reset : QuitsAfterReset t event)
    (taken : step t event = .ok next) : Heard next := by
  cases event with
  | startLoop =>
      simp only [step] at taken
      split at taken <;> cases taken
      · next fresh => exact heard.starts fresh
      · exact heard
  | loopFound =>
      simp only [step] at taken
      split at taken <;> cases taken
      · next starting =>
        split_ifs
        · exact heard.ownerMoves rfl rfl (fun _ => rfl) (by simp) (by simp) (by simp)
        · exact heard
      · exact heard
  | destroy =>
      simp only [step] at taken
      split at taken <;> cases taken
      · exact heard.ownerMoves rfl rfl (fun _ => rfl) (by simp) (by simp) (by simp)
      · exact heard
  | testLoop =>
      simp only [step] at taken
      split at taken <;> cases taken
      · refine heard.ownerMoves rfl rfl (fun _ => rfl) ?_ ?_ ?_
        · dsimp only
          split_ifs <;> simp
        · dsimp only
          split_ifs with published
          · exact fun _ => published
          · intro same
            cases same
        · dsimp only
          split_ifs <;> simp
      · exact heard
  | quit =>
      simp only [step] at taken
      split at taken <;> cases taken
      · next quitting => exact heard.quits quitting (reset quitting)
      · exact heard
  | wakeup =>
      simp only [step] at taken
      split at taken <;> cases taken
      · next inQuit =>
        apply heard.wakes inQuit
        split_ifs
        · exact Or.inl rfl
        · exact Or.inr rfl
      · exact heard
  | join =>
      simp only [step] at taken
      split at taken <;> cases taken
      · split_ifs
        · exact heard.ownerMoves rfl rfl (fun _ => rfl) (by simp) (by simp) (by simp)
        · exact heard
      · exact heard
  | publish =>
      simp only [step] at taken
      split at taken <;> cases taken
      · next initializing =>
        exact heard.workerMoves rfl (by simp [initializing]) rfl
          (by simp [initializing, Worker.entered])
      · exact heard
  | callLoop =>
      simp only [step] at taken
      split at taken
      · next published =>
        obtain ⟨loop, -, entered⟩ := bind_ok_inv taken
        cases entered
        exact heard.workerMoves rfl (by simp [published]) rfl
          (by simp [published, Worker.entered])
      · cases taken
        exact heard
  | loopReturned =>
      simp only [step] at taken
      split at taken
      · next looping =>
        split at taken <;> cases taken
        · exact heard.workerMoves rfl (by simp [looping]) rfl
            (fun _ => ⟨rfl, fun same => by cases same⟩)
        · exact heard
      · cases taken
        exact heard
  | clearLoop =>
      simp only [step] at taken
      split at taken <;> cases taken
      · next returned =>
        exact heard.workerMoves rfl (by simp [returned]) rfl
          (fun _ => ⟨rfl, fun same => by cases same⟩)
      · exact heard
  | loopStep event =>
      simp only [step] at taken
      split_ifs at taken with possible
      · obtain ⟨loop, stepped, rest⟩ := bind_ok_inv taken
        cases rest
        have inside : event ≠ .loop := by
          intro same
          rw [same] at possible
          cases possible.1
        exact heard.loopMoves (EventLoop.step_moves stepped) inside
      · cases taken
        exact heard

theorem Heard.not_lost {t : EventLoopThread Functor} (heard : Heard t) : ¬QuitLost t := by
  intro lost
  obtain ⟨joining, waits⟩ := lost
  obtain ⟨entered, ending⟩ := heard.heard (Or.inr joining)
  rcases waits with published | ⟨looping, inside, ignored⟩
  · rw [published] at entered
    cases entered
  · rcases ending looping with outside | quit
    · exact inside outside
    · rw [quit] at ignored
      cases ignored

/-- When the destructor calls `quit` only after `loop` has set `quit_` to
false, it never waits for a thread that is going to poll with `quit_` false. -/
theorem quit_not_lost {capacity : Nat} {events : List (Event Functor)}
    (admitted : AllSteps step QuitsAfterReset (new Functor capacity) events) :
    Throughout step (fun t => ¬QuitLost t) (new Functor capacity) events :=
  throughout_keeps Heard QuitsAfterReset step_heard (fun _ heard => heard.not_lost)
    (heard_new capacity) admitted

instance (t : EventLoopThread Functor) (event : Event Functor) :
    Decidable (QuitsAfterReset t event) :=
  match event with
  | .quit => inferInstanceAs (Decidable (t.owner = .quitting → t.worker ≠ .published))
  | .startLoop => isTrue trivial
  | .loopFound => isTrue trivial
  | .destroy => isTrue trivial
  | .testLoop => isTrue trivial
  | .wakeup => isTrue trivial
  | .join => isTrue trivial
  | .publish => isTrue trivial
  | .callLoop => isTrue trivial
  | .loopReturned => isTrue trivial
  | .clearLoop => isTrue trivial
  | .loopStep _ => isTrue trivial

/-- The loop thread has reached `poll` when the destructor calls `quit`. -/
def quitDuringPoll : List (Event Nat) :=
  [.startLoop, .publish, .loopFound, .callLoop, .loopStep .test, .destroy, .testLoop, .quit,
    .wakeup, .loopStep .poll, .loopStep .handleRead, .loopStep .finishHandling, .loopStep .swap,
    .loopStep .finishFunctors, .loopStep .test, .loopReturned, .clearLoop, .join]

theorem quit_not_lost_during_poll :
    AllSteps step QuitsAfterReset (new Nat 64) quitDuringPoll ∧
      Throughout step (fun t => ¬QuitLost t) (new Nat 64) quitDuringPoll :=
  ⟨by decide, quit_not_lost (by decide)⟩

/-- The owner destroys the thread as soon as `startLoop` returns; `loop` then
sets `quit_` to false, reads away the bytes of the request, and polls. -/
theorem quit_lost_before_loop :
    ∃ t, run step (new Nat 64)
        [.startLoop, .publish, .loopFound, .destroy, .testLoop, .quit, .wakeup, .callLoop,
          .loopStep .test, .loopStep .poll, .loopStep .handleRead, .loopStep .finishHandling,
          .loopStep .swap, .loopStep .finishFunctors, .loopStep .test] = .ok t ∧
      QuitLost t ∧ t.loop.control = .atPoll ∧ t.loop.wakeupBytes = 0 := by
  refine ⟨_, rfl, ⟨?_, Or.inr ⟨?_, ?_, ?_⟩⟩, ?_, ?_⟩
  · decide
  · decide
  · decide
  · decide
  · decide
  · decide

end EventLoopThread

end Msmuduo
