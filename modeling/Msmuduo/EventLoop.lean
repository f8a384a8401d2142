import Mathlib.Data.List.Basic
import Msmuduo.Machine

/-!
# The event loop

`EventLoop::loop` on its own thread and the calls other threads make on it,
interleaved. The pieces of the loop between which another thread can act are
the steps below: the test of `quit_`, the return of `poll`, one event handler,
the swap of `pendingFunctors_` under the lock, one functor. `queueInLoop` is
the push under the lock, with the decision to wake the loop up; the `send` in
`wakeup` is a step of its own, since a thread can be held up in it.

A queued functor remembers where `queueInLoop` was called from. No code looks at that.
-/

namespace Msmuduo

open Msmuduo.Machine

set_option autoImplicit false

namespace EventLoop

inductive Thread where
  | loop
  | other (id : Nat)
  deriving DecidableEq, Repr

/-- Who has called `queueInLoop`: another thread, or the loop's own thread
outside `loop`, in an event handler or in a functor. -/
inductive Caller where
  | otherThread (id : Nat)
  | outsideLoop
  | eventHandler
  | functor
  deriving DecidableEq, Repr

structure Queued (Functor : Type) where
  functor : Functor
  caller : Caller
  deriving DecidableEq, Repr

/-- Where the loop thread stands: outside `loop`, before the test of `quit_`,
before `poll`, among the event handlers, before the swap, or in the loop over
the functors it has swapped out. -/
inductive Control (Functor : Type) where
  | outside
  | atTest
  | atPoll
  | handling (readable : Bool)
  | atSwap
  | running (started : Bool) (rest : List (Queued Functor))
  deriving DecidableEq, Repr

namespace Control

variable {Functor : Type}

/-- Handlers and functors are user code, and so is what surrounds `loop`. -/
def inUserCode : Control Functor → Bool
  | outside => true
  | handling _ => true
  | running started _ => started
  | _ => false

def caller : Control Functor → Caller
  | handling _ => .eventHandler
  | running _ _ => .functor
  | _ => .outsideLoop

/-- The functors that have been swapped out and not been called. -/
def rest : Control Functor → List (Queued Functor)
  | running _ rest => rest
  | _ => []

end Control

inductive Fault where
  | alreadyLooping
  deriving DecidableEq, Repr

end EventLoop

open EventLoop in
/-- The members of `EventLoop`, the two ends of the wakeup socket, and the
threads that have decided to wake the loop up and have not sent their bytes.
The last two fields are a record of the run. -/
structure EventLoop (Functor : Type) where
  looping : Bool
  quit : Bool
  eventHandling : Bool
  callingPendingFunctors : Bool
  pendingFunctors : List (Queued Functor)
  control : Control Functor
  inWakeup : Bool
  waking : List Nat
  capacity : Nat
  blocking : Fin 2 → Bool
  wakeupBytes : Nat
  pushed : List (Queued Functor)
  executed : List (Queued Functor)

namespace EventLoop

variable {Functor : Type}

def makeSocketNonblocking (blocking : Fin 2 → Bool) (index : Fin 2) : Fin 2 → Bool :=
  fun other => if other = index then false else blocking other

/-- The constructor. `socketpair` leaves both ends blocking; the two members
that are to make them non-blocking are both given `wakeupFd_[0]`. -/
def new (Functor : Type) (capacity : Nat) : EventLoop Functor where
  looping := false
  quit := false
  eventHandling := false
  callingPendingFunctors := false
  pendingFunctors := []
  control := .outside
  inWakeup := false
  waking := []
  capacity := capacity
  blocking := makeSocketNonblocking (makeSocketNonblocking (fun _ => true) 0) 0
  wakeupBytes := 0
  pushed := []
  executed := []

/-- A thread is free to call the loop when it is not inside such a call. -/
def canCall (q : EventLoop Functor) : Thread → Bool
  | .loop => q.control.inUserCode && !q.inWakeup
  | .other id => !q.waking.contains id

def callerOf (q : EventLoop Functor) : Thread → Caller
  | .loop => q.control.caller
  | .other id => .otherThread id

def pushBack (q : EventLoop Functor) (task : Queued Functor) : EventLoop Functor :=
  { q with
    pendingFunctors := q.pendingFunctors ++ [task]
    pushed := q.pushed ++ [task] }

def enterWakeup (q : EventLoop Functor) : Thread → EventLoop Functor
  | .loop => { q with inWakeup := true }
  | .other id => { q with waking := q.waking ++ [id] }

def leaveWakeup (q : EventLoop Functor) : Thread → EventLoop Functor
  | .loop => { q with inWakeup := false }
  | .other id => { q with waking := q.waking.erase id }

def queueInLoop (q : EventLoop Functor) (thread : Thread) (cb : Functor) : EventLoop Functor :=
  let q := q.pushBack ⟨cb, q.callerOf thread⟩
  if thread ≠ .loop ∨ q.callingPendingFunctors then q.enterWakeup thread else q

/-- In the loop thread the functor is called at once. What it does are the
steps that follow. -/
def runInLoop (q : EventLoop Functor) (thread : Thread) (cb : Functor) : EventLoop Functor :=
  if thread = .loop then q else q.queueInLoop thread cb

/-- `send` in `wakeup`. Without room a blocking socket holds the caller and a
non-blocking one fails. -/
def wakeup (q : EventLoop Functor) (thread : Thread) : EventLoop Functor :=
  if q.wakeupBytes + 8 ≤ q.capacity then
    { q.leaveWakeup thread with wakeupBytes := q.wakeupBytes + 8 }
  else if q.blocking 1 then q
  else q.leaveWakeup thread

/-- The loop thread is held in `wakeup` by a socket that is full. -/
def Blocked (q : EventLoop Functor) : Prop :=
  q.inWakeup = true ∧ q.blocking 1 = true ∧ q.capacity < q.wakeupBytes + 8

instance (q : EventLoop Functor) : Decidable (Blocked q) :=
  inferInstanceAs (Decidable (_ ∧ _ ∧ _))

def isWaking (q : EventLoop Functor) : Thread → Bool
  | .loop => q.inWakeup
  | .other id => q.waking.contains id

def quitCalled (q : EventLoop Functor) (thread : Thread) : EventLoop Functor :=
  let q := { q with quit := true }
  if thread ≠ .loop then q.enterWakeup thread else q

/-- `loop` up to its `while`. -/
def enterLoop (q : EventLoop Functor) : Except Fault (EventLoop Functor) := do
  require (q.looping = false) .alreadyLooping
  return { q with looping := true, quit := false, control := .atTest }

def test (q : EventLoop Functor) : EventLoop Functor :=
  if q.quit then { q with looping := false, control := .outside }
  else { q with control := .atPoll }

/-- `poll` returns, with the wakeup channel among the active ones if there is
something to read. -/
def poll (q : EventLoop Functor) : EventLoop Functor :=
  { q with eventHandling := true, control := .handling (0 < q.wakeupBytes) }

/-- `EventLoop::handleRead` -/
def handleRead (q : EventLoop Functor) : EventLoop Functor :=
  { q with wakeupBytes := q.wakeupBytes - 8, control := .handling false }

/-- The handlers are done and `doPendingFunctors` starts. -/
def finishHandling (q : EventLoop Functor) : EventLoop Functor :=
  { q with eventHandling := false, callingPendingFunctors := true, control := .atSwap }

def swapFunctors (q : EventLoop Functor) : EventLoop Functor :=
  { q with pendingFunctors := [], control := .running false q.pendingFunctors }

def callFunctor (q : EventLoop Functor) (task : Queued Functor) (rest : List (Queued Functor)) :
    EventLoop Functor :=
  { q with executed := q.executed ++ [task], control := .running true rest }

def finishFunctors (q : EventLoop Functor) : EventLoop Functor :=
  { q with callingPendingFunctors := false, control := .atTest }

section

variable (q : EventLoop Functor) (thread : Thread) (cb : Functor)

@[simp]
theorem enterWakeup_pendingFunctors :
    (q.enterWakeup thread).pendingFunctors = q.pendingFunctors := by
  cases thread <;> rfl

@[simp]
theorem enterWakeup_pushed : (q.enterWakeup thread).pushed = q.pushed := by
  cases thread <;> rfl

@[simp]
theorem queueInLoop_pendingFunctors : (q.queueInLoop thread cb).pendingFunctors =
    q.pendingFunctors ++ [⟨cb, q.callerOf thread⟩] := by
  unfold queueInLoop
  dsimp only
  split_ifs
  · rw [enterWakeup_pendingFunctors]
    rfl
  · rfl

@[simp]
theorem queueInLoop_pushed : (q.queueInLoop thread cb).pushed =
    q.pushed ++ [⟨cb, q.callerOf thread⟩] := by
  unfold queueInLoop
  dsimp only
  split_ifs
  · rw [enterWakeup_pushed]
    rfl
  · rfl

/-- The fields no call from outside changes. -/
structure SameLoop (q next : EventLoop Functor) : Prop where
  looping : next.looping = q.looping
  calling : next.callingPendingFunctors = q.callingPendingFunctors
  control : next.control = q.control
  capacity : next.capacity = q.capacity
  blocking : next.blocking = q.blocking
  executed : next.executed = q.executed

theorem enterWakeup_same : SameLoop q (q.enterWakeup thread) := by
  cases thread <;> exact ⟨rfl, rfl, rfl, rfl, rfl, rfl⟩

theorem queueInLoop_same : SameLoop q (q.queueInLoop thread cb) := by
  unfold queueInLoop
  dsimp only
  split_ifs
  · have entered := enterWakeup_same (q.pushBack ⟨cb, q.callerOf thread⟩) thread
    exact ⟨entered.1, entered.2, entered.3, entered.4, entered.5, entered.6⟩
  · exact ⟨rfl, rfl, rfl, rfl, rfl, rfl⟩

theorem wakeup_same : SameLoop q (q.wakeup thread) := by
  unfold wakeup
  split_ifs
  · cases thread <;> exact ⟨rfl, rfl, rfl, rfl, rfl, rfl⟩
  · exact ⟨rfl, rfl, rfl, rfl, rfl, rfl⟩
  · cases thread <;> exact ⟨rfl, rfl, rfl, rfl, rfl, rfl⟩

theorem quitCalled_same : SameLoop q (q.quitCalled thread) := by
  unfold quitCalled
  dsimp only
  split_ifs
  · have entered := enterWakeup_same { q with quit := true } thread
    exact ⟨entered.1, entered.2, entered.3, entered.4, entered.5, entered.6⟩
  · exact ⟨rfl, rfl, rfl, rfl, rfl, rfl⟩

@[simp]
theorem queueInLoop_quit : (q.queueInLoop thread cb).quit = q.quit := by
  unfold queueInLoop
  dsimp only
  split_ifs
  · cases thread <;> rfl
  · rfl

@[simp]
theorem wakeup_quit : (q.wakeup thread).quit = q.quit := by
  unfold wakeup
  split_ifs
  · cases thread <;> rfl
  · rfl
  · cases thread <;> rfl

@[simp]
theorem quitCalled_quit : (q.quitCalled thread).quit = true := by
  cases thread <;> rfl

@[simp]
theorem wakeup_pendingFunctors : (q.wakeup thread).pendingFunctors = q.pendingFunctors := by
  unfold wakeup
  split_ifs
  · cases thread <;> rfl
  · rfl
  · cases thread <;> rfl

@[simp]
theorem wakeup_pushed : (q.wakeup thread).pushed = q.pushed := by
  unfold wakeup
  split_ifs
  · cases thread <;> rfl
  · rfl
  · cases thread <;> rfl

@[simp]
theorem quitCalled_pendingFunctors :
    (q.quitCalled thread).pendingFunctors = q.pendingFunctors := by
  unfold quitCalled
  dsimp only
  split_ifs
  · exact enterWakeup_pendingFunctors _ thread
  · rfl

@[simp]
theorem quitCalled_pushed : (q.quitCalled thread).pushed = q.pushed := by
  unfold quitCalled
  dsimp only
  split_ifs
  · exact enterWakeup_pushed _ thread
  · rfl

end

inductive Event (Functor : Type) where
  | queueInLoop (thread : Thread) (cb : Functor)
  | runInLoop (thread : Thread) (cb : Functor)
  | wakeup (thread : Thread)
  | quit (thread : Thread)
  | loop
  | test
  | poll
  | handleRead
  | finishHandling
  | swap
  | callFunctor
  | finishFunctors
  deriving DecidableEq, Repr

/-- The loop thread does not go on with `loop` while it is in `wakeup`, and an
event that cannot happen where a thread stands changes nothing. -/
def step (q : EventLoop Functor) : Event Functor → Except Fault (EventLoop Functor)
  | .queueInLoop thread cb => .ok (if q.canCall thread then q.queueInLoop thread cb else q)
  | .runInLoop thread cb => .ok (if q.canCall thread then q.runInLoop thread cb else q)
  | .wakeup thread => .ok (if q.isWaking thread then q.wakeup thread else q)
  | .quit thread => .ok (if q.canCall thread then q.quitCalled thread else q)
  | .loop => if q.canCall .loop then q.enterLoop else .ok q
  | .test =>
      match q.control with
      | .atTest => .ok q.test
      | _ => .ok q
  | .poll =>
      match q.control with
      | .atPoll => .ok q.poll
      | _ => .ok q
  | .handleRead =>
      match q.control with
      | .handling true => .ok (if q.inWakeup then q else q.handleRead)
      | _ => .ok q
  | .finishHandling =>
      match q.control with
      | .handling false => .ok (if q.inWakeup then q else q.finishHandling)
      | _ => .ok q
  | .swap =>
      match q.control with
      | .atSwap => .ok q.swapFunctors
      | _ => .ok q
  | .callFunctor =>
      match q.control with
      | .running _ (task :: rest) => .ok (if q.inWakeup then q else q.callFunctor task rest)
      | _ => .ok q
  | .finishFunctors =>
      match q.control with
      | .running _ [] => .ok (if q.inWakeup then q else q.finishFunctors)
      | _ => .ok q

/-! ### What one event does -/

/-- The moves of the loop, with what is known when each is made. -/
inductive Moves (q : EventLoop Functor) : Event Functor → EventLoop Functor → Prop where
  | stays (event : Event Functor) : Moves q event q
  | queued {event : Event Functor} (thread : Thread) (cb : Functor)
      (free : q.canCall thread = true)
      (called : event = .queueInLoop thread cb ∨
        (event = .runInLoop thread cb ∧ thread ≠ .loop)) :
      Moves q event (q.queueInLoop thread cb)
  | woken (thread : Thread) (inside : q.isWaking thread = true) :
      Moves q (.wakeup thread) (q.wakeup thread)
  | quitted (thread : Thread) (free : q.canCall thread = true) :
      Moves q (.quit thread) (q.quitCalled thread)
  | looped (free : q.canCall .loop = true) (idle : q.looping = false) :
      Moves q .loop { q with looping := true, quit := false, control := .atTest }
  | tested (here : q.control = .atTest) : Moves q .test q.test
  | polled (here : q.control = .atPoll) : Moves q .poll q.poll
  | read (here : q.control = .handling true) (free : q.inWakeup = false) :
      Moves q .handleRead q.handleRead
  | handled (here : q.control = .handling false) (free : q.inWakeup = false) :
      Moves q .finishHandling q.finishHandling
  | swapped (here : q.control = .atSwap) : Moves q .swap q.swapFunctors
  | ran {started : Bool} {task : Queued Functor} {rest : List (Queued Functor)}
      (here : q.control = .running started (task :: rest)) (free : q.inWakeup = false) :
      Moves q .callFunctor (q.callFunctor task rest)
  | finished {started : Bool} (here : q.control = .running started [])
      (free : q.inWakeup = false) : Moves q .finishFunctors q.finishFunctors

/-- Every event that does not end the run is a move. -/
theorem step_moves {q next : EventLoop Functor} {event : Event Functor}
    (taken : step q event = .ok next) : Moves q event next := by
  cases event with
  | queueInLoop thread cb =>
      cases taken
      split_ifs with free
      · exact .queued thread cb free (Or.inl rfl)
      · exact .stays _
  | runInLoop thread cb =>
      cases taken
      split_ifs with free
      · unfold runInLoop
        split_ifs with own
        · exact .stays _
        · exact .queued thread cb free (Or.inr ⟨rfl, own⟩)
      · exact .stays _
  | wakeup thread =>
      cases taken
      split_ifs with inside
      · exact .woken thread inside
      · exact .stays _
  | quit thread =>
      cases taken
      split_ifs with free
      · exact .quitted thread free
      · exact .stays _
  | loop =>
      simp only [step] at taken
      split_ifs at taken with free
      · obtain ⟨_, idle, entered⟩ := bind_ok_inv taken
        cases entered
        exact .looped free (require_inv idle)
      · cases taken
        exact .stays _
  | test =>
      simp only [step] at taken
      split at taken <;> cases taken
      · exact .tested ‹_›
      · exact .stays _
  | poll =>
      simp only [step] at taken
      split at taken <;> cases taken
      · exact .polled ‹_›
      · exact .stays _
  | handleRead =>
      simp only [step] at taken
      split at taken <;> cases taken
      · split_ifs with inside
        · exact .stays _
        · exact .read ‹_› (by simpa using inside)
      · exact .stays _
  | finishHandling =>
      simp only [step] at taken
      split at taken <;> cases taken
      · split_ifs with inside
        · exact .stays _
        · exact .handled ‹_› (by simpa using inside)
      · exact .stays _
  | swap =>
      simp only [step] at taken
      split at taken <;> cases taken
      · exact .swapped ‹_›
      · exact .stays _
  | callFunctor =>
      simp only [step] at taken
      split at taken <;> cases taken
      · split_ifs with inside
        · exact .stays _
        · exact .ran ‹_› (by simpa using inside)
      · exact .stays _
  | finishFunctors =>
      simp only [step] at taken
      split at taken <;> cases taken
      · split_ifs with inside
        · exact .stays _
        · exact .finished ‹_› (by simpa using inside)
      · exact .stays _

end EventLoop

end Msmuduo
