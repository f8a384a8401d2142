import Mathlib.Algebra.Order.Ring.Int
import Mathlib.Data.Prod.Lex
import Msmuduo.Machine
import Msmuduo.OrderedSet

/-!
# The timer queue

`TimerQueue` holds every waiting timer twice: in `timers_`, ordered by
expiration, and in `activeTimers_`, ordered by address. `handleRead` takes the
due timers out of both, runs their callbacks and then puts the repeating ones
back. A callback may add and cancel timers, so `handleRead` is not one step:
the steps below are the pieces of it between which user code, or a
thread that makes a new timer, can run.

Timers live on a heap. Using or deleting an address at which no timer lives is
a fault, as is every failed `assert` of the source.
-/

namespace Msmuduo.Timers

open Msmuduo.Machine

set_option autoImplicit false

/-- `Timestamp`: microseconds since the epoch. -/
abbrev Timestamp := Int

/-- A `Timer*`. -/
abbrev Address := Nat

/-- `UINTPTR_MAX` of a 32 bit process. -/
def uintptrMax : Nat := 2 ^ 32 - 1

/-- What the code reads of a `double interval`: whether it is above `0.0`,
and `static_cast<int64_t>(interval * kMicroSecondsPerSecond)`. -/
structure Interval where
  positive : Bool
  microseconds : Int
  deriving DecidableEq, Repr

def Timestamp.valid (timestamp : Timestamp) : Bool := 0 < timestamp

def Timestamp.invalid : Timestamp := 0

def addTime (timestamp : Timestamp) (seconds : Interval) : Timestamp :=
  timestamp + seconds.microseconds

structure Timer where
  expiration : Timestamp
  interval : Interval
  repeat_ : Bool
  sequence : Int
  deriving DecidableEq, Repr

namespace Timer

def new (when_ : Timestamp) (interval : Interval) (sequence : Int) : Timer where
  expiration := when_
  interval := interval
  repeat_ := interval.positive
  sequence := sequence

def restart (timer : Timer) (now : Timestamp) : Timer :=
  if timer.repeat_ then { timer with expiration := addTime now timer.interval }
  else { timer with expiration := Timestamp.invalid }

@[simp]
theorem restart_sequence (timer : Timer) (now : Timestamp) :
    (timer.restart now).sequence = timer.sequence := by
  unfold restart
  split <;> rfl

end Timer

structure TimerId where
  timer : Address
  sequence : Int
  deriving DecidableEq, Repr

/-- `std::pair<Timestamp, Timer*>` -/
abbrev Entry := Timestamp ×ₗ Address

/-- `std::pair<Timer*, int64_t>` -/
abbrev ActiveTimer := Address ×ₗ Int

/-- An element of the vector `expired`. The sequence number is the one
`getExpired` reads through the pointer; no later code looks at it here, it
records which timer the pointer was taken for. -/
structure Expired where
  when_ : Timestamp
  timer : Address
  sequence : Int
  deriving DecidableEq, Repr

def Expired.entry (it : Expired) : Entry := toLex (it.when_, it.timer)

/-- Where the loop thread stands in `handleRead`. -/
inductive Phase where
  | idle
  | calling (now : Timestamp) (ran waiting : List Expired)
  | resetting (now : Timestamp) (left : List Expired)
  deriving DecidableEq, Repr

namespace Phase

/-- The members of `expired` that have not been put back or deleted. -/
def batch : Phase → List Expired
  | idle => []
  | calling _ ran waiting => ran ++ waiting
  | resetting _ left => left

/-- User code runs between two turns of `handleRead` and in a callback. -/
def inUserCode : Phase → Bool
  | idle => true
  | calling _ ran _ => !ran.isEmpty
  | resetting _ _ => false

end Phase

/-- The members of `TimerQueue`, the timers it points to and the functors
`addTimer` has posted. The last four fields are a record of the run: the
sequence numbers of the timers created, handed to `addTimerInLoop` and
deleted, and the callbacks run with the clock reading of their `handleRead`. -/
structure TimerQueue where
  heap : Address → Option Timer
  posted : List Address
  timers : OrderedSet Entry
  activeTimers : OrderedSet ActiveTimer
  callingExpiredTimers : Bool
  cancelingTimers : OrderedSet ActiveTimer
  phase : Phase
  alarm : Option Timestamp
  wakeupBytes : Nat
  created : List Int
  handed : List Int
  deleted : List Int
  fired : List (Int × Timestamp)

inductive Fault where
  | insertSizes
  | insertTimers
  | insertActiveTimers
  | insertSizesAfter
  | cancelSizes
  | cancelErase
  | cancelSizesAfter
  | expiredSizes
  | expiredBound
  | expiredErase
  | expiredSizesAfter
  | usedDeleted
  | deletedTwice
  deriving DecidableEq, Repr

namespace TimerQueue

def new : TimerQueue where
  heap := fun _ => none
  posted := []
  timers := OrderedSet.empty
  activeTimers := OrderedSet.empty
  callingExpiredTimers := false
  cancelingTimers := OrderedSet.empty
  phase := .idle
  alarm := none
  wakeupBytes := 0
  created := []
  handed := []
  deleted := []
  fired := []

/-- `*timer` -/
def deref (q : TimerQueue) (timer : Address) : Except Fault Timer :=
  match q.heap timer with
  | some object => .ok object
  | none => .error .usedDeleted

def store (q : TimerQueue) (timer : Address) (object : Timer) : TimerQueue :=
  { q with heap := Function.update q.heap timer (some object) }

/-- `delete timer` -/
def delete (q : TimerQueue) (timer : Address) : Except Fault TimerQueue :=
  match q.heap timer with
  | some object =>
      .ok { q with
        heap := Function.update q.heap timer none
        deleted := q.deleted ++ [object.sequence] }
  | none => .error .deletedTwice

/-- `resetTimerWin`: the one-shot operating system timer is replaced by one
that is due `dueTime` milliseconds after the reading `clock` of the clock. The
two calls of the timer queue API are taken to succeed. -/
def resetTimerWin (q : TimerQueue) (expiration clock : Timestamp) : TimerQueue :=
  let microseconds := max (expiration - clock) 100
  let dueTime : Nat := microseconds.toNat % 2 ^ 32 / 1000
  { q with alarm := some (clock + 1000 * (dueTime : Int)) }

/-- `timers_.insert` and `activeTimers_.insert` in `insert`. -/
def enqueue (q : TimerQueue) (timer : Address) (object : Timer) : TimerQueue :=
  { q with
    timers := q.timers.insert (toLex (object.expiration, timer))
    activeTimers := q.activeTimers.insert (toLex (timer, object.sequence)) }

def earliestChanged (q : TimerQueue) (when_ : Timestamp) : Bool :=
  match q.timers.elements.head? with
  | none => true
  | some first => when_ < (ofLex first).1

def insert (q : TimerQueue) (timer : Address) : Except Fault (Bool × TimerQueue) := do
  require (q.timers.size = q.activeTimers.size) .insertSizes
  let object ← q.deref timer
  let changed := q.earliestChanged object.expiration
  require (toLex (object.expiration, timer) ∉ q.timers) .insertTimers
  require (toLex (timer, object.sequence) ∉ q.activeTimers) .insertActiveTimers
  let q := q.enqueue timer object
  require (q.timers.size = q.activeTimers.size) .insertSizesAfter
  return (changed, q)

/-- `addTimer` on any thread: `new Timer` at an address and with a sequence
number the caller of the step chooses, and the functor that is posted. -/
def newTimer (q : TimerQueue) (timer : Address) (when_ : Timestamp) (interval : Interval)
    (sequence : Int) : TimerQueue :=
  { q.store timer (Timer.new when_ interval sequence) with
    posted := q.posted ++ [timer]
    created := q.created ++ [sequence] }

/-- The functor leaves the queue of the loop and its timer reaches
`addTimerInLoop`. -/
def handOver (q : TimerQueue) (timer : Address) (object : Timer) : TimerQueue :=
  { q with posted := q.posted.erase timer, handed := q.handed ++ [object.sequence] }

def addTimerInLoop (q : TimerQueue) (timer : Address) (clock : Timestamp) :
    Except Fault TimerQueue := do
  let object ← q.deref timer
  let (changed, q) ← (q.handOver timer object).insert timer
  if changed then
    return q.resetTimerWin object.expiration clock
  else
    return q

def cancelInLoop (q : TimerQueue) (timerId : TimerId) : Except Fault TimerQueue := do
  require (q.timers.size = q.activeTimers.size) .cancelSizes
  let timer : ActiveTimer := toLex (timerId.timer, timerId.sequence)
  let q ← (
    if timer ∈ q.activeTimers then do
      let object ← q.deref timerId.timer
      let entry : Entry := toLex (object.expiration, timerId.timer)
      require (entry ∈ q.timers) .cancelErase
      let q := { q with timers := q.timers.erase entry }
      let q ← q.delete timerId.timer
      pure { q with activeTimers := q.activeTimers.erase timer }
    else if q.callingExpiredTimers then
      pure { q with cancelingTimers := q.cancelingTimers.insert timer }
    else pure q)
  require (q.timers.size = q.activeTimers.size) .cancelSizesAfter
  return q

/-- The last loop of `getExpired`. -/
def eraseExpired (q : TimerQueue) : List Entry → Except Fault (List Expired × TimerQueue)
  | [] => .ok ([], q)
  | entry :: rest => do
      let when_ := (ofLex entry).1
      let timer := (ofLex entry).2
      let object ← q.deref timer
      let active : ActiveTimer := toLex (timer, object.sequence)
      require (active ∈ q.activeTimers) .expiredErase
      let (expired, q) ←
        eraseExpired { q with activeTimers := q.activeTimers.erase active } rest
      return (⟨when_, timer, object.sequence⟩ :: expired, q)

/-- The entries are taken up to `lower_bound(Entry(now, UINTPTR_MAX))`. -/
def getExpired (q : TimerQueue) (now : Timestamp) :
    Except Fault (List Expired × TimerQueue) := do
  require (q.timers.size = q.activeTimers.size) .expiredSizes
  let sentry : Entry := toLex (now, uintptrMax)
  let expired := q.timers.below sentry
  let q := { q with timers := q.timers.eraseBelow sentry }
  require (∀ end_ ∈ q.timers.elements.head?, now < (ofLex end_).1) .expiredBound
  let (expired, q) ← q.eraseExpired expired
  require (q.timers.size = q.activeTimers.size) .expiredSizesAfter
  return (expired, q)

/-- `readTimerfd`, which asks for eight bytes. -/
def readTimerfd (q : TimerQueue) : TimerQueue :=
  { q with wakeupBytes := q.wakeupBytes - 8 }

/-- `handleRead` up to the first callback. -/
def handleRead (q : TimerQueue) (now : Timestamp) : Except Fault TimerQueue := do
  let (expired, q) ← q.readTimerfd.getExpired now
  return { q with
    callingExpiredTimers := true
    cancelingTimers := OrderedSet.empty
    phase := .calling now [] expired }

/-- One turn of the loop of `handleRead`: `it->second->run()`. -/
def runCallback (q : TimerQueue) (now : Timestamp) (ran : List Expired) (it : Expired)
    (waiting : List Expired) : Except Fault TimerQueue := do
  let object ← q.deref it.timer
  return { q with
    phase := .calling now (ran ++ [it]) waiting
    fired := q.fired ++ [(object.sequence, now)] }

/-- The end of that loop, after which `reset` starts. -/
def finishCallbacks (q : TimerQueue) (now : Timestamp) (ran : List Expired) : TimerQueue :=
  { q with callingExpiredTimers := false, phase := .resetting now ran }

/-- One turn of the loop of `reset`. -/
def resetNext (q : TimerQueue) (now : Timestamp) (it : Expired) (left : List Expired) :
    Except Fault TimerQueue := do
  let object ← q.deref it.timer
  let timer : ActiveTimer := toLex (it.timer, object.sequence)
  let q := { q with phase := .resetting now left }
  if object.repeat_ ∧ timer ∉ q.cancelingTimers then do
    let (_, q) ← (q.store it.timer (object.restart now)).insert it.timer
    return q
  else
    q.delete it.timer

/-- The end of `reset`, with the reading of the clock `resetTimerWin` makes. -/
def finishReset (q : TimerQueue) (clock : Timestamp) : Except Fault TimerQueue := do
  let nextExpire ← (
    match q.timers.elements.head? with
    | none => pure Timestamp.invalid
    | some first => do
        let object ← q.deref (ofLex first).2
        pure object.expiration)
  let q := { q with phase := .idle }
  if nextExpire.valid then
    return q.resetTimerWin nextExpire clock
  else
    return q

end TimerQueue

inductive Event where
  | newTimer (timer : Address) (when_ : Timestamp) (interval : Interval) (sequence : Int)
  | addTimerInLoop (timer : Address) (clock : Timestamp)
  | cancelInLoop (timerId : TimerId)
  | handleRead (now : Timestamp)
  | runCallback
  | finishCallbacks
  | resetNext
  | finishReset (clock : Timestamp)
  | timerRoutine
  deriving DecidableEq, Repr

/-- An event that cannot happen where the loop thread stands, such as a
callback when no batch is being run, changes nothing. -/
def step (q : TimerQueue) : Event → Except Fault TimerQueue
  | .newTimer timer when_ interval sequence => .ok (q.newTimer timer when_ interval sequence)
  | .addTimerInLoop timer clock =>
      if q.phase.inUserCode ∧ timer ∈ q.posted then q.addTimerInLoop timer clock else .ok q
  | .cancelInLoop timerId =>
      if q.phase.inUserCode then q.cancelInLoop timerId else .ok q
  | .handleRead now =>
      match q.phase with
      | .idle => q.handleRead now
      | _ => .ok q
  | .runCallback =>
      match q.phase with
      | .calling now ran (it :: waiting) => q.runCallback now ran it waiting
      | _ => .ok q
  | .finishCallbacks =>
      match q.phase with
      | .calling now ran [] => .ok (q.finishCallbacks now ran)
      | _ => .ok q
  | .resetNext =>
      match q.phase with
      | .resetting now (it :: left) => q.resetNext now it left
      | _ => .ok q
  | .finishReset clock =>
      match q.phase with
      | .resetting _ [] => q.finishReset clock
      | _ => .ok q
  | .timerRoutine =>
      match q.alarm with
      | some _ => .ok { q with alarm := none, wakeupBytes := q.wakeupBytes + 8 }
      | none => .ok q

/-- What `new` promises: the address is not in use and leaves room for the
object below the end of the address space. Sequence numbers are taken to be
distinct. -/
def Allocates (q : TimerQueue) : Event → Prop
  | .newTimer timer _ _ sequence =>
      q.heap timer = none ∧ timer < uintptrMax ∧ sequence ∉ q.created
  | _ => True

instance (q : TimerQueue) (event : Event) : Decidable (Allocates q event) :=
  match event with
  | .newTimer timer _ _ sequence =>
      inferInstanceAs
        (Decidable (q.heap timer = none ∧ timer < uintptrMax ∧ sequence ∉ q.created))
  | .addTimerInLoop _ _ => isTrue trivial
  | .cancelInLoop _ => isTrue trivial
  | .handleRead _ => isTrue trivial
  | .runCallback => isTrue trivial
  | .finishCallbacks => isTrue trivial
  | .resetNext => isTrue trivial
  | .finishReset _ => isTrue trivial
  | .timerRoutine => isTrue trivial

end Msmuduo.Timers
