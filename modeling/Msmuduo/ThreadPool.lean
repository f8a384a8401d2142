import Msmuduo.ConditionVariable
import Msmuduo.Machine

/-!
# The thread pool

A transcription of `ThreadPool.cpp` after `start`. Workers are in `runInThread`,
producers call `run`, and one thread calls `stop`. A critical section of `mutex_` is
one step; `wait` gives the mutex up, so it ends one step, and the thread goes on
with another one once it is notified or wakes for no reason.

A task that calls `run` itself counts as a producer while it does. The records
`enqueued`, `dequeued` and `executed` are not in the source, and the ticket of a
task tells the calls of `run` apart.
-/

namespace Msmuduo

open Msmuduo.Machine

set_option autoImplicit false

namespace ThreadPool

/-- `callable` is false for an empty `boost::function`. -/
structure Task where
  ticket : Nat
  callable : Bool
  deriving DecidableEq, Repr

/-- Where a thread is in `runInThread`. -/
inductive Worker where
  /-- Before the test of `running_`. -/
  | test
  /-- The test has passed and `mutex_` is not yet taken. -/
  | lock
  /-- In `notEmpty_.wait()`. -/
  | waiting
  /-- Behind `notEmpty_.wait()`, where `mutex_` has to be taken again. -/
  | notified
  /-- `take` has returned; what it returns is empty when the queue was. -/
  | taken (task : Option Task)
  | executing (task : Task)
  | exited
  deriving DecidableEq, Repr

/-- Where a thread is in `run`. -/
inductive Producer where
  | idle
  /-- `mutex_` is not yet taken. -/
  | lock (task : Task)
  /-- In `notFull_.wait()`. -/
  | waiting (task : Task)
  /-- Behind `notFull_.wait()`, where `mutex_` has to be taken again. -/
  | notified (task : Task)
  deriving DecidableEq, Repr

inductive Stopper where
  | before
  /-- In the calls of `join`. -/
  | joining
  | returned
  deriving DecidableEq, Repr

inductive Fault where
  /-- `assert(!isFull())` -/
  | isFull
  /-- A task has thrown: `abort()`. -/
  | abort
  deriving DecidableEq, Repr

/-- `choice` says whom a `notify` wakes. `wakeWorker` and `wakeProducer` are the
wakeups for no reason. -/
inductive Event where
  | run (i : Nat) (callable : Bool)
  | producer (i choice : Nat)
  | wakeProducer (i : Nat)
  | worker (i choice : Nat)
  | wakeWorker (i : Nat)
  | throws (i : Nat)
  | stop
  | stopReturns
  deriving DecidableEq, Repr

def notEmpty : ConditionVariable Worker where
  waits worker := worker == .waiting
  looks worker := worker != .waiting && worker != .exited
  woken _ := .notified
  asleep := by
    intro worker waiting
    rw [eq_of_beq waiting]
    rfl
  roused _ _ := ⟨rfl, rfl⟩

def Producer.isWaiting : Producer → Bool
  | .waiting _ => true
  | _ => false

def Producer.isNotified : Producer → Bool
  | .notified _ => true
  | _ => false

def Producer.woken : Producer → Producer
  | .waiting task => .notified task
  | producer => producer

def notFull : ConditionVariable Producer where
  waits := Producer.isWaiting
  looks := Producer.isNotified
  woken := Producer.woken
  asleep := by
    intro producer waiting
    cases producer with
    | waiting task => rfl
    | idle | lock _ | notified _ => cases waiting
  roused := by
    intro producer waiting
    cases producer with
    | waiting task => exact ⟨rfl, rfl⟩
    | idle | lock _ | notified _ => cases waiting

end ThreadPool

open ThreadPool

structure ThreadPool where
  maxQueueSize : Nat
  running : Bool
  queue : List Task
  workers : List Worker
  producers : List Producer
  stopper : Stopper
  calls : Nat
  enqueued : List Task
  dequeued : List Task
  executed : List Task
  deriving DecidableEq, Repr

namespace ThreadPool

/-- The pool after `start(numThreads)`, with the threads that will call `run`. -/
def new (maxQueueSize numThreads producers : Nat) : ThreadPool where
  maxQueueSize := maxQueueSize
  running := true
  queue := []
  workers := List.replicate numThreads .test
  producers := List.replicate producers .idle
  stopper := .before
  calls := 0
  enqueued := []
  dequeued := []
  executed := []

def isFull (p : ThreadPool) : Bool :=
  decide (0 < p.maxQueueSize) && decide (p.maxQueueSize ≤ p.queue.length)

/-! ## The producers -/

/-- The call of `run`. Without threads the caller executes the task itself. -/
def run (p : ThreadPool) (i : Nat) (callable : Bool) : ThreadPool :=
  match p.producers[i]? with
  | some .idle =>
      let task : Task := ⟨p.calls, callable⟩
      if p.workers = [] then { p with calls := p.calls + 1, executed := p.executed ++ [task] }
      else { p with calls := p.calls + 1, producers := p.producers.set i (.lock task) }
  | _ => p

/-- The critical section of `run`, from the test of its loop on. -/
def enqueue (p : ThreadPool) (i : Nat) (task : Task) (choice : Nat) :
    Except Fault ThreadPool :=
  if p.isFull then .ok { p with producers := p.producers.set i (.waiting task) }
  else do
    require (p.isFull = false) .isFull
    return { p with
      queue := p.queue ++ [task]
      workers := notEmpty.notify p.workers choice
      producers := p.producers.set i .idle
      enqueued := p.enqueued ++ [task] }

/-- The next step of a thread in `run`. -/
def produce (p : ThreadPool) (i choice : Nat) : Except Fault ThreadPool :=
  match p.producers[i]? with
  | some (.lock task) | some (.notified task) => p.enqueue i task choice
  | _ => .ok p

/-! ## The workers -/

/-- The critical section of `take`, from the test of its loop on. -/
def take (p : ThreadPool) (i choice : Nat) : ThreadPool :=
  match p.queue with
  | [] => { p with workers := p.workers.set i (if p.running then .waiting else .taken none) }
  | task :: queue =>
      { p with
        queue := queue
        workers := p.workers.set i (.taken (some task))
        producers := if 0 < p.maxQueueSize then notFull.notify p.producers choice
          else p.producers
        dequeued := p.dequeued ++ [task] }

/-- The next step of a thread in `runInThread`. -/
def runInThread (p : ThreadPool) (i choice : Nat) : ThreadPool :=
  match p.workers[i]? with
  | some .test => { p with workers := p.workers.set i (if p.running then .lock else .exited) }
  | some .lock | some .notified => p.take i choice
  | some (.taken (some task)) =>
      if task.callable then
        { p with workers := p.workers.set i (.executing task), executed := p.executed ++ [task] }
      else { p with workers := p.workers.set i .test }
  | some (.taken none) | some (.executing _) => { p with workers := p.workers.set i .test }
  | some .waiting | some .exited | none => p

/-! ## Stopping -/

/-- Every thread has left `runInThread`, so that the calls of `join` return. -/
def AllExited (p : ThreadPool) : Prop := ∀ worker ∈ p.workers, worker = .exited

instance (p : ThreadPool) : Decidable p.AllExited :=
  inferInstanceAs (Decidable (∀ worker ∈ p.workers, worker = .exited))

/-- The critical section of `stop`. -/
def stop (p : ThreadPool) : ThreadPool :=
  if p.stopper = .before then
    { p with
      running := false
      workers := notEmpty.notifyAll p.workers
      stopper := .joining }
  else p

def stopReturns (p : ThreadPool) : ThreadPool :=
  if p.stopper = .joining ∧ p.AllExited then { p with stopper := .returned } else p

/-- A step that its thread cannot take leaves everything as it is. -/
def step (p : ThreadPool) : Event → Except Fault ThreadPool
  | .run i callable => .ok (p.run i callable)
  | .producer i choice => p.produce i choice
  | .wakeProducer i => .ok { p with producers := notFull.wakeup p.producers i }
  | .worker i choice => .ok (p.runInThread i choice)
  | .wakeWorker i => .ok { p with workers := notEmpty.wakeup p.workers i }
  | .throws i =>
      match p.workers[i]? with
      | some (.executing _) => .error .abort
      | _ => .ok p
  | .stop => .ok p.stop
  | .stopReturns => .ok p.stopReturns

end ThreadPool

end Msmuduo
