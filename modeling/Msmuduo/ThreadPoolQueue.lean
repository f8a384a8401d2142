import Msmuduo.ThreadPool

/-!
# A bounded exactly-once queue

`Custody` follows each task from its call of `run` to its execution. `Flow` bounds
the queue and says that neither condition variable loses a wakeup: `notEmpty_` counts
the tasks in the queue, and `notFull_` the room that is left in it.
-/

namespace Msmuduo.ThreadPool

open Msmuduo.Machine ConditionVariable

set_option autoImplicit false

variable {p next : ThreadPool}

/-! ## Bound and wakeups -/

structure Flow (p : ThreadPool) : Prop where
  bounded : 0 < p.maxQueueSize → p.queue.length ≤ p.maxQueueSize
  tasks : p.running = true → Covered notEmpty p.queue.length p.workers
  room : 0 < p.maxQueueSize →
    Covered notFull (p.maxQueueSize - p.queue.length) p.producers

theorem isFull_iff (p : ThreadPool) :
    p.isFull = true ↔ 0 < p.maxQueueSize ∧ p.maxQueueSize ≤ p.queue.length := by
  unfold isFull
  rw [Bool.and_eq_true, decide_eq_true_eq, decide_eq_true_eq]

/-- The assertion of `run` holds behind its loop. -/
theorem enqueue_room (room : p.isFull = false) (i : Nat) (task : Task) (choice : Nat) :
    p.enqueue i task choice = .ok { p with
      queue := p.queue ++ [task]
      workers := notEmpty.notify p.workers choice
      producers := p.producers.set i .idle
      enqueued := p.enqueued ++ [task] } := by
  unfold enqueue
  rw [if_neg (Bool.eq_false_iff.mp room), require_ok room]
  rfl

theorem enqueue_full (full : p.isFull = true) (i : Nat) (task : Task) (choice : Nat) :
    p.enqueue i task choice = .ok { p with producers := p.producers.set i (.waiting task) } :=
  if_pos full

theorem enqueue_cases {i : Nat} {task : Task} {choice : Nat}
    (ran : p.enqueue i task choice = .ok next) :
    (p.isFull = true ∧ next = { p with producers := p.producers.set i (.waiting task) }) ∨
      p.isFull = false ∧ next = { p with
        queue := p.queue ++ [task]
        workers := notEmpty.notify p.workers choice
        producers := p.producers.set i .idle
        enqueued := p.enqueued ++ [task] } := by
  cases full : p.isFull with
  | true =>
      rw [enqueue_full full] at ran
      exact Or.inl ⟨rfl, (Except.ok.inj ran).symm⟩
  | false =>
      rw [enqueue_room full] at ran
      exact Or.inr ⟨rfl, (Except.ok.inj ran).symm⟩

/-- A thread that is not in front of the mutex does nothing. -/
theorem produce_cases {i choice : Nat} (ran : p.produce i choice = .ok next) :
    next = p ∨ ∃ task producer, p.producers[i]? = some producer ∧
      (producer = .lock task ∨ producer = .notified task) ∧
      p.enqueue i task choice = .ok next := by
  unfold produce at ran
  split at ran
  · next task here => exact Or.inr ⟨task, _, here, Or.inl rfl, ran⟩
  · next task here => exact Or.inr ⟨task, _, here, Or.inr rfl, ran⟩
  · cases ran
    exact Or.inl rfl

/-- A task that throws ends the process, so that no step is left of the event. -/
theorem throws_inv {i : Nat} (taken : p.step (.throws i) = .ok next) : next = p := by
  simp only [step] at taken
  split at taken
  · cases taken
  · cases taken
    rfl

theorem take_nil (empty : p.queue = []) (i choice : Nat) :
    p.take i choice =
      { p with workers := p.workers.set i (if p.running then .waiting else .taken none) } := by
  unfold take
  split
  · rfl
  · next queue => cases empty.symm.trans queue

theorem take_cons {task : Task} {rest : List Task} (queue : p.queue = task :: rest)
    (i choice : Nat) :
    p.take i choice = { p with
      queue := rest
      workers := p.workers.set i (.taken (some task))
      producers := if 0 < p.maxQueueSize then notFull.notify p.producers choice else p.producers
      dequeued := p.dequeued ++ [task] } := by
  unfold take
  rw [queue]

theorem new_flow (maxQueueSize numThreads producers : Nat) :
    Flow (new maxQueueSize numThreads producers) where
  bounded _ := Nat.zero_le _
  tasks _ := Covered.zero
  room _ := by
    apply Covered.of_none
    intro producer member
    rw [List.eq_of_mem_replicate member]
    rfl

theorem run_flow (flow : Flow p) (i : Nat) (callable : Bool) : Flow (p.run i callable) := by
  unfold run
  split
  · next here =>
    dsimp only
    split
    · exact ⟨flow.bounded, flow.tasks, flow.room⟩
    · exact ⟨flow.bounded, flow.tasks, fun positive =>
        (flow.room positive).set here (Nat.le_refl _) rfl⟩
  · exact flow

/-- A producer inside `run` waits only while there is no room. -/
theorem enqueue_flow (flow : Flow p) {i : Nat} {task : Task} {producer : Producer}
    (here : p.producers[i]? = some producer) {choice : Nat}
    (ran : p.enqueue i task choice = .ok next) : Flow next := by
  rcases enqueue_cases ran with ⟨full, rfl⟩ | ⟨room, rfl⟩
  · refine ⟨flow.bounded, flow.tasks, ?_⟩
    intro _
    have none : p.maxQueueSize - p.queue.length = 0 :=
      Nat.sub_eq_zero_of_le ((isFull_iff p).mp full).2
    rw [none]
    exact Covered.zero
  · have less (positive : 0 < p.maxQueueSize) : p.queue.length < p.maxQueueSize := by
      by_contra reached
      rw [(isFull_iff p).mpr ⟨positive, Nat.not_lt.mp reached⟩] at room
      cases room
    have length : (p.queue ++ [task]).length = p.queue.length + 1 := List.length_append
    refine ⟨?_, ?_, ?_⟩
    · intro positive
      rw [length]
      exact less positive
    · intro running
      rw [length]
      exact (flow.tasks running).notify choice
    · intro positive
      have one := Bool.toNat_le (notFull.looks producer)
      have before := less positive
      dsimp only
      apply (flow.room positive).set here _ rfl
      rw [length]
      omega

/-- A worker moves on and stays in the loop, or leaves it after `stop`. -/
theorem Flow.moves (flow : Flow p) {i : Nat} {old new : Worker}
    (here : p.workers[i]? = some old) (up : notEmpty.waits new = false)
    (stays : p.running = true → notEmpty.looks new = true) :
    Flow { p with workers := p.workers.set i new } := by
  refine ⟨flow.bounded, ?_, flow.room⟩
  intro running
  apply (flow.tasks running).set here _ up
  rw [stays running]
  exact Nat.add_le_add_left (Bool.toNat_le _) _

theorem take_flow (flow : Flow p) {i : Nat} {old : Worker} (here : p.workers[i]? = some old)
    (choice : Nat) : Flow (p.take i choice) := by
  cases queue : p.queue with
  | nil =>
      rw [take_nil queue]
      refine ⟨flow.bounded, ?_, flow.room⟩
      intro _
      dsimp only
      rw [queue]
      exact Covered.zero
  | cons task rest =>
      rw [take_cons queue]
      have bounded := flow.bounded
      have tasks := flow.tasks
      have room := flow.room
      rw [queue, List.length_cons] at bounded tasks room
      refine ⟨?_, ?_, ?_⟩
      · intro positive
        exact Nat.le_of_succ_le (bounded positive)
      · intro running
        apply (tasks running).set here _ rfl
        have one := Bool.toNat_le (notEmpty.looks old)
        change rest.length + (notEmpty.looks old).toNat ≤ rest.length + 1 + 1
        omega
      · intro positive
        have bound := bounded positive
        dsimp only
        rw [if_pos positive]
        apply ((room positive).notify choice).fewer
        omega

theorem runInThread_flow (flow : Flow p) (i choice : Nat) : Flow (p.runInThread i choice) := by
  unfold runInThread
  split
  · next here =>
    apply flow.moves here
    · cases p.running with
      | true => rfl
      | false => rfl
    · intro running
      rw [running]
      rfl
  · next here => exact take_flow flow here choice
  · next here => exact take_flow flow here choice
  · next task here =>
    split
    · have up : notEmpty.waits (.executing task) = false := rfl
      have moved := flow.moves here up fun _ => rfl
      exact ⟨moved.bounded, moved.tasks, moved.room⟩
    · exact flow.moves here rfl fun _ => rfl
  · next here => exact flow.moves here rfl fun _ => rfl
  · next here => exact flow.moves here rfl fun _ => rfl
  · exact flow
  · exact flow
  · exact flow

theorem step_flow (flow : Flow p) {event : Event} (taken : p.step event = .ok next) :
    Flow next := by
  cases event with
  | run i callable =>
      cases taken
      exact run_flow flow i callable
  | producer i choice =>
      rcases produce_cases taken with rfl | ⟨task, producer, here, -, ran⟩
      · exact flow
      · exact enqueue_flow flow here ran
  | wakeProducer i =>
      cases taken
      exact ⟨flow.bounded, flow.tasks, fun positive => (flow.room positive).wakeup i⟩
  | worker i choice =>
      cases taken
      exact runInThread_flow flow i choice
  | wakeWorker i =>
      cases taken
      exact ⟨flow.bounded, fun running => (flow.tasks running).wakeup i, flow.room⟩
  | throws i =>
      rw [throws_inv taken]
      exact flow
  | stop =>
      cases taken
      unfold stop
      split
      · refine ⟨flow.bounded, ?_, flow.room⟩
        intro running
        cases running
      · exact flow
  | stopReturns =>
      cases taken
      unfold stopReturns
      split
      · exact ⟨flow.bounded, flow.tasks, flow.room⟩
      · exact flow

/-! ## Custody of the tasks -/

/-- The thread has the task in hand and has not enqueued it. -/
def Producer.holds (task : Task) : Producer → Bool
  | .idle => false
  | .lock held | .waiting held | .notified held => held == task

/-- The thread has dequeued the task and has not looked at it. -/
def Worker.holds (task : Task) : Worker → Bool
  | .taken (some held) => held == task
  | _ => false

/-- How often the task was given to `run`. -/
def given (p : ThreadPool) (task : Task) : Nat :=
  p.enqueued.count task + p.producers.countP (Producer.holds task)

structure Custody (p : ThreadPool) : Prop where
  started : 0 < p.workers.length
  order : p.enqueued = p.dequeued ++ p.queue
  fresh : ∀ task, p.calls ≤ task.ticket → p.given task = 0
  unique : ∀ task, p.given task ≤ 1
  kept : ∀ task, task.callable = true →
    p.dequeued.count task = p.workers.countP (Worker.holds task) + p.executed.count task
  callable : ∀ task ∈ p.executed, task.callable = true

theorem Producer.holds_woken (task : Task) (producer : Producer)
    (waiting : notFull.waits producer = true) :
    (notFull.woken producer).holds task = producer.holds task := by
  cases producer with
  | waiting held => rfl
  | idle | lock _ | notified _ => cases waiting

theorem Worker.holds_woken (task : Task) (worker : Worker)
    (waiting : notEmpty.waits worker = true) :
    (notEmpty.woken worker).holds task = worker.holds task := by
  rw [eq_of_beq waiting]
  rfl

theorem count_snoc (tasks : List Task) (last task : Task) :
    (tasks ++ [last]).count task = tasks.count task + (last == task).toNat := by
  rw [List.count_append, List.count_singleton]
  cases last == task with
  | true => rfl
  | false => rfl

theorem new_custody (maxQueueSize numThreads producers : Nat) (started : 0 < numThreads) :
    Custody (new maxQueueSize numThreads producers) := by
  have ungiven (task : Task) : (new maxQueueSize numThreads producers).given task = 0 := by
    simp only [given, new, List.countP_replicate]
    rfl
  refine ⟨?_, rfl, fun task _ => ungiven task, ?_, ?_, ?_⟩
  · rw [new, List.length_replicate]
    exact started
  · intro task
    rw [ungiven task]
    exact Nat.zero_le 1
  · intro task _
    simp only [new, List.countP_replicate]
    rfl
  · intro task member
    cases member

/-- A new call has a ticket that no task has. -/
theorem run_custody (custody : Custody p) (i : Nat) (callable : Bool) :
    Custody (p.run i callable) := by
  unfold run
  split
  · next here =>
    dsimp only
    rw [if_neg (List.ne_nil_of_length_pos custody.started)]
    have total (task : Task) :
        ThreadPool.given { p with
            calls := p.calls + 1
            producers := p.producers.set i (.lock ⟨p.calls, callable⟩) } task =
          p.given task + ((⟨p.calls, callable⟩ : Task) == task).toNat := by
      have counted := countP_set_add (Producer.holds task) here (.lock ⟨p.calls, callable⟩)
      simp only [Producer.holds, Bool.toNat_false, Nat.add_zero] at counted
      rw [given, given, counted, Nat.add_assoc]
    refine ⟨custody.started, custody.order, ?_, ?_, custody.kept, custody.callable⟩
    · intro task later
      have other : ((⟨p.calls, callable⟩ : Task) == task) = false := by
        apply beq_eq_false_iff_ne.mpr
        intro same
        rw [← same] at later
        exact Nat.not_succ_le_self _ later
      rw [total, other]
      exact custody.fresh task (Nat.le_of_succ_le later)
    · intro task
      rw [total]
      cases same : (⟨p.calls, callable⟩ : Task) == task with
      | true =>
          have ticket : p.calls ≤ task.ticket :=
            Nat.le_of_eq (congrArg Task.ticket (eq_of_beq same))
          rw [custody.fresh task ticket]
          exact Nat.le_refl 1
      | false => exact custody.unique task
  · exact custody

theorem Custody.of_given (custody : Custody p) (started : 0 < next.workers.length)
    (order : next.enqueued = next.dequeued ++ next.queue) (calls : next.calls = p.calls)
    (given : ∀ task, next.given task = p.given task)
    (kept : ∀ task, task.callable = true →
      next.dequeued.count task = next.workers.countP (Worker.holds task) + next.executed.count task)
    (callable : ∀ task ∈ next.executed, task.callable = true) : Custody next where
  started := started
  order := order
  fresh := by
    intro task later
    rw [given]
    exact custody.fresh task (calls ▸ later)
  unique := by
    intro task
    rw [given]
    exact custody.unique task
  kept := kept
  callable := callable

theorem enqueue_custody (custody : Custody p) {i : Nat} {task : Task} {producer : Producer}
    (here : p.producers[i]? = some producer)
    (held : ∀ other, producer.holds other = (task == other)) {choice : Nat}
    (ran : p.enqueue i task choice = .ok next) : Custody next := by
  rcases enqueue_cases ran with ⟨-, rfl⟩ | ⟨-, rfl⟩
  · apply custody.of_given
    · exact custody.started
    · exact custody.order
    · rfl
    · intro other
      have counted := countP_set_add (Producer.holds other) here (.waiting task)
      rw [held other] at counted
      rw [given, given, Nat.add_right_cancel counted]
    · exact custody.kept
    · exact custody.callable
  · apply custody.of_given
    · rw [length_notify]
      exact custody.started
    · rw [custody.order, List.append_assoc]
    · rfl
    · intro other
      have counted := countP_set_add (Producer.holds other) here .idle
      rw [held other] at counted
      simp only [Producer.holds, Bool.toNat_false, Nat.add_zero] at counted
      rw [given, given, count_snoc, ← counted]
      dsimp only
      omega
    · intro other executable
      rw [countP_notify (Worker.holds_woken other)]
      exact custody.kept other executable
    · exact custody.callable

/-- A worker moves on with nothing that can be executed in hand. -/
theorem Custody.moves (custody : Custody p) {i : Nat} {old new : Worker}
    (here : p.workers[i]? = some old)
    (same : ∀ task, task.callable = true → old.holds task = new.holds task) :
    Custody { p with workers := p.workers.set i new } := by
  apply custody.of_given
  · rw [List.length_set]
    exact custody.started
  · exact custody.order
  · rfl
  · intro task
    rfl
  · intro task callable
    have counted := countP_set_add (Worker.holds task) here new
    rw [same task callable] at counted
    rw [Nat.add_right_cancel counted]
    exact custody.kept task callable
  · exact custody.callable

theorem take_custody (custody : Custody p) {i : Nat} {old : Worker}
    (here : p.workers[i]? = some old) (free : ∀ task, old.holds task = false) (choice : Nat) :
    Custody (p.take i choice) := by
  cases queue : p.queue with
  | nil =>
      rw [take_nil queue]
      apply custody.moves here
      intro task _
      rw [free task]
      cases p.running with
      | true => rfl
      | false => rfl
  | cons task rest =>
      rw [take_cons queue]
      apply custody.of_given
      · rw [List.length_set]
        exact custody.started
      · rw [custody.order, queue, List.append_assoc]
        rfl
      · rfl
      · intro other
        have same : (if 0 < p.maxQueueSize then notFull.notify p.producers choice
            else p.producers).countP (Producer.holds other) =
              p.producers.countP (Producer.holds other) := by
          split
          · exact countP_notify (Producer.holds_woken other) choice
          · rfl
        rw [given, given]
        dsimp only
        rw [same]
      · intro other callable
        have counted := countP_set_add (Worker.holds other) here (.taken (some task))
        rw [free other, Bool.toNat_false, Nat.add_zero] at counted
        have before := custody.kept other callable
        have handed : (Worker.taken (some task)).holds other = (task == other) := rfl
        rw [count_snoc, counted, before, handed]
        dsimp only
        omega
      · exact custody.callable

/-- A task leaves the hands of its worker when it is executed, or when it is empty. -/
theorem runInThread_custody (custody : Custody p) (i choice : Nat) :
    Custody (p.runInThread i choice) := by
  unfold runInThread
  split
  · next here =>
    apply custody.moves here
    intro task _
    cases p.running with
    | true => rfl
    | false => rfl
  · next here => exact take_custody custody here (fun _ => rfl) choice
  · next here => exact take_custody custody here (fun _ => rfl) choice
  · next task here =>
    split
    · next executable =>
      apply custody.of_given
      · rw [List.length_set]
        exact custody.started
      · exact custody.order
      · rfl
      · intro other
        rfl
      · intro other callable
        have counted := countP_set_add (Worker.holds other) here (.executing task)
        have before := custody.kept other callable
        simp only [Worker.holds, Bool.toNat_false, Nat.add_zero] at counted
        rw [count_snoc]
        dsimp only
        omega
      · intro other member
        rcases List.mem_append.mp member with earlier | last
        · exact custody.callable other earlier
        · rw [List.mem_singleton.mp last]
          exact executable
    · next empty =>
      apply custody.moves here
      intro other callable
      apply beq_eq_false_iff_ne.mpr
      intro same
      rw [same] at empty
      exact empty callable
  · next here => exact custody.moves here fun _ _ => rfl
  · next here => exact custody.moves here fun _ _ => rfl
  · exact custody
  · exact custody
  · exact custody

theorem step_custody (custody : Custody p) {event : Event} (taken : p.step event = .ok next) :
    Custody next := by
  cases event with
  | run i callable =>
      cases taken
      exact run_custody custody i callable
  | producer i choice =>
      rcases produce_cases taken with rfl | ⟨task, producer, here, rfl | rfl, ran⟩
      · exact custody
      · exact enqueue_custody custody here (fun _ => rfl) ran
      · exact enqueue_custody custody here (fun _ => rfl) ran
  | wakeProducer i =>
      cases taken
      apply custody.of_given
      · exact custody.started
      · exact custody.order
      · rfl
      · intro task
        rw [given, given]
        dsimp only
        rw [countP_wakeup (Producer.holds_woken task)]
      · exact custody.kept
      · exact custody.callable
  | worker i choice =>
      cases taken
      exact runInThread_custody custody i choice
  | wakeWorker i =>
      cases taken
      apply custody.of_given
      · rw [length_wakeup]
        exact custody.started
      · exact custody.order
      · rfl
      · intro task
        rfl
      · intro task callable
        rw [countP_wakeup (Worker.holds_woken task)]
        exact custody.kept task callable
      · exact custody.callable
  | throws i =>
      rw [throws_inv taken]
      exact custody
  | stop =>
      cases taken
      unfold stop
      split
      · apply custody.of_given
        · rw [notifyAll, List.length_map]
          exact custody.started
        · exact custody.order
        · rfl
        · intro task
          rfl
        · intro task callable
          rw [countP_notifyAll (Worker.holds_woken task)]
          exact custody.kept task callable
        · exact custody.callable
      · exact custody
  | stopReturns =>
      cases taken
      unfold stopReturns
      split
      · exact ⟨custody.started, custody.order, custody.fresh, custody.unique, custody.kept,
          custody.callable⟩
      · exact custody

/-! ## Whole runs -/

/-- What only `stop` changes. -/
structure Steady (p next : ThreadPool) : Prop where
  maxQueueSize : next.maxQueueSize = p.maxQueueSize
  threads : next.workers.length = p.workers.length
  running : next.running = p.running
  stopper : next.stopper = p.stopper

theorem Steady.refl (p : ThreadPool) : Steady p p := ⟨rfl, rfl, rfl, rfl⟩

theorem run_steady (p : ThreadPool) (i : Nat) (callable : Bool) : Steady p (p.run i callable) := by
  unfold run
  split
  · dsimp only
    split
    · exact ⟨rfl, rfl, rfl, rfl⟩
    · exact ⟨rfl, rfl, rfl, rfl⟩
  · exact Steady.refl p

theorem enqueue_steady {i : Nat} {task : Task} {choice : Nat}
    (ran : p.enqueue i task choice = .ok next) : Steady p next := by
  rcases enqueue_cases ran with ⟨-, rfl⟩ | ⟨-, rfl⟩
  · exact ⟨rfl, rfl, rfl, rfl⟩
  · exact ⟨rfl, length_notify choice, rfl, rfl⟩

theorem take_steady (p : ThreadPool) (i choice : Nat) : Steady p (p.take i choice) := by
  cases queue : p.queue with
  | nil =>
      rw [take_nil queue]
      exact ⟨rfl, List.length_set, rfl, rfl⟩
  | cons task rest =>
      rw [take_cons queue]
      exact ⟨rfl, List.length_set, rfl, rfl⟩

theorem runInThread_steady (p : ThreadPool) (i choice : Nat) :
    Steady p (p.runInThread i choice) := by
  unfold runInThread
  split
  · exact ⟨rfl, List.length_set, rfl, rfl⟩
  · exact take_steady p i choice
  · exact take_steady p i choice
  · split
    · exact ⟨rfl, List.length_set, rfl, rfl⟩
    · exact ⟨rfl, List.length_set, rfl, rfl⟩
  · exact ⟨rfl, List.length_set, rfl, rfl⟩
  · exact ⟨rfl, List.length_set, rfl, rfl⟩
  · exact Steady.refl p
  · exact Steady.refl p
  · exact Steady.refl p

/-- Every step but those of the thread that stops the pool. -/
theorem step_steady {event : Event} (taken : p.step event = .ok next) (goesOn : event ≠ .stop)
    (stays : event ≠ .stopReturns) : Steady p next := by
  cases event with
  | run i callable =>
      cases taken
      exact run_steady p i callable
  | producer i choice =>
      rcases produce_cases taken with rfl | ⟨task, producer, -, -, ran⟩
      · exact Steady.refl next
      · exact enqueue_steady ran
  | wakeProducer i =>
      cases taken
      exact ⟨rfl, rfl, rfl, rfl⟩
  | worker i choice =>
      cases taken
      exact runInThread_steady p i choice
  | wakeWorker i =>
      cases taken
      exact ⟨rfl, length_wakeup i, rfl, rfl⟩
  | throws i =>
      rw [throws_inv taken]
      exact Steady.refl p
  | stop => exact absurd rfl goesOn
  | stopReturns => exact absurd rfl stays

theorem stopReturns_running (p : ThreadPool) : p.stopReturns.running = p.running := by
  unfold stopReturns
  split
  · rfl
  · rfl

theorem step_running {event : Event} (taken : p.step event = .ok next) (goesOn : event ≠ .stop)
    (running : p.running = true) : next.running = true := by
  by_cases returns : event = .stopReturns
  · rw [returns] at taken
    cases taken
    rw [stopReturns_running]
    exact running
  · rw [(step_steady taken goesOn returns).running]
    exact running

/-- What the pool promises while it is not stopped. An empty `boost::function` is
taken out of the queue like the others and there is nothing of it to execute. -/
structure BoundedQueue (p : ThreadPool) : Prop where
  distinct : p.enqueued.Nodup
  once : p.executed.Nodup
  order : p.enqueued = p.dequeued ++ p.queue
  known : ∀ task ∈ p.executed, task ∈ p.dequeued
  kept : ∀ task ∈ p.dequeued, task.callable = true →
    task ∈ p.executed ∨ .taken (some task) ∈ p.workers
  bounded : 0 < p.maxQueueSize → p.queue.length ≤ p.maxQueueSize
  taskSeen : p.queue ≠ [] → ∃ worker ∈ p.workers, worker ≠ .waiting
  roomSeen : 0 < p.maxQueueSize → p.queue.length < p.maxQueueSize →
    (∃ task, .waiting task ∈ p.producers) → ∃ task, .notified task ∈ p.producers

theorem Custody.executed_le (custody : Custody p) (task : Task) :
    p.executed.count task ≤ p.dequeued.count task := by
  by_cases member : task ∈ p.executed
  · rw [custody.kept task (custody.callable task member)]
    exact Nat.le_add_left _ _
  · rw [List.count_eq_zero.mpr member]
    exact Nat.zero_le _

theorem Custody.dequeued_le (custody : Custody p) (task : Task) :
    p.dequeued.count task ≤ p.enqueued.count task := by
  rw [custody.order, List.count_append]
  exact Nat.le_add_right _ _

theorem boundedQueue (custody : Custody p) (flow : Flow p) (running : p.running = true) :
    BoundedQueue p where
  distinct := by
    apply List.nodup_iff_count.mpr
    intro task
    exact Nat.le_trans (Nat.le_add_right _ _) (custody.unique task)
  once := by
    apply List.nodup_iff_count.mpr
    intro task
    have given := custody.unique task
    have executed := custody.executed_le task
    have dequeued := custody.dequeued_le task
    unfold ThreadPool.given at given
    omega
  order := custody.order
  known := by
    intro task member
    apply List.count_pos_iff.mp
    exact Nat.lt_of_lt_of_le (List.count_pos_iff.mpr member) (custody.executed_le task)
  kept := by
    intro task member callable
    have left := custody.kept task callable
    have positive := List.count_pos_iff.mpr member
    by_cases executed : task ∈ p.executed
    · exact Or.inl executed
    · right
      rw [List.count_eq_zero.mpr executed, Nat.add_zero] at left
      rw [left] at positive
      rcases List.countP_pos_iff.mp positive with ⟨worker, there, holds⟩
      cases worker with
      | taken held =>
          cases held with
          | none => cases holds
          | some held =>
              rw [← eq_of_beq holds]
              exact there
      | test | lock | waiting | notified | executing _ | exited => cases holds
  bounded := flow.bounded
  taskSeen := by
    intro nonempty
    by_contra unseen
    have waiting : ∀ worker ∈ p.workers, worker = .waiting := by
      intro worker member
      by_contra other
      exact unseen ⟨worker, member, other⟩
    have noLook : ∀ worker ∈ p.workers, notEmpty.looks worker = false := by
      intro worker member
      rw [waiting worker member]
      rfl
    have idle := (flow.tasks running).nobody_waits (List.length_pos_iff.mpr nonempty) noLook
    rcases List.exists_mem_of_length_pos custody.started with ⟨worker, member⟩
    have up := idle worker member
    rw [waiting worker member] at up
    cases up
  roomSeen := by
    rintro positive space ⟨task, waiting⟩
    have enough := flow.room positive ⟨.waiting task, waiting, rfl⟩
    have looking : 0 < p.producers.countP notFull.looks := by omega
    rcases List.countP_pos_iff.mp looking with ⟨producer, member, looks⟩
    cases producer with
    | notified task => exact ⟨task, member⟩
    | idle | lock _ | waiting _ => cases looks

/-- In every run in which `stop` is not called, a pool with at least one thread is a
bounded queue that executes each task at most once, and no wakeup is lost: while the
queue has tasks not every worker waits unnotified, and while it has room a producer
that waits unnotified has a notified one beside it. -/
theorem bounded_exactly_once (maxQueueSize numThreads producers : Nat) (started : 0 < numThreads)
    (events : List Event) (goesOn : ∀ event ∈ events, event ≠ .stop)
    (ran : Machine.run step (new maxQueueSize numThreads producers) events = .ok p) :
    BoundedQueue p := by
  have kept := run_keeps (fun p => Custody p ∧ Flow p ∧ p.running = true)
    (fun _ event => event ≠ .stop)
    (fun p event next before goesOn taken => ⟨step_custody before.1 taken,
      step_flow before.2.1 taken, step_running taken goesOn before.2.2⟩)
    ⟨new_custody maxQueueSize numThreads producers started,
      new_flow maxQueueSize numThreads producers, rfl⟩
    (all_steps_of_forall _ (fun _ event member => goesOn event member) _) ran
  exact boundedQueue kept.1 kept.2.1 kept.2.2

/-- One place in the queue: a producer waits for it, and another is faster when the
worker has made room. -/
def onePlace : List Event :=
  [.run 0 true, .producer 0 0, .worker 0 0, .run 0 true, .run 1 true, .producer 0 0, .worker 0 0,
    .producer 1 0, .worker 0 0, .producer 0 0, .worker 0 0]

theorem one_place_kept :
    ∃ p, Machine.run step (new 1 1 2) onePlace = .ok p ∧
      .waiting ⟨1, true⟩ ∈ p.producers ∧ p.queue = [⟨2, true⟩] ∧ BoundedQueue p := by
  refine ⟨_, rfl, by decide, rfl, ?_⟩
  exact bounded_exactly_once 1 1 2 (by decide) onePlace (by decide) rfl

end Msmuduo.ThreadPool
