import Msmuduo.ThreadPoolQueue

/-!
# Stopping with producers inside

`stop` wakes the workers and not the producers, and the loop of `run` does not look
at `running_`. Once the last worker has left, nobody makes room any more: the calls
of `run` that are in progress then need the room that is left, and so does every
later one. `demand` counts the tasks in the queue with the calls in progress. No
producer is stranded exactly in the runs where the demand stays within
`maxQueueSize_` from then on.
-/

namespace Msmuduo.ThreadPool

open Msmuduo.Machine ConditionVariable

set_option autoImplicit false

variable {p next : ThreadPool}

def Producer.inside : Producer → Bool
  | .idle => false
  | .lock _ | .waiting _ | .notified _ => true

/-- The tasks that are in the queue or on their way to it. -/
def demand (p : ThreadPool) : Nat :=
  p.queue.length + p.producers.countP Producer.inside

/-- The call finds an idle producer and is not executed at once. -/
def Enters (p : ThreadPool) : Event → Prop
  | .run i _ => p.producers[i]? = some .idle ∧ p.workers ≠ []
  | _ => False

/-- The worker is the last one to leave its loop. -/
def LeavesLast (p : ThreadPool) (i : Nat) : Prop :=
  p.workers[i]? = some .test ∧ p.running = false ∧
    ∀ worker ∈ p.workers.set i .exited, worker = .exited

/-- Whoever is inside `run` when the last worker leaves, or comes after that, has
room in the queue. -/
def Fits (p : ThreadPool) (event : Event) : Prop :=
  match event with
  | .run _ _ => p.AllExited → p.Enters event → p.demand < p.maxQueueSize
  | .worker i _ => p.LeavesLast i → p.demand ≤ p.maxQueueSize
  | _ => True

instance (p : ThreadPool) (event : Event) : Decidable (p.Enters event) :=
  match event with
  | .run i _ => inferInstanceAs (Decidable (p.producers[i]? = some .idle ∧ p.workers ≠ []))
  | .producer _ _ | .wakeProducer _ | .worker _ _ | .wakeWorker _ | .throws _ | .stop
  | .stopReturns => inferInstanceAs (Decidable False)

instance (p : ThreadPool) (i : Nat) : Decidable (p.LeavesLast i) :=
  inferInstanceAs (Decidable (_ ∧ _ ∧ _))

instance (p : ThreadPool) (event : Event) : Decidable (p.Fits event) :=
  match event with
  | .run i callable =>
      inferInstanceAs (Decidable (p.AllExited → p.Enters (.run i callable) → _))
  | .worker i _ => inferInstanceAs (Decidable (p.LeavesLast i → _))
  | .producer _ _ | .wakeProducer _ | .wakeWorker _ | .throws _ | .stop | .stopReturns =>
      inferInstanceAs (Decidable True)

/-- When `stop` has returned, nobody waits unnotified in `notFull_.wait()`. -/
def NobodyStranded (p : ThreadPool) : Prop :=
  p.stopper = .returned → ∀ producer ∈ p.producers, notFull.waits producer = false

/-! ## After the last worker -/

theorem Producer.inside_woken (producer : Producer) (waiting : notFull.waits producer = true) :
    (notFull.woken producer).inside = producer.inside := by
  cases producer with
  | waiting task => rfl
  | idle | lock _ | notified _ => cases waiting

theorem AllExited.no_waiting (exited : p.AllExited) :
    ∀ worker ∈ p.workers, notEmpty.waits worker = false := by
  intro worker member
  rw [exited worker member]
  rfl

/-- A producer inside keeps its place in the demand when it enqueues. -/
theorem enqueue_demand {i : Nat} {task : Task} {producer : Producer}
    (here : p.producers[i]? = some producer) (inside : producer.inside = true) {choice : Nat}
    (ran : p.enqueue i task choice = .ok next) : next.demand = p.demand := by
  rcases enqueue_cases ran with ⟨-, rfl⟩ | ⟨-, rfl⟩
  · have counted := countP_set_add Producer.inside here (.waiting task)
    rw [inside] at counted
    rw [demand, demand, Nat.add_right_cancel counted]
  · have counted := countP_set_add Producer.inside here .idle
    rw [inside] at counted
    simp only [Producer.inside, Bool.toNat_true, Bool.toNat_false] at counted
    simp only [demand, List.length_append, List.length_singleton]
    omega

theorem enqueue_workers {i : Nat} {task : Task} {choice : Nat} (exited : p.AllExited)
    (ran : p.enqueue i task choice = .ok next) : next.workers = p.workers := by
  rcases enqueue_cases ran with ⟨-, rfl⟩ | ⟨-, rfl⟩
  · rfl
  · exact notify_none exited.no_waiting choice

theorem runInThread_exited (exited : p.AllExited) (i choice : Nat) :
    p.runInThread i choice = p := by
  unfold runInThread
  cases here : p.workers[i]? with
  | none => rfl
  | some worker => rw [exited worker (List.mem_of_getElem? here)]

/-- The workers are gone: the demand only grows, by the calls that come. -/
theorem step_exited (exited : p.AllExited) {event : Event} (taken : p.step event = .ok next) :
    next.workers = p.workers ∧ next.demand = p.demand + if p.Enters event then 1 else 0 := by
  cases event with
  | run i callable =>
      cases taken
      unfold run
      split
      · next here =>
        dsimp only
        split
        · next none =>
          have stays : ¬p.Enters (.run i callable) := fun enters => enters.2 none
          rw [if_neg stays]
          exact ⟨rfl, rfl⟩
        · next started =>
          have enters : p.Enters (.run i callable) := ⟨here, started⟩
          have counted := countP_set_add Producer.inside here (.lock ⟨p.calls, callable⟩)
          rw [if_pos enters, demand, demand, Nat.add_assoc]
          exact ⟨rfl, congrArg _ counted⟩
      · next busy =>
        have stays : ¬p.Enters (.run i callable) := fun enters => busy enters.1
        rw [if_neg stays]
        exact ⟨rfl, rfl⟩
  | producer i choice =>
      rcases produce_cases taken with rfl | ⟨task, producer, here, rfl | rfl, ran⟩
      · exact ⟨rfl, rfl⟩
      · exact ⟨enqueue_workers exited ran, enqueue_demand here rfl ran⟩
      · exact ⟨enqueue_workers exited ran, enqueue_demand here rfl ran⟩
  | wakeProducer i =>
      cases taken
      rw [demand, demand]
      dsimp only
      rw [countP_wakeup Producer.inside_woken]
      exact ⟨rfl, rfl⟩
  | worker i choice =>
      cases taken
      rw [runInThread_exited exited]
      exact ⟨rfl, rfl⟩
  | wakeWorker i =>
      cases taken
      exact ⟨wakeup_none exited.no_waiting i, rfl⟩
  | throws i =>
      rw [throws_inv taken]
      exact ⟨rfl, rfl⟩
  | stop =>
      cases taken
      unfold stop
      split
      · exact ⟨notifyAll_none exited.no_waiting, rfl⟩
      · exact ⟨rfl, rfl⟩
  | stopReturns =>
      cases taken
      unfold stopReturns
      split
      · exact ⟨rfl, rfl⟩
      · exact ⟨rfl, rfl⟩

/-! ## The last worker -/

theorem exited_of_set {workers : List Worker} {i : Nat} {old new : Worker}
    (here : workers[i]? = some old) (exited : ∀ worker ∈ workers.set i new, worker = .exited) :
    new = .exited :=
  exited new (List.mem_set (List.getElem?_eq_some_iff.mp here).1 new)

/-- A woken worker has not exited. -/
theorem exited_of_notify {choice : Nat}
    (exited : ∀ worker ∈ notEmpty.notify p.workers choice, worker = .exited) : p.AllExited := by
  rcases notify_cases choice with ⟨-, unchanged⟩ | ⟨i, worker, here, -, notified⟩
  · rwa [unchanged] at exited
  · rw [notified] at exited
    cases exited_of_set here exited

theorem exited_of_wakeup {i : Nat}
    (exited : ∀ worker ∈ notEmpty.wakeup p.workers i, worker = .exited) : p.AllExited := by
  rcases wakeup_cases i with unchanged | ⟨worker, here, -, woken⟩
  · rwa [unchanged] at exited
  · rw [woken] at exited
    cases exited_of_set here exited

theorem exited_of_notifyAll
    (exited : ∀ worker ∈ notEmpty.notifyAll p.workers, worker = .exited) : p.AllExited := by
  intro worker member
  have woken := exited _ (List.mem_map_of_mem member)
  split at woken
  · cases woken
  · exact woken

theorem runInThread_leaves {i choice : Nat} (working : ¬p.AllExited)
    (exited : (p.runInThread i choice).AllExited) :
    p.LeavesLast i ∧ (p.runInThread i choice).demand = p.demand := by
  have taken {old : Worker} (here : p.workers[i]? = some old)
      (exited : (p.take i choice).AllExited) : False := by
    cases queue : p.queue with
    | nil =>
        rw [take_nil queue] at exited
        have out := exited_of_set here exited
        split at out
        · cases out
        · cases out
    | cons task rest =>
        rw [take_cons queue] at exited
        cases exited_of_set here exited
  unfold runInThread at exited ⊢
  cases here : p.workers[i]? with
  | none =>
      rw [here] at exited
      exact absurd exited working
  | some worker =>
      rw [here] at exited
      cases worker with
      | test =>
          have out := exited_of_set here exited
          cases running : p.running with
          | true =>
              rw [running] at out
              cases out
          | false =>
              simp only [running, Bool.false_eq_true, if_false] at exited
              exact ⟨⟨here, running, exited⟩, rfl⟩
      | lock | notified => exact absurd exited (taken here)
      | taken task =>
          cases task with
          | none => cases exited_of_set here exited
          | some task =>
              dsimp only at exited
              split at exited
              · cases exited_of_set here exited
              · cases exited_of_set here exited
      | executing task => cases exited_of_set here exited
      | waiting | exited => exact absurd exited working

/-- The workers are gone after a step, and were not before: the step is the last
worker's. -/
theorem step_leaves (working : ¬p.AllExited) {event : Event} (taken : p.step event = .ok next)
    (exited : next.AllExited) :
    ∃ i choice, event = .worker i choice ∧ p.LeavesLast i ∧ next.demand = p.demand := by
  cases event with
  | run i callable =>
      cases taken
      exfalso
      unfold run at exited
      split at exited
      · dsimp only at exited
        split at exited
        · exact working exited
        · exact working exited
      · exact working exited
  | producer i choice =>
      exfalso
      rcases produce_cases taken with rfl | ⟨task, producer, -, -, ran⟩
      · exact working exited
      · rcases enqueue_cases ran with ⟨-, rfl⟩ | ⟨-, rfl⟩
        · exact working exited
        · exact working (exited_of_notify exited)
  | wakeProducer i =>
      cases taken
      exact absurd exited working
  | worker i choice =>
      cases taken
      exact ⟨i, choice, rfl, runInThread_leaves working exited⟩
  | wakeWorker i =>
      cases taken
      exact absurd (exited_of_wakeup exited) working
  | throws i =>
      rw [throws_inv taken] at exited
      exact absurd exited working
  | stop =>
      cases taken
      exfalso
      unfold stop at exited
      split at exited
      · exact working (exited_of_notifyAll exited)
      · exact working exited
  | stopReturns =>
      cases taken
      exfalso
      unfold stopReturns at exited
      split at exited
      · exact working exited
      · exact working exited

/-! ## The invariant -/

structure Held (p : ThreadPool) : Prop where
  flow : Flow p
  positive : 0 < p.maxQueueSize
  alone : p.workers = [] → p.demand = 0
  running : p.stopper = .before → p.running = true
  gone : p.AllExited → p.workers ≠ [] → p.running = false
  returned : p.stopper = .returned → p.AllExited

theorem new_held (maxQueueSize numThreads producers : Nat) (positive : 0 < maxQueueSize) :
    Held (new maxQueueSize numThreads producers) where
  flow := new_flow maxQueueSize numThreads producers
  positive := positive
  alone := by
    intro _
    simp only [demand, new, List.countP_replicate]
    rfl
  running _ := rfl
  gone := by
    intro exited started
    rcases List.exists_mem_of_ne_nil _ started with ⟨worker, member⟩
    have out := exited worker member
    rw [List.eq_of_mem_replicate member] at out
    cases out
  returned returned := by cases returned

/-- The parts of the invariant that only `stop` could touch. -/
theorem Held.steady (held : Held p) (flow : Flow next) (steady : Steady p next) {event : Event}
    (taken : p.step event = .ok next) : Held next where
  flow := flow
  positive := by
    rw [steady.maxQueueSize]
    exact held.positive
  alone := by
    intro none
    have before : p.workers = [] := by
      rw [← List.length_eq_zero_iff, ← steady.threads, none, List.length_nil]
    have exited : p.AllExited := by
      intro worker member
      rw [before] at member
      cases member
    have stays : ¬p.Enters event := by
      cases event with
      | run i callable => exact fun enters => enters.2 before
      | _ => exact id
    rw [(step_exited exited taken).2, if_neg stays]
    exact held.alone before
  running := by
    rw [steady.stopper, steady.running]
    exact held.running
  gone := by
    intro exited started
    rw [steady.running]
    by_cases before : p.AllExited
    · rw [(step_exited before taken).1] at started
      exact held.gone before started
    · rcases step_leaves before taken exited with ⟨i, -, -, leaves, -⟩
      exact leaves.2.1
  returned := by
    intro returned
    have before := held.returned (steady.stopper.symm.trans returned)
    unfold AllExited
    rw [(step_exited before taken).1]
    exact before

theorem stop_held (held : Held p) (flow : Flow p.stop) : Held p.stop := by
  unfold stop at flow ⊢
  split at flow
  · next before =>
    rw [if_pos before]
    refine ⟨flow, held.positive, ?_, ?_, fun _ _ => rfl, ?_⟩
    · intro none
      exact held.alone (List.map_eq_nil_iff.mp none)
    · intro joining
      cases joining
    · intro joining
      cases joining
  · next after =>
    rw [if_neg after]
    exact held

theorem stopReturns_held (held : Held p) (flow : Flow p.stopReturns) : Held p.stopReturns := by
  unfold stopReturns at flow ⊢
  split at flow
  · next joined =>
    rw [if_pos joined]
    refine ⟨flow, held.positive, held.alone, ?_, held.gone, fun _ => joined.2⟩
    intro returned
    cases returned
  · next waits =>
    rw [if_neg waits]
    exact held

theorem step_held (held : Held p) {event : Event} (taken : p.step event = .ok next) :
    Held next := by
  have flow := step_flow held.flow taken
  by_cases stops : event = .stop
  · rw [stops] at taken
    cases taken
    exact stop_held held flow
  · by_cases returns : event = .stopReturns
    · rw [returns] at taken
      cases taken
      exact stopReturns_held held flow
    · exact held.steady flow (step_steady taken stops returns) taken

theorem step_maxQueueSize {event : Event} (taken : p.step event = .ok next) :
    next.maxQueueSize = p.maxQueueSize := by
  by_cases stops : event = .stop
  · rw [stops] at taken
    cases taken
    unfold stop
    split
    · rfl
    · rfl
  · by_cases returns : event = .stopReturns
    · rw [returns] at taken
      cases taken
      unfold stopReturns
      split
      · rfl
      · rfl
    · exact (step_steady taken stops returns).maxQueueSize

theorem countP_inside (producers : List Producer) :
    producers.countP Producer.isNotified + producers.countP Producer.isWaiting ≤
      producers.countP Producer.inside := by
  induction producers with
  | nil => exact Nat.le_refl 0
  | cons producer producers ih =>
      simp only [List.countP_cons]
      cases producer with
      | idle => exact ih
      | lock task | waiting task | notified task =>
          simp only [Producer.isNotified, Producer.isWaiting, Producer.inside, if_true,
            Bool.false_eq_true, if_false]
          omega

/-- A thread that waits for room is one more than the room can serve. -/
theorem Held.nobody_waits (held : Held p) (fits : p.demand ≤ p.maxQueueSize) :
    ∀ producer ∈ p.producers, notFull.waits producer = false := by
  intro producer member
  cases waiting : notFull.waits producer with
  | false => rfl
  | true =>
      have looking := held.flow.room held.positive ⟨producer, member, waiting⟩
      have waits : 0 < p.producers.countP Producer.isWaiting :=
        List.countP_pos_iff.mpr ⟨producer, member, waiting⟩
      have inside := countP_inside p.producers
      change _ ≤ p.producers.countP Producer.isNotified at looking
      unfold demand at fits
      omega

theorem step_fits (fits : p.AllExited → p.demand ≤ p.maxQueueSize) {event : Event}
    (admitted : p.Fits event) (taken : p.step event = .ok next) :
    next.AllExited → next.demand ≤ next.maxQueueSize := by
  intro exited
  rw [step_maxQueueSize taken]
  by_cases before : p.AllExited
  · rw [(step_exited before taken).2]
    split
    · next enters =>
      cases event with
      | run i callable => exact admitted before enters
      | _ => cases enters
    · exact fits before
  · rcases step_leaves before taken exited with ⟨i, choice, worker, leaves, same⟩
    rw [worker] at admitted
    rw [same]
    exact admitted leaves

/-- Once the workers are gone, the demand is more than the queue can take. -/
def Overfull (p : ThreadPool) : Prop :=
  p.AllExited ∧ p.maxQueueSize < p.demand

theorem step_overfull (overfull : Overfull p) {event : Event} (taken : p.step event = .ok next) :
    Overfull next := by
  rcases step_exited overfull.1 taken with ⟨workers, demand⟩
  refine ⟨?_, ?_⟩
  · unfold AllExited
    rw [workers]
    exact overfull.1
  · rw [step_maxQueueSize taken, demand]
    exact Nat.lt_of_lt_of_le overfull.2 (Nat.le_add_right _ _)

theorem step_fails {event : Event} (fails : ¬p.Fits event) (taken : p.step event = .ok next) :
    Overfull next := by
  cases event with
  | run i callable =>
      rcases Classical.not_imp.mp fails with ⟨exited, rejected⟩
      rcases Classical.not_imp.mp rejected with ⟨enters, full⟩
      rcases step_exited exited taken with ⟨workers, demand⟩
      refine ⟨?_, ?_⟩
      · unfold AllExited
        rw [workers]
        exact exited
      · rw [step_maxQueueSize taken, demand, if_pos enters]
        exact Nat.lt_succ_of_le (Nat.not_lt.mp full)
  | worker i choice =>
      rcases Classical.not_imp.mp fails with ⟨⟨here, running, exited⟩, full⟩
      have left : p.runInThread i choice = { p with workers := p.workers.set i .exited } := by
        unfold runInThread
        rw [here, running]
        rfl
      cases taken
      rw [left]
      exact ⟨exited, Nat.not_le.mp full⟩
  | producer _ _ | wakeProducer _ | wakeWorker _ | throws _ | stop | stopReturns =>
      exact absurd trivial fails

/-! ## Left to themselves -/

/-- No new call: a producer inside `run` goes on, or `stop` returns. -/
def Event.settles : Event → Bool
  | .producer _ _ | .stopReturns => true
  | .run _ _ | .wakeProducer _ | .worker _ _ | .wakeWorker _ | .throws _ | .stop => false

/-- The producer is inside `run` and can go on. -/
def Producer.ready : Producer → Bool
  | .lock _ | .notified _ => true
  | .idle | .waiting _ => false

theorem waiting_strands (held : Held p) (overfull : Overfull p)
    (waiting : ∃ producer ∈ p.producers, notFull.waits producer = true) :
    ∃ final, Machine.run step p [.stopReturns] = .ok final ∧ ¬NobodyStranded final := by
  have started : p.workers ≠ [] := by
    intro none
    have small := overfull.2
    rw [held.alone none] at small
    exact Nat.not_lt_zero _ small
  rcases waiting with ⟨producer, member, waits⟩
  have stranded (final : ThreadPool) (returned : final.stopper = .returned)
      (producers : final.producers = p.producers) : ¬NobodyStranded final := by
    intro nobody
    have up := nobody returned producer (producers ▸ member)
    rw [waits] at up
    cases up
  refine ⟨p.stopReturns, rfl, ?_⟩
  unfold stopReturns
  split
  · exact stranded _ rfl rfl
  · next waiting =>
    apply stranded p _ rfl
    cases stopper : p.stopper with
    | before =>
        have running := held.running stopper
        rw [held.gone overfull.1 started] at running
        cases running
    | joining => exact absurd ⟨stopper, overfull.1⟩ waiting
    | returned => rfl

/-- Somebody is inside `run`, and if nobody waits, somebody can go on. -/
theorem Overfull.ready (held : Held p) (overfull : Overfull p)
    (up : ∀ producer ∈ p.producers, notFull.waits producer = false) :
    ∃ (i : Nat) (producer : Producer),
      p.producers[i]? = some producer ∧ producer.ready = true := by
  have bounded := held.flow.bounded held.positive
  have inside : 0 < p.producers.countP Producer.inside := by
    have more := overfull.2
    unfold demand at more
    omega
  rcases List.countP_pos_iff.mp inside with ⟨producer, member, isInside⟩
  rcases List.getElem?_of_mem member with ⟨i, here⟩
  refine ⟨i, producer, here, ?_⟩
  cases producer with
  | idle => cases isInside
  | lock task | notified task => rfl
  | waiting task => cases up _ member

theorem produce_ready {i : Nat} {producer : Producer} (here : p.producers[i]? = some producer)
    (ready : producer.ready = true) (choice : Nat) :
    ∃ task, p.produce i choice = p.enqueue i task choice := by
  unfold produce
  rw [here]
  cases producer with
  | lock task | notified task => exact ⟨task, rfl⟩
  | idle | waiting _ => cases ready

/-- Each producer that goes on takes some of the room that is left, until one finds
none. -/
theorem overfull_strands (held : Held p) (overfull : Overfull p) :
    ∃ rest final, (∀ event ∈ rest, event.settles = true) ∧
      Machine.run step p rest = .ok final ∧ ¬NobodyStranded final := by
  generalize count : p.producers.countP Producer.ready = ready
  induction ready using Nat.strongRecOn generalizing p with
  | ind ready ih =>
      by_cases waiting : ∃ producer ∈ p.producers, notFull.waits producer = true
      · rcases waiting_strands held overfull waiting with ⟨final, ran, stranded⟩
        exact ⟨[.stopReturns], final, by decide, ran, stranded⟩
      · have up : ∀ producer ∈ p.producers, notFull.waits producer = false := by
          intro producer member
          cases waits : notFull.waits producer with
          | false => rfl
          | true => exact absurd ⟨producer, member, waits⟩ waiting
        rcases overfull.ready held up with ⟨i, producer, here, isReady⟩
        rcases produce_ready here isReady 0 with ⟨task, goesOn⟩
        cases full : p.isFull with
        | true =>
            have taken : p.step (.producer i 0) =
                .ok { p with producers := p.producers.set i (.waiting task) } :=
              goesOn.trans (enqueue_full full i task 0)
            have waits : .waiting task ∈ p.producers.set i (.waiting task) :=
              List.mem_set (List.getElem?_eq_some_iff.mp here).1 _
            rcases waiting_strands (step_held held taken) (step_overfull overfull taken)
              ⟨_, waits, rfl⟩ with ⟨final, ran, stranded⟩
            exact ⟨[.producer i 0, .stopReturns], final, by simp [Event.settles],
              (run_cons_ok _ taken).trans ran, stranded⟩
        | false =>
            have taken : p.step (.producer i 0) = _ :=
              goesOn.trans (enqueue_room full i task 0)
            have counted := countP_set_add Producer.ready here .idle
            rw [isReady] at counted
            simp only [Producer.ready, Bool.toNat_true, Bool.toNat_false] at counted
            rcases ih ((p.producers.set i .idle).countP Producer.ready) (by omega)
              (step_held held taken) (step_overfull overfull taken) rfl with
              ⟨rest, final, settles, ran, stranded⟩
            refine ⟨.producer i 0 :: rest, final, ?_, (run_cons_ok _ taken).trans ran, stranded⟩
            exact List.forall_mem_cons.mpr ⟨rfl, settles⟩

theorem fits_strands_nobody {maxQueueSize : Nat} (numThreads producers : Nat)
    (positive : 0 < maxQueueSize) {events : List Event}
    (admitted : AllSteps step Fits (new maxQueueSize numThreads producers) events) :
    Throughout step NobodyStranded (new maxQueueSize numThreads producers) events := by
  apply throughout_keeps
    (fun p => Held p ∧ (p.AllExited → p.demand ≤ p.maxQueueSize)) Fits _ _
    ⟨new_held maxQueueSize numThreads producers positive, fun _ => ?_⟩ admitted
  · intro p event next before fits taken
    exact ⟨step_held before.1 taken, step_fits before.2 fits taken⟩
  · intro p before returned
    exact before.1.nobody_waits (before.2 (before.1.returned returned))
  · simp only [demand, new, List.countP_replicate]
    exact Nat.zero_le _

theorem settles_fits {event : Event} (settles : event.settles = true) (p : ThreadPool) :
    p.Fits event := by
  cases event with
  | producer _ _ | stopReturns => trivial
  | run _ _ | wakeProducer _ | worker _ _ | wakeWorker _ | throws _ | stop => cases settles

/-- A run whose steps all fit strands nobody, however it is interleaved. Any other
run has stranded a producer, or does so when the producers inside `run` go on and
`stop` returns. -/
theorem stop_strands_nobody_iff (maxQueueSize numThreads producers : Nat)
    (positive : 0 < maxQueueSize) (events : List Event) :
    (AllSteps step Fits (new maxQueueSize numThreads producers) events →
      Throughout step NobodyStranded (new maxQueueSize numThreads producers) events) ∧
    ∀ p, Machine.run step (new maxQueueSize numThreads producers) events = .ok p →
      (AllSteps step Fits (new maxQueueSize numThreads producers) events ↔
        ∀ rest, (∀ event ∈ rest, event.settles = true) →
          Throughout step NobodyStranded (new maxQueueSize numThreads producers)
            (events ++ rest)) := by
  refine ⟨fits_strands_nobody numThreads producers positive, ?_⟩
  intro p ran
  constructor
  · intro admitted rest settles
    apply fits_strands_nobody numThreads producers positive
    apply (all_steps_append rest ran).mpr
    exact ⟨admitted, all_steps_of_forall _ (fun p event member =>
      settles_fits (settles event member) p) p⟩
  · intro settled
    by_contra rejected
    have initial := new_held maxQueueSize numThreads producers positive
    have kept (p : ThreadPool) (event : Event) (next : ThreadPool) (held : Held p)
        (taken : p.step event = .ok next) : Held next := step_held held taken
    have overfull := run_fails Held Overfull Fits kept
      (fun _ _ _ _ fails taken => step_fails fails taken)
      (fun _ _ _ _ before taken => step_overfull before taken) initial rejected ran
    rcases overfull_strands (run_invariant Held kept initial ran) overfull with
      ⟨rest, final, settles, goes, stranded⟩
    exact stranded ((settled rest settles).last ((run_append rest ran).trans goes))

/-- The worker leaves while one producer is about to enqueue and another has yet to
call `run`. The queue has room for both. -/
def latecomers : List Event :=
  [.run 0 true, .stop, .worker 0 0, .stopReturns, .producer 0 0, .run 1 true, .producer 1 0]

theorem latecomers_not_stranded :
    Throughout step NobodyStranded (new 2 1 2) latecomers :=
  (stop_strands_nobody_iff 2 1 2 (by decide) latecomers).1 (by decide)

/-- The worker executes a task, the queue is full and a producer waits when `stop` is
called. The worker leaves without another look at the queue. -/
def fullAtStop : List Event :=
  [.run 0 true, .producer 0 0, .worker 0 0, .worker 0 0, .worker 0 0, .run 0 true, .producer 0 0,
    .run 1 true, .producer 1 0, .stop, .worker 0 0, .worker 0 0, .stopReturns]

theorem full_queue_strands :
    ∃ p, Machine.run step (new 1 1 2) fullAtStop = .ok p ∧ p.stopper = .returned ∧
      .waiting ⟨2, true⟩ ∈ p.producers ∧
      ¬Throughout step NobodyStranded (new 1 1 2) fullAtStop := by
  refine ⟨_, rfl, rfl, by decide, ?_⟩
  intro nobody
  have last : NobodyStranded _ := nobody.last rfl
  have up := last rfl (.waiting ⟨2, true⟩) (by decide)
  cases up

end Msmuduo.ThreadPool
