import Msmuduo.TimerQueueFiring

/-!
# `addTimer` on another thread

`addTimer` makes a timer, posts `addTimerInLoop` and then reads the sequence
number through the pointer. From the post on the loop thread has the timer too,
and `reset` deletes a timer that is over without asking who still points to it.

A thread in the middle of `addTimer` is an element of `unposted` before its post
and of `unread` behind it.
-/

namespace Msmuduo.Timers

open Msmuduo.Machine

set_option autoImplicit false

/-- The arguments of a `new Timer` that has been made and not posted. -/
structure Unposted where
  timer : Address
  when_ : Timestamp
  interval : Interval
  sequence : Int
  deriving DecidableEq, Repr

structure Adding where
  queue : TimerQueue
  unposted : List Unposted
  unread : List TimerId

namespace Adding

def new : Adding where
  queue := TimerQueue.new
  unposted := []
  unread := []

inductive Event where
  /-- `new Timer(cb, when, interval)` -/
  | allocate (call : Unposted)
  /-- `runInLoop`, which queues the functor. -/
  | post (call : Unposted)
  /-- `TimerId(timer, timer->sequence())`, behind which `addTimer` returns. -/
  | read (timerId : TimerId)
  /-- A step of the loop thread, or a call of `addTimer` in it. -/
  | loop (event : Timers.Event)
  deriving DecidableEq, Repr

/-- What `new` promises, with the timers that are not posted yet. -/
def Free (a : Adding) (timer : Address) (sequence : Int) : Prop :=
  a.queue.heap timer = none ∧ timer < uintptrMax ∧ sequence ∉ a.queue.created ∧
    timer ∉ a.unposted.map Unposted.timer ∧ sequence ∉ a.unposted.map Unposted.sequence

instance (a : Adding) (timer : Address) (sequence : Int) : Decidable (a.Free timer sequence) :=
  inferInstanceAs (Decidable (_ ∧ _ ∧ _ ∧ _ ∧ _))

def inLoop (a : Adding) (event : Timers.Event) : Except Fault Adding := do
  let queue ← Timers.step a.queue event
  return { a with queue := queue }

/-- A step that cannot be taken changes nothing; among these are a `new` at an
address in use and with a sequence number that has been drawn. -/
def step (a : Adding) : Event → Except Fault Adding
  | .allocate call =>
      if a.Free call.timer call.sequence then .ok { a with unposted := call :: a.unposted }
      else .ok a
  | .post call =>
      if call ∈ a.unposted then
        .ok { a with
          queue := a.queue.newTimer call.timer call.when_ call.interval call.sequence
          unposted := a.unposted.erase call
          unread := ⟨call.timer, call.sequence⟩ :: a.unread }
      else .ok a
  | .read timerId =>
      if timerId ∈ a.unread then do
        let _ ← a.queue.deref timerId.timer
        return { a with unread := a.unread.erase timerId }
      else .ok a
  | .loop (.newTimer timer when_ interval sequence) =>
      if a.Free timer sequence then a.inLoop (.newTimer timer when_ interval sequence) else .ok a
  | .loop event => a.inLoop event

/-- The timer that an identifier was made for is alive. -/
def Lives (q : TimerQueue) (timerId : TimerId) : Prop :=
  ∃ object, q.heap timerId.timer = some object ∧ object.sequence = timerId.sequence

/-- Each thread that has its read before it would find its own timer there. -/
def ReadsLive (a : Adding) : Prop := ∀ timerId ∈ a.unread, Lives a.queue timerId

/-- The branches in which `reset` and `cancelInLoop` delete a timer. -/
def Deletes (q : TimerQueue) (timerId : TimerId) : Timers.Event → Prop
  | .resetNext => ∃ now it left object, q.phase = .resetting now (it :: left) ∧
      q.heap it.timer = some object ∧
      ¬(object.repeat_ = true ∧ toLex (it.timer, object.sequence) ∉ q.cancelingTimers) ∧
      timerId = ⟨it.timer, object.sequence⟩
  | .cancelInLoop cancelled => q.phase.inUserCode = true ∧
      toLex (timerId.timer, timerId.sequence) ∈ q.activeTimers ∧ timerId = cancelled
  | _ => False

/-- The loop takes none of these branches for a timer whose thread has its read
before it. -/
def Patient (a : Adding) : Event → Prop
  | .loop event => ∀ timerId ∈ a.unread, ¬Deletes a.queue timerId event
  | _ => True

/-! ## Timers that stay -/

theorem Lives.newTimer {q : TimerQueue} {timerId : TimerId} (lives : Lives q timerId)
    {timer : Address} (free : q.heap timer = none) (when_ : Timestamp) (interval : Interval)
    (sequence : Int) : Lives (q.newTimer timer when_ interval sequence) timerId := by
  rcases lives with ⟨object, found, same⟩
  refine ⟨object, ?_, same⟩
  have different : timerId.timer ≠ timer := by
    intro equal
    rw [equal, free] at found
    cases found
  simpa [TimerQueue.newTimer, TimerQueue.store, different] using found

theorem Lives.delete {q next : TimerQueue} {timerId : TimerId} (lives : Lives q timerId)
    {timer : Address} {object : Timer} (found : q.heap timer = some object)
    (heap : next.heap = Function.update q.heap timer none)
    (different : timerId ≠ ⟨timer, object.sequence⟩) : Lives next timerId := by
  rcases lives with ⟨own, foundOwn, same⟩
  have elsewhere : timerId.timer ≠ timer := by
    intro equal
    rw [equal, found] at foundOwn
    cases foundOwn
    apply different
    rw [← equal, same]
  refine ⟨own, ?_, same⟩
  rw [heap, Function.update_of_ne elsewhere]
  exact foundOwn

theorem Lives.restart {q next : TimerQueue} {timerId : TimerId} (lives : Lives q timerId)
    {timer : Address} {object : Timer} (found : q.heap timer = some object) {now : Timestamp}
    (heap : next.heap = Function.update q.heap timer (some (object.restart now))) :
    Lives next timerId := by
  rcases lives with ⟨own, foundOwn, same⟩
  by_cases equal : timerId.timer = timer
  · rw [equal, found] at foundOwn
    cases foundOwn
    refine ⟨object.restart now, ?_, ?_⟩
    · rw [heap, equal, Function.update_self]
    · rw [Timer.restart_sequence, same]
  · refine ⟨own, ?_, same⟩
    rw [heap, Function.update_of_ne equal]
    exact foundOwn

/-- A step of the loop that makes no timer deletes in these branches only. -/
theorem lives_of_not_deletes {q next : TimerQueue} {event : Timers.Event} {timerId : TimerId}
    (moves : Moves q event next)
    (other : ∀ timer when_ interval sequence, event ≠ .newTimer timer when_ interval sequence)
    (lives : Lives q timerId) (spared : ¬Deletes q timerId event) : Lives next timerId := by
  cases moves with
  | newTimer timer when_ interval sequence => exact absurd rfl (other timer when_ interval sequence)
  | cancelled userCode found waiting =>
      apply lives.delete found rfl
      rintro rfl
      exact spared ⟨userCode, waiting, rfl⟩
  | putBack resetting found repeats wanted => exact lives.restart found rfl
  | finished resetting found ended =>
      apply lives.delete found rfl
      rintro rfl
      exact spared ⟨_, _, _, _, resetting, found, ended, rfl⟩
  | _ => exact lives

/-- In these branches the timer is gone. -/
theorem not_lives_of_deletes {q next : TimerQueue} {event : Timers.Event}
    {place : Address → Place} {timerId : TimerId} (tracks : Tracks q q.phase.batch place)
    (taken : Timers.step q event = .ok next) (deletes : Deletes q timerId event) :
    ¬Lives next timerId := by
  have gone : next.heap timerId.timer = none := by
    cases event with
    | resetNext =>
        rcases deletes with ⟨now, it, left, object, resetting, found, ended, rfl⟩
        simp only [Timers.step, resetting, resetNext_ok_ended found ended] at taken
        cases taken
        exact Function.update_self ..
    | cancelInLoop cancelled =>
        rcases deletes with ⟨userCode, waiting, rfl⟩
        rcases ((tracks.everywhere timerId.timer).active_iff timerId.sequence).mp waiting with
          ⟨object, found, queued, same⟩
        have ran := cancelInLoop_ok_active tracks found queued
        rw [same] at ran
        simp only [Timers.step, if_pos userCode] at taken
        cases taken.symm.trans ran
        exact Function.update_self ..
    | _ => exact deletes.elim
  rintro ⟨object, found, -⟩
  rw [gone] at found
  cases found

/-! ## The invariant -/

/-- A timer that is not posted is known to its thread only. -/
structure Held (a : Adding) : Prop where
  queue : Invariant a.queue
  apart : ∀ call ∈ a.unposted, a.queue.heap call.timer = none ∧ call.timer < uintptrMax ∧
    call.sequence ∉ a.queue.created
  addresses : (a.unposted.map Unposted.timer).Nodup
  sequences : (a.unposted.map Unposted.sequence).Nodup

theorem new_held : Held new where
  queue := invariant_new
  apart := by nofun
  addresses := List.nodup_nil
  sequences := List.nodup_nil

/-- A timer reaches the heap of the queue, and the others are still apart. -/
theorem Held.newTimer {a : Adding} (held : Held a) {timer : Address} {sequence : Int}
    (allocates : a.queue.heap timer = none ∧ timer < uintptrMax ∧ sequence ∉ a.queue.created)
    {rest : List Unposted} (fewer : rest.Sublist a.unposted)
    (otherAddress : timer ∉ rest.map Unposted.timer)
    (otherSequence : sequence ∉ rest.map Unposted.sequence)
    (when_ : Timestamp) (interval : Interval) (unread : List TimerId) :
    Held ⟨a.queue.newTimer timer when_ interval sequence, rest, unread⟩ where
  queue := by
    rcases step_keeps a.queue (.newTimer timer when_ interval sequence) held.queue allocates with
      ⟨next, taken, kept⟩
    cases taken
    exact kept
  apart := by
    intro call member
    rcases held.apart call (fewer.subset member) with ⟨vacant, inRange, fresh⟩
    have elsewhere : call.timer ≠ timer := by
      rintro rfl
      exact otherAddress (List.mem_map_of_mem member)
    have differs : call.sequence ≠ sequence := by
      rintro rfl
      exact otherSequence (List.mem_map_of_mem member)
    refine ⟨?_, inRange, ?_⟩
    · simpa [TimerQueue.newTimer, TimerQueue.store, elsewhere] using vacant
    · simp [TimerQueue.newTimer, TimerQueue.store, fresh, differs]
  addresses := held.addresses.sublist (fewer.map _)
  sequences := held.sequences.sublist (fewer.map _)

theorem vacant_of_moves {q next : TimerQueue} {event : Timers.Event} (moves : Moves q event next)
    (other : ∀ timer when_ interval sequence, event ≠ .newTimer timer when_ interval sequence)
    {timer : Address} (vacant : q.heap timer = none) : next.heap timer = none := by
  have erased : ∀ place, Function.update q.heap place none timer = none := by
    intro place
    by_cases same : timer = place
    · rw [same, Function.update_self]
    · rw [Function.update_of_ne same, vacant]
  cases moves with
  | newTimer timer when_ interval sequence => exact absurd rfl (other timer when_ interval sequence)
  | cancelled userCode found waiting => exact erased _
  | finished resetting found ended => exact erased _
  | @putBack now it left object resetting found repeats wanted =>
      have elsewhere : timer ≠ it.timer := by
        rintro rfl
        rw [vacant] at found
        cases found
      exact (Function.update_of_ne elsewhere ..).trans vacant
  | _ => exact vacant

/-! ## Steps -/

theorem step_other {a : Adding} {event : Timers.Event}
    (other : ∀ timer when_ interval sequence, event ≠ .newTimer timer when_ interval sequence) :
    step a (.loop event) = a.inLoop event := by
  cases event with
  | newTimer timer when_ interval sequence => exact absurd rfl (other timer when_ interval sequence)
  | _ => rfl

/-- A step of the queue that makes no timer. -/
theorem inLoop_decides {a next : Adding} {event : Timers.Event} (held : Held a)
    (live : ReadsLive a)
    (other : ∀ timer when_ interval sequence, event ≠ .newTimer timer when_ interval sequence)
    (taken : a.inLoop event = .ok next) :
    Held next ∧ (ReadsLive next ↔ Patient a (.loop event)) := by
  rcases bind_ok_inv taken with ⟨queue, ran, done⟩
  cases done
  rcases held.queue with ⟨place, sound⟩
  have moves := moves_of_step sound.tracks ran
  have allocates : Allocates a.queue event := by
    cases event with
    | newTimer timer when_ interval sequence => exact absurd rfl (other _ _ _ _)
    | _ => trivial
  constructor
  · refine ⟨moves.sound sound allocates, ?_, held.addresses, held.sequences⟩
    intro call member
    rcases held.apart call member with ⟨vacant, inRange, fresh⟩
    rw [moves.created other]
    exact ⟨vacant_of_moves moves other vacant, inRange, fresh⟩
  · constructor
    · intro still timerId member deletes
      exact not_lives_of_deletes sound.tracks ran deletes (still timerId member)
    · intro patient timerId member
      exact lives_of_not_deletes moves other (live timerId member) (patient timerId member)

theorem allocate_held {a : Adding} (held : Held a) {call : Unposted}
    (free : a.Free call.timer call.sequence) :
    Held { a with unposted := call :: a.unposted } := by
  rcases free with ⟨vacant, inRange, fresh, otherAddress, otherSequence⟩
  refine ⟨held.queue, ?_, ?_, ?_⟩
  · intro other member
    rcases List.mem_cons.mp member with rfl | member
    · exact ⟨vacant, inRange, fresh⟩
    · exact held.apart other member
  · exact List.nodup_cons.mpr ⟨otherAddress, held.addresses⟩
  · exact List.nodup_cons.mpr ⟨otherSequence, held.sequences⟩

theorem post_held {a : Adding} (held : Held a) (live : ReadsLive a) {call : Unposted}
    (member : call ∈ a.unposted) :
    Held ⟨a.queue.newTimer call.timer call.when_ call.interval call.sequence,
        a.unposted.erase call, ⟨call.timer, call.sequence⟩ :: a.unread⟩ ∧
      ReadsLive ⟨a.queue.newTimer call.timer call.when_ call.interval call.sequence,
        a.unposted.erase call, ⟨call.timer, call.sequence⟩ :: a.unread⟩ := by
  have split := List.perm_cons_erase member
  have addresses := (split.map Unposted.timer).nodup_iff.mp held.addresses
  have sequences := (split.map Unposted.sequence).nodup_iff.mp held.sequences
  constructor
  · exact held.newTimer (held.apart call member) List.erase_sublist
      (List.nodup_cons.mp addresses).1 (List.nodup_cons.mp sequences).1 _ _ _
  · intro timerId waiting
    rcases List.mem_cons.mp waiting with rfl | waiting
    · exact ⟨_, Function.update_self .., rfl⟩
    · exact (live timerId waiting).newTimer (held.apart call member).1 _ _ _

theorem step_decides {a next : Adding} {event : Event} (held : Held a) (live : ReadsLive a)
    (taken : step a event = .ok next) : Held next ∧ (ReadsLive next ↔ Patient a event) := by
  cases event with
  | allocate call =>
      simp only [step] at taken
      split at taken
      · next free =>
        cases taken
        exact ⟨allocate_held held free, fun _ => trivial, fun _ => live⟩
      · cases taken
        exact ⟨held, fun _ => trivial, fun _ => live⟩
  | post call =>
      simp only [step] at taken
      split at taken
      · next member =>
        cases taken
        rcases post_held held live member with ⟨after, lives⟩
        exact ⟨after, fun _ => trivial, fun _ => lives⟩
      · cases taken
        exact ⟨held, fun _ => trivial, fun _ => live⟩
  | read timerId =>
      simp only [step] at taken
      split at taken
      · rcases bind_ok_inv taken with ⟨object, -, done⟩
        cases done
        refine ⟨⟨held.queue, held.apart, held.addresses, held.sequences⟩, fun _ => trivial, ?_⟩
        intro _ other waiting
        exact live other (List.mem_of_mem_erase waiting)
      · cases taken
        exact ⟨held, fun _ => trivial, fun _ => live⟩
  | loop event =>
      by_cases made : ∃ timer when_ interval sequence,
          event = .newTimer timer when_ interval sequence
      · rcases made with ⟨timer, when_, interval, sequence, rfl⟩
        have patient : Patient a (.loop (.newTimer timer when_ interval sequence)) :=
          fun _ _ deletes => deletes
        simp only [step] at taken
        split at taken
        · next free =>
          rcases free with ⟨vacant, inRange, fresh, otherAddress, otherSequence⟩
          cases taken
          refine ⟨held.newTimer ⟨vacant, inRange, fresh⟩ (List.Sublist.refl _) otherAddress
            otherSequence _ _ _, fun _ => patient, ?_⟩
          intro _ timerId waiting
          exact (live timerId waiting).newTimer vacant _ _ _
        · cases taken
          exact ⟨held, fun _ => patient, fun _ => live⟩
      · have other : ∀ timer when_ interval sequence,
            event ≠ .newTimer timer when_ interval sequence := by
          intro timer when_ interval sequence same
          exact made ⟨timer, when_, interval, sequence, same⟩
        rw [step_other other] at taken
        exact inLoop_decides held live other taken

/-- While the timers of the threads live, no step fails. -/
theorem step_succeeds {a : Adding} (held : Held a) (live : ReadsLive a) (event : Event) :
    ∃ next, step a event = .ok next := by
  have queue : ∀ event, ∃ next, a.inLoop event = .ok next := by
    intro event
    rcases held.queue with ⟨place, sound⟩
    rcases step_moves sound.tracks event with ⟨queue, taken, -⟩
    refine ⟨{ a with queue := queue }, ?_⟩
    simp only [inLoop, taken, bind, Except.bind]
    rfl
  cases event with
  | allocate call =>
      simp only [step]
      split <;> exact ⟨_, rfl⟩
  | post call =>
      simp only [step]
      split <;> exact ⟨_, rfl⟩
  | read timerId =>
      simp only [step]
      split
      · next waiting =>
        rcases live timerId waiting with ⟨object, found, -⟩
        refine ⟨{ a with unread := a.unread.erase timerId }, ?_⟩
        simp only [deref_ok found, bind, Except.bind]
        rfl
      · exact ⟨a, rfl⟩
  | loop event =>
      cases event with
      | newTimer timer when_ interval sequence =>
          simp only [step]
          split
          · exact queue _
          · exact ⟨a, rfl⟩
      | _ => exact queue _

/-- For every interleaving of threads in `addTimer` with the loop thread: in every
state each timer is alive whose sequence number a thread is still to read if and
only if the loop never takes the branch that deletes such a timer. -/
theorem added_timers_live_iff (events : List Event) :
    Throughout step ReadsLive new events ↔ AllSteps step Patient new events := by
  apply throughout_iff_all_steps Held
  · intro a next event _ held live taken
    exact step_decides held live taken
  · intro a fault event _ held live failed
    rcases step_succeeds held live event with ⟨next, taken⟩
    rw [taken] at failed
    cases failed
  · exact new_held
  · nofun

/-- The timer is due at once, fires and is deleted before its thread reads it. -/
theorem due_timer_read_after_delete :
    run step new
      [.allocate ⟨16, 50, ⟨false, 0⟩, 1⟩, .post ⟨16, 50, ⟨false, 0⟩, 1⟩,
        .loop (.addTimerInLoop 16 60), .loop (.handleRead 100), .loop .runCallback,
        .loop .finishCallbacks, .loop .resetNext, .read ⟨16, 1⟩] = .error .usedDeleted := by
  rfl

end Adding

end Msmuduo.Timers
