import Msmuduo.TimerQueueInvariant

/-!
# What one event does to the timer queue

Each event either leaves the queue alone or makes one of eleven moves. A move
names the new state outright, so that what holds along a run is proved by
looking at the moves and never at the code of an operation again.
-/

namespace Msmuduo.Timers

open Msmuduo.Machine

set_option autoImplicit false

namespace TimerQueue

/-- `resetTimerWin` where the source calls it under a condition. -/
def rearm (q : TimerQueue) (wanted : Bool) (expiration clock : Timestamp) : TimerQueue :=
  { q with alarm := if wanted then (q.resetTimerWin expiration clock).alarm else q.alarm }

/-- The queue after `addTimerInLoop`. -/
def added (q : TimerQueue) (timer : Address) (object : Timer) (clock : Timestamp) :
    TimerQueue :=
  ((q.handOver timer object).enqueue timer object).rearm (q.earliestChanged object.expiration)
    object.expiration clock

/-- The queue after `cancelInLoop` of a waiting timer. -/
def cancelled (q : TimerQueue) (timer : Address) (object : Timer) : TimerQueue :=
  { q with
    heap := Function.update q.heap timer none
    timers := q.timers.erase (toLex (object.expiration, timer))
    activeTimers := q.activeTimers.erase (toLex (timer, object.sequence))
    deleted := q.deleted ++ [object.sequence] }

/-- The queue after `cancelInLoop` of any other timer while callbacks run. -/
def remembered (q : TimerQueue) (timerId : TimerId) : TimerQueue :=
  { q with
    cancelingTimers := q.cancelingTimers.insert (toLex (timerId.timer, timerId.sequence)) }

/-- The queue when `handleRead` is about to run the callbacks. -/
def expiring (q : TimerQueue) (now : Timestamp) (expired : List Expired)
    (active : OrderedSet ActiveTimer) : TimerQueue :=
  { q.readTimerfd with
    timers := q.timers.eraseBelow (toLex (now, uintptrMax))
    activeTimers := active
    callingExpiredTimers := true
    cancelingTimers := OrderedSet.empty
    phase := .calling now [] expired }

/-- The queue when the callback of `it` has been called. -/
def called (q : TimerQueue) (now : Timestamp) (ran : List Expired) (it : Expired)
    (waiting : List Expired) (object : Timer) : TimerQueue :=
  { q with
    phase := .calling now (ran ++ [it]) waiting
    fired := q.fired ++ [(object.sequence, now)] }

/-- The queue when `reset` has put a timer back. -/
def putBack (q : TimerQueue) (now : Timestamp) (it : Expired) (left : List Expired)
    (object : Timer) : TimerQueue :=
  ({ q with phase := .resetting now left }.store it.timer (object.restart now)).enqueue it.timer
    (object.restart now)

/-- The queue when `reset` has deleted a timer. -/
def finished (q : TimerQueue) (now : Timestamp) (it : Expired) (left : List Expired)
    (object : Timer) : TimerQueue :=
  { q with
    phase := .resetting now left
    heap := Function.update q.heap it.timer none
    deleted := q.deleted ++ [object.sequence] }

/-- The expiration `reset` reads when it is done. -/
def nextExpire (q : TimerQueue) : Timestamp :=
  match q.timers.elements.head? with
  | none => Timestamp.invalid
  | some first => (ofLex first).1

/-- The queue after `handleRead`. -/
def settled (q : TimerQueue) (clock : Timestamp) : TimerQueue :=
  { q with phase := .idle }.rearm q.nextExpire.valid q.nextExpire clock

end TimerQueue

/-- The moves of the queue, with what is known when each is made. -/
inductive Moves (q : TimerQueue) : Event → TimerQueue → Prop where
  | stays (event : Event) : Moves q event q
  | newTimer (timer : Address) (when_ : Timestamp) (interval : Interval) (sequence : Int) :
      Moves q (.newTimer timer when_ interval sequence)
        (q.newTimer timer when_ interval sequence)
  | added {timer : Address} {object : Timer} (clock : Timestamp)
      (userCode : q.phase.inUserCode = true) (posted : timer ∈ q.posted)
      (found : q.heap timer = some object) :
      Moves q (.addTimerInLoop timer clock) (q.added timer object clock)
  | cancelled {timer : Address} {object : Timer} (userCode : q.phase.inUserCode = true)
      (found : q.heap timer = some object)
      (waiting : toLex (timer, object.sequence) ∈ q.activeTimers) :
      Moves q (.cancelInLoop ⟨timer, object.sequence⟩) (q.cancelled timer object)
  | remembered {timerId : TimerId} (userCode : q.phase.inUserCode = true)
      (unknown : toLex (timerId.timer, timerId.sequence) ∉ q.activeTimers)
      (calling : q.callingExpiredTimers = true) :
      Moves q (.cancelInLoop timerId) (q.remembered timerId)
  | expiring {now : Timestamp} {expired : List Expired} {active : OrderedSet ActiveTimer}
      (idle : q.phase = .idle) (expires : Expires q now expired active) :
      Moves q (.handleRead now) (q.expiring now expired active)
  | called {now : Timestamp} {ran waiting : List Expired} {it : Expired} {object : Timer}
      (calling : q.phase = .calling now ran (it :: waiting))
      (found : q.heap it.timer = some object) :
      Moves q .runCallback (q.called now ran it waiting object)
  | finishCallbacks {now : Timestamp} {ran : List Expired}
      (calling : q.phase = .calling now ran []) :
      Moves q .finishCallbacks (q.finishCallbacks now ran)
  | putBack {now : Timestamp} {it : Expired} {left : List Expired} {object : Timer}
      (resetting : q.phase = .resetting now (it :: left))
      (found : q.heap it.timer = some object) (repeats : object.repeat_ = true)
      (wanted : toLex (it.timer, object.sequence) ∉ q.cancelingTimers) :
      Moves q .resetNext (q.putBack now it left object)
  | finished {now : Timestamp} {it : Expired} {left : List Expired} {object : Timer}
      (resetting : q.phase = .resetting now (it :: left))
      (found : q.heap it.timer = some object)
      (ended : ¬(object.repeat_ = true ∧
        toLex (it.timer, object.sequence) ∉ q.cancelingTimers)) :
      Moves q .resetNext (q.finished now it left object)
  | settled {now : Timestamp} (clock : Timestamp) (resetting : q.phase = .resetting now []) :
      Moves q (.finishReset clock) (q.settled clock)
  | alarmed {due : Timestamp} (armed : q.alarm = some due) :
      Moves q .timerRoutine { q with alarm := none, wakeupBytes := q.wakeupBytes + 8 }

/-- Only `newTimer` makes a timer. -/
theorem Moves.created {q next : TimerQueue} {event : Event} (moves : Moves q event next)
    (other : ∀ timer when_ interval sequence, event ≠ .newTimer timer when_ interval sequence) :
    next.created = q.created := by
  cases moves with
  | newTimer timer when_ interval sequence => exact absurd rfl (other timer when_ interval sequence)
  | _ => rfl

section

variable {q : TimerQueue} {batch : List Expired} {place : Address → Place}
variable {timer : Address} {object : Timer}

theorem addTimerInLoop_ok (tracks : Tracks q batch place) (found : q.heap timer = some object)
    (posted : place timer = .posted) (clock : Timestamp) :
    q.addTimerInLoop timer clock = .ok (q.added timer object clock) := by
  have loose : Function.update place timer Place.loose timer = .loose :=
    Function.update_self ..
  have inserted := insert_ok (tracks.handOver posted object) found loose
  have changed : (q.handOver timer object).earliestChanged object.expiration =
      q.earliestChanged object.expiration := rfl
  simp only [TimerQueue.addTimerInLoop, bind, Except.bind, deref_ok found, inserted, changed,
    TimerQueue.added]
  cases q.earliestChanged object.expiration <;> rfl

theorem handleRead_ok (tracks : Tracks q [] place) (now : Timestamp) :
    ∃ expired active, q.handleRead now = .ok (q.expiring now expired active) ∧
      Expires q now expired active := by
  have read : Tracks q.readTimerfd [] place := tracks.congr rfl rfl rfl rfl
  obtain ⟨expired, active, ran, expires⟩ := getExpired_ok read now
  have same : Expires q now expired active :=
    ⟨expires.taken, expires.active_iff, expires.sequences⟩
  refine ⟨expired, active, ?_, same⟩
  simp only [TimerQueue.handleRead, bind, Except.bind, ran]
  rfl

theorem runCallback_ok {it : Expired} (found : q.heap it.timer = some object) (now : Timestamp)
    (ran waiting : List Expired) :
    q.runCallback now ran it waiting = .ok (q.called now ran it waiting object) := by
  simp only [TimerQueue.runCallback, bind, Except.bind, deref_ok found]
  rfl

/-- The timer leaves the batch and is restarted while it is in neither set. -/
theorem Tracks.restart {it : Expired} {left : List Expired} (tracks : Tracks q (it :: left) place)
    (found : q.heap it.timer = some object) (now : Timestamp) :
    Tracks ({ q with phase := .resetting now left }.store it.timer (object.restart now)) left
      (Function.update place it.timer .loose) := by
  have inRange := (tracks.everywhere it.timer).bounded object found
  have stored := tracks.takeFromBatch.overwrite (Function.update_self ..)
    (some (object.restart now)) inRange q.deleted
  exact stored.congr rfl rfl rfl rfl

theorem resetNext_ok_again {it : Expired} {left : List Expired}
    (tracks : Tracks q (it :: left) place) (found : q.heap it.timer = some object)
    (again : object.repeat_ = true ∧ toLex (it.timer, object.sequence) ∉ q.cancelingTimers)
    (now : Timestamp) : q.resetNext now it left = .ok (q.putBack now it left object) := by
  have inserted := insert_ok (tracks.restart found now) (Function.update_self ..)
    (Function.update_self ..)
  simp only [TimerQueue.resetNext, bind, Except.bind, deref_ok found, if_pos again, inserted]
  rfl

theorem resetNext_ok_ended {it : Expired} {left : List Expired}
    (found : q.heap it.timer = some object)
    (ended : ¬(object.repeat_ = true ∧ toLex (it.timer, object.sequence) ∉ q.cancelingTimers))
    (now : Timestamp) : q.resetNext now it left = .ok (q.finished now it left object) := by
  simp only [TimerQueue.resetNext, bind, Except.bind, deref_ok found, if_neg ended]
  exact delete_ok found

theorem finishReset_ok (tracks : Tracks q [] place) (clock : Timestamp) :
    q.finishReset clock = .ok (q.settled clock) := by
  unfold TimerQueue.finishReset TimerQueue.settled TimerQueue.nextExpire
  cases first : q.timers.elements.head? with
  | none => rfl
  | some entry =>
      obtain ⟨object, found, -, expiration⟩ :=
        ((tracks.everywhere (ofLex entry).2).timers_iff (ofLex entry).1).mp
          (List.mem_of_mem_head? first)
      simp only [bind, Except.bind, pure, Except.pure, deref_ok found, expiration]
      cases Timestamp.valid (ofLex entry).1 <;> rfl

/-- A member of the batch lives. -/
theorem Tracks.batch_live (tracks : Tracks q batch place) {it : Expired} (member : it ∈ batch) :
    ∃ object, q.heap it.timer = some object ∧ place it.timer = .batch ∧
      object.sequence = it.sequence :=
  ((tracks.everywhere it.timer).batch_iff it.sequence).mp ⟨it, member, rfl, rfl⟩

theorem Tracks.batch_sequence (tracks : Tracks q batch place) {it : Expired}
    (member : it ∈ batch) (found : q.heap it.timer = some object) :
    object.sequence = it.sequence := by
  obtain ⟨same, foundSame, -, sequence⟩ := tracks.batch_live member
  rw [found] at foundSame
  cases foundSame
  exact sequence

end

/-- Every event succeeds and is a move. -/
theorem step_moves {q : TimerQueue} {place : Address → Place}
    (tracks : Tracks q q.phase.batch place) (event : Event) :
    ∃ next, step q event = .ok next ∧ Moves q event next := by
  have stays : ∃ next, Except.ok q = (.ok next : Except Fault TimerQueue) ∧ Moves q event next :=
    ⟨q, rfl, .stays event⟩
  cases event with
  | newTimer timer when_ interval sequence => exact ⟨_, rfl, .newTimer ..⟩
  | addTimerInLoop timer clock =>
      simp only [step]
      split_ifs with possible
      · obtain ⟨object, found, here⟩ := (tracks.everywhere timer).posted_iff.mp possible.2
        exact ⟨_, addTimerInLoop_ok tracks found here clock,
          .added clock possible.1 possible.2 found⟩
      · exact stays
  | cancelInLoop timerId =>
      simp only [step]
      split_ifs with userCode
      · by_cases known : toLex (timerId.timer, timerId.sequence) ∈ q.activeTimers
        · obtain ⟨timer, sequence⟩ := timerId
          obtain ⟨object, found, queued, rfl⟩ :=
            ((tracks.everywhere timer).active_iff sequence).mp known
          exact ⟨_, cancelInLoop_ok_active tracks found queued, .cancelled userCode found known⟩
        · rw [cancelInLoop_ok_unknown tracks known]
          split_ifs with calling
          · exact ⟨_, rfl, .remembered userCode known calling⟩
          · exact stays
      · exact stays
  | handleRead now =>
      simp only [step]
      split
      · next idle =>
        rw [idle] at tracks
        obtain ⟨expired, active, ran, expires⟩ := handleRead_ok tracks now
        exact ⟨_, ran, .expiring idle expires⟩
      · exact stays
  | runCallback =>
      simp only [step]
      split
      · next now ran it waiting calling =>
        rw [calling] at tracks
        have member : it ∈ (Phase.calling now ran (it :: waiting)).batch := by
          simp [Phase.batch]
        obtain ⟨object, found, -, -⟩ := tracks.batch_live member
        exact ⟨_, runCallback_ok found now ran waiting, .called calling found⟩
      · exact stays
  | finishCallbacks =>
      simp only [step]
      split
      · next now ran calling => exact ⟨_, rfl, .finishCallbacks calling⟩
      · exact stays
  | resetNext =>
      simp only [step]
      split
      · next now it left resetting =>
        rw [resetting] at tracks
        obtain ⟨object, found, -, -⟩ := tracks.batch_live (List.mem_cons_self)
        by_cases again : object.repeat_ = true ∧
            toLex (it.timer, object.sequence) ∉ q.cancelingTimers
        · exact ⟨_, resetNext_ok_again tracks found again now,
            .putBack resetting found again.1 again.2⟩
        · exact ⟨_, resetNext_ok_ended found again now, .finished resetting found again⟩
      · exact stays
  | finishReset clock =>
      simp only [step]
      split
      · next now resetting =>
        rw [resetting] at tracks
        exact ⟨_, finishReset_ok tracks clock, .settled clock resetting⟩
      · exact stays
  | timerRoutine =>
      simp only [step]
      split
      · next due armed => exact ⟨_, rfl, .alarmed armed⟩
      · exact stays

end Msmuduo.Timers
