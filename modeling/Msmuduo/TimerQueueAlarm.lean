import Msmuduo.TimerQueueRuns

/-!
# The alarm of the timer queue

There is one operating system timer. It is set when a new timer becomes the
earliest and at the end of every `handleRead`, and it fires once. Between two
steps of the loop every waiting timer is covered: wakeup bytes are unread, or
the alarm is due no later than the timer is, or is due already.

Inside `handleRead` the alarm covers less. The bytes have been read and
nothing is armed for the timers that are left, all of which expire in the
future; `reset` will see to them. It passes over expirations that are not
valid, so these have to be covered already: such a timer was added by a
callback, and was the earliest then or came behind one that was.
-/

namespace Msmuduo.Timers

open Msmuduo.Machine

set_option autoImplicit false

def Event.reading : Event → Option Timestamp
  | .addTimerInLoop _ clock => some clock
  | .handleRead now => some now
  | .finishReset clock => some clock
  | _ => none

/-- The queue and the last reading of the clock. -/
structure Timed where
  queue : TimerQueue
  clock : Timestamp

namespace Timed

def new : Timed := ⟨TimerQueue.new, 0⟩

def step (timed : Timed) (event : Event) : Except Fault Timed :=
  (fun queue => ⟨queue, event.reading.getD timed.clock⟩) <$> Timers.step timed.queue event

end Timed

/-- A positive interval converts to a number of microseconds that is not
negative. -/
def Event.Converts : Event → Prop
  | .newTimer _ _ interval _ => interval.positive = true → 0 ≤ interval.microseconds
  | _ => True

instance (event : Event) : Decidable event.Converts :=
  match event with
  | .newTimer _ _ interval _ =>
      inferInstanceAs (Decidable (interval.positive = true → 0 ≤ interval.microseconds))
  | .addTimerInLoop _ _ => isTrue trivial
  | .cancelInLoop _ => isTrue trivial
  | .handleRead _ => isTrue trivial
  | .runCallback => isTrue trivial
  | .finishCallbacks => isTrue trivial
  | .resetNext => isTrue trivial
  | .finishReset _ => isTrue trivial
  | .timerRoutine => isTrue trivial

/-- The promises of `new`, and a clock that does not go back and whose
readings are positive. -/
structure Admits (timed : Timed) (event : Event) : Prop where
  allocates : Allocates timed.queue event
  monotone : ∀ reading ∈ event.reading, timed.clock ≤ reading ∧ 0 < reading
  converts : event.Converts

instance (timed : Timed) (event : Event) : Decidable (Admits timed event) :=
  decidable_of_iff (Allocates timed.queue event ∧
    (∀ reading ∈ event.reading, timed.clock ≤ reading ∧ 0 < reading) ∧ event.Converts)
    ⟨fun ⟨allocates, monotone, converts⟩ => ⟨allocates, monotone, converts⟩,
      fun ⟨allocates, monotone, converts⟩ => ⟨allocates, monotone, converts⟩⟩

/-- Unread bytes, or an alarm that is due no later than the timer and the
present. -/
def Covers (timed : Timed) (expiration : Timestamp) : Prop :=
  0 < timed.queue.wakeupBytes ∨
    ∃ due, timed.queue.alarm = some due ∧ due ≤ max expiration timed.clock

/-! ### Setting the alarm -/

/-- Casting the difference to a `DWORD` and dividing it only makes the alarm
fire earlier. -/
theorem dueTime_le (difference : Int) (far : 100 ≤ difference) :
    1000 * ((difference.toNat % 2 ^ 32 / 1000 : Nat) : Int) ≤ difference := by
  have wraps := Nat.mod_le difference.toNat (2 ^ 32)
  have divides := Nat.mul_div_le (difference.toNat % 2 ^ 32) 1000
  have exact_ : (difference.toNat : Int) = difference :=
    Int.toNat_of_nonneg (le_trans (by decide) far)
  calc 1000 * ((difference.toNat % 2 ^ 32 / 1000 : Nat) : Int)
      = ((1000 * (difference.toNat % 2 ^ 32 / 1000) : Nat) : Int) := by push_cast; rfl
    _ ≤ (difference.toNat : Int) := by exact_mod_cast divides.trans wraps
    _ = difference := exact_

theorem resetTimerWin_due (q : TimerQueue) (expiration clock : Timestamp) :
    ∃ due, (q.resetTimerWin expiration clock).alarm = some due ∧
      due ≤ max expiration clock := by
  refine ⟨_, rfl, ?_⟩
  by_cases soon : expiration - clock < 100
  · have delay : max (expiration - clock) 100 = 100 := max_eq_right soon.le
    rw [delay]
    simp
  · have delay : max (expiration - clock) 100 = expiration - clock := max_eq_left (not_lt.mp soon)
    rw [delay]
    apply le_max_of_le_left
    have bounded := dueTime_le (expiration - clock) (not_lt.mp soon)
    exact (add_le_add_right bounded clock).trans (add_sub_cancel clock expiration).le

/-- The alarm is left alone or set for the given expiration. -/
theorem rearm_alarm (q : TimerQueue) (wanted : Bool) (expiration clock : Timestamp) :
    (wanted = false ∧ (q.rearm wanted expiration clock).alarm = q.alarm) ∨
      wanted = true ∧ ∃ due, (q.rearm wanted expiration clock).alarm = some due ∧
        due ≤ max expiration clock := by
  cases wanted with
  | false => exact Or.inl ⟨rfl, rfl⟩
  | true => exact Or.inr ⟨rfl, resetTimerWin_due q expiration clock⟩

/-! ### What is covered -/

def Phase.reading : Phase → Option Timestamp
  | idle => none
  | calling now _ _ => some now
  | resetting now _ => some now

structure Alarmed (timed : Timed) : Prop where
  covered : ∀ when_ timer, toLex (when_, timer) ∈ timed.queue.timers →
    timed.queue.phase = .idle ∨ when_ ≤ 0 → Covers timed when_
  reading : ∀ now ∈ timed.queue.phase.reading, 0 < now
  intervals : ∀ timer object, timed.queue.heap timer = some object → object.repeat_ = true →
    0 ≤ object.interval.microseconds

theorem Covers.later {timed next : Timed} {expiration : Timestamp}
    (covers : Covers timed expiration) (bytes : next.queue.wakeupBytes = timed.queue.wakeupBytes)
    (alarm : next.queue.alarm = timed.queue.alarm) (clock : timed.clock ≤ next.clock) :
    Covers next expiration := by
  rcases covers with unread | ⟨due, armed, bounded⟩
  · exact Or.inl (bytes ▸ unread)
  · refine Or.inr ⟨due, alarm.trans armed, ?_⟩
    exact bounded.trans (max_le_max_left expiration clock)

/-- Everything but the containers of waiting timers stands still. -/
theorem Alarmed.congr {timed next : Timed} (alarmed : Alarmed timed)
    (fewer : ∀ when_ timer, toLex (when_, timer) ∈ next.queue.timers →
      toLex (when_, timer) ∈ timed.queue.timers)
    (live : ∀ timer object, next.queue.heap timer = some object →
      timed.queue.heap timer = some object)
    (phase : next.queue.phase = timed.queue.phase)
    (bytes : next.queue.wakeupBytes = timed.queue.wakeupBytes)
    (alarm : next.queue.alarm = timed.queue.alarm) (clock : timed.clock ≤ next.clock) :
    Alarmed next where
  covered := by
    intro when_ timer member where_
    rw [phase] at where_
    exact (alarmed.covered when_ timer (fewer when_ timer member) where_).later bytes alarm clock
  reading := by
    rw [phase]
    exact alarmed.reading
  intervals := by
    intro timer object found
    exact alarmed.intervals timer object (live timer object found)

theorem Covers.mono {timed : Timed} {expiration other : Timestamp}
    (covers : Covers timed expiration) (later : expiration ≤ other) : Covers timed other := by
  rcases covers with unread | ⟨due, armed, bounded⟩
  · exact Or.inl unread
  · exact Or.inr ⟨due, armed, bounded.trans (max_le_max_right timed.clock later)⟩

theorem earliestChanged_le {q : TimerQueue} {when_ : Timestamp}
    (changed : q.earliestChanged when_ = true) {other : Timestamp} {timer : Address}
    (member : toLex (other, timer) ∈ q.timers) : when_ ≤ other := by
  unfold TimerQueue.earliestChanged at changed
  cases head : q.timers.elements.head? with
  | none =>
      rw [List.head?_eq_none_iff] at head
      have absent : toLex (other, timer) ∈ q.timers.elements := member
      rw [head] at absent
      cases absent
  | some first =>
      rw [head] at changed
      have before := Prod.Lex.monotone_fst _ _ (OrderedSet.head_le head member)
      exact (of_decide_eq_true changed).le.trans before

theorem earliestChanged_not {q : TimerQueue} {when_ : Timestamp}
    (unchanged : q.earliestChanged when_ = false) :
    ∃ first timer, toLex (first, timer) ∈ q.timers ∧ first ≤ when_ := by
  unfold TimerQueue.earliestChanged at unchanged
  cases head : q.timers.elements.head? with
  | none =>
      rw [head] at unchanged
      cases unchanged
  | some first =>
      rw [head] at unchanged
      exact ⟨(ofLex first).1, (ofLex first).2, List.mem_of_mem_head? head,
        not_lt.mp (of_decide_eq_false unchanged)⟩

theorem nextExpire_le {q : TimerQueue} {when_ : Timestamp} {timer : Address}
    (member : toLex (when_, timer) ∈ q.timers) :
    q.nextExpire ≤ when_ ∧ ∃ first, toLex (q.nextExpire, first) ∈ q.timers := by
  unfold TimerQueue.nextExpire
  cases head : q.timers.elements.head? with
  | none =>
      rw [List.head?_eq_none_iff] at head
      have absent : toLex (when_, timer) ∈ q.timers.elements := member
      rw [head] at absent
      cases absent
  | some first =>
      exact ⟨Prod.Lex.monotone_fst _ _ (OrderedSet.head_le head member),
        (ofLex first).2, List.mem_of_mem_head? head⟩

/-! ### One event -/

theorem Admits.clock_le {timed : Timed} {event : Event} (admits : Admits timed event) :
    timed.clock ≤ event.reading.getD timed.clock := by
  cases read : event.reading with
  | none => exact le_refl _
  | some reading => exact (admits.monotone reading (by simp [read])).1

/-- `addTimerInLoop` sets the alarm exactly when no waiting timer stands in
front of the new one, whose alarm would do. -/
theorem Alarmed.added {timed : Timed} {timer : Address} {object : Timer} {clock : Timestamp}
    (alarmed : Alarmed timed) (later : timed.clock ≤ clock) :
    Alarmed ⟨timed.queue.added timer object clock, clock⟩ := by
  constructor
  · intro when_ other member where_
    have among : toLex (when_, other) = toLex (object.expiration, timer) ∨
        toLex (when_, other) ∈ timed.queue.timers := (OrderedSet.mem_insert _ _ _).mp member
    rcases rearm_alarm ((timed.queue.handOver timer object).enqueue timer object)
      (timed.queue.earliestChanged object.expiration) object.expiration clock with
      ⟨unchanged, alarm⟩ | ⟨changed, due, armed, bounded⟩
    · rcases among with new | before
      · cases new
        obtain ⟨first, held, waiting, sooner⟩ := earliestChanged_not unchanged
        have covers := alarmed.covered first held waiting (where_.imp id sooner.trans)
        have kept : Covers ⟨timed.queue.added timer object clock, clock⟩ first :=
          covers.later rfl alarm later
        exact kept.mono sooner
      · exact (alarmed.covered when_ other before where_).later rfl alarm later
    · have earliest : object.expiration ≤ when_ := by
        rcases among with new | before
        · cases new
          exact le_refl _
        · exact earliestChanged_le changed before
      exact Or.inr ⟨due, armed, bounded.trans (max_le_max_right clock earliest)⟩
  · exact alarmed.reading
  · exact alarmed.intervals

/-- `reset` sets the alarm for the earliest timer, or leaves an earliest timer
without a valid expiration to the alarm it has. -/
theorem Alarmed.settled {timed : Timed} {clock : Timestamp}
    (alarmed : Alarmed timed) (later : timed.clock ≤ clock) :
    Alarmed ⟨timed.queue.settled clock, clock⟩ := by
  constructor
  · intro when_ timer member _
    have waiting : toLex (when_, timer) ∈ timed.queue.timers := member
    obtain ⟨sooner, first, held⟩ := nextExpire_le waiting
    rcases rearm_alarm { timed.queue with phase := .idle } timed.queue.nextExpire.valid
      timed.queue.nextExpire clock with ⟨invalid, alarm⟩ | ⟨-, due, armed, bounded⟩
    · have notPositive : timed.queue.nextExpire ≤ 0 := not_lt.mp (of_decide_eq_false invalid)
      have covers := alarmed.covered _ first held (Or.inr notPositive)
      have kept : Covers ⟨timed.queue.settled clock, clock⟩ timed.queue.nextExpire :=
        covers.later rfl alarm later
      exact kept.mono sooner
    · exact Or.inr ⟨due, armed, bounded.trans (max_le_max_right clock sooner)⟩
  · intro reading member
    cases member
  · exact alarmed.intervals

/-- Inside `handleRead` only timers that are not valid have to be covered. -/
theorem Alarmed.inside {timed next : Timed} (alarmed : Alarmed timed)
    (old : ∀ when_ timer, toLex (when_, timer) ∈ next.queue.timers → when_ ≤ 0 →
      toLex (when_, timer) ∈ timed.queue.timers)
    (inside : next.queue.phase ≠ .idle) (reading : ∀ now ∈ next.queue.phase.reading, 0 < now)
    (intervals : ∀ timer object, next.queue.heap timer = some object → object.repeat_ = true →
      0 ≤ object.interval.microseconds)
    (bytes : next.queue.wakeupBytes = timed.queue.wakeupBytes)
    (alarm : next.queue.alarm = timed.queue.alarm) (clock : timed.clock ≤ next.clock) :
    Alarmed next where
  covered := by
    intro when_ timer member where_
    rcases where_ with idle | notPositive
    · exact absurd idle inside
    · have covers := alarmed.covered when_ timer (old when_ timer member notPositive)
        (Or.inr notPositive)
      exact covers.later bytes alarm clock
  reading := reading
  intervals := intervals

theorem intervals_update {heap : Address → Option Timer} {timer : Address}
    {content : Option Timer}
    (intervals : ∀ timer object, heap timer = some object → object.repeat_ = true →
      0 ≤ object.interval.microseconds)
    (changed : ∀ object, content = some object → object.repeat_ = true →
      0 ≤ object.interval.microseconds) :
    ∀ other object, Function.update heap timer content other = some object →
      object.repeat_ = true → 0 ≤ object.interval.microseconds := by
  intro other object found
  by_cases same : other = timer
  · subst same
    rw [Function.update_self] at found
    exact changed object found
  · rw [Function.update_of_ne same] at found
    exact intervals other object found

/-- A timer that is put back expires after the positive reading. -/
theorem Alarmed.putBack {timed : Timed} {now clock : Timestamp} {it : Expired}
    {left : List Expired} {object : Timer} (alarmed : Alarmed timed)
    (resetting : timed.queue.phase = .resetting now (it :: left))
    (found : timed.queue.heap it.timer = some object) (repeats : object.repeat_ = true)
    (later : timed.clock ≤ clock) : Alarmed ⟨timed.queue.putBack now it left object, clock⟩ := by
  have before := alarmed.reading
  rw [resetting] at before
  have positive := before now rfl
  have interval := alarmed.intervals it.timer object found repeats
  have restart : object.restart now =
      { object with expiration := now + object.interval.microseconds } := by
    rw [Timer.restart, if_pos repeats]
    rfl
  refine alarmed.inside ?_ ?_ before ?_ rfl rfl later
  · intro when_ timer member notPositive
    rcases (OrderedSet.mem_insert _ _ _).mp member with new | old
    · rw [restart] at new
      cases new
      exact absurd (lt_add_of_lt_of_nonneg positive interval) (not_lt.mpr notPositive)
    · exact old
  · intro idle
    cases idle
  · apply intervals_update alarmed.intervals
    intro changed made _
    cases made
    rw [restart]
    exact interval

theorem Alarmed.step {timed : Timed} {event : Event} {next : TimerQueue}
    {place : Address → Place} (alarmed : Alarmed timed) (admits : Admits timed event)
    (tracks : Tracks timed.queue timed.queue.phase.batch place)
    (moves : Moves timed.queue event next) :
    Alarmed ⟨next, event.reading.getD timed.clock⟩ := by
  have later := admits.clock_le
  cases moves with
  | stays => exact alarmed.congr (fun _ _ => id) (fun _ _ => id) rfl rfl rfl later
  | newTimer timer when_ interval sequence =>
      constructor
      · intro expiration held member where_
        exact (alarmed.covered expiration held member where_).later rfl rfl later
      · exact alarmed.reading
      · apply intervals_update alarmed.intervals
        intro object made repeats
        cases made
        exact admits.converts repeats
  | added clock => exact alarmed.added later
  | cancelled =>
      refine alarmed.congr ?_ ?_ rfl rfl rfl later
      · intro when_ timer member
        exact ((OrderedSet.mem_erase _ _ _).mp member).2
      · intro timer object found
        simp only [TimerQueue.cancelled, Function.update_apply] at found
        split_ifs at found
        exact found
  | remembered => exact alarmed.congr (fun _ _ => id) (fun _ _ => id) rfl rfl rfl later
  | @expiring now expired active idle expires =>
      obtain ⟨-, positive⟩ := admits.monotone now rfl
      constructor
      · -- What is left expires after the reading, which is positive.
        intro when_ timer member where_
        have future := ((tracks.mem_eraseBelow_sentry_iff when_ now timer).mp member).2
        rcases where_ with idle | notPositive
        · cases idle
        · exact absurd (positive.trans future) (not_lt.mpr notPositive)
      · intro reading same
        cases same
        exact positive
      · exact alarmed.intervals
  | @called now ran waiting it object calling found =>
      refine alarmed.inside (fun _ _ member _ => member) (by simp [TimerQueue.called]) ?_
        alarmed.intervals rfl rfl later
      have before := alarmed.reading
      rw [calling] at before
      exact before
  | @finishCallbacks now ran calling =>
      refine alarmed.inside (fun _ _ member _ => member) (by simp [TimerQueue.finishCallbacks]) ?_
        alarmed.intervals rfl rfl later
      have before := alarmed.reading
      rw [calling] at before
      exact before
  | putBack resetting found repeats => exact alarmed.putBack resetting found repeats later
  | @finished now it left object resetting found =>
      have before := alarmed.reading
      rw [resetting] at before
      refine alarmed.inside (fun _ _ member _ => member) ?_ before ?_ rfl rfl later
      · intro idle
        cases idle
      · exact intervals_update alarmed.intervals (fun _ gone => by cases gone)
  | settled clock => exact alarmed.settled later
  | alarmed =>
      constructor
      · intro when_ timer member where_
        exact Or.inl (Nat.add_pos_right _ (by decide))
      · exact alarmed.reading
      · exact alarmed.intervals

theorem Timed.step_keeps (timed : Timed) (event : Event)
    (invariant : Invariant timed.queue ∧ Alarmed timed) (admits : Admits timed event) :
    ∃ next, Timed.step timed event = .ok next ∧ Invariant next.queue ∧ Alarmed next := by
  obtain ⟨⟨place, sound⟩, alarmed⟩ := invariant
  obtain ⟨next, taken, moves⟩ := step_moves sound.tracks event
  refine ⟨⟨next, event.reading.getD timed.clock⟩, ?_, ?_, ?_⟩
  · rw [Timed.step, taken]
    rfl
  · exact moves.sound sound admits.allocates
  · exact alarmed.step admits sound.tracks moves

theorem alarmed_new : Alarmed Timed.new := by
  constructor
  · intro when_ timer member
    exact absurd member (OrderedSet.not_mem_empty _)
  · intro now member
    cases member
  · intro timer object found
    cases found

/-- In every run, between two steps of the loop, unread wakeup bytes or the
alarm cover the earliest timer. -/
theorem waiting_timers_have_alarm (events : List Event)
    (admitted : AllSteps Timed.step Admits Timed.new events) :
    ∃ timed, run Timed.step Timed.new events = .ok timed ∧
      (timed.queue.phase = .idle → ∀ first, timed.queue.timers.elements.head? = some first →
        0 < timed.queue.wakeupBytes ∨ ∃ due, timed.queue.alarm = some due ∧
          due ≤ max (ofLex first).1 timed.clock) := by
  obtain ⟨timed, ran, -, alarmed⟩ := run_succeeds
    (fun timed => Invariant timed.queue ∧ Alarmed timed) Timed.step_keeps
    ⟨invariant_new, alarmed_new⟩ admitted
  refine ⟨timed, ran, ?_⟩
  intro idle first head
  exact alarmed.covered _ (ofLex first).2 (List.mem_of_mem_head? head) (Or.inl idle)

/-- A callback adds two timers without a valid expiration and cancels the
first, so that the end of `reset` sets no alarm. -/
def invalidFromCallback : List Event :=
  [.newTimer 16 100 ⟨true, 50⟩ 1, .addTimerInLoop 16 20, .timerRoutine, .handleRead 100,
    .runCallback, .newTimer 32 (-5) ⟨false, 0⟩ 2, .addTimerInLoop 32 101,
    .newTimer 48 0 ⟨false, 0⟩ 3, .addTimerInLoop 48 102, .cancelInLoop ⟨32, 2⟩,
    .finishCallbacks, .resetNext, .finishReset 103]

set_option maxRecDepth 8000 in
theorem waiting_timers_have_alarm_invalid :
    AllSteps Timed.step Admits Timed.new invalidFromCallback ∧
      ∃ timed, run Timed.step Timed.new invalidFromCallback = .ok timed ∧
        (timed.queue.phase = .idle → ∀ first, timed.queue.timers.elements.head? = some first →
          0 < timed.queue.wakeupBytes ∨ ∃ due, timed.queue.alarm = some due ∧
            due ≤ max (ofLex first).1 timed.clock) :=
  ⟨by decide, waiting_timers_have_alarm invalidFromCallback (by decide)⟩

end Msmuduo.Timers
