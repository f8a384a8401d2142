import Msmuduo.TimerQueueRuns

/-!
# When timers fire

A call of `handleRead` is followed from the clock reading to the end of
`reset`. The batch it runs is the part of `timers_` that is due at that
reading; while callbacks add and cancel timers the batch stays as it is, each
member runs once and in order, and the repeating members go back into the
queue one interval after the reading.
-/

namespace Msmuduo.Timers

open Msmuduo.Machine

set_option autoImplicit false

/-- The states of a queue: what any events lead to whose allocations keep the
promises of `new`. -/
def Reachable (q : TimerQueue) : Prop :=
  ∃ events, AllSteps step Allocates TimerQueue.new events ∧
    run step TimerQueue.new events = .ok q

theorem Reachable.invariant {q : TimerQueue} (reachable : Reachable q) : Invariant q := by
  obtain ⟨events, allocated, ran⟩ := reachable
  obtain ⟨final, ranFinal, invariant⟩ := run_succeeds Invariant step_keeps invariant_new allocated
  rw [ran] at ranFinal
  cases ranFinal
  exact invariant

theorem Reachable.continues {q later : TimerQueue} {rest : List Event} (reachable : Reachable q)
    (allocated : AllSteps step Allocates q rest) (ran : run step q rest = .ok later) :
    Reachable later := by
  obtain ⟨events, allocatedBefore, ranBefore⟩ := reachable
  refine ⟨events ++ rest, ?_, ?_⟩
  · rw [all_steps_append _ ranBefore]
    exact ⟨allocatedBefore, allocated⟩
  · rw [run_append _ ranBefore]
    exact ran

theorem Reachable.after {q next : TimerQueue} {event : Event} (reachable : Reachable q)
    (allocates : Allocates q event) (taken : step q event = .ok next) : Reachable next :=
  reachable.continues ((all_steps_singleton q event).mpr allocates)
    ((run_singleton q event).trans taken)

/-- A step from an invariant state is one of the moves. -/
theorem moves_of_step {q next : TimerQueue} {event : Event} {place : Address → Place}
    (tracks : Tracks q q.phase.batch place) (taken : step q event = .ok next) :
    Moves q event next := by
  obtain ⟨other, takenOther, moves⟩ := step_moves tracks event
  rw [taken] at takenOther
  cases takenOther
  exact moves

/-- What every move keeps holds along every run. -/
theorem Reachable.carries {q later : TimerQueue} {rest : List Event}
    (Property : TimerQueue → Prop)
    (kept : ∀ state event next place, Sound state state.phase.batch place →
      Allocates state event → Moves state event next → Property state → Property next)
    (reachable : Reachable q) (initial : Property q)
    (allocated : AllSteps step Allocates q rest) (ran : run step q rest = .ok later) :
    Property later := by
  have holds : Invariant later ∧ Property later := by
    refine run_keeps (fun state => Invariant state ∧ Property state) Allocates ?_ ?_
      allocated ran
    · intro state event next before allocates taken
      obtain ⟨⟨place, sound⟩, property⟩ := before
      have moves := moves_of_step sound.tracks taken
      exact ⟨moves.sound sound allocates,
        kept state event next place sound allocates moves property⟩
    · exact ⟨reachable.invariant, initial⟩
  exact holds.2

/-- The entries of `timers_` that are due at a reading of the clock. -/
def TimerQueue.dueEntries (q : TimerQueue) (now : Timestamp) : List Entry :=
  q.timers.elements.filter fun entry => (ofLex entry).1 ≤ now

/-- The record of a callback. -/
def record (now : Timestamp) (it : Expired) : Int × Timestamp := (it.sequence, now)

/-- A call of `handleRead` that has taken the given events and has not ended. -/
inductive Turn (start : TimerQueue) (now : Timestamp) : List Event → TimerQueue → Prop where
  | opened {q : TimerQueue} (idle : start.phase = .idle)
      (taken : step start (.handleRead now) = .ok q) : Turn start now [] q
  | next {during : List Event} {q after : TimerQueue} {event : Event}
      (turn : Turn start now during q) (allocates : Allocates q event)
      (taken : step q event = .ok after) (inside : after.phase ≠ .idle) :
      Turn start now (during ++ [event]) after

/-- The timers that are due, each once, in the order of their expirations. -/
structure Due (start : TimerQueue) (now : Timestamp) (due : List Expired) : Prop where
  exactly : due.map Expired.entry = start.dueEntries now
  timers : ∀ it ∈ due, ∃ object, start.heap it.timer = some object ∧
    object.sequence = it.sequence ∧ object.expiration = it.when_
  once : (due.map Expired.sequence).Nodup
  ordered : (due.map Expired.when_).Pairwise (· ≤ ·)

/-- Inside the call the callbacks of a prefix of the batch have been run; they
have all been run when `reset` starts. -/
def Progress (start : TimerQueue) (now : Timestamp) (due : List Expired) (q : TimerQueue) :
    Prop :=
  (∃ ran waiting, q.phase = .calling now ran waiting ∧ ran ++ waiting = due ∧
    q.fired = start.fired ++ ran.map (record now)) ∨
  ∃ put left, q.phase = .resetting now left ∧ put ++ left = due ∧
    q.fired = start.fired ++ due.map (record now)

/-! ### The batch is what is due -/

theorem Tracks.below_eq_dueEntries {q : TimerQueue} {batch : List Expired}
    {place : Address → Place} (tracks : Tracks q batch place) (now : Timestamp) :
    q.timers.below (toLex (now, uintptrMax)) = q.dueEntries now := by
  rw [OrderedSet.below_eq_filter, TimerQueue.dueEntries]
  apply List.filter_congr
  rintro ⟨when_, timer⟩ member
  obtain ⟨object, found, -⟩ := ((tracks.everywhere timer).timers_iff when_).mp member
  have inRange := (tracks.everywhere timer).bounded object found
  exact decide_eq_decide.mpr (lt_sentry_iff when_ now inRange)

theorem Expires.due {q : TimerQueue} {place : Address → Place} {now : Timestamp}
    {expired : List Expired} {active : OrderedSet ActiveTimer}
    (expires : Expires q now expired active) (sound : Sound q [] place) :
    Due q now expired := by
  have tracks := sound.tracks
  have waits : ∀ it ∈ expired, ∃ object, q.heap it.timer = some object ∧
      object.sequence = it.sequence ∧ object.expiration = it.when_ := by
    intro it member
    obtain ⟨object, found, -, expiration, -⟩ := expires.waiting tracks member
    obtain ⟨same, foundSame, sequence⟩ := expires.sequences it member
    rw [found] at foundSame
    cases foundSame
    exact ⟨object, found, sequence, expiration⟩
  have addresses : (expired.map Expired.timer).Nodup := by
    rw [expires.addresses]
    exact tracks.due_nodup now
  constructor
  · rw [expires.taken, tracks.below_eq_dueEntries]
  · exact waits
  · -- One sequence number is one timer, which stands once in the batch.
    rw [List.nodup_map_iff_inj_on (List.Nodup.of_map _ addresses)]
    intro first member second otherMember same
    obtain ⟨object, found, sequence, -⟩ := waits first member
    obtain ⟨other, foundOther, otherSequence, -⟩ := waits second otherMember
    have equal : first.timer = second.timer :=
      sound.accounts.distinct _ _ object other found foundOther
        (sequence.trans (same.trans otherSequence.symm))
    exact List.inj_on_of_nodup_map addresses member otherMember equal
  · have sorted : (expired.map Expired.entry).Pairwise (· < ·) := by
      rw [expires.taken]
      exact q.timers.increasing.sublist (List.takeWhile_sublist _)
    rw [List.pairwise_map] at sorted ⊢
    exact sorted.imp fun smaller => Prod.Lex.monotone_fst _ _ smaller.le

/-! ### The batch while callbacks run -/

theorem Tracks.left_ne {q : TimerQueue} {it other : Expired} {left : List Expired}
    {place : Address → Place} (tracks : Tracks q (it :: left) place) (member : other ∈ left) :
    other.timer ≠ it.timer := by
  intro same
  have absent := (List.nodup_cons.mp tracks.batch_nodup).1
  rw [← same] at absent
  exact absent (List.mem_map_of_mem member)

/-- A timer in the batch is not touched before `reset` reaches it. -/
theorem Moves.batch_heap {q next : TimerQueue} {event : Event} {place : Address → Place}
    (moves : Moves q event next) (tracks : Tracks q q.phase.batch place)
    (allocates : Allocates q event) {it : Expired} (member : it ∈ next.phase.batch) :
    next.heap it.timer = q.heap it.timer := by
  cases moves with
  | newTimer timer when_ interval sequence =>
      obtain ⟨object, found, -, -⟩ := tracks.batch_live member
      have different : it.timer ≠ timer := by
        intro same
        rw [same, allocates.1] at found
        cases found
      exact Function.update_of_ne different _ _
  | @cancelled timer object userCode found waiting =>
      obtain ⟨-, -, queued, -⟩ := ((tracks.everywhere timer).active_iff _).mp waiting
      obtain ⟨-, -, inBatch, -⟩ := tracks.batch_live member
      have different : it.timer ≠ timer := by
        intro same
        rw [same, queued] at inBatch
        cases inBatch
      exact Function.update_of_ne different _ _
  | putBack resetting found repeats wanted =>
      rw [resetting] at tracks
      exact Function.update_of_ne (tracks.left_ne member) _ _
  | finished resetting found ended =>
      rw [resetting] at tracks
      exact Function.update_of_ne (tracks.left_ne member) _ _
  | stays => rfl
  | added => rfl
  | remembered => rfl
  | expiring => rfl
  | called => rfl
  | finishCallbacks => rfl
  | settled => rfl
  | alarmed => rfl

/-- A repeating timer of the batch is in both sets again, one interval after
the reading of the clock. -/
structure BackInQueue (q : TimerQueue) (now : Timestamp) (timer : Address) (object : Timer) :
    Prop where
  restarted : q.heap timer =
    some { object with expiration := now + object.interval.microseconds }
  timers : toLex (now + object.interval.microseconds, timer) ∈ q.timers
  active : toLex (timer, object.sequence) ∈ q.activeTimers

/-- What is known of the call while it is under way. -/
structure Underway (start : TimerQueue) (now : Timestamp) (due : List Expired)
    (during : List Event) (q : TimerQueue) : Prop where
  progress : Progress start now due q
  held : ∀ it ∈ q.phase.batch, q.heap it.timer = start.heap it.timer
  cancels : ∀ timer sequence, toLex (timer, sequence) ∈ q.cancelingTimers →
    .cancelInLoop ⟨timer, sequence⟩ ∈ during
  back : ∀ it ∈ due, it ∉ q.phase.batch → ∀ object, start.heap it.timer = some object →
    object.repeat_ = true → .cancelInLoop ⟨it.timer, object.sequence⟩ ∉ during →
    BackInQueue q now it.timer object

theorem Progress.congr {start q next : TimerQueue} {now : Timestamp} {due : List Expired}
    (progress : Progress start now due q) (phase : next.phase = q.phase)
    (fired : next.fired = q.fired) : Progress start now due next := by
  unfold Progress
  rw [phase, fired]
  exact progress

theorem Progress.not_idle {start q : TimerQueue} {now : Timestamp} {due : List Expired}
    (progress : Progress start now due q) : q.phase ≠ .idle := by
  intro idle
  unfold Progress at progress
  simp [idle] at progress

theorem Progress.batch_subset {start q : TimerQueue} {now : Timestamp} {due : List Expired}
    (progress : Progress start now due q) {it : Expired} (member : it ∈ q.phase.batch) :
    it ∈ due := by
  rcases progress with ⟨ran, waiting, phase, rfl, -⟩ | ⟨put, left, phase, rfl, -⟩
  · rw [phase] at member
    exact member
  · rw [phase] at member
    exact List.mem_append_right put member

/-- The call goes on with the reading of the clock it began with. -/
theorem Progress.reading {start q : TimerQueue} {now reading : Timestamp} {due : List Expired}
    (progress : Progress start now due q)
    (phase : (∃ ran waiting, q.phase = .calling reading ran waiting) ∨
      ∃ left, q.phase = .resetting reading left) : reading = now := by
  rcases progress with ⟨ran, waiting, same, -⟩ | ⟨put, left, same, -⟩
  · rw [same] at phase
    rcases phase with ⟨_, _, equal⟩ | ⟨_, equal⟩
    · cases equal
      rfl
    · cases equal
  · rw [same] at phase
    rcases phase with ⟨_, _, equal⟩ | ⟨_, equal⟩
    · cases equal
    · cases equal
      rfl

/-- The callbacks of a prefix of the batch have been run, whatever they did. -/
theorem Progress.step {start q next : TimerQueue} {now : Timestamp} {due : List Expired}
    {event : Event} {place : Address → Place} (progress : Progress start now due q)
    (tracks : Tracks q q.phase.batch place) (moves : Moves q event next)
    (inside : next.phase ≠ .idle) : Progress start now due next := by
  cases moves with
  | stays => exact progress
  | newTimer => exact progress.congr rfl rfl
  | added => exact progress.congr rfl rfl
  | cancelled => exact progress.congr rfl rfl
  | remembered => exact progress.congr rfl rfl
  | alarmed => exact progress.congr rfl rfl
  | expiring idle => exact absurd idle progress.not_idle
  | settled => exact absurd rfl inside
  | @called reading ran waiting it object calling found =>
      have member : it ∈ q.phase.batch := by simp [calling, Phase.batch]
      have sequence := tracks.batch_sequence member found
      rcases progress with ⟨before, rest, phase, split, fired⟩ | ⟨put, left, phase, -, -⟩
      · rw [calling] at phase
        cases phase
        refine Or.inl ⟨ran ++ [it], waiting, rfl, ?_, ?_⟩
        · rw [← split, List.append_assoc, List.singleton_append]
        · rw [List.map_append, ← List.append_assoc, ← fired, List.map_singleton, record,
            ← sequence]
          rfl
      · rw [calling] at phase
        cases phase
  | @finishCallbacks reading ran calling =>
      rcases progress with ⟨before, rest, phase, split, fired⟩ | ⟨put, left, phase, -, -⟩
      · rw [calling] at phase
        cases phase
        rw [List.append_nil] at split
        refine Or.inr ⟨[], ran, rfl, split, ?_⟩
        rw [← split]
        exact fired
      · rw [calling] at phase
        cases phase
  | @putBack reading it left object resetting =>
      rcases progress with ⟨before, rest, phase, -, -⟩ | ⟨put, rest, phase, split, fired⟩
      · rw [resetting] at phase
        cases phase
      · rw [resetting] at phase
        cases phase
        refine Or.inr ⟨put ++ [it], left, rfl, ?_, fired⟩
        rw [List.append_assoc, List.singleton_append, split]
  | @finished reading it left object resetting =>
      rcases progress with ⟨before, rest, phase, -, -⟩ | ⟨put, rest, phase, split, fired⟩
      · rw [resetting] at phase
        cases phase
      · rw [resetting] at phase
        cases phase
        refine Or.inr ⟨put ++ [it], left, rfl, ?_, fired⟩
        rw [List.append_assoc, List.singleton_append, split]

theorem Moves.canceling {q next : TimerQueue} {event : Event} (moves : Moves q event next)
    {timer : Address} {sequence : Int}
    (member : toLex (timer, sequence) ∈ next.cancelingTimers) :
    toLex (timer, sequence) ∈ q.cancelingTimers ∨ event = .cancelInLoop ⟨timer, sequence⟩ := by
  cases moves with
  | expiring => exact absurd member (OrderedSet.not_mem_empty _)
  | @remembered timerId userCode unknown calling =>
      rcases (OrderedSet.mem_insert _ _ _).mp member with same | old
      · cases same
        exact Or.inr rfl
      · exact Or.inl old
  | stays => exact Or.inl member
  | newTimer => exact Or.inl member
  | added => exact Or.inl member
  | cancelled => exact Or.inl member
  | called => exact Or.inl member
  | finishCallbacks => exact Or.inl member
  | putBack => exact Or.inl member
  | finished => exact Or.inl member
  | settled => exact Or.inl member
  | alarmed => exact Or.inl member

/-- The batch only loses members, from the front. -/
theorem Moves.batch_or_removed {q next : TimerQueue} {event : Event}
    (moves : Moves q event next) (inside : q.phase ≠ .idle) :
    next.phase.batch = q.phase.batch ∨
      ∃ now it left, q.phase = .resetting now (it :: left) ∧
        next.phase = .resetting now left := by
  cases moves with
  | expiring idle => exact absurd idle inside
  | called calling =>
      left
      rw [calling]
      simp [TimerQueue.called, Phase.batch]
  | finishCallbacks calling =>
      left
      rw [calling]
      simp [TimerQueue.finishCallbacks, Phase.batch]
  | putBack resetting => exact Or.inr ⟨_, _, _, resetting, rfl⟩
  | finished resetting => exact Or.inr ⟨_, _, _, resetting, rfl⟩
  | settled clock resetting =>
      left
      rw [resetting]
      rfl
  | stays => exact Or.inl rfl
  | newTimer => exact Or.inl rfl
  | added => exact Or.inl rfl
  | cancelled => exact Or.inl rfl
  | remembered => exact Or.inl rfl
  | alarmed => exact Or.inl rfl

/-- While `reset` runs no user code does, so what it has put back stays. -/
theorem BackInQueue.step {q next : TimerQueue} {now reading : Timestamp} {timer : Address}
    {object : Timer} {left : List Expired} {event : Event} {place : Address → Place}
    (back : BackInQueue q now timer object) (tracks : Tracks q q.phase.batch place)
    (moves : Moves q event next) (allocates : Allocates q event)
    (resetting : q.phase = .resetting reading left) : BackInQueue next now timer object := by
  obtain ⟨restarted, timers, active⟩ := back
  obtain ⟨-, -, queued, -⟩ := ((tracks.everywhere timer).active_iff _).mp active
  have outside : ∀ it ∈ q.phase.batch, timer ≠ it.timer := by
    intro it member same
    obtain ⟨-, -, inBatch, -⟩ := tracks.batch_live member
    rw [← same, queued] at inBatch
    cases inBatch
  cases moves with
  | stays => exact ⟨restarted, timers, active⟩
  | newTimer fresh when_ interval sequence =>
      have different : timer ≠ fresh := by
        intro same
        rw [same, allocates.1] at restarted
        cases restarted
      exact ⟨(Function.update_of_ne different _ _).trans restarted, timers, active⟩
  | added clock userCode =>
      rw [resetting] at userCode
      cases userCode
  | cancelled userCode =>
      rw [resetting] at userCode
      cases userCode
  | remembered => exact ⟨restarted, timers, active⟩
  | expiring idle =>
      rw [resetting] at idle
      cases idle
  | called => exact ⟨restarted, timers, active⟩
  | finishCallbacks => exact ⟨restarted, timers, active⟩
  | putBack phase found =>
      have different := outside _ (by rw [phase]; exact List.mem_cons_self)
      constructor
      · exact (Function.update_of_ne different _ _).trans restarted
      · exact (OrderedSet.mem_insert _ _ _).mpr (Or.inr timers)
      · exact (OrderedSet.mem_insert _ _ _).mpr (Or.inr active)
  | finished phase found =>
      have different := outside _ (by rw [phase]; exact List.mem_cons_self)
      exact ⟨(Function.update_of_ne different _ _).trans restarted, timers, active⟩
  | settled => exact ⟨restarted, timers, active⟩
  | alarmed => exact ⟨restarted, timers, active⟩

/-- The turn of `reset` for a repeating timer that is not being cancelled. -/
theorem Moves.putBack_of_repeats {q next : TimerQueue} {event : Event} {now : Timestamp}
    {it : Expired} {left : List Expired} {object : Timer} (moves : Moves q event next)
    (resetting : q.phase = .resetting now (it :: left))
    (removed : next.phase = .resetting now left) (found : q.heap it.timer = some object)
    (repeats : object.repeat_ = true)
    (wanted : toLex (it.timer, object.sequence) ∉ q.cancelingTimers) :
    BackInQueue next now it.timer object := by
  have shorter : next.phase ≠ q.phase := by simp [resetting, removed]
  have restart : object.restart now =
      { object with expiration := now + object.interval.microseconds } := by
    rw [Timer.restart, if_pos repeats]
    rfl
  cases moves with
  | putBack phase foundSame =>
      rw [resetting] at phase
      cases phase
      rw [found] at foundSame
      cases foundSame
      constructor
      · rw [← restart]
        exact Function.update_self ..
      · apply (OrderedSet.mem_insert _ _ _).mpr
        rw [restart]
        exact Or.inl rfl
      · apply (OrderedSet.mem_insert _ _ _).mpr
        rw [Timer.restart_sequence]
        exact Or.inl rfl
  | finished phase foundSame ended =>
      rw [resetting] at phase
      cases phase
      rw [found] at foundSame
      cases foundSame
      exact absurd ⟨repeats, wanted⟩ ended
  | expiring idle =>
      rw [resetting] at idle
      cases idle
  | called calling =>
      rw [resetting] at calling
      cases calling
  | finishCallbacks calling =>
      rw [resetting] at calling
      cases calling
  | settled clock phase =>
      rw [resetting] at phase
      cases phase
  | stays => exact absurd rfl shorter
  | newTimer => exact absurd rfl shorter
  | added => exact absurd rfl shorter
  | cancelled => exact absurd rfl shorter
  | remembered => exact absurd rfl shorter
  | alarmed => exact absurd rfl shorter

theorem Underway.step {start q next : TimerQueue} {now : Timestamp} {due : List Expired}
    {during : List Event} {event : Event} {place : Address → Place}
    (underway : Underway start now due during q) (tracks : Tracks q q.phase.batch place)
    (moves : Moves q event next) (allocates : Allocates q event)
    (inside : next.phase ≠ .idle) : Underway start now due (during ++ [event]) next := by
  obtain ⟨progress, held, cancels, back⟩ := underway
  have batch := moves.batch_or_removed progress.not_idle
  have subset : ∀ it ∈ next.phase.batch, it ∈ q.phase.batch := by
    intro it member
    rcases batch with same | ⟨reading, first, left, before, after⟩
    · rw [← same]
      exact member
    · rw [after] at member
      rw [before]
      exact List.mem_cons_of_mem first member
  constructor
  · exact progress.step tracks moves inside
  · intro it member
    rw [moves.batch_heap tracks allocates member]
    exact held it (subset it member)
  · intro timer sequence member
    rcases moves.canceling member with old | rfl
    · exact List.mem_append_left _ (cancels timer sequence old)
    · exact List.mem_append_right _ List.mem_cons_self
  · intro it isDue absent object found repeats uncancelled
    have before : .cancelInLoop ⟨it.timer, object.sequence⟩ ∉ during :=
      fun member => uncancelled (List.mem_append_left _ member)
    by_cases member : it ∈ q.phase.batch
    · -- The member `reset` has just dealt with.
      rcases batch with same | ⟨reading, first, left, resetting, removed⟩
      · rw [same] at absent
        exact absurd member absent
      · rw [resetting] at member
        rw [removed] at absent
        rcases List.mem_cons.mp member with rfl | later
        · have reads := progress.reading (Or.inr ⟨_, resetting⟩)
          rw [reads] at resetting removed
          have here := held it (by rw [resetting]; exact List.mem_cons_self)
          exact moves.putBack_of_repeats resetting removed (here.trans found) repeats
            fun cancelled => before (cancels _ _ cancelled)
        · exact absurd later absent
    · have put := back it isDue member object found repeats before
      rcases progress with ⟨ran, waiting, phase, split, -⟩ | ⟨rest, left, phase, -⟩
      · rw [phase] at member
        rw [← split] at isDue
        exact absurd isDue member
      · exact put.step tracks moves allocates phase

/-! ### A whole call -/

theorem Reachable.handleRead {start : TimerQueue} (reachable : Reachable start)
    (idle : start.phase = .idle) (now : Timestamp) :
    ∃ expired active, step start (.handleRead now) = .ok (start.expiring now expired active) ∧
      Due start now expired := by
  obtain ⟨place, sound⟩ := reachable.invariant
  rw [idle] at sound
  obtain ⟨expired, active, ran, expires⟩ := handleRead_ok sound.tracks now
  refine ⟨expired, active, ?_, expires.due sound⟩
  simp only [Timers.step, idle]
  exact ran

theorem Turn.underway {start q : TimerQueue} {now : Timestamp} {during : List Event}
    (reachable : Reachable start) (turn : Turn start now during q) :
    Reachable q ∧ ∃ due, Due start now due ∧ Underway start now due during q := by
  induction turn with
  | opened idle taken =>
      obtain ⟨expired, active, takenSame, due⟩ := reachable.handleRead idle now
      refine ⟨reachable.after (by trivial) taken, expired, due, ?_⟩
      rw [taken] at takenSame
      cases takenSame
      constructor
      · exact Or.inl ⟨[], expired, rfl, rfl, (List.append_nil _).symm⟩
      · intro it _
        rfl
      · intro timer sequence member
        exact absurd member (OrderedSet.not_mem_empty _)
      · intro it isDue absent
        exact absurd isDue absent
  | next turn allocates taken inside ih =>
      obtain ⟨before, due, isDue, underway⟩ := ih
      obtain ⟨place, sound⟩ := before.invariant
      have moves := moves_of_step sound.tracks taken
      exact ⟨before.after allocates taken, due, isDue,
        underway.step sound.tracks moves allocates inside⟩

/-- The queue is between two calls of `handleRead` or inside one. -/
theorem Reachable.idle_or_turn {q : TimerQueue} (reachable : Reachable q) :
    q.phase = .idle ∨ ∃ start now during, Reachable start ∧ Turn start now during q := by
  obtain ⟨events, allocated, ran⟩ := reachable
  suffices holds : Reachable q ∧ (q.phase = .idle ∨
      ∃ start now during, Reachable start ∧ Turn start now during q) from holds.2
  refine run_keeps (fun q => Reachable q ∧ (q.phase = .idle ∨
    ∃ start now during, Reachable start ∧ Turn start now during q)) Allocates ?_ ?_ allocated ran
  · rintro q event next ⟨before, where_⟩ allocates taken
    refine ⟨before.after allocates taken, ?_⟩
    obtain ⟨place, sound⟩ := before.invariant
    have moves := moves_of_step sound.tracks taken
    by_cases outside : next.phase = .idle
    · exact Or.inl outside
    · right
      rcases where_ with idle | ⟨start, now, during, reachable, turn⟩
      · cases moves with
        | expiring => exact ⟨q, _, [], before, .opened idle taken⟩
        | called calling => simp [idle] at calling
        | finishCallbacks calling => simp [idle] at calling
        | putBack resetting => simp [idle] at resetting
        | finished resetting => simp [idle] at resetting
        | settled clock resetting => simp [idle] at resetting
        | stays => exact absurd idle outside
        | newTimer => exact absurd idle outside
        | added => exact absurd idle outside
        | cancelled => exact absurd idle outside
        | remembered => exact absurd idle outside
        | alarmed => exact absurd idle outside
      · exact ⟨start, now, during ++ [event], reachable, turn.next allocates taken outside⟩
  · exact ⟨⟨[], trivial, rfl⟩, Or.inl rfl⟩

/-- The end of the call. -/
theorem Turn.ended {start q after : TimerQueue} {now clock : Timestamp} {during : List Event}
    (reachable : Reachable start) (turn : Turn start now during q)
    (taken : step q (.finishReset clock) = .ok after) (idle : after.phase = .idle) :
    ∃ due, Due start now due ∧ after.fired = start.fired ++ due.map (record now) ∧
      ∀ it ∈ due, ∀ object, start.heap it.timer = some object → object.repeat_ = true →
        .cancelInLoop ⟨it.timer, it.sequence⟩ ∉ during →
        BackInQueue after now it.timer object := by
  obtain ⟨before, due, isDue, underway⟩ := turn.underway reachable
  obtain ⟨place, sound⟩ := before.invariant
  have moves := moves_of_step sound.tracks taken
  refine ⟨due, isDue, ?_⟩
  cases moves with
  | stays => exact absurd idle underway.progress.not_idle
  | settled clock resetting =>
      rcases underway.progress with ⟨ran, waiting, phase, -⟩ | ⟨put, left, phase, -, fired⟩
      · rw [resetting] at phase
        cases phase
      · refine ⟨fired, ?_⟩
        intro it member object found repeats uncancelled
        obtain ⟨same, foundSame, sequence, -⟩ := isDue.timers it member
        rw [found] at foundSame
        cases foundSame
        rw [← sequence] at uncancelled
        have absent : it ∉ q.phase.batch := by
          rw [resetting]
          exact List.not_mem_nil
        have back := underway.back it member absent object found repeats uncancelled
        exact ⟨back.restarted, back.timers, back.active⟩

/-- A callback is run in no other way than by a call whose reading of the
clock is not before the expiration the timer has. -/
theorem Reachable.fires_on_time {q next : TimerQueue} {event : Event}
    (reachable : Reachable q) (taken : step q event = .ok next) :
    next.fired = q.fired ∨ ∃ start now during timer object, Reachable start ∧
      Turn start now during q ∧ q.heap timer = some object ∧ object.expiration ≤ now ∧
      next.fired = q.fired ++ [(object.sequence, now)] := by
  obtain ⟨place, sound⟩ := reachable.invariant
  have moves := moves_of_step sound.tracks taken
  cases moves with
  | @called reading ran waiting it object calling found =>
      right
      rcases reachable.idle_or_turn with idle | ⟨start, now, during, reachableStart, turn⟩
      · simp [idle] at calling
      · obtain ⟨-, due, isDue, underway⟩ := turn.underway reachableStart
        have member : it ∈ q.phase.batch := by simp [calling, Phase.batch]
        have inDue := underway.progress.batch_subset member
        have entry : it.entry ∈ start.dueEntries now := by
          rw [← isDue.exactly]
          exact List.mem_map_of_mem inDue
        have onTime : it.when_ ≤ now := of_decide_eq_true (List.mem_filter.mp entry).2
        obtain ⟨same, foundSame, -, expiration⟩ := isDue.timers it inDue
        rw [← underway.held it member, found] at foundSame
        cases foundSame
        have reads := underway.progress.reading (Or.inl ⟨_, _, calling⟩)
        subst reads
        rw [← expiration] at onTime
        exact ⟨start, reading, during, it.timer, object, reachableStart, turn, found, onTime, rfl⟩
  | stays => exact Or.inl rfl
  | newTimer => exact Or.inl rfl
  | added => exact Or.inl rfl
  | cancelled => exact Or.inl rfl
  | remembered => exact Or.inl rfl
  | expiring => exact Or.inl rfl
  | finishCallbacks => exact Or.inl rfl
  | putBack => exact Or.inl rfl
  | finished => exact Or.inl rfl
  | settled => exact Or.inl rfl
  | alarmed => exact Or.inl rfl

/-! ### One-shot timers -/

/-- The members of the batch whose callback has been run. -/
def Phase.ran : Phase → List Expired
  | idle => []
  | calling _ ran _ => ran
  | resetting _ left => left

/-- A one-shot timer that has run is gone or will not leave the batch alive. -/
structure RunsOnce (sequence : Int) (q : TimerQueue) : Prop where
  oneShot : ∀ timer object, q.heap timer = some object → object.sequence = sequence →
    object.repeat_ = false
  once : (q.fired.map Prod.fst).count sequence ≤ 1
  spent : sequence ∈ q.fired.map Prod.fst →
    sequence ∈ q.deleted ∨ ∃ it ∈ q.phase.ran, it.sequence = sequence

/-- The callback that is about to be run belongs to a timer that has not been
run in this batch. -/
theorem Sound.next_not_ran {q : TimerQueue} {ran waiting : List Expired}
    {it other : Expired} {place : Address → Place}
    (sound : Sound q (ran ++ it :: waiting) place) (member : other ∈ ran) :
    other.sequence ≠ it.sequence := by
  intro same
  have here : it ∈ ran ++ it :: waiting := by simp
  obtain ⟨object, found, -, sequence⟩ := sound.tracks.batch_live here
  obtain ⟨held, foundHeld, -, heldSequence⟩ :=
    sound.tracks.batch_live (List.mem_append_left (it :: waiting) member)
  have equal : other.timer = it.timer :=
    sound.accounts.distinct _ _ held object foundHeld found
      (heldSequence.trans (same.trans sequence.symm))
  have nodup := sound.tracks.batch_nodup
  rw [List.map_append, List.nodup_append] at nodup
  exact nodup.2.2 _ (List.mem_map_of_mem member) _ (List.mem_map_of_mem List.mem_cons_self) equal

theorem RunsOnce.congr {sequence : Int} {q next : TimerQueue} (runs : RunsOnce sequence q)
    (heap : next.heap = q.heap) (fired : next.fired = q.fired)
    (deleted : next.deleted = q.deleted) (phase : next.phase.ran = q.phase.ran) :
    RunsOnce sequence next where
  oneShot := by rw [heap]; exact runs.oneShot
  once := by rw [fired]; exact runs.once
  spent := by rw [fired, deleted, phase]; exact runs.spent

/-- Changing one cell of the heap to a timer of another kind. -/
theorem one_shot_update {sequence : Int} {heap : Address → Option Timer} {timer : Address}
    {content : Option Timer}
    (oneShot : ∀ timer object, heap timer = some object → object.sequence = sequence →
      object.repeat_ = false)
    (changed : ∀ object, content = some object → object.sequence = sequence →
      object.repeat_ = false) :
    ∀ other object, Function.update heap timer content other = some object →
      object.sequence = sequence → object.repeat_ = false := by
  intro other object found
  by_cases same : other = timer
  · subst same
    rw [Function.update_self] at found
    exact changed object found
  · rw [Function.update_of_ne same] at found
    exact oneShot other object found

/-- The timer of a sequence number, if it is ever made, is a one-shot timer. -/
def CreatesOneShot (sequence : Int) : Event → Prop
  | .newTimer _ _ interval created => created = sequence → interval.positive = false
  | _ => True

/-- A one-shot timer that is called has not run before: it lives, and it stands
behind the members that have run. -/
theorem RunsOnce.called {sequence : Int} {q : TimerQueue} {place : Address → Place}
    {now : Timestamp} {ran waiting : List Expired} {it : Expired} {object : Timer}
    (runs : RunsOnce sequence q)
    (sound : Sound q q.phase.batch place) (calling : q.phase = .calling now ran (it :: waiting))
    (found : q.heap it.timer = some object) :
    RunsOnce sequence (q.called now ran it waiting object) := by
  have member : it ∈ q.phase.batch := by simp [calling, Phase.batch]
  have sequenceSame := sound.tracks.batch_sequence member found
  have fired : (q.called now ran it waiting object).fired.map Prod.fst =
      q.fired.map Prod.fst ++ [object.sequence] := by
    simp [TimerQueue.called]
  by_cases own : object.sequence = sequence
  · have notRun : sequence ∉ q.fired.map Prod.fst := by
      intro hasRun
      rcases runs.spent hasRun with gone | ⟨other, inRan, otherSequence⟩
      · rw [← own] at gone
        exact sound.accounts.live_not_deleted it.timer object found gone
      · rw [calling] at inRan sound
        exact sound.next_not_ran inRan
          (otherSequence.trans (own.symm.trans sequenceSame))
    constructor
    · exact runs.oneShot
    · rw [fired, List.count_append, List.count_eq_zero_of_not_mem notRun]
      simp [own]
    · intro _
      exact Or.inr ⟨it, List.mem_append_right ran List.mem_cons_self,
        sequenceSame.symm.trans own⟩
  · constructor
    · exact runs.oneShot
    · rw [fired, List.count_append]
      simpa [own] using runs.once
    · rw [fired, List.mem_append, List.mem_singleton]
      intro hasRun
      rcases hasRun with before | new
      · rcases runs.spent before with gone | ⟨other, inRan, otherSequence⟩
        · exact Or.inl gone
        · rw [calling] at inRan
          exact Or.inr ⟨other, List.mem_append_left [it] inRan, otherSequence⟩
      · exact absurd new.symm own

theorem RunsOnce.step {sequence : Int} {q next : TimerQueue} {event : Event}
    {place : Address → Place} (runs : RunsOnce sequence q)
    (sound : Sound q q.phase.batch place) (moves : Moves q event next)
    (creates : CreatesOneShot sequence event) : RunsOnce sequence next := by
  cases moves with
  | stays => exact runs
  | newTimer timer when_ interval created =>
      constructor
      · apply one_shot_update runs.oneShot
        intro object made same
        cases made
        exact creates same
      · exact runs.once
      · exact runs.spent
  | added => exact runs.congr rfl rfl rfl rfl
  | cancelled =>
      constructor
      · exact one_shot_update runs.oneShot (fun _ gone => by cases gone)
      · exact runs.once
      · intro hasRun
        rcases runs.spent hasRun with gone | inBatch
        · exact Or.inl (List.mem_append_left _ gone)
        · exact Or.inr inBatch
  | remembered => exact runs.congr rfl rfl rfl rfl
  | expiring idle => exact runs.congr rfl rfl rfl (by rw [idle]; rfl)
  | called calling found => exact runs.called sound calling found
  | finishCallbacks calling => exact runs.congr rfl rfl rfl (by rw [calling]; rfl)
  | @putBack now it left object resetting found repeats =>
      have other : object.sequence ≠ sequence := by
        intro own
        rw [runs.oneShot it.timer object found own] at repeats
        cases repeats
      have member : it ∈ q.phase.batch := by simp [resetting, Phase.batch]
      have sequenceSame := sound.tracks.batch_sequence member found
      constructor
      · apply one_shot_update runs.oneShot
        intro changed made own
        cases made
        rw [Timer.restart_sequence] at own
        exact absurd own other
      · exact runs.once
      · intro hasRun
        rcases runs.spent hasRun with gone | ⟨kept, inLeft, keptSequence⟩
        · exact Or.inl gone
        · rw [resetting] at inLeft
          rcases List.mem_cons.mp inLeft with rfl | later
          · exact absurd (sequenceSame.trans keptSequence) other
          · exact Or.inr ⟨kept, later, keptSequence⟩
  | @finished now it left object resetting found =>
      have member : it ∈ q.phase.batch := by simp [resetting, Phase.batch]
      have sequenceSame := sound.tracks.batch_sequence member found
      constructor
      · exact one_shot_update runs.oneShot (fun _ gone => by cases gone)
      · exact runs.once
      · intro hasRun
        rcases runs.spent hasRun with gone | ⟨kept, inLeft, keptSequence⟩
        · exact Or.inl (List.mem_append_left _ gone)
        · rw [resetting] at inLeft
          rcases List.mem_cons.mp inLeft with rfl | later
          · rw [← keptSequence, ← sequenceSame]
            exact Or.inl (List.mem_append_right _ List.mem_cons_self)
          · exact Or.inr ⟨kept, later, keptSequence⟩
  | settled clock resetting => exact runs.congr rfl rfl rfl (by rw [resetting]; rfl)
  | alarmed => exact runs.congr rfl rfl rfl rfl

theorem one_shot_runs_once {events : List Event} {q : TimerQueue} {sequence : Int}
    (allocated : AllSteps step Allocates TimerQueue.new events)
    (ran : run step TimerQueue.new events = .ok q)
    (oneShot : ∀ timer when_ interval, .newTimer timer when_ interval sequence ∈ events →
      interval.positive = false) :
    (q.fired.map Prod.fst).count sequence ≤ 1 := by
  have creates : AllSteps step (fun _ event => CreatesOneShot sequence event)
      TimerQueue.new events := by
    apply all_steps_of_forall
    intro state event member
    cases event with
    | newTimer timer when_ interval created =>
        intro same
        subst same
        exact oneShot timer when_ interval member
    | _ => trivial
  have kept : Invariant q ∧ RunsOnce sequence q := by
    refine run_keeps (fun q => Invariant q ∧ RunsOnce sequence q) _ ?_ ?_
      (allocated.both creates) ran
    · intro before event next invariant admitted taken
      obtain ⟨⟨place, sound⟩, runs⟩ := invariant
      have moves := moves_of_step sound.tracks taken
      exact ⟨moves.sound sound admitted.1, runs.step sound moves admitted.2⟩
    · refine ⟨invariant_new, ?_, ?_, ?_⟩
      · intro timer object found
        cases found
      · exact Nat.zero_le 1
      · intro hasRun
        cases hasRun
  exact kept.2.once

/-! ### The call comes to its end -/

/-- The turns of its two loops and the steps between them that a call of
`handleRead` still has to make. -/
def Phase.remaining : Phase → Nat
  | idle => 0
  | calling _ ran waiting => 2 * waiting.length + ran.length + 2
  | resetting _ left => left.length + 1

/-- When the callbacks return, the loop thread gets on with the call. -/
theorem Invariant.advances {q : TimerQueue} (invariant : Invariant q)
    (inside : q.phase ≠ .idle) :
    ∃ event next, (∀ q, Allocates q event) ∧ step q event = .ok next ∧
      next.phase.remaining < q.phase.remaining := by
  obtain ⟨place, sound⟩ := invariant
  have tracks := sound.tracks
  cases phase : q.phase with
  | idle => exact absurd phase inside
  | calling now ran waiting =>
      cases waiting with
      | nil =>
          refine ⟨.finishCallbacks, q.finishCallbacks now ran, fun _ => trivial, ?_, ?_⟩
          · simp only [step, phase]
          · simp [TimerQueue.finishCallbacks, Phase.remaining]
      | cons it rest =>
          have member : it ∈ q.phase.batch := by simp [phase, Phase.batch]
          obtain ⟨object, found, -, -⟩ := tracks.batch_live member
          refine ⟨.runCallback, q.called now ran it rest object, fun _ => trivial, ?_, ?_⟩
          · simp only [step, phase]
            exact runCallback_ok found now ran rest
          · simp only [TimerQueue.called, Phase.remaining, List.length_append, List.length_cons,
              List.length_nil]
            omega
  | resetting now left =>
      cases left with
      | nil =>
          refine ⟨.finishReset now, q.settled now, fun _ => trivial, ?_, ?_⟩
          · rw [phase] at tracks
            simp only [step, phase]
            exact finishReset_ok tracks now
          · exact Nat.lt_add_one 0
      | cons it rest =>
          have member : it ∈ q.phase.batch := by simp [phase, Phase.batch]
          obtain ⟨object, found, -, -⟩ := tracks.batch_live member
          rw [phase] at tracks
          by_cases again : object.repeat_ = true ∧
              toLex (it.timer, object.sequence) ∉ q.cancelingTimers
          · refine ⟨.resetNext, q.putBack now it rest object, fun _ => trivial, ?_, ?_⟩
            · simp only [step, phase]
              exact resetNext_ok_again tracks found again now
            · exact Nat.lt_add_one (rest.length + 1)
          · refine ⟨.resetNext, q.finished now it rest object, fun _ => trivial, ?_, ?_⟩
            · simp only [step, phase]
              exact resetNext_ok_ended found again now
            · exact Nat.lt_add_one (rest.length + 1)

theorem Reachable.comes_to_end {q : TimerQueue} (reachable : Reachable q) :
    ∃ rest after, run step q rest = .ok after ∧ Reachable after ∧ after.phase = .idle := by
  -- The induction is on what is left of the call.
  induction amount : q.phase.remaining using Nat.strong_induction_on generalizing q with
  | _ amount ih =>
      by_cases idle : q.phase = .idle
      · exact ⟨[], q, rfl, reachable, idle⟩
      · obtain ⟨event, next, allocates, taken, fewer⟩ := reachable.invariant.advances idle
        rw [amount] at fewer
        obtain ⟨rest, after, ran, reachableAfter, ended⟩ :=
          ih _ fewer (reachable.after (allocates q) taken) rfl
        exact ⟨event :: rest, after, (run_cons_ok rest taken).trans ran, reachableAfter, ended⟩

/-- Timers fire when they are due. Every state is outside `handleRead` or
inside a call of it, which comes to its end. Inside, the callbacks run so far
are those of a prefix of the timers that were due at the clock reading, and at
the end they have all been run and the repeating timers nobody cancelled are
back in the queue. A callback is not run before the expiration of its timer,
and a one-shot timer is not run twice. -/
theorem timers_fire_when_due :
    (∀ q, Reachable q → q.phase = .idle ∨
      ∃ start now during, Reachable start ∧ Turn start now during q) ∧
    (∀ q, Reachable q →
      ∃ rest after, run step q rest = .ok after ∧ Reachable after ∧ after.phase = .idle) ∧
    (∀ start now during q, Reachable start → Turn start now during q →
      ∃ due, Due start now due ∧ Progress start now due q) ∧
    (∀ start now during q clock after, Reachable start → Turn start now during q →
      step q (.finishReset clock) = .ok after → after.phase = .idle →
      ∃ due, Due start now due ∧ after.fired = start.fired ++ due.map (record now) ∧
        ∀ it ∈ due, ∀ object, start.heap it.timer = some object → object.repeat_ = true →
          .cancelInLoop ⟨it.timer, it.sequence⟩ ∉ during →
          BackInQueue after now it.timer object) ∧
    (∀ q event next, Reachable q → step q event = .ok next →
      next.fired = q.fired ∨ ∃ start now during timer object, Reachable start ∧
        Turn start now during q ∧ q.heap timer = some object ∧ object.expiration ≤ now ∧
        next.fired = q.fired ++ [(object.sequence, now)]) ∧
    (∀ events q sequence, AllSteps step Allocates TimerQueue.new events →
      run step TimerQueue.new events = .ok q →
      (∀ timer when_ interval, .newTimer timer when_ interval sequence ∈ events →
        interval.positive = false) →
      (q.fired.map Prod.fst).count sequence ≤ 1) := by
  refine ⟨?_, ?_, ?_, ?_, ?_, ?_⟩
  · intro q reachable
    exact reachable.idle_or_turn
  · intro q reachable
    exact reachable.comes_to_end
  · intro start now during q reachable turn
    obtain ⟨-, due, isDue, underway⟩ := turn.underway reachable
    exact ⟨due, isDue, underway.progress⟩
  · intro start now during q clock after reachable turn taken idle
    exact turn.ended reachable taken idle
  · intro q event next reachable taken
    exact reachable.fires_on_time taken
  · intro events q sequence allocated ran oneShot
    exact one_shot_runs_once allocated ran oneShot

-- A timer that is due at the reading itself runs; one its callback adds, though already due,
-- does not run before the next call.
set_option maxRecDepth 4000 in
example : (run step TimerQueue.new [.newTimer 16 100 ⟨true, 50⟩ 1, .addTimerInLoop 16 20,
    .handleRead 100, .runCallback, .newTimer 32 90 ⟨false, 0⟩ 2, .addTimerInLoop 32 101,
    .finishCallbacks, .resetNext, .finishReset 102]).toOption.map
      (fun q => (q.fired, q.timers.elements.map ofLex)) =
    some ([(1, 100)], [(90, 32), (150, 16)]) := by
  decide

end Msmuduo.Timers
