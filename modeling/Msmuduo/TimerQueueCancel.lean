import Msmuduo.TimerQueueFiring

/-!
# Cancelling timers

`cancelInLoop` erases a waiting timer at once, remembers a timer of the batch
for `reset`, and ignores anything else. A cancelled timer is gone when the
current call of `handleRead` is over and never runs again; every other timer is
left as it was, also the one that lives at the address of a finished timer.
-/

namespace Msmuduo.Timers

open Msmuduo.Machine

set_option autoImplicit false

/-! ### What has been deleted -/

def firedBy (sequence : Int) (q : TimerQueue) : List (Int × Timestamp) :=
  q.fired.filter fun call => call.1 = sequence

/-- The timer has been deleted and is in neither set. -/
structure Gone (sequence : Int) (q : TimerQueue) : Prop where
  deleted : sequence ∈ q.deleted
  dead : ∀ timer object, q.heap timer = some object → object.sequence ≠ sequence
  active : ∀ timer, toLex (timer, sequence) ∉ q.activeTimers
  timers : ∀ when_ timer, toLex (when_, timer) ∈ q.timers →
    ∃ object, q.heap timer = some object ∧ object.sequence ≠ sequence

theorem Sound.gone {q : TimerQueue} {sequence : Int} {place : Address → Place}
    (sound : Sound q q.phase.batch place) (deleted : sequence ∈ q.deleted) :
    Gone sequence q := by
  have dead : ∀ timer object, q.heap timer = some object → object.sequence ≠ sequence := by
    intro timer object found same
    rw [← same] at deleted
    exact sound.accounts.live_not_deleted timer object found deleted
  constructor
  · exact deleted
  · exact dead
  · intro timer member
    obtain ⟨object, found, -, same⟩ :=
      ((sound.tracks.everywhere timer).active_iff sequence).mp member
    exact dead timer object found same
  · intro when_ timer member
    obtain ⟨object, found, -, -⟩ := ((sound.tracks.everywhere timer).timers_iff when_).mp member
    exact ⟨object, found, dead timer object found⟩

theorem Moves.deleted_stays {q next : TimerQueue} {event : Event} {sequence : Int}
    (moves : Moves q event next) (deleted : sequence ∈ q.deleted) :
    sequence ∈ next.deleted := by
  cases moves with
  | cancelled => exact List.mem_append_left _ deleted
  | finished => exact List.mem_append_left _ deleted
  | _ => exact deleted

/-- Only a live timer runs. -/
theorem Moves.fired_deleted {q next : TimerQueue} {event : Event} {sequence : Int}
    {place : Address → Place} (moves : Moves q event next)
    (sound : Sound q q.phase.batch place) (deleted : sequence ∈ q.deleted) :
    firedBy sequence next = firedBy sequence q := by
  cases moves with
  | @called now ran waiting it object calling found =>
      have other := (sound.gone deleted).dead it.timer object found
      simp [firedBy, TimerQueue.called, List.filter_append, other]
  | _ => rfl

/-- A deleted timer stays deleted and never runs again. -/
theorem Reachable.deleted_forever {q later : TimerQueue} {rest : List Event} {sequence : Int}
    (reachable : Reachable q) (deleted : sequence ∈ q.deleted)
    (allocated : AllSteps step Allocates q rest) (ran : run step q rest = .ok later) :
    Gone sequence later ∧ firedBy sequence later = firedBy sequence q := by
  have kept : sequence ∈ later.deleted ∧ firedBy sequence later = firedBy sequence q := by
    refine reachable.carries (fun state => sequence ∈ state.deleted ∧
      firedBy sequence state = firedBy sequence q) ?_ ⟨deleted, rfl⟩ allocated ran
    intro state event next place sound allocates moves before
    obtain ⟨gone, same⟩ := before
    exact ⟨moves.deleted_stays gone, (moves.fired_deleted sound gone).trans same⟩
  obtain ⟨place, sound⟩ := (reachable.continues allocated ran).invariant
  exact ⟨sound.gone kept.1, kept.2⟩

/-! ### A cancelled timer of the batch -/

/-- The timer is gone, or `reset` will find it in `cancelingTimers_`. -/
def Doomed (timer : Address) (sequence : Int) (q : TimerQueue) : Prop :=
  sequence ∈ q.deleted ∨ (toLex (timer, sequence) ∈ q.cancelingTimers ∧
    ∃ it ∈ q.phase.batch, it.timer = timer ∧ it.sequence = sequence)

theorem Doomed.step {q next : TimerQueue} {event : Event} {timer : Address} {sequence : Int}
    {place : Address → Place} (doomed : Doomed timer sequence q)
    (tracks : Tracks q q.phase.batch place) (moves : Moves q event next) :
    Doomed timer sequence next := by
  rcases doomed with gone | ⟨canceling, it, member, sameTimer, sameSequence⟩
  · exact Or.inl (moves.deleted_stays gone)
  · cases moves with
    | expiring idle =>
        rw [idle] at member
        cases member
    | remembered =>
        exact Or.inr ⟨(OrderedSet.mem_insert _ _ _).mpr (Or.inr canceling),
          it, member, sameTimer, sameSequence⟩
    | called calling =>
        refine Or.inr ⟨canceling, it, ?_, sameTimer, sameSequence⟩
        rw [calling] at member
        simpa [TimerQueue.called, Phase.batch] using member
    | finishCallbacks calling =>
        refine Or.inr ⟨canceling, it, ?_, sameTimer, sameSequence⟩
        rw [calling] at member
        simpa [TimerQueue.finishCallbacks, Phase.batch] using member
    | @putBack now first left object resetting found repeats wanted =>
        rw [resetting] at member
        rcases List.mem_cons.mp member with rfl | later
        · rw [resetting] at tracks
          have sequenceSame := tracks.batch_sequence member found
          rw [sequenceSame, sameTimer, sameSequence] at wanted
          exact absurd canceling wanted
        · exact Or.inr ⟨canceling, it, later, sameTimer, sameSequence⟩
    | @finished now first left object resetting found ended =>
        rw [resetting] at member
        rcases List.mem_cons.mp member with rfl | later
        · rw [resetting] at tracks
          have sequenceSame := tracks.batch_sequence member found
          refine Or.inl (List.mem_append_right _ ?_)
          rw [sequenceSame, sameSequence]
          exact List.mem_cons_self
        · exact Or.inr ⟨canceling, it, later, sameTimer, sameSequence⟩
    | settled clock resetting =>
        rw [resetting] at member
        cases member
    | _ => exact Or.inr ⟨canceling, it, member, sameTimer, sameSequence⟩

/-- When the call of `handleRead` is over the timer is gone. -/
theorem Reachable.doomed_gone {q later : TimerQueue} {rest : List Event} {timer : Address}
    {sequence : Int} (reachable : Reachable q) (doomed : Doomed timer sequence q)
    (allocated : AllSteps step Allocates q rest) (ran : run step q rest = .ok later)
    (idle : later.phase = .idle) : sequence ∈ later.deleted := by
  have kept : Doomed timer sequence later := by
    refine reachable.carries (Doomed timer sequence) ?_ doomed allocated ran
    intro state event next place sound allocates moves before
    exact before.step sound.tracks moves
  rcases kept with gone | ⟨-, it, member, -⟩
  · exact gone
  · rw [idle] at member
    cases member

/-- `callingExpiredTimers_` is set while the callbacks run. -/
def CallingMarked (q : TimerQueue) : Prop :=
  ∀ now ran waiting, q.phase = .calling now ran waiting → q.callingExpiredTimers = true

theorem Moves.calling_marked {q next : TimerQueue} {event : Event}
    (moves : Moves q event next) (marked : CallingMarked q) : CallingMarked next := by
  intro now ran waiting phase
  cases moves with
  | expiring => rfl
  | called calling => exact marked _ _ _ calling
  | finishCallbacks => cases phase
  | putBack => cases phase
  | finished => cases phase
  | settled => cases phase
  | _ => exact marked now ran waiting phase

theorem reachable_new : Reachable TimerQueue.new := ⟨[], trivial, rfl⟩

theorem Reachable.calling_marked {q : TimerQueue} (reachable : Reachable q) :
    CallingMarked q := by
  obtain ⟨events, allocated, ran⟩ := reachable
  refine reachable_new.carries CallingMarked ?_ ?_ allocated ran
  · intro state event next place sound allocates moves marked
    exact moves.calling_marked marked
  · intro now ran waiting phase
    cases phase

/-! ### The call of `cancelInLoop` -/

section

variable {q next : TimerQueue} {id : TimerId} {object : Timer}

/-- A timer that waits is deleted by the call. -/
theorem Reachable.cancel_waiting (reachable : Reachable q)
    (userCode : q.phase.inUserCode = true)
    (waiting : toLex (id.timer, id.sequence) ∈ q.activeTimers)
    (taken : step q (.cancelInLoop id) = .ok next) : id.sequence ∈ next.deleted := by
  obtain ⟨place, sound⟩ := reachable.invariant
  obtain ⟨timer, sequence⟩ := id
  obtain ⟨object, found, queued, rfl⟩ :=
    ((sound.tracks.everywhere timer).active_iff sequence).mp waiting
  simp only [step, if_pos userCode, cancelInLoop_ok_active sound.tracks found queued] at taken
  cases taken
  exact List.mem_append_right _ List.mem_cons_self

/-- A timer of the queue that lives is deleted by the call or left to `reset`. -/
theorem Reachable.cancel_doomed (reachable : Reachable q)
    (userCode : q.phase.inUserCode = true) (found : q.heap id.timer = some object)
    (own : object.sequence = id.sequence) (handed : id.sequence ∈ q.handed)
    (taken : step q (.cancelInLoop id) = .ok next) : Doomed id.timer id.sequence next := by
  by_cases waiting : toLex (id.timer, id.sequence) ∈ q.activeTimers
  · exact Or.inl (reachable.cancel_waiting userCode waiting taken)
  · obtain ⟨place, sound⟩ := reachable.invariant
    have tracksAt := sound.tracks.everywhere id.timer
    have inBatch : place id.timer = .batch := by
      rcases (sound.accounts.handed_iff id.sequence).mp handed with gone | ⟨timer, held, foundHeld,
        same, away⟩
      · exact absurd own ((sound.gone gone).dead id.timer object found)
      · have here : timer = id.timer :=
          sound.accounts.distinct _ _ held object foundHeld found (same.trans own.symm)
        rw [here] at away
        cases where_ : place id.timer with
        | posted => exact absurd where_ away
        | queued => exact absurd ((tracksAt.active_iff _).mpr ⟨object, found, where_, own⟩) waiting
        | batch => rfl
        | loose => exact absurd where_ (sound.settled _ object found)
    obtain ⟨it, member, sameTimer, sameSequence⟩ :=
      (tracksAt.batch_iff id.sequence).mpr ⟨object, found, inBatch, own⟩
    have calling : q.callingExpiredTimers = true := by
      cases phase : q.phase with
      | idle =>
          rw [phase] at member
          cases member
      | calling now ran rest => exact reachable.calling_marked now ran rest phase
      | resetting now left =>
          rw [phase] at userCode
          cases userCode
    simp only [step, if_pos userCode, cancelInLoop_ok_unknown sound.tracks waiting,
      if_pos calling] at taken
    cases taken
    exact Or.inr ⟨(OrderedSet.mem_insert _ _ _).mpr (Or.inl rfl),
      it, member, sameTimer, sameSequence⟩

/-- A timer and everything the queue knows of it are as they were. -/
structure Undisturbed (q next : TimerQueue) (timer : Address) (sequence : Int) : Prop where
  heap : next.heap timer = q.heap timer
  posted : timer ∈ next.posted ↔ timer ∈ q.posted
  timers : ∀ when_, toLex (when_, timer) ∈ next.timers ↔ toLex (when_, timer) ∈ q.timers
  active : toLex (timer, sequence) ∈ next.activeTimers ↔
    toLex (timer, sequence) ∈ q.activeTimers
  canceling : toLex (timer, sequence) ∈ next.cancelingTimers ↔
    toLex (timer, sequence) ∈ q.cancelingTimers
  phase : next.phase = q.phase
  alarm : next.alarm = q.alarm ∧ next.wakeupBytes = q.wakeupBytes
  fired : next.fired = q.fired

theorem Reachable.cancel_undisturbed (reachable : Reachable q)
    (taken : step q (.cancelInLoop id) = .ok next) {timer : Address}
    (found : q.heap timer = some object)
    (other : (timer, object.sequence) ≠ (id.timer, id.sequence)) :
    Undisturbed q next timer object.sequence := by
  obtain ⟨place, sound⟩ := reachable.invariant
  have moves := moves_of_step sound.tracks taken
  cases moves with
  | stays => constructor <;> simp
  | @cancelled erased held userCode foundHeld waiting =>
      -- The sequence numbers differ, or there would be two timers at one address.
      have different : timer ≠ erased := by
        intro same
        subst same
        rw [found] at foundHeld
        cases foundHeld
        exact other rfl
      constructor
      · exact Function.update_of_ne different _ _
      · exact Iff.rfl
      · intro when_
        simp [TimerQueue.cancelled, different]
      · simp [TimerQueue.cancelled, different]
      · exact Iff.rfl
      · rfl
      · exact ⟨rfl, rfl⟩
      · rfl
  | remembered =>
      constructor
      · rfl
      · exact Iff.rfl
      · exact fun _ => Iff.rfl
      · exact Iff.rfl
      · rw [TimerQueue.remembered, OrderedSet.mem_insert]
        exact or_iff_right other
      · rfl
      · exact ⟨rfl, rfl⟩
      · rfl

end

/-- What can happen to a timer: its own cancellation, or the end of a call of
`handleRead` that ran it, where it is put back unless it is a one-shot timer
or was itself cancelled in that call. -/
theorem Reachable.changed_by {q next : TimerQueue} {event : Event} {timer : Address}
    {object : Timer} (reachable : Reachable q) (allocates : Allocates q event)
    (taken : step q event = .ok next) (found : q.heap timer = some object)
    (changed : next.heap timer ≠ some object) :
    event = .cancelInLoop ⟨timer, object.sequence⟩ ∨
      ∃ start now during, Reachable start ∧ Turn start now during q ∧
        (BackInQueue next now timer object ∨ object.repeat_ = false ∨
          .cancelInLoop ⟨timer, object.sequence⟩ ∈ during) := by
  obtain ⟨place, sound⟩ := reachable.invariant
  have moves := moves_of_step sound.tracks taken
  have elsewhere : ∀ {other : Address} {content : Option Timer}, timer ≠ other →
      Function.update q.heap other content timer = some object := by
    intro other content different
    rw [Function.update_of_ne different, found]
  have inTurn : ∀ {reading : Timestamp} {left : List Expired},
      q.phase = .resetting reading left → ∃ start during, Reachable start ∧
        Turn start reading during q ∧ ∀ timer sequence,
          toLex (timer, sequence) ∈ q.cancelingTimers →
          .cancelInLoop ⟨timer, sequence⟩ ∈ during := by
    intro reading left resetting
    rcases reachable.idle_or_turn with idle | ⟨start, now, during, reachableStart, turn⟩
    · simp [idle] at resetting
    · obtain ⟨-, due, -, underway⟩ := turn.underway reachableStart
      have reads := underway.progress.reading (Or.inr ⟨_, resetting⟩)
      subst reads
      exact ⟨start, during, reachableStart, turn, underway.cancels⟩
  cases moves with
  | newTimer fresh =>
      have different : timer ≠ fresh := by
        intro same
        rw [same, allocates.1] at found
        cases found
      exact absurd (elsewhere different) changed
  | @cancelled erased held userCode foundHeld waiting =>
      by_cases same : timer = erased
      · subst same
        rw [found] at foundHeld
        cases foundHeld
        exact Or.inl rfl
      · exact absurd (elsewhere same) changed
  | @putBack now it left held resetting foundHeld repeats wanted =>
      by_cases same : timer = it.timer
      · subst same
        rw [found] at foundHeld
        cases foundHeld
        obtain ⟨start, during, reachableStart, turn, -⟩ := inTurn resetting
        have moves : Moves q .resetNext (q.putBack now it left object) :=
          .putBack resetting found repeats wanted
        exact Or.inr ⟨start, now, during, reachableStart, turn,
          Or.inl (moves.putBack_of_repeats resetting rfl found repeats wanted)⟩
      · exact absurd (elsewhere same) changed
  | @finished now it left held resetting foundHeld ended =>
      by_cases same : timer = it.timer
      · subst same
        rw [found] at foundHeld
        cases foundHeld
        obtain ⟨start, during, reachableStart, turn, cancels⟩ := inTurn resetting
        refine Or.inr ⟨start, now, during, reachableStart, turn, Or.inr ?_⟩
        cases repeats : object.repeat_ with
        | false => exact Or.inl rfl
        | true =>
            right
            apply cancels
            by_contra wanted
            exact ended ⟨repeats, wanted⟩
      · exact absurd (elsewhere same) changed
  | _ => exact absurd found changed

/-- Cancellation is effective and precise. A timer of the queue that lives
when `cancelInLoop` is called with its identifier is gone when the current
call of `handleRead` is over, if there is one, and from then on its callback
is not run; if it was waiting it is gone at once. Every other timer is left
undisturbed, and nothing stops or delays a timer but its own cancellation and
the end of a call that has run it. -/
theorem cancel_effective_and_precise :
    (∀ q id object next, Reachable q → q.phase.inUserCode = true →
      q.heap id.timer = some object → object.sequence = id.sequence → id.sequence ∈ q.handed →
      step q (.cancelInLoop id) = .ok next →
      (toLex (id.timer, id.sequence) ∈ q.activeTimers → Gone id.sequence next) ∧
      ∀ rest after, AllSteps step Allocates next rest → run step next rest = .ok after →
        after.phase = .idle → Gone id.sequence after ∧
        ∀ more final, AllSteps step Allocates after more → run step after more = .ok final →
          Gone id.sequence final ∧ firedBy id.sequence final = firedBy id.sequence after) ∧
    (∀ q id next, Reachable q → step q (.cancelInLoop id) = .ok next →
      ∀ timer object, q.heap timer = some object →
        (timer, object.sequence) ≠ (id.timer, id.sequence) →
        Undisturbed q next timer object.sequence) ∧
    (∀ q event next timer object, Reachable q → Allocates q event → step q event = .ok next →
      q.heap timer = some object → next.heap timer ≠ some object →
      event = .cancelInLoop ⟨timer, object.sequence⟩ ∨
        ∃ start now during, Reachable start ∧ Turn start now during q ∧
          (BackInQueue next now timer object ∨ object.repeat_ = false ∨
            .cancelInLoop ⟨timer, object.sequence⟩ ∈ during)) := by
  refine ⟨?_, ?_, ?_⟩
  · intro q id object next reachable userCode found own handed taken
    have reachableNext : Reachable next := reachable.after (by trivial) taken
    constructor
    · intro waiting
      obtain ⟨place, sound⟩ := reachableNext.invariant
      exact sound.gone (reachable.cancel_waiting userCode waiting taken)
    · intro rest after allocated ran idle
      have doomed := reachable.cancel_doomed userCode found own handed taken
      have deleted := reachableNext.doomed_gone doomed allocated ran idle
      have reachableAfter := reachableNext.continues allocated ran
      constructor
      · obtain ⟨place, sound⟩ := reachableAfter.invariant
        exact sound.gone deleted
      · intro more final allocatedMore ranMore
        exact reachableAfter.deleted_forever deleted allocatedMore ranMore
  · intro q id next reachable taken timer object found other
    exact reachable.cancel_undisturbed taken found other
  · intro q event next timer object reachable allocates taken found changed
    exact reachable.changed_by allocates taken found changed

end Msmuduo.Timers
