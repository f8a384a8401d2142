import Msmuduo.TimerQueueMoves

/-!
# Runs of the timer queue

Every event, wherever the loop thread stands, meets the assertions on its way
and leaves each timer in one place. By induction this holds along every run:
any timers, any cancellations, current or stale, any readings of the clock,
and callbacks that add and cancel while their batch is being run.
-/

namespace Msmuduo.Timers

open Msmuduo.Machine

set_option autoImplicit false

/-- The invariant between two events: no timer is in the middle of a move. -/
structure Sound (q : TimerQueue) (batch : List Expired) (place : Address → Place) : Prop where
  tracks : Tracks q batch place
  accounts : Accounts q place
  settled : ∀ timer object, q.heap timer = some object → place timer ≠ .loose

section

variable {q next : TimerQueue} {batch : List Expired} {place : Address → Place}
variable {timer : Address} {object : Timer} {here : Place}

theorem Sound.congr (sound : Sound q batch place) (heap : next.heap = q.heap)
    (posted : next.posted = q.posted) (timers : next.timers = q.timers)
    (active : next.activeTimers = q.activeTimers) (created : next.created = q.created)
    (handed : next.handed = q.handed) (deleted : next.deleted = q.deleted) :
    Sound next batch place where
  tracks := sound.tracks.congr heap posted timers active
  accounts := sound.accounts.congr heap created handed deleted fun _ _ _ => Iff.rfl
  settled := by rw [heap]; exact sound.settled

/-- Only the timer that moves has to be looked at again. -/
theorem settled_update (settled : ∀ timer object, q.heap timer = some object →
      place timer ≠ .loose)
    (heap : ∀ other, other ≠ timer → next.heap other = q.heap other)
    (moved : ∀ object, next.heap timer = some object → here ≠ .loose) :
    ∀ other object, next.heap other = some object →
      Function.update place timer here other ≠ .loose := by
  intro other object found
  by_cases same : other = timer
  · subst same
    rw [Function.update_self]
    exact moved object found
  · rw [Function.update_of_ne same]
    exact settled other object (heap other same ▸ found)

theorem Sound.newTimer (sound : Sound q batch place) (free : q.heap timer = none)
    (inRange : timer < uintptrMax) {sequence : Int} (fresh : sequence ∉ q.created)
    (when_ : Timestamp) (interval : Interval) :
    Sound (q.newTimer timer when_ interval sequence) batch
      (Function.update place timer .posted) where
  tracks := sound.tracks.newTimer free inRange when_ interval sequence
  accounts := sound.accounts.newTimer free fresh when_ interval
  settled := settled_update sound.settled
    (fun other different => by
      simp [TimerQueue.newTimer, TimerQueue.store, different])
    (fun _ _ => by simp)

theorem Sound.added (sound : Sound q batch place) (found : q.heap timer = some object)
    (posted : place timer = .posted) (clock : Timestamp) :
    Sound (q.added timer object clock) batch (Function.update place timer .queued) := by
  have handed := sound.tracks.handOver posted object
  have queued := handed.enqueue found (Function.update_self ..)
  have accounts : Accounts (q.handOver timer object)
      (Function.update (Function.update place timer .loose) timer .queued) :=
    (sound.accounts.handOver found).relocate (by simp) (by simp)
  rw [Function.update_idem] at queued accounts
  constructor
  · exact queued.congr rfl rfl rfl rfl
  · exact accounts.congr rfl rfl rfl rfl fun _ _ _ => Iff.rfl
  · exact settled_update sound.settled (fun _ _ => rfl) (fun _ _ => by simp)

theorem Sound.cancelled (sound : Sound q batch place) (found : q.heap timer = some object)
    (queued : place timer = .queued) :
    Sound (q.cancelled timer object) batch (Function.update place timer .loose) := by
  have inRange := (sound.tracks.everywhere timer).bounded object found
  have dequeued := sound.tracks.dequeue found queued
  have removed := dequeued.overwrite (Function.update_self ..) none inRange
    (q.deleted ++ [object.sequence])
  have accounts : Accounts { q with
      heap := Function.update q.heap timer none
      deleted := q.deleted ++ [object.sequence] } (Function.update place timer .loose) :=
    (sound.accounts.delete found (by simp [queued])).relocate (by simp [queued]) (by simp)
  constructor
  · exact removed.congr rfl rfl rfl rfl
  · exact accounts.congr rfl rfl rfl rfl fun _ _ _ => Iff.rfl
  · exact settled_update sound.settled
      (fun other different => by simp [TimerQueue.cancelled, different])
      (fun _ gone => by simp [TimerQueue.cancelled] at gone)

/-- The timers `getExpired` takes were waiting. -/
theorem Expires.waiting {now : Timestamp} {expired : List Expired}
    {active : OrderedSet ActiveTimer} (expires : Expires q now expired active)
    (tracks : Tracks q batch place) {it : Expired} (member : it ∈ expired) :
    ∃ object, q.heap it.timer = some object ∧ place it.timer = .queued ∧
      object.expiration = it.when_ ∧ it.when_ ≤ now := by
  have below : it.entry ∈ q.timers.below (toLex (now, uintptrMax)) := by
    rw [← expires.taken]
    exact List.mem_map_of_mem member
  have due := (tracks.mem_below_sentry_iff it.when_ now it.timer).mp below
  obtain ⟨object, found, queued, expiration⟩ :=
    ((tracks.everywhere it.timer).timers_iff it.when_).mp due.1
  exact ⟨object, found, queued, expiration, due.2⟩

theorem Sound.expiring {now : Timestamp} {expired : List Expired}
    {active : OrderedSet ActiveTimer} (sound : Sound q [] place)
    (expires : Expires q now expired active) :
    Sound (q.expiring now expired active) expired (expirePlaces place expired) := by
  constructor
  · exact (sound.tracks.expire expires).congr rfl rfl rfl rfl
  · refine sound.accounts.congr rfl rfl rfl rfl ?_
    intro timer object _
    unfold expirePlaces
    split_ifs with among
    · obtain ⟨it, member, rfl⟩ := List.mem_map.mp among
      obtain ⟨-, -, queued, -⟩ := expires.waiting sound.tracks member
      simp [queued]
    · exact Iff.rfl
  · intro timer object found
    unfold expirePlaces
    split_ifs
    · simp
    · exact sound.settled timer object found

theorem Sound.putBack {it : Expired} {left : List Expired} (sound : Sound q (it :: left) place)
    (found : q.heap it.timer = some object) (now : Timestamp) :
    Sound (q.putBack now it left object) left (Function.update place it.timer .queued) := by
  obtain ⟨-, -, inBatch, -⟩ := sound.tracks.batch_live List.mem_cons_self
  have restarted := (sound.tracks.restart found now).enqueue (Function.update_self ..)
    (Function.update_self ..)
  have moved : Accounts q (Function.update place it.timer .queued) :=
    sound.accounts.relocate (by simp [inBatch]) (by simp)
  have stored := moved.store found (Timer.restart_sequence object now)
  rw [Function.update_idem] at restarted
  constructor
  · exact restarted
  · exact stored.congr rfl rfl rfl rfl fun _ _ _ => Iff.rfl
  · exact settled_update sound.settled
      (fun other different => by
        simp [TimerQueue.putBack, TimerQueue.enqueue, TimerQueue.store, different])
      (fun _ _ => by simp)

theorem Sound.finished {it : Expired} {left : List Expired} (sound : Sound q (it :: left) place)
    (found : q.heap it.timer = some object) (now : Timestamp) :
    Sound (q.finished now it left object) left (Function.update place it.timer .loose) := by
  obtain ⟨-, -, inBatch, -⟩ := sound.tracks.batch_live List.mem_cons_self
  have inRange := (sound.tracks.everywhere it.timer).bounded object found
  have removed := sound.tracks.takeFromBatch.overwrite (Function.update_self ..) none inRange
    (q.deleted ++ [object.sequence])
  have moved : Accounts q (Function.update place it.timer .loose) :=
    sound.accounts.relocate (by simp [inBatch]) (by simp)
  have accounts := moved.delete found (by simp)
  constructor
  · exact removed.congr rfl rfl rfl rfl
  · exact accounts.congr rfl rfl rfl rfl fun _ _ _ => Iff.rfl
  · exact settled_update sound.settled
      (fun other different => by simp [TimerQueue.finished, different])
      (fun _ gone => by simp [TimerQueue.finished] at gone)

end

/-! ### One event -/

/-- Where the timers are is a matter of the whole state. -/
def Invariant (q : TimerQueue) : Prop := ∃ place, Sound q q.phase.batch place

theorem invariant_new : Invariant TimerQueue.new := by
  refine ⟨fun _ => .loose, ⟨fun timer => ?_, List.nodup_nil, List.nodup_nil⟩, ?_, ?_⟩
  · constructor <;> intros <;> simp_all [TimerQueue.new, Phase.batch]
  · constructor <;> simp [TimerQueue.new]
  · intro timer object found
    cases found

/-- Every move leaves each timer in one place. -/
theorem Moves.sound {q next : TimerQueue} {event : Event} {place : Address → Place}
    (moves : Moves q event next) (sound : Sound q q.phase.batch place)
    (allocates : Allocates q event) : ∃ place', Sound next next.phase.batch place' := by
  cases moves with
  | stays => exact ⟨place, sound⟩
  | newTimer timer when_ interval sequence =>
      obtain ⟨free, inRange, fresh⟩ := allocates
      exact ⟨_, sound.newTimer free inRange fresh when_ interval⟩
  | added clock userCode posted found =>
      obtain ⟨-, -, here⟩ := (sound.tracks.everywhere _).posted_iff.mp posted
      exact ⟨_, sound.added found here clock⟩
  | cancelled userCode found waiting =>
      obtain ⟨-, -, queued, -⟩ := ((sound.tracks.everywhere _).active_iff _).mp waiting
      exact ⟨_, sound.cancelled found queued⟩
  | remembered => exact ⟨place, sound.congr rfl rfl rfl rfl rfl rfl rfl⟩
  | expiring idle expires =>
      rw [idle] at sound
      exact ⟨_, sound.expiring expires⟩
  | called calling found =>
      rw [calling] at sound
      refine ⟨place, ?_⟩
      simp only [TimerQueue.called, Phase.batch, List.append_assoc, List.singleton_append]
      exact sound.congr rfl rfl rfl rfl rfl rfl rfl
  | finishCallbacks calling =>
      rw [calling] at sound
      simp only [Phase.batch, List.append_nil] at sound
      exact ⟨place, sound.congr rfl rfl rfl rfl rfl rfl rfl⟩
  | putBack resetting found repeats wanted =>
      rw [resetting] at sound
      exact ⟨_, sound.putBack found _⟩
  | finished resetting found ended =>
      rw [resetting] at sound
      exact ⟨_, sound.finished found _⟩
  | settled clock resetting =>
      rw [resetting] at sound
      exact ⟨place, sound.congr rfl rfl rfl rfl rfl rfl rfl⟩
  | alarmed => exact ⟨place, sound.congr rfl rfl rfl rfl rfl rfl rfl⟩

theorem step_keeps (q : TimerQueue) (event : Event) (invariant : Invariant q)
    (allocates : Allocates q event) :
    ∃ next, step q event = .ok next ∧ Invariant next := by
  obtain ⟨place, sound⟩ := invariant
  obtain ⟨next, taken, moves⟩ := step_moves sound.tracks event
  exact ⟨next, taken, moves.sound sound allocates⟩

/-! ### What the invariant says of the queue -/

def InBothSets (q : TimerQueue) (sequence : Int) : Prop :=
  ∃ timer object, q.heap timer = some object ∧ object.sequence = sequence ∧
    toLex (object.expiration, timer) ∈ q.timers ∧ toLex (timer, sequence) ∈ q.activeTimers

def InBatch (q : TimerQueue) (sequence : Int) : Prop :=
  ∃ it ∈ q.phase.batch, it.sequence = sequence

def ExactlyOne (first second third : Prop) : Prop :=
  (first ∧ ¬second ∧ ¬third) ∨ (¬first ∧ second ∧ ¬third) ∨ (¬first ∧ ¬second ∧ third)

/-- The representation invariant of `TimerQueue`. Every pointer the queue
holds still leads to the timer it was stored for, and a timer that has been
deleted is not found at any address. -/
structure Represents (q : TimerQueue) : Prop where
  agree : ∀ when_ timer, toLex (when_, timer) ∈ q.timers ↔
    ∃ object, q.heap timer = some object ∧
      toLex (timer, object.sequence) ∈ q.activeTimers ∧ object.expiration = when_
  sizes : q.timers.size = q.activeTimers.size
  active_live : ∀ timer sequence, toLex (timer, sequence) ∈ q.activeTimers →
    ∃ object, q.heap timer = some object ∧ object.sequence = sequence
  batch_live : ∀ it ∈ q.phase.batch,
    ∃ object, q.heap it.timer = some object ∧ object.sequence = it.sequence
  one_place : ∀ sequence ∈ q.handed,
    ExactlyOne (InBothSets q sequence) (InBatch q sequence) (sequence ∈ q.deleted)
  deleted_once : q.deleted.Nodup
  deleted_gone : ∀ timer object, q.heap timer = some object → object.sequence ∉ q.deleted

section

variable {q : TimerQueue} {place : Address → Place}

theorem Sound.in_both_sets_iff (sound : Sound q q.phase.batch place) (sequence : Int) :
    InBothSets q sequence ↔ ∃ timer object, q.heap timer = some object ∧
      object.sequence = sequence ∧ place timer = .queued := by
  refine exists_congr fun timer => exists_congr fun object => ?_
  refine and_congr_right fun found => and_congr_right fun same => ?_
  have tracksAt := sound.tracks.everywhere timer
  rw [tracksAt.timers_iff, tracksAt.active_iff]
  simp [found, same]

theorem Sound.in_batch_iff (sound : Sound q q.phase.batch place) (sequence : Int) :
    InBatch q sequence ↔ ∃ timer object, q.heap timer = some object ∧
      object.sequence = sequence ∧ place timer = .batch := by
  constructor
  · rintro ⟨it, member, rfl⟩
    obtain ⟨object, found, inBatch, same⟩ :=
      ((sound.tracks.everywhere it.timer).batch_iff it.sequence).mp ⟨it, member, rfl, rfl⟩
    exact ⟨it.timer, object, found, same, inBatch⟩
  · rintro ⟨timer, object, found, same, inBatch⟩
    obtain ⟨it, member, -, equal⟩ :=
      ((sound.tracks.everywhere timer).batch_iff sequence).mpr ⟨object, found, inBatch, same⟩
    exact ⟨it, member, equal⟩

/-- A timer has one address, and an address one place. -/
theorem Sound.one_place (sound : Sound q q.phase.batch place) (sequence : Int)
    (handed : sequence ∈ q.handed) :
    ExactlyOne (InBothSets q sequence) (InBatch q sequence) (sequence ∈ q.deleted) := by
  rw [sound.in_both_sets_iff, sound.in_batch_iff]
  have unique : ∀ timer object, q.heap timer = some object → object.sequence = sequence →
      ∀ other held, q.heap other = some held → held.sequence = sequence → other = timer := by
    intro timer object found same other held foundOther sameOther
    exact sound.accounts.distinct other timer held object foundOther found
      (sameOther.trans same.symm)
  rcases (sound.accounts.handed_iff sequence).mp handed with
    gone | ⟨timer, object, found, same, away⟩
  · refine Or.inr (Or.inr ⟨?_, ?_, gone⟩)
    · rintro ⟨timer, object, found, rfl, -⟩
      exact sound.accounts.live_not_deleted timer object found gone
    · rintro ⟨timer, object, found, rfl, -⟩
      exact sound.accounts.live_not_deleted timer object found gone
  · have alive : sequence ∉ q.deleted := same ▸ sound.accounts.live_not_deleted timer object found
    cases here : place timer with
    | posted => exact absurd here away
    | loose => exact absurd here (sound.settled timer object found)
    | queued =>
        refine Or.inl ⟨⟨timer, object, found, same, here⟩, ?_, alive⟩
        rintro ⟨other, held, foundOther, sameOther, inBatch⟩
        rw [unique timer object found same other held foundOther sameOther, here] at inBatch
        cases inBatch
    | batch =>
        refine Or.inr (Or.inl ⟨?_, ⟨timer, object, found, same, here⟩, alive⟩)
        rintro ⟨other, held, foundOther, sameOther, queued⟩
        rw [unique timer object found same other held foundOther sameOther, here] at queued
        cases queued

theorem Sound.represents (sound : Sound q q.phase.batch place) : Represents q where
  agree := fun when_ timer => by
    rw [(sound.tracks.everywhere timer).timers_iff]
    refine exists_congr fun object => and_congr_right fun found => ?_
    rw [(sound.tracks.everywhere timer).active_iff]
    simp [found]
  sizes := sound.tracks.sizes
  active_live := fun timer sequence member => by
    obtain ⟨object, found, -, same⟩ :=
      ((sound.tracks.everywhere timer).active_iff sequence).mp member
    exact ⟨object, found, same⟩
  batch_live := fun it member => by
    obtain ⟨object, found, -, same⟩ :=
      ((sound.tracks.everywhere it.timer).batch_iff it.sequence).mp ⟨it, member, rfl, rfl⟩
    exact ⟨object, found, same⟩
  one_place := sound.one_place
  deleted_once := sound.accounts.deleted_nodup
  deleted_gone := sound.accounts.live_not_deleted

end

/-- In every run of the queue no assertion fails, no deleted timer is used or
deleted again, and every state is a representation. -/
theorem timer_queue_represents (events : List Event)
    (allocated : AllSteps step Allocates TimerQueue.new events) :
    ∃ final, run step TimerQueue.new events = .ok final ∧ Represents final := by
  obtain ⟨final, ran, place, sound⟩ := run_succeeds Invariant step_keeps invariant_new allocated
  exact ⟨final, ran, sound.represents⟩

/-- A repeating timer cancels itself in its callback, its address is used
again, and the old identifier is cancelled once more. -/
def cancelThenReuse : List Event :=
  [.newTimer 16 100 ⟨true, 50⟩ 1, .addTimerInLoop 16 20, .newTimer 32 100 ⟨false, 0⟩ 2,
    .addTimerInLoop 32 20, .handleRead 100, .runCallback, .cancelInLoop ⟨16, 1⟩, .runCallback,
    .finishCallbacks, .resetNext, .resetNext, .finishReset 110, .newTimer 16 200 ⟨true, 5⟩ 3,
    .addTimerInLoop 16 120, .cancelInLoop ⟨16, 1⟩, .handleRead 200, .runCallback]

set_option maxRecDepth 8000 in
theorem timer_queue_represents_reuse :
    AllSteps step Allocates TimerQueue.new cancelThenReuse ∧
      ∃ final, run step TimerQueue.new cancelThenReuse = .ok final ∧ Represents final :=
  ⟨by decide, timer_queue_represents cancelThenReuse (by decide)⟩

end Msmuduo.Timers
