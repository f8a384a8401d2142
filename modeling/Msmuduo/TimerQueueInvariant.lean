import Msmuduo.TimerQueue

/-!
# Where every timer is

The heap says which timers live; a ghost map says where each of them is: in a
posted functor, in both sets, in the batch being run, or for the length of one
operation in none of these. Each operation of the queue moves one timer, and
its lemma says from where to where. That the two sets agree, that their sizes
are equal and that no assertion fails follows from the map alone.
-/

namespace Msmuduo.Timers

open Msmuduo.Machine

set_option autoImplicit false

inductive Place where
  | posted
  | queued
  | batch
  | loose
  deriving DecidableEq

/-- The containers hold the timer at one address exactly if it lives and its
place is that container. -/
structure TracksAt (q : TimerQueue) (batch : List Expired) (here : Place)
    (timer : Address) : Prop where
  posted_iff : timer ∈ q.posted ↔ ∃ object, q.heap timer = some object ∧ here = .posted
  timers_iff : ∀ when_, toLex (when_, timer) ∈ q.timers ↔
    ∃ object, q.heap timer = some object ∧ here = .queued ∧ object.expiration = when_
  active_iff : ∀ sequence, toLex (timer, sequence) ∈ q.activeTimers ↔
    ∃ object, q.heap timer = some object ∧ here = .queued ∧ object.sequence = sequence
  batch_iff : ∀ sequence, (∃ it ∈ batch, it.timer = timer ∧ it.sequence = sequence) ↔
    ∃ object, q.heap timer = some object ∧ here = .batch ∧ object.sequence = sequence
  bounded : ∀ object, q.heap timer = some object → timer < uintptrMax

structure Tracks (q : TimerQueue) (batch : List Expired) (place : Address → Place) :
    Prop where
  everywhere : ∀ timer, TracksAt q batch (place timer) timer
  posted_nodup : q.posted.Nodup
  batch_nodup : (batch.map Expired.timer).Nodup

/-- The record of the run agrees with the heap. A timer is named by its
sequence number, since its address may be used again. -/
structure Accounts (q : TimerQueue) (place : Address → Place) : Prop where
  live_created : ∀ timer object, q.heap timer = some object → object.sequence ∈ q.created
  deleted_created : ∀ sequence ∈ q.deleted, sequence ∈ q.created
  distinct : ∀ first second object other, q.heap first = some object →
    q.heap second = some other → object.sequence = other.sequence → first = second
  live_not_deleted : ∀ timer object, q.heap timer = some object →
    object.sequence ∉ q.deleted
  deleted_nodup : q.deleted.Nodup
  handed_iff : ∀ sequence, sequence ∈ q.handed ↔ sequence ∈ q.deleted ∨
    ∃ timer object, q.heap timer = some object ∧ object.sequence = sequence ∧
      place timer ≠ .posted

/-- Two states that do not differ at an address. -/
structure SameAt (q : TimerQueue) (batch : List Expired) (next : TimerQueue)
    (nextBatch : List Expired) (timer : Address) : Prop where
  heap : next.heap timer = q.heap timer
  posted : timer ∈ next.posted ↔ timer ∈ q.posted
  timers : ∀ when_, toLex (when_, timer) ∈ next.timers ↔ toLex (when_, timer) ∈ q.timers
  active : ∀ sequence,
    toLex (timer, sequence) ∈ next.activeTimers ↔ toLex (timer, sequence) ∈ q.activeTimers
  batch : ∀ sequence, (∃ it ∈ nextBatch, it.timer = timer ∧ it.sequence = sequence) ↔
    ∃ it ∈ batch, it.timer = timer ∧ it.sequence = sequence

section

variable {q next : TimerQueue} {batch nextBatch : List Expired} {place : Address → Place}
variable {timer : Address} {object : Timer} {here : Place}

theorem TracksAt.of_same (tracks : TracksAt q batch here timer)
    (same : SameAt q batch next nextBatch timer) : TracksAt next nextBatch here timer where
  posted_iff := by rw [same.posted, same.heap]; exact tracks.posted_iff
  timers_iff := fun when_ => by rw [same.timers, same.heap]; exact tracks.timers_iff when_
  active_iff := fun sequence => by
    rw [same.active, same.heap]; exact tracks.active_iff sequence
  batch_iff := fun sequence => by rw [same.batch, same.heap]; exact tracks.batch_iff sequence
  bounded := fun object found => tracks.bounded object (same.heap ▸ found)

/-- An operation on one timer only has to say where that timer is now. -/
theorem Tracks.move (tracks : Tracks q batch place)
    (same : ∀ other, other ≠ timer → SameAt q batch next nextBatch other)
    (moved : TracksAt next nextBatch here timer)
    (posted_nodup : next.posted.Nodup) (batch_nodup : (nextBatch.map Expired.timer).Nodup) :
    Tracks next nextBatch (Function.update place timer here) where
  everywhere := fun other => by
    by_cases equal : other = timer
    · subst equal
      rw [Function.update_self]
      exact moved
    · rw [Function.update_of_ne equal]
      exact (tracks.everywhere other).of_same (same other equal)
  posted_nodup := posted_nodup
  batch_nodup := batch_nodup

/-! ### The sizes of the two sets -/

/-- An address occurs once in `timers_`. -/
theorem Tracks.timers_injective (tracks : Tracks q batch place) (first : Entry)
    (member : first ∈ q.timers) (second : Entry) (otherMember : second ∈ q.timers)
    (same : (ofLex first).2 = (ofLex second).2) : first = second := by
  obtain ⟨when_, timer⟩ := first
  obtain ⟨otherWhen, other⟩ := second
  change timer = other at same
  subst same
  have tracksAt := tracks.everywhere timer
  obtain ⟨object, found, -, rfl⟩ := (tracksAt.timers_iff when_).mp member
  obtain ⟨same, foundSame, -, rfl⟩ := (tracksAt.timers_iff otherWhen).mp otherMember
  rw [found] at foundSame
  cases foundSame
  rfl

theorem Tracks.sizes (tracks : Tracks q batch place) :
    q.timers.size = q.activeTimers.size := by
  refine OrderedSet.size_eq_of_keys q.timers q.activeTimers
    (fun entry => (ofLex entry).2) (fun active => (ofLex active).1) ?_ ?_ ?_
  · exact tracks.timers_injective
  · rintro ⟨timer, sequence⟩ member ⟨other, otherSequence⟩ otherMember (rfl : timer = other)
    have tracksAt := tracks.everywhere timer
    obtain ⟨object, found, -, rfl⟩ := (tracksAt.active_iff sequence).mp member
    obtain ⟨same, foundSame, -, rfl⟩ := (tracksAt.active_iff otherSequence).mp otherMember
    rw [found] at foundSame
    cases foundSame
    rfl
  · intro timer
    have tracksAt := tracks.everywhere timer
    constructor
    · rintro ⟨⟨when_, held⟩, member, (rfl : held = timer)⟩
      obtain ⟨object, found, queued, -⟩ := (tracksAt.timers_iff when_).mp member
      exact ⟨toLex (held, object.sequence),
        (tracksAt.active_iff _).mpr ⟨object, found, queued, rfl⟩, rfl⟩
    · rintro ⟨⟨held, sequence⟩, member, (rfl : held = timer)⟩
      obtain ⟨object, found, queued, -⟩ := (tracksAt.active_iff sequence).mp member
      exact ⟨toLex (object.expiration, held),
        (tracksAt.timers_iff _).mpr ⟨object, found, queued, rfl⟩, rfl⟩

/-! ### Moving one timer -/

theorem Tracks.newTimer (tracks : Tracks q batch place) (free : q.heap timer = none)
    (inRange : timer < uintptrMax) (when_ : Timestamp) (interval : Interval) (sequence : Int) :
    Tracks (q.newTimer timer when_ interval sequence) batch
      (Function.update place timer .posted) := by
  have before := tracks.everywhere timer
  have absent : timer ∉ q.posted := by
    rw [before.posted_iff]
    simp [free]
  apply tracks.move
  · intro other different
    constructor <;> intros <;> simp [TimerQueue.newTimer, TimerQueue.store, different]
  · constructor
    · simp [TimerQueue.newTimer, TimerQueue.store]
    · simpa [TimerQueue.newTimer, TimerQueue.store, free] using before.timers_iff
    · simpa [TimerQueue.newTimer, TimerQueue.store, free] using before.active_iff
    · simpa [TimerQueue.newTimer, TimerQueue.store, free] using before.batch_iff
    · exact fun _ _ => inRange
  · refine List.nodup_append.mpr ⟨tracks.posted_nodup, List.nodup_singleton timer, ?_⟩
    rintro first member second new rfl
    rw [List.mem_singleton] at new
    exact absent (new ▸ member)
  · exact tracks.batch_nodup

theorem Tracks.handOver (tracks : Tracks q batch place) (posted : place timer = .posted)
    (object : Timer) :
    Tracks (q.handOver timer object) batch (Function.update place timer .loose) := by
  have before := tracks.everywhere timer
  rw [posted] at before
  apply tracks.move
  · intro other different
    constructor <;> intros <;>
      simp [TimerQueue.handOver, List.mem_erase_of_ne different]
  · constructor
    · simp [TimerQueue.handOver, tracks.posted_nodup.mem_erase_iff]
    · simpa [TimerQueue.handOver] using before.timers_iff
    · simpa [TimerQueue.handOver] using before.active_iff
    · simpa [TimerQueue.handOver] using before.batch_iff
    · exact before.bounded
  · exact tracks.posted_nodup.erase timer
  · exact tracks.batch_nodup

theorem Tracks.enqueue (tracks : Tracks q batch place) (found : q.heap timer = some object)
    (loose : place timer = .loose) :
    Tracks (q.enqueue timer object) batch (Function.update place timer .queued) := by
  have before := tracks.everywhere timer
  rw [loose] at before
  apply tracks.move
  · intro other different
    constructor <;> intros <;> simp [TimerQueue.enqueue, different]
  · constructor
    · simpa [TimerQueue.enqueue] using before.posted_iff
    · intro when_
      have absent := before.timers_iff when_
      simp only [reduceCtorEq, false_and, and_false, exists_false, iff_false] at absent
      simp [TimerQueue.enqueue, found, absent, eq_comm]
    · intro sequence
      have absent := before.active_iff sequence
      simp only [reduceCtorEq, false_and, and_false, exists_false, iff_false] at absent
      simp [TimerQueue.enqueue, found, absent, eq_comm]
    · simpa [TimerQueue.enqueue] using before.batch_iff
    · exact before.bounded
  · exact tracks.posted_nodup
  · exact tracks.batch_nodup

/-- The two erasures of `cancelInLoop`. -/
theorem Tracks.dequeue (tracks : Tracks q batch place) (found : q.heap timer = some object)
    (queued : place timer = .queued) :
    Tracks { q with
      timers := q.timers.erase (toLex (object.expiration, timer))
      activeTimers := q.activeTimers.erase (toLex (timer, object.sequence)) } batch
      (Function.update place timer .loose) := by
  have before := tracks.everywhere timer
  rw [queued] at before
  apply tracks.move
  · intro other different
    constructor <;> intros <;> simp [different]
  · constructor
    · simpa using before.posted_iff
    · intro when_
      have only := before.timers_iff when_
      simp only [found, Option.some.injEq, true_and, exists_eq_left'] at only
      simp [only, eq_comm]
    · intro sequence
      have only := before.active_iff sequence
      simp only [found, Option.some.injEq, true_and, exists_eq_left'] at only
      simp [only, eq_comm]
    · simpa using before.batch_iff
    · exact before.bounded
  · exact tracks.posted_nodup
  · exact tracks.batch_nodup

/-- A timer that is in no container can change, in particular be restarted
or deleted. -/
theorem Tracks.overwrite (tracks : Tracks q batch place) (loose : place timer = .loose)
    (content : Option Timer) (inRange : timer < uintptrMax) (deleted : List Int) :
    Tracks { q with heap := Function.update q.heap timer content, deleted := deleted } batch
      place := by
  have before := tracks.everywhere timer
  rw [loose] at before
  have unmoved : Function.update place timer .loose = place := by
    rw [← loose, Function.update_eq_self]
  rw [← unmoved]
  apply tracks.move
  · intro other different
    constructor <;> intros <;> simp [different]
  · constructor
    · simpa using before.posted_iff
    · simpa using before.timers_iff
    · simpa using before.active_iff
    · simpa using before.batch_iff
    · exact fun _ _ => inRange
  · exact tracks.posted_nodup
  · exact tracks.batch_nodup

theorem Tracks.takeFromBatch {it : Expired} (tracks : Tracks q (it :: batch) place) :
    Tracks q batch (Function.update place it.timer .loose) := by
  have nodup := tracks.batch_nodup
  rw [List.map_cons, List.nodup_cons] at nodup
  have before := tracks.everywhere it.timer
  obtain ⟨object, found, inBatch, -⟩ := (before.batch_iff it.sequence).mp ⟨it, by simp⟩
  rw [inBatch] at before
  apply tracks.move
  · intro other different
    constructor <;> intros <;> simp [Ne.symm different]
  · constructor
    · simpa using before.posted_iff
    · simpa using before.timers_iff
    · simpa using before.active_iff
    · intro sequence
      simp only [reduceCtorEq, false_and, and_false, exists_false, iff_false]
      rintro ⟨other, member, equal, -⟩
      exact nodup.1 (List.mem_map.mpr ⟨other, member, equal⟩)
    · exact before.bounded
  · exact tracks.posted_nodup
  · exact nodup.2

/-- Only the heap and the three containers matter. -/
theorem Tracks.congr (tracks : Tracks q batch place) (heap : next.heap = q.heap)
    (posted : next.posted = q.posted) (timers : next.timers = q.timers)
    (active : next.activeTimers = q.activeTimers) : Tracks next batch place where
  everywhere := fun timer => (tracks.everywhere timer).of_same (by
    constructor <;> intros <;> simp [heap, posted, timers, active])
  posted_nodup := posted ▸ tracks.posted_nodup
  batch_nodup := tracks.batch_nodup

/-! ### The record of the run -/

theorem Accounts.congr {nextPlace : Address → Place} (accounts : Accounts q place)
    (heap : next.heap = q.heap) (created : next.created = q.created)
    (handed : next.handed = q.handed) (deleted : next.deleted = q.deleted)
    (posted : ∀ timer object, q.heap timer = some object →
      (nextPlace timer = .posted ↔ place timer = .posted)) :
    Accounts next nextPlace where
  live_created := by rw [heap, created]; exact accounts.live_created
  deleted_created := by rw [deleted, created]; exact accounts.deleted_created
  distinct := by rw [heap]; exact accounts.distinct
  live_not_deleted := by rw [heap, deleted]; exact accounts.live_not_deleted
  deleted_nodup := by rw [deleted]; exact accounts.deleted_nodup
  handed_iff := fun sequence => by
    rw [handed, deleted, heap, accounts.handed_iff]
    refine or_congr_right (exists_congr fun timer => exists_congr fun object => ?_)
    refine and_congr_right fun found => and_congr_right fun _ => ?_
    rw [Ne, Ne, posted timer object found]

/-- Moving a timer between places other than the posted functors is not
recorded. -/
theorem Accounts.relocate (accounts : Accounts q place) (notPosted : place timer ≠ .posted)
    (elsewhere : here ≠ .posted) : Accounts q (Function.update place timer here) := by
  apply accounts.congr rfl rfl rfl rfl
  intro other object _
  by_cases same : other = timer
  · subst same
    simp [notPosted, elsewhere]
  · rw [Function.update_of_ne same]

theorem Accounts.newTimer (accounts : Accounts q place) (free : q.heap timer = none)
    {sequence : Int} (fresh : sequence ∉ q.created) (when_ : Timestamp) (interval : Interval) :
    Accounts (q.newTimer timer when_ interval sequence)
      (Function.update place timer .posted) := by
  have cell : ∀ other object,
      (q.newTimer timer when_ interval sequence).heap other = some object →
      (other = timer ∧ object.sequence = sequence) ∨ q.heap other = some object := by
    intro other object found
    by_cases same : other = timer
    · subst same
      simp only [TimerQueue.newTimer, TimerQueue.store, Function.update_self,
        Option.some.injEq] at found
      exact Or.inl ⟨rfl, found ▸ rfl⟩
    · simp only [TimerQueue.newTimer, TimerQueue.store, Function.update_of_ne same] at found
      exact Or.inr found
  constructor
  · intro other object found
    rcases cell other object found with ⟨-, new⟩ | old
    · simp [TimerQueue.newTimer, new]
    · simp [TimerQueue.newTimer, accounts.live_created other object old]
  · intro gone member
    simp [TimerQueue.newTimer, accounts.deleted_created gone member]
  · intro first second object other foundFirst foundSecond equal
    rcases cell first object foundFirst with ⟨rfl, new⟩ | old <;>
      rcases cell second other foundSecond with ⟨rfl, otherNew⟩ | otherOld
    · rfl
    · have seen := accounts.live_created second other otherOld
      rw [← equal, new] at seen
      exact absurd seen fresh
    · have seen := accounts.live_created first object old
      rw [equal, otherNew] at seen
      exact absurd seen fresh
    · exact accounts.distinct first second object other old otherOld equal
  · intro other object found
    rcases cell other object found with ⟨-, new⟩ | old
    · rw [new]
      exact fun gone => fresh (accounts.deleted_created sequence gone)
    · exact accounts.live_not_deleted other object old
  · exact accounts.deleted_nodup
  · intro wanted
    change wanted ∈ q.handed ↔ wanted ∈ q.deleted ∨ _
    rw [accounts.handed_iff wanted]
    refine or_congr_right (exists_congr fun other => exists_congr fun object => ?_)
    by_cases same : other = timer
    · subst same
      simp [TimerQueue.newTimer, TimerQueue.store, free]
    · simp [TimerQueue.newTimer, TimerQueue.store, same]

theorem Accounts.handOver (accounts : Accounts q place) (found : q.heap timer = some object) :
    Accounts (q.handOver timer object) (Function.update place timer .loose) where
  live_created := accounts.live_created
  deleted_created := accounts.deleted_created
  distinct := accounts.distinct
  live_not_deleted := accounts.live_not_deleted
  deleted_nodup := accounts.deleted_nodup
  handed_iff := fun sequence => by
    change sequence ∈ q.handed ++ [object.sequence] ↔ sequence ∈ q.deleted ∨
      ∃ other held, q.heap other = some held ∧ held.sequence = sequence ∧
        Function.update place timer .loose other ≠ .posted
    rw [List.mem_append, List.mem_singleton, accounts.handed_iff, or_assoc]
    refine or_congr_right ⟨?_, ?_⟩
    · rintro (⟨other, held, foundOther, equal, notPosted⟩ | rfl)
      · refine ⟨other, held, foundOther, equal, ?_⟩
        by_cases same : other = timer
        · subst same
          simp
        · rwa [Function.update_of_ne same]
      · exact ⟨timer, object, found, rfl, by simp⟩
    · rintro ⟨other, held, foundOther, equal, notPosted⟩
      by_cases same : other = timer
      · subst same
        rw [found] at foundOther
        cases foundOther
        exact Or.inr equal.symm
      · rw [Function.update_of_ne same] at notPosted
        exact Or.inl ⟨other, held, foundOther, equal, notPosted⟩

/-- `restart` changes the expiration of a timer, not who it is. -/
theorem Accounts.store (accounts : Accounts q place) (found : q.heap timer = some object)
    {changed : Timer} (same : changed.sequence = object.sequence) :
    Accounts (q.store timer changed) place := by
  have cell : ∀ other held, (q.store timer changed).heap other = some held →
      ∃ old, q.heap other = some old ∧ old.sequence = held.sequence := by
    intro other held foundOther
    by_cases equal : other = timer
    · subst equal
      simp only [TimerQueue.store, Function.update_self, Option.some.injEq] at foundOther
      exact ⟨object, found, foundOther ▸ same.symm⟩
    · simp only [TimerQueue.store, Function.update_of_ne equal] at foundOther
      exact ⟨held, foundOther, rfl⟩
  constructor
  · intro other held foundOther
    obtain ⟨old, foundOld, equal⟩ := cell other held foundOther
    exact equal ▸ accounts.live_created other old foundOld
  · exact accounts.deleted_created
  · intro first second held other foundFirst foundSecond equal
    obtain ⟨old, foundOld, equalOld⟩ := cell first held foundFirst
    obtain ⟨otherOld, foundOtherOld, equalOther⟩ := cell second other foundSecond
    exact accounts.distinct first second old otherOld foundOld foundOtherOld
      (equalOld.trans (equal.trans equalOther.symm))
  · intro other held foundOther
    obtain ⟨old, foundOld, equal⟩ := cell other held foundOther
    exact equal ▸ accounts.live_not_deleted other old foundOld
  · exact accounts.deleted_nodup
  · intro sequence
    refine (accounts.handed_iff sequence).trans (or_congr_right (exists_congr fun other => ?_))
    by_cases equal : other = timer
    · subst equal
      simp [TimerQueue.store, found, same]
    · simp [TimerQueue.store, equal]

theorem Accounts.delete (accounts : Accounts q place) (found : q.heap timer = some object)
    (notPosted : place timer ≠ .posted) :
    Accounts { q with
      heap := Function.update q.heap timer none
      deleted := q.deleted ++ [object.sequence] } place := by
  have cell : ∀ other held, Function.update q.heap timer none other = some held ↔
      other ≠ timer ∧ q.heap other = some held := by
    intro other held
    by_cases equal : other = timer
    · subst equal
      simp
    · simp [equal]
  constructor
  · intro other held foundOther
    exact accounts.live_created other held ((cell other held).mp foundOther).2
  · intro sequence member
    rcases List.mem_append.mp member with old | new
    · exact accounts.deleted_created sequence old
    · rw [List.mem_singleton] at new
      exact new ▸ accounts.live_created timer object found
  · intro first second held other foundFirst foundSecond
    exact accounts.distinct first second held other ((cell first held).mp foundFirst).2
      ((cell second other).mp foundSecond).2
  · intro other held foundOther
    obtain ⟨different, foundHeld⟩ := (cell other held).mp foundOther
    rw [List.mem_append, List.mem_singleton]
    rintro (old | new)
    · exact accounts.live_not_deleted other held foundHeld old
    · exact different (accounts.distinct other timer held object foundHeld found new)
  · refine List.nodup_append.mpr ⟨accounts.deleted_nodup, List.nodup_singleton _, ?_⟩
    rintro first member second new rfl
    rw [List.mem_singleton] at new
    exact accounts.live_not_deleted timer object found (new ▸ member)
  · intro sequence
    change sequence ∈ q.handed ↔ sequence ∈ q.deleted ++ [object.sequence] ∨
      ∃ other held, Function.update q.heap timer none other = some held ∧
        held.sequence = sequence ∧ place other ≠ .posted
    rw [accounts.handed_iff, List.mem_append, List.mem_singleton, or_assoc]
    refine or_congr_right ⟨?_, ?_⟩
    · rintro ⟨other, held, foundOther, equal, elsewhere⟩
      by_cases same : other = timer
      · subst same
        rw [found] at foundOther
        cases foundOther
        exact Or.inl equal.symm
      · exact Or.inr ⟨other, held, (cell other held).mpr ⟨same, foundOther⟩, equal, elsewhere⟩
    · rintro (rfl | ⟨other, held, foundOther, equal, elsewhere⟩)
      · exact ⟨timer, object, found, rfl, notPosted⟩
      · exact ⟨other, held, ((cell other held).mp foundOther).2, equal, elsewhere⟩

/-! ### The operations of the queue -/

theorem deref_ok (found : q.heap timer = some object) : q.deref timer = .ok object := by
  simp [TimerQueue.deref, found]

theorem delete_ok (found : q.heap timer = some object) :
    q.delete timer = .ok { q with
      heap := Function.update q.heap timer none
      deleted := q.deleted ++ [object.sequence] } := by
  simp [TimerQueue.delete, found]

/-- `insert` of a timer that is in neither set meets its four assertions. -/
theorem insert_ok (tracks : Tracks q batch place) (found : q.heap timer = some object)
    (loose : place timer = .loose) :
    q.insert timer =
      .ok (q.earliestChanged object.expiration, q.enqueue timer object) := by
  have before := tracks.everywhere timer
  rw [loose] at before
  have newEntry : toLex (object.expiration, timer) ∉ q.timers := by
    rw [before.timers_iff]
    simp
  have newActive : toLex (timer, object.sequence) ∉ q.activeTimers := by
    rw [before.active_iff]
    simp
  have sizesAfter := (tracks.enqueue found loose).sizes
  simp only [TimerQueue.insert, bind, Except.bind, require_ok tracks.sizes, deref_ok found,
    require_ok newEntry, require_ok newActive, require_ok sizesAfter]
  rfl

/-- A timer known to `activeTimers_` is erased from both sets and deleted. -/
theorem cancelInLoop_ok_active (tracks : Tracks q batch place)
    (found : q.heap timer = some object) (queued : place timer = .queued) :
    q.cancelInLoop ⟨timer, object.sequence⟩ = .ok { q with
      heap := Function.update q.heap timer none
      timers := q.timers.erase (toLex (object.expiration, timer))
      activeTimers := q.activeTimers.erase (toLex (timer, object.sequence))
      deleted := q.deleted ++ [object.sequence] } := by
  have before := tracks.everywhere timer
  have entry : toLex (object.expiration, timer) ∈ q.timers :=
    (before.timers_iff _).mpr ⟨object, found, queued, rfl⟩
  have active : toLex (timer, object.sequence) ∈ q.activeTimers :=
    (before.active_iff _).mpr ⟨object, found, queued, rfl⟩
  have sizesAfter := (tracks.dequeue found queued).sizes
  simp only [TimerQueue.cancelInLoop, bind, Except.bind, pure, Except.pure,
    require_ok tracks.sizes, if_pos active, deref_ok found, require_ok entry, TimerQueue.delete]
  simp only [found, require_ok sizesAfter]

theorem cancelInLoop_ok_unknown (tracks : Tracks q batch place) {timerId : TimerId}
    (unknown : toLex (timerId.timer, timerId.sequence) ∉ q.activeTimers) :
    q.cancelInLoop timerId = .ok (if q.callingExpiredTimers then { q with
      cancelingTimers := q.cancelingTimers.insert (toLex (timerId.timer, timerId.sequence)) }
      else q) := by
  cases calling : q.callingExpiredTimers <;>
    simp [TimerQueue.cancelInLoop, bind, Except.bind, pure, Except.pure, unknown, calling,
      require_ok tracks.sizes]

/-- The loop of `getExpired` erases from `activeTimers_` the timers of its
entries, provided they are there and have different addresses. -/
theorem eraseExpired_ok (q : TimerQueue) (entries : List Entry)
    (active : OrderedSet ActiveTimer)
    (known : ∀ timer sequence, toLex (timer, sequence) ∈ active →
      ∃ object, q.heap timer = some object ∧ object.sequence = sequence)
    (nodup : (entries.map fun entry => (ofLex entry).2).Nodup)
    (present : ∀ timer ∈ entries.map (fun entry => (ofLex entry).2),
      ∃ sequence, toLex (timer, sequence) ∈ active) :
    ∃ expired left, { q with activeTimers := active }.eraseExpired entries =
        .ok (expired, { q with activeTimers := left }) ∧
      (∀ timer sequence, toLex (timer, sequence) ∈ left ↔
        timer ∉ entries.map (fun entry => (ofLex entry).2) ∧
          toLex (timer, sequence) ∈ active) ∧
      expired.map Expired.entry = entries ∧
      ∀ it ∈ expired, ∃ object, q.heap it.timer = some object ∧
        object.sequence = it.sequence := by
  induction entries generalizing active with
  | nil => exact ⟨[], active, rfl, by simp, rfl, by simp⟩
  | cons entry rest ih =>
      rw [List.map_cons, List.nodup_cons] at nodup
      obtain ⟨sequence, member⟩ := present (ofLex entry).2 (by simp)
      obtain ⟨object, found, rfl⟩ := known _ _ member
      have keeps : ∀ timer other,
          toLex (timer, other) ∈ active.erase (toLex ((ofLex entry).2, object.sequence)) ↔
            timer ≠ (ofLex entry).2 ∧ toLex (timer, other) ∈ active := by
        intro timer other
        rw [OrderedSet.mem_erase]
        refine and_congr_left fun old => not_congr ?_
        constructor
        · intro same
          exact congrArg (fun pair => (ofLex pair).1) same
        · rintro rfl
          obtain ⟨same, foundSame, rfl⟩ := known _ _ old
          rw [found] at foundSame
          cases foundSame
          rfl
      obtain ⟨expired, left, ran, leftIff, taken, sequences⟩ :=
        ih (active.erase (toLex ((ofLex entry).2, object.sequence)))
          (fun timer other old => known timer other ((keeps timer other).mp old).2) nodup.2
          (fun timer later => by
            obtain ⟨other, old⟩ := present timer (List.mem_cons_of_mem _ later)
            refine ⟨other, (keeps timer other).mpr ⟨?_, old⟩⟩
            rintro rfl
            exact nodup.1 later)
      refine ⟨⟨(ofLex entry).1, (ofLex entry).2, object.sequence⟩ :: expired, left, ?_, ?_, ?_, ?_⟩
      · have read : { q with activeTimers := active }.deref (ofLex entry).2 = .ok object :=
          deref_ok found
        simp only [TimerQueue.eraseExpired, bind, Except.bind, read, require_ok member, ran]
        rfl
      · intro timer other
        rw [leftIff, keeps]
        simp only [List.map_cons, List.mem_cons, not_or]
        tauto
      · rw [List.map_cons, taken]
        rfl
      · intro it among
        rcases List.mem_cons.mp among with rfl | later
        · exact ⟨object, found, rfl⟩
        · exact sequences it later

/-- In front of `lower_bound(Entry(now, UINTPTR_MAX))` stands what is due. -/
theorem lt_sentry_iff (when_ now : Timestamp) (inRange : timer < uintptrMax) :
    (toLex (when_, timer) : Entry) < toLex (now, uintptrMax) ↔ when_ ≤ now := by
  rw [Prod.Lex.toLex_lt_toLex]
  constructor
  · rintro (earlier | ⟨equal, -⟩)
    · exact earlier.le
    · exact equal.le
  · intro due
    rcases due.lt_or_eq with earlier | equal
    · exact Or.inl earlier
    · exact Or.inr ⟨equal, inRange⟩

theorem Tracks.mem_below_sentry_iff (tracks : Tracks q batch place) (when_ now : Timestamp)
    (timer : Address) :
    toLex (when_, timer) ∈ q.timers.below (toLex (now, uintptrMax)) ↔
      toLex (when_, timer) ∈ q.timers ∧ when_ ≤ now := by
  rw [OrderedSet.mem_below]
  refine and_congr_right fun member => ?_
  obtain ⟨object, found, -, -⟩ := ((tracks.everywhere timer).timers_iff when_).mp member
  exact lt_sentry_iff when_ now ((tracks.everywhere timer).bounded object found)

theorem Tracks.mem_eraseBelow_sentry_iff (tracks : Tracks q batch place)
    (when_ now : Timestamp) (timer : Address) :
    toLex (when_, timer) ∈ q.timers.eraseBelow (toLex (now, uintptrMax)) ↔
      toLex (when_, timer) ∈ q.timers ∧ now < when_ := by
  rw [OrderedSet.mem_eraseBelow]
  refine and_congr_right fun member => ?_
  obtain ⟨object, found, -, -⟩ := ((tracks.everywhere timer).timers_iff when_).mp member
  rw [← not_lt, lt_sentry_iff when_ now ((tracks.everywhere timer).bounded object found), not_le]

/-- The place of every timer after `getExpired`. -/
def expirePlaces (place : Address → Place) (batch : List Expired) (timer : Address) : Place :=
  if timer ∈ batch.map Expired.timer then .batch else place timer

/-- The outcome of `getExpired`: the entries in front of the sentry, in their
order, and `activeTimers_` without their timers. -/
structure Expires (q : TimerQueue) (now : Timestamp) (expired : List Expired)
    (active : OrderedSet ActiveTimer) : Prop where
  taken : expired.map Expired.entry = q.timers.below (toLex (now, uintptrMax))
  active_iff : ∀ timer sequence, toLex (timer, sequence) ∈ active ↔
    timer ∉ expired.map Expired.timer ∧ toLex (timer, sequence) ∈ q.activeTimers
  sequences : ∀ it ∈ expired, ∃ object, q.heap it.timer = some object ∧
    object.sequence = it.sequence

theorem Tracks.mem_due_iff (tracks : Tracks q batch place) (now : Timestamp) (timer : Address) :
    timer ∈ (q.timers.below (toLex (now, uintptrMax))).map (fun entry => (ofLex entry).2) ↔
      ∃ object, q.heap timer = some object ∧ place timer = .queued ∧
        object.expiration ≤ now := by
  rw [List.mem_map]
  constructor
  · rintro ⟨⟨when_, held⟩, member, rfl⟩
    obtain ⟨waiting, reached⟩ := (tracks.mem_below_sentry_iff when_ now held).mp member
    obtain ⟨object, found, queued, rfl⟩ :=
      ((tracks.everywhere held).timers_iff when_).mp waiting
    exact ⟨object, found, queued, reached⟩
  · rintro ⟨object, found, queued, reached⟩
    have waiting := ((tracks.everywhere timer).timers_iff _).mpr ⟨object, found, queued, rfl⟩
    exact ⟨_, (tracks.mem_below_sentry_iff _ now timer).mpr ⟨waiting, reached⟩, rfl⟩

theorem Tracks.due_nodup (tracks : Tracks q batch place) (now : Timestamp) :
    ((q.timers.below (toLex (now, uintptrMax))).map (fun entry => (ofLex entry).2)).Nodup := by
  apply List.Nodup.map_on _ (q.timers.below_nodup _)
  intro first member second otherMember
  exact tracks.timers_injective first ((OrderedSet.mem_below _ _ _).mp member).1 second
    ((OrderedSet.mem_below _ _ _).mp otherMember).1

theorem Expires.addresses {now : Timestamp} {expired : List Expired}
    {active : OrderedSet ActiveTimer} (expires : Expires q now expired active) :
    expired.map Expired.timer =
      (q.timers.below (toLex (now, uintptrMax))).map (fun entry => (ofLex entry).2) := by
  rw [← expires.taken, List.map_map]
  rfl

theorem Tracks.expire {now : Timestamp} {expired : List Expired}
    {active : OrderedSet ActiveTimer} (tracks : Tracks q [] place)
    (expires : Expires q now expired active) :
    Tracks { q with
      timers := q.timers.eraseBelow (toLex (now, uintptrMax)), activeTimers := active } expired
      (expirePlaces place expired) := by
  have due : ∀ timer, timer ∈ expired.map Expired.timer ↔ ∃ object,
      q.heap timer = some object ∧ place timer = .queued ∧ object.expiration ≤ now := by
    rw [expires.addresses]
    exact tracks.mem_due_iff now
  have nodup : (expired.map Expired.timer).Nodup := by
    rw [expires.addresses]
    exact tracks.due_nodup now
  obtain ⟨-, activeIff, sequences⟩ := expires
  refine ⟨fun timer => ?_, tracks.posted_nodup, nodup⟩
  have before := tracks.everywhere timer
  by_cases among : timer ∈ expired.map Expired.timer
  · obtain ⟨object, found, queued, reached⟩ := (due timer).mp among
    rw [queued] at before
    have here : expirePlaces place expired timer = .batch := if_pos among
    rw [here]
    constructor
    · simpa using before.posted_iff
    · intro when_
      rw [tracks.mem_eraseBelow_sentry_iff, before.timers_iff]
      simp only [found, Option.some.injEq, true_and, exists_eq_left', reduceCtorEq, false_and,
        exists_false, iff_false, not_and, not_lt, and_false]
      rintro rfl
      exact reached
    · intro sequence
      simp [activeIff, among]
    · intro sequence
      simp only [found, Option.some.injEq, true_and, exists_eq_left']
      constructor
      · rintro ⟨it, member, rfl, rfl⟩
        obtain ⟨same, foundSame, equal⟩ := sequences it member
        rw [found] at foundSame
        cases foundSame
        exact equal
      · rintro rfl
        obtain ⟨it, member, rfl⟩ := List.mem_map.mp among
        obtain ⟨same, foundSame, equal⟩ := sequences it member
        rw [found] at foundSame
        cases foundSame
        exact ⟨it, member, rfl, equal.symm⟩
    · exact before.bounded
  · have here : expirePlaces place expired timer = place timer := if_neg among
    rw [here]
    constructor
    · exact before.posted_iff
    · intro when_
      rw [tracks.mem_eraseBelow_sentry_iff, ← before.timers_iff, and_iff_left_iff_imp]
      intro waiting
      obtain ⟨object, found, queued, rfl⟩ := (before.timers_iff when_).mp waiting
      by_contra reached
      exact among ((due timer).mpr ⟨object, found, queued, not_lt.mp reached⟩)
    · intro sequence
      rw [activeIff, before.active_iff, and_iff_right among]
    · intro sequence
      rw [← before.batch_iff]
      simp only [List.not_mem_nil, false_and, exists_false, iff_false]
      rintro ⟨it, member, rfl, -⟩
      exact among (List.mem_map.mpr ⟨it, member, rfl⟩)
    · exact before.bounded

theorem getExpired_ok (tracks : Tracks q [] place) (now : Timestamp) :
    ∃ expired active, q.getExpired now = .ok (expired, { q with
        timers := q.timers.eraseBelow (toLex (now, uintptrMax)), activeTimers := active }) ∧
      Expires q now expired active := by
  obtain ⟨expired, active, ran, activeIff, taken, sequences⟩ :=
    eraseExpired_ok { q with timers := q.timers.eraseBelow (toLex (now, uintptrMax)) }
      (q.timers.below (toLex (now, uintptrMax))) q.activeTimers
      (fun timer sequence member => by
        obtain ⟨object, found, -, equal⟩ :=
          ((tracks.everywhere timer).active_iff sequence).mp member
        exact ⟨object, found, equal⟩)
      (tracks.due_nodup now)
      (fun timer member => by
        obtain ⟨object, found, queued, -⟩ := (tracks.mem_due_iff now timer).mp member
        exact ⟨object.sequence,
          ((tracks.everywhere timer).active_iff _).mpr ⟨object, found, queued, rfl⟩⟩)
  have addresses : expired.map Expired.timer =
      (q.timers.below (toLex (now, uintptrMax))).map (fun entry => (ofLex entry).2) := by
    rw [← taken, List.map_map]
    rfl
  have expires : Expires q now expired active :=
    ⟨taken, by rw [addresses]; exact activeIff, sequences⟩
  have tracksAfter := tracks.expire expires
  refine ⟨expired, active, ?_, expires⟩
  have bound : ∀ end_ ∈ (q.timers.eraseBelow (toLex (now, uintptrMax))).elements.head?,
      now < (ofLex end_).1 := by
    rintro ⟨when_, timer⟩ first
    exact ((tracks.mem_eraseBelow_sentry_iff when_ now timer).mp (List.mem_of_mem_head? first)).2
  simp only [TimerQueue.getExpired, bind, Except.bind, require_ok tracks.sizes, require_ok bound,
    ran, require_ok tracksAfter.sizes]
  rfl

end

end Msmuduo.Timers
