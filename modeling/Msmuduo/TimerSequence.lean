import Mathlib.Algebra.Group.Nat.Defs
import Mathlib.Data.List.Nodup
import Msmuduo.TimerQueueRuns

/-!
# The sequence numbers of timers

`sequence_` is an `int64_t` and `s_numCreated_` an `AtomicInt64`, but every
function of `AtomicIntegerT` works on a `LONG`, whatever its parameter is. On this
build a `LONG` has 32 bits, so the numbers come back after 2^32 timers, and then
an old `TimerId` can name a new timer at the same address.

`s_numCreated_` is one counter for all queues. `elsewhere` is a timer that is made
for another queue. A sum that does not fit into a `LONG` wraps around.
-/

namespace Msmuduo

set_option autoImplicit false

abbrev LONG := BitVec 32

/-- The parameter is not used, as in the source. -/
structure AtomicIntegerT (T : Type) where
  value : LONG
  deriving DecidableEq, Repr

namespace AtomicIntegerT

variable {T : Type}

def new : AtomicIntegerT T where
  value := 0

/-- `InterlockedExchangeAdd` -/
def getAndAdd (a : AtomicIntegerT T) (x : LONG) : LONG × AtomicIntegerT T :=
  (a.value, ⟨a.value + x⟩)

def addAndGet (a : AtomicIntegerT T) (x : LONG) : LONG × AtomicIntegerT T :=
  let (old, a) := a.getAndAdd x
  (old + x, a)

def incrementAndGet (a : AtomicIntegerT T) : LONG × AtomicIntegerT T := a.addAndGet 1

end AtomicIntegerT

abbrev AtomicInt64 := AtomicIntegerT Int64

end Msmuduo

namespace Msmuduo.Timers

open Msmuduo.Machine

set_option autoImplicit false

/-- A queue whose timers take their numbers from `s_numCreated_`. The numbers of
all timers made are recorded in `drawn`. -/
structure Numbered where
  numCreated : AtomicInt64
  queue : TimerQueue
  drawn : List Int

namespace Numbered

def new : Numbered where
  numCreated := AtomicIntegerT.new
  queue := TimerQueue.new
  drawn := []

inductive Event where
  | newTimer (timer : Address) (when_ : Timestamp) (interval : Interval)
  | elsewhere
  | inQueue (event : Timers.Event)
  deriving DecidableEq, Repr

/-- The initializer of `sequence_`: the `LONG` becomes an `int64_t`. -/
def draw (n : Numbered) : Int × Numbered :=
  let (sequence, numCreated) := n.numCreated.incrementAndGet
  (sequence.toInt, { n with numCreated := numCreated, drawn := n.drawn ++ [sequence.toInt] })

/-- No timer is made with another number than a drawn one. -/
def step (n : Numbered) : Event → Except Fault Numbered
  | .newTimer timer when_ interval =>
      let (sequence, n) := n.draw
      .ok { n with queue := n.queue.newTimer timer when_ interval sequence }
  | .elsewhere => .ok n.draw.2
  | .inQueue (.newTimer _ _ _ _) => .ok n
  | .inQueue event => do
      let queue ← Timers.step n.queue event
      return { n with queue := queue }

/-- What `new` promises of the address. -/
def Places (n : Numbered) : Event → Prop
  | .newTimer timer _ _ => n.queue.heap timer = none ∧ timer < uintptrMax
  | _ => True

/-- How many timers are made. -/
def creations : List Event → Nat
  | [] => 0
  | .newTimer _ _ _ :: rest => creations rest + 1
  | .elsewhere :: rest => creations rest + 1
  | .inQueue _ :: rest => creations rest

/-- No two timers have one number, and cancelling a timer that is gone takes no
other timer out of the queue, whatever lives at its address. -/
structure NeverReused (n : Numbered) : Prop where
  distinct : n.drawn.Nodup
  stale : ∀ timerId, timerId.sequence ∈ n.queue.deleted →
    ∃ next, n.queue.cancelInLoop timerId = .ok next ∧ next.heap = n.queue.heap ∧
      next.timers = n.queue.timers ∧ next.activeTimers = n.queue.activeTimers

/-! ## The numbers of a run -/

/-- The number of the timer made after `index` others. -/
def number (index : Nat) : Int := (BitVec.ofNat 32 (index + 1)).toInt

theorem number_eq_iff (first second : Nat) :
    number first = number second ↔ first % 2 ^ 32 = second % 2 ^ 32 := by
  unfold number
  rw [BitVec.toInt_inj, ← BitVec.toNat_inj, BitVec.toNat_ofNat, BitVec.toNat_ofNat]
  omega

def numbers (count : Nat) : List Int := (List.range count).map number

theorem numbers_succ (count : Nat) : numbers (count + 1) = numbers count ++ [number count] := by
  simp [numbers, List.range_succ]

theorem numbers_nodup_iff (count : Nat) : (numbers count).Nodup ↔ count ≤ 2 ^ 32 := by
  constructor
  · intro nodup
    by_contra many
    have first : (0 : Nat) ∈ List.range count := List.mem_range.mpr (by omega)
    have again : 2 ^ 32 ∈ List.range count := List.mem_range.mpr (by omega)
    have same : number 0 = number (2 ^ 32) := (number_eq_iff _ _).mpr (by decide)
    have equal := List.inj_on_of_nodup_map nodup first again same
    cases equal
  · intro few
    apply List.Nodup.map_on _ List.nodup_range
    intro first firstBelow second secondBelow same
    rw [number_eq_iff] at same
    rw [List.mem_range] at firstBelow secondBelow
    rwa [Nat.mod_eq_of_lt (by omega), Nat.mod_eq_of_lt (by omega)] at same

/-- The counter follows the record. -/
structure Counts (n : Numbered) : Prop where
  value : n.numCreated.value = BitVec.ofNat 32 n.drawn.length
  drawn : n.drawn = numbers n.drawn.length

theorem counts_new : Counts new := ⟨rfl, rfl⟩

theorem Counts.draw_eq {n : Numbered} (counts : Counts n) :
    n.draw = (number n.drawn.length,
      ⟨⟨BitVec.ofNat 32 (n.drawn.length + 1)⟩, n.queue, n.drawn ++ [number n.drawn.length]⟩) := by
  have next : n.numCreated.value + 1 = BitVec.ofNat 32 (n.drawn.length + 1) := by
    rw [counts.value, BitVec.ofNat_add]
    rfl
  simp only [draw, AtomicIntegerT.incrementAndGet, AtomicIntegerT.addAndGet,
    AtomicIntegerT.getAndAdd, next, number]

/-- Making a timer, wherever its queue is. -/
theorem Counts.drawn_succ {n next : Numbered} (counts : Counts n)
    (value : next.numCreated.value = BitVec.ofNat 32 (n.drawn.length + 1))
    (drawn : next.drawn = n.drawn ++ [number n.drawn.length]) :
    Counts next ∧ next.drawn.length = n.drawn.length + 1 := by
  have length : next.drawn.length = n.drawn.length + 1 := by
    rw [drawn, List.length_append, List.length_singleton]
  refine ⟨⟨?_, ?_⟩, length⟩
  · rw [length]
    exact value
  · rw [length, numbers_succ, ← counts.drawn]
    exact drawn

/-- A step of the queue itself draws no number. -/
theorem inQueue_inv {n next : Numbered} {event : Timers.Event}
    (taken : step n (.inQueue event) = .ok next) :
    next.numCreated = n.numCreated ∧ next.drawn = n.drawn := by
  cases event with
  | newTimer timer when_ interval sequence =>
      cases taken
      exact ⟨rfl, rfl⟩
  | _ =>
      rcases bind_ok_inv taken with ⟨queue, -, done⟩
      cases done
      exact ⟨rfl, rfl⟩

theorem step_counts {n next : Numbered} {event : Event} (counts : Counts n)
    (taken : step n event = .ok next) :
    Counts next ∧ next.drawn.length = n.drawn.length + creations [event] := by
  cases event with
  | newTimer timer when_ interval =>
      simp only [step, counts.draw_eq] at taken
      cases taken
      exact counts.drawn_succ rfl rfl
  | elsewhere =>
      simp only [step, counts.draw_eq] at taken
      cases taken
      exact counts.drawn_succ rfl rfl
  | inQueue event =>
      rcases inQueue_inv taken with ⟨numCreated, drawn⟩
      refine ⟨⟨?_, ?_⟩, ?_⟩
      · rw [numCreated, drawn]
        exact counts.value
      · rw [drawn]
        exact counts.drawn
      · rw [drawn]
        rfl

theorem creations_cons (event : Event) (rest : List Event) :
    creations (event :: rest) = creations [event] + creations rest := by
  cases event <;> simp [creations, Nat.add_comm]

theorem run_counts {n final : Numbered} {events : List Event} (counts : Counts n)
    (ran : run step n events = .ok final) :
    Counts final ∧ final.drawn.length = n.drawn.length + creations events := by
  induction events generalizing n with
  | nil =>
      cases ran
      exact ⟨counts, rfl⟩
  | cons event rest ih =>
      rcases run_cons_inv ran with ⟨next, taken, later⟩
      rcases step_counts counts taken with ⟨after, length⟩
      rcases ih after later with ⟨atEnd, total⟩
      refine ⟨atEnd, ?_⟩
      rw [total, length, creations_cons event rest]
      omega

/-! ## Runs with few timers -/

/-- The queue keeps its invariant as long as its numbers are distinct. -/
structure Orderly (n : Numbered) : Prop where
  counts : Counts n
  queue : Invariant n.queue
  created : ∀ sequence ∈ n.queue.created, sequence ∈ n.drawn

theorem orderly_new : Orderly new := ⟨counts_new, invariant_new, by nofun⟩

theorem Orderly.number_fresh {n : Numbered} (orderly : Orderly n)
    (room : n.drawn.length + 1 ≤ 2 ^ 32) : number n.drawn.length ∉ n.drawn := by
  have nodup := (numbers_nodup_iff (n.drawn.length + 1)).mpr room
  rw [numbers_succ, ← orderly.counts.drawn] at nodup
  intro member
  exact (List.nodup_append.mp nodup).2.2 _ member _ (List.mem_singleton_self _) rfl

theorem step_orderly {n : Numbered} {event : Event} (orderly : Orderly n)
    (places : Places n event) (room : n.drawn.length + creations [event] ≤ 2 ^ 32) :
    ∃ next, step n event = .ok next ∧ Orderly next := by
  cases event with
  | newTimer timer when_ interval =>
      have fresh := orderly.number_fresh room
      rcases step_keeps n.queue (.newTimer timer when_ interval (number n.drawn.length))
        orderly.queue ⟨places.1, places.2, fun known => fresh (orderly.created _ known)⟩ with
        ⟨queue, taken, kept⟩
      cases taken
      refine ⟨⟨⟨BitVec.ofNat 32 (n.drawn.length + 1)⟩, _, n.drawn ++ [number n.drawn.length]⟩,
        ?_, (orderly.counts.drawn_succ rfl rfl).1, kept, ?_⟩
      · simp only [step, orderly.counts.draw_eq]
        rfl
      · intro sequence known
        rcases List.mem_append.mp known with before | new
        · exact List.mem_append_left _ (orderly.created sequence before)
        · exact List.mem_append_right _ new
  | elsewhere =>
      refine ⟨_, rfl, ?_⟩
      rw [orderly.counts.draw_eq]
      refine ⟨(orderly.counts.drawn_succ rfl rfl).1, orderly.queue, ?_⟩
      intro sequence known
      exact List.mem_append_left _ (orderly.created sequence known)
  | inQueue event =>
      by_cases made : ∃ timer when_ interval sequence,
          event = .newTimer timer when_ interval sequence
      · rcases made with ⟨timer, when_, interval, sequence, rfl⟩
        exact ⟨n, rfl, orderly⟩
      · have other : ∀ timer when_ interval sequence,
            event ≠ .newTimer timer when_ interval sequence := by
          intro timer when_ interval sequence same
          exact made ⟨timer, when_, interval, sequence, same⟩
        rcases orderly.queue with ⟨place, sound⟩
        rcases step_moves sound.tracks event with ⟨queue, taken, moves⟩
        have allocates : Allocates n.queue event := by
          cases event with
          | newTimer timer when_ interval sequence => exact absurd rfl (other _ _ _ _)
          | _ => trivial
        refine ⟨{ n with queue := queue }, ?_, ⟨orderly.counts.value, orderly.counts.drawn⟩,
          moves.sound sound allocates, ?_⟩
        · cases event with
          | newTimer timer when_ interval sequence => exact absurd rfl (other _ _ _ _)
          | _ =>
              simp only [step, taken, bind, Except.bind]
              rfl
        · rw [moves.created other]
          exact orderly.created

theorem run_orderly {n : Numbered} {events : List Event} (orderly : Orderly n)
    (places : AllSteps step Places n events)
    (room : n.drawn.length + creations events ≤ 2 ^ 32) :
    ∃ final, run step n events = .ok final ∧ Orderly final := by
  induction events generalizing n with
  | nil => exact ⟨n, rfl, orderly⟩
  | cons event rest ih =>
      rw [creations_cons] at room
      rcases step_orderly orderly places.head (by omega) with ⟨next, taken, after⟩
      have length := (step_counts orderly.counts taken).2
      rw [run_cons_ok rest taken]
      exact ih after (places.tail taken) (by omega)

/-- A timer that is gone is not among the active ones. -/
theorem Orderly.stale {n : Numbered} (orderly : Orderly n) {timerId : TimerId}
    (gone : timerId.sequence ∈ n.queue.deleted) :
    ∃ next, n.queue.cancelInLoop timerId = .ok next ∧ next.heap = n.queue.heap ∧
      next.timers = n.queue.timers ∧ next.activeTimers = n.queue.activeTimers := by
  rcases orderly.queue with ⟨place, sound⟩
  have unknown : toLex (timerId.timer, timerId.sequence) ∉ n.queue.activeTimers := by
    intro member
    rcases ((sound.tracks.everywhere timerId.timer).active_iff timerId.sequence).mp member with
      ⟨object, found, -, same⟩
    rw [← same] at gone
    exact sound.accounts.live_not_deleted timerId.timer object found gone
  refine ⟨_, cancelInLoop_ok_unknown sound.tracks unknown, ?_⟩
  split <;> exact ⟨rfl, rfl, rfl⟩

/-- For every run with addresses that `new` can return: it ends with all timers
told apart if and only if at most 2^32 timers are made in it. -/
theorem identities_distinct_iff (events : List Event)
    (places : AllSteps step Places new events) :
    (∃ final, run step new events = .ok final ∧ NeverReused final) ↔
      creations events ≤ 2 ^ 32 := by
  constructor
  · rintro ⟨final, ran, unique⟩
    rcases run_counts counts_new ran with ⟨counts, length⟩
    have nodup := unique.distinct
    rw [counts.drawn, numbers_nodup_iff, length] at nodup
    simpa [new] using nodup
  · intro few
    have room : new.drawn.length + creations events ≤ 2 ^ 32 := by simpa [new] using few
    rcases run_orderly orderly_new places room with ⟨final, ran, orderly⟩
    refine ⟨final, ran, ?_, fun timerId gone => orderly.stale gone⟩
    rw [orderly.counts.drawn, numbers_nodup_iff, (run_counts counts_new ran).2]
    exact room

/-- A timer is made, cancelled, and another one is made at its address. -/
theorem reused_address_told_apart :
    ∃ final, run step new
        [.newTimer 16 100 ⟨false, 0⟩, .inQueue (.addTimerInLoop 16 20), .elsewhere,
          .inQueue (.cancelInLoop ⟨16, 1⟩), .newTimer 16 200 ⟨false, 0⟩,
          .inQueue (.addTimerInLoop 16 30)] = .ok final ∧ NeverReused final :=
  (identities_distinct_iff
    [.newTimer 16 100 ⟨false, 0⟩, .inQueue (.addTimerInLoop 16 20), .elsewhere,
      .inQueue (.cancelInLoop ⟨16, 1⟩), .newTimer 16 200 ⟨false, 0⟩,
      .inQueue (.addTimerInLoop 16 30)]
    ⟨⟨rfl, by decide⟩, trivial, trivial, trivial, ⟨rfl, by decide⟩, trivial, trivial⟩).mpr
    (by decide)

/-! ## A number that comes back -/

theorem run_elsewhere {n : Numbered} (counts : Counts n) (count : Nat) :
    ∃ final, run step n (List.replicate count .elsewhere) = .ok final ∧ Counts final ∧
      final.drawn.length = n.drawn.length + count ∧ final.queue = n.queue := by
  induction count generalizing n with
  | zero => exact ⟨n, rfl, counts, rfl, rfl⟩
  | succ count ih =>
      have taken : step n .elsewhere = .ok n.draw.2 := rfl
      have queue : n.draw.2.queue = n.queue := rfl
      rcases step_counts counts taken with ⟨after, length⟩
      rcases ih after with ⟨final, ran, atEnd, total, same⟩
      refine ⟨final, ?_, atEnd, ?_, same.trans queue⟩
      · rw [List.replicate_succ, run_cons_ok _ taken]
        exact ran
      · rw [total, length]
        simp only [creations]
        omega

/-- A timer at the address 16 that is cancelled. -/
def cancelFirst : List Event :=
  [.newTimer 16 100 ⟨false, 0⟩, .inQueue (.addTimerInLoop 16 20),
    .inQueue (.cancelInLoop ⟨16, 1⟩)]

/-- Another timer at that address. -/
def addSecond : List Event :=
  [.newTimer 16 200 ⟨false, 0⟩, .inQueue (.addTimerInLoop 16 30)]

/-- If the second timer had the number of the first, the old identifier would
cancel it. -/
theorem same_number_cancelled :
    ∃ first second next, run step new cancelFirst = .ok first ∧
      Timers.step (first.queue.newTimer 16 200 ⟨false, 0⟩ 1) (.addTimerInLoop 16 30) =
        .ok second ∧
      1 ∈ second.deleted ∧ (second.heap 16).isSome = true ∧
      second.cancelInLoop ⟨16, 1⟩ = .ok next ∧ next.heap 16 = none :=
  ⟨_, _, _, rfl, rfl, by decide, rfl, rfl, rfl⟩

theorem reuse_run (count : Nat) (again : number (count + 1) = 1) :
    ∃ final next,
      run step new (cancelFirst ++ (List.replicate count .elsewhere ++ addSecond)) = .ok final ∧
      ¬final.drawn.Nodup ∧ 1 ∈ final.queue.deleted ∧ (final.queue.heap 16).isSome = true ∧
      final.queue.cancelInLoop ⟨16, 1⟩ = .ok next ∧ next.heap 16 = none := by
  rcases same_number_cancelled with ⟨first, second, next, ran, added, gone, lives, cancelled⟩
  rcases run_counts counts_new ran with ⟨counts, length⟩
  rcases run_elsewhere counts count with ⟨later, ranLater, laterCounts, laterLength, same⟩
  have index : later.drawn.length = count + 1 := by
    rw [laterLength, length, Nat.add_comm]
    rfl
  have drawn := laterCounts.draw_eq
  rw [index, again, same] at drawn
  have ranSecond : run step later addSecond =
      .ok ⟨⟨BitVec.ofNat 32 (count + 1 + 1)⟩, second, later.drawn ++ [1]⟩ := by
    simp only [addSecond, run, step, drawn, added, bind, Except.bind, pure, Except.pure]
  have whole := run_append (List.replicate count .elsewhere ++ addSecond) ran
  rw [run_append addSecond ranLater, ranSecond] at whole
  refine ⟨_, next, whole, ?_, gone, lives, cancelled⟩
  have known : 1 ∈ later.drawn := by
    rw [laterCounts.drawn, index]
    exact List.mem_map.mpr ⟨0, List.mem_range.mpr (by omega), rfl⟩
  intro nodup
  exact (List.nodup_append.mp nodup).2.2 1 known 1 (List.mem_singleton_self 1) rfl

/-- After 2^32 - 1 timers for other queues the number 1 is drawn again: two timers
have it, and the identifier of the first one cancels the second. -/
theorem repeated_number_matches :
    ∃ final next,
      run step new
        (cancelFirst ++ (List.replicate (2 ^ 32 - 1) .elsewhere ++ addSecond)) = .ok final ∧
      ¬final.drawn.Nodup ∧ 1 ∈ final.queue.deleted ∧ (final.queue.heap 16).isSome = true ∧
      final.queue.cancelInLoop ⟨16, 1⟩ = .ok next ∧ next.heap 16 = none := by
  have again : number (2 ^ 32 - 1 + 1) = 1 :=
    (number_eq_iff (2 ^ 32 - 1 + 1) 0).mpr (by decide)
  exact reuse_run (2 ^ 32 - 1) again

end Numbered

end Msmuduo.Timers
