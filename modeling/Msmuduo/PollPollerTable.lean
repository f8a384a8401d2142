import Msmuduo.PollPollerWatch

/-!
# The poll table as one channel sees it

The `Standing` of a channel is what the table has of it: the descriptors it is
registered under, its events, and whether the poller has ever seen it. A call
on one channel succeeds in a watched table, changes the standing of that
channel in one way, and leaves the standing of every other channel alone, even
when the entry of another one is moved.
-/

namespace Msmuduo.PollPoller

open Msmuduo.Machine

set_option autoImplicit false

/-- A table in step with its channels that watches what they ask for. -/
structure Tabled (p : Poller) : Prop where
  indexed : Indexed p
  watches : Watches p

@[ext]
structure Standing where
  known : Int → Bool
  fd : Int
  events : EventMask
  fresh : Bool

def Poller.standing (p : Poller) (id : ChannelId) : Standing where
  known := fun fd => p.channels fd == some id
  fd := (p.object id).fd
  events := (p.object id).events
  fresh := decide ((p.object id).index < 0)

section

variable {p : Poller} {id : ChannelId}

theorem standing_known (fd : Int) : (p.standing id).known fd = true ↔ p.channels fd = some id := by
  simp [Poller.standing]

theorem standing_eq {next : Poller} (object : next.object id = p.object id)
    (channels : ∀ fd, next.channels fd = some id ↔ p.channels fd = some id) :
    next.standing id = p.standing id := by
  unfold Poller.standing
  rw [object]
  congr 1
  funext fd
  rw [Bool.eq_iff_iff]
  simpa using channels fd

theorem tabled_interest_known (tabled : Tabled p) (interest : Channel.Interest)
    (registered : Registered p id)
    (stays : (p.object id).events = Channel.kNoneEvent →
      interest.apply (p.object id).events = Channel.kNoneEvent) :
    ∃ next, step p (.interest id interest) = .ok next ∧ Tabled next ∧
      next.channels = p.channels ∧
      next.standing id = { p.standing id with events := interest.apply (p.object id).events } ∧
      ∀ other, other ≠ id → next.standing other = p.standing other := by
  obtain ⟨idx, pfd, index, entry, taken⟩ :=
    step_interest_known tabled.indexed interest registered
  have known : ¬(p.object id).index < 0 := by omega
  have admitted : Admitted p (.interest id interest) := by
    simpa [Admitted, known] using registered
  have direct : Direct p (.interest id interest) := by
    simpa only [Direct, if_neg known] using stays
  obtain ⟨next, sameTaken, indexed, watches⟩ :=
    step_watches tabled.indexed tabled.watches _ admitted
  rw [taken] at sameTaken
  cases sameTaken
  refine ⟨_, taken, ⟨indexed, watches.mpr direct⟩, rfl, ?_, ?_⟩
  · simp [Poller.standing, rewritten, Poller.setObject, Channel.setInterest]
  · intro other different
    apply standing_eq (rewritten_object_other different _ _ _)
    intro fd
    exact Iff.rfl

theorem tabled_interest_new (tabled : Tabled p) (interest : Channel.Interest)
    (fresh : (p.object id).index < 0) (free : p.channels (p.object id).fd = none)
    (asks : interest.apply (p.object id).events ≠ Channel.kNoneEvent) :
    ∃ next, step p (.interest id interest) = .ok next ∧ Tabled next ∧
      next.channels = Function.update p.channels (p.object id).fd (some id) ∧
      next.standing id = ⟨fun fd => fd == (p.object id).fd, (p.object id).fd,
        interest.apply (p.object id).events, false⟩ ∧
      ∀ other, other ≠ id → next.standing other = p.standing other := by
  have taken := step_interest_new interest fresh free
  have admitted : Admitted p (.interest id interest) := by
    simpa [Admitted, fresh] using free
  have direct : Direct p (.interest id interest) := by
    simpa only [Direct, if_pos fresh] using asks
  obtain ⟨next, sameTaken, indexed, watches⟩ :=
    step_watches tabled.indexed tabled.watches _ admitted
  rw [taken] at sameTaken
  cases sameTaken
  have channels : ((p.setObject id ((p.object id).setInterest interest)).added id).channels =
      Function.update p.channels (p.object id).fd (some id) := by
    simp [Poller.added, Poller.setObject, Channel.setInterest]
  refine ⟨_, taken, ⟨indexed, watches.mpr direct⟩, channels, ?_, ?_⟩
  · unfold Poller.standing
    rw [channels, added_object_self]
    simp only [Poller.setObject, Function.update_self, Channel.setInterest, Standing.mk.injEq,
      true_and]
    constructor
    · funext fd
      rw [Function.update_apply]
      split_ifs with here
      · simp [here]
      · have unknown := tabled.indexed.unknown fresh fd
        simp [here, unknown]
    · exact decide_eq_false (Int.not_lt.mpr (Int.natCast_nonneg _))
  · intro other different
    apply standing_eq
    · rw [added_object_other different]
      simp [Poller.setObject, different]
    · intro fd
      rw [channels, Function.update_apply]
      split_ifs with here
      · rw [here, free]
        simp [Ne.symm different]
      · exact Iff.rfl

/-- Only a channel of the map is given a new index. -/
theorem removeChannel_object {next : Poller} {other : ChannelId}
    (removed : p.removeChannel id = .ok next) (unknown : ∀ fd, p.channels fd ≠ some other) :
    next.object other = p.object other := by
  unfold Poller.removeChannel at removed
  obtain ⟨_, _, removed⟩ := bind_ok_inv removed
  obtain ⟨_, _, removed⟩ := bind_ok_inv removed
  obtain ⟨_, _, removed⟩ := bind_ok_inv removed
  obtain ⟨_, _, removed⟩ := bind_ok_inv removed
  split at removed
  · obtain ⟨_, _, removed⟩ := bind_ok_inv removed
    split at removed
    · cases removed
      rfl
    · unfold Poller.moveLast at removed
      dsimp only at removed
      split at removed
      · cases removed
      · next last _ _ _ moved known =>
        cases removed
        have different : other ≠ moved := by
          intro same
          subst same
          rw [Function.update_apply] at known
          split_ifs at known
          exact unknown _ known
        simp [Poller.setObject, different]
  · cases removed

theorem tabled_remove (tabled : Tabled p) (registered : Registered p id)
    (disabled : (p.object id).events = Channel.kNoneEvent) :
    ∃ next, step p (.remove id) = .ok next ∧ Tabled next ∧
      next.channels = Function.update p.channels (p.object id).fd none ∧
      (next.standing id).known = (fun _ => false) ∧
      (next.standing id).fd = (p.object id).fd ∧
      ∀ other, other ≠ id → next.standing other = p.standing other := by
  have none : (p.object id).isNoneEvent = true := by
    simp [Channel.isNoneEvent, disabled]
  obtain ⟨next, taken, indexed, watches⟩ :=
    step_watches tabled.indexed tabled.watches (.remove id) ⟨registered, none⟩
  have removed : p.removeChannel id = .ok next := by
    obtain ⟨_, _, removed⟩ := bind_ok_inv taken
    exact removed
  obtain ⟨idx, pfd, index, entry, -, -, events⟩ := registered_entry tabled.indexed registered
  have removal : Removal p id next := by
    rcases removeChannel_cases tabled.indexed registered none index entry events with
      ⟨-, other, sameRemoved, removal⟩ | ⟨-, failed⟩
    · rw [removed] at sameRemoved
      cases sameRemoved
      exact removal
    · rw [removed] at failed
      cases failed
  have elsewhere : ∀ other, other ≠ id → ∀ fd,
      next.channels fd = some other ↔ p.channels fd = some other := by
    intro other different fd
    rw [removal.channels, Function.update_apply]
    split_ifs with here
    · have owner : p.channels fd = some id := by
        rw [here]
        exact registered
      rw [owner]
      simp [Ne.symm different]
    · exact Iff.rfl
  refine ⟨next, taken, ⟨indexed, watches.mpr trivial⟩, removal.channels, ?_,
    (removal.object id).1, ?_⟩
  · funext fd
    have gone : next.channels fd ≠ some id := by
      rw [removal.channels, Function.update_apply]
      split_ifs with here
      · simp
      · intro known
        exact here (tabled.indexed.owned fd id known).1.symm
    simp [Poller.standing, gone]
  · intro other different
    have fd := (removal.object other).1
    have otherEvents := (removal.object other).2
    have fresh : (next.object other).index < 0 ↔ (p.object other).index < 0 := by
      by_cases known : ∃ fd, p.channels fd = some other
      · obtain ⟨otherFd, known⟩ := known
        obtain ⟨before, after, wasAt, isAt, -⟩ := removal.kept otherFd other known different
        omega
      · have unknown : ∀ fd, p.channels fd ≠ some other :=
          fun fd found => known ⟨fd, found⟩
        rw [removeChannel_object removed unknown]
    unfold Poller.standing
    rw [fd, otherEvents]
    simp only [Standing.mk.injEq, true_and]
    constructor
    · funext otherFd
      rw [Bool.eq_iff_iff]
      simpa using elsewhere other different otherFd
    · exact decide_eq_decide.mpr fresh

/-- Creating a channel is no business of the poller. -/
theorem tabled_create (tabled : Tabled p) (unknown : ∀ fd, p.channels fd ≠ some id) (fd : Nat) :
    Tabled (p.setObject id (Channel.new fd)) ∧
      (p.setObject id (Channel.new fd)).standing id =
        ⟨fun _ => false, fd, Channel.kNoneEvent, true⟩ ∧
      ∀ other, other ≠ id →
        (p.setObject id (Channel.new fd)).standing other = p.standing other := by
  have self : (p.setObject id (Channel.new fd)).object id = Channel.new fd := by
    simp [Poller.setObject]
  have others : ∀ other, other ≠ id →
      (p.setObject id (Channel.new fd)).object other = p.object other := by
    intro other different
    simp [Poller.setObject, different]
  refine ⟨⟨⟨?_, ?_, ?_, ?_⟩, ?_⟩, ?_, ?_⟩
  · intro other
    by_cases same : other = id
    · subst same
      rw [self]
      exact Int.natCast_nonneg fd
    · rw [others other same]
      exact tabled.indexed.nonneg other
  · intro other
    by_cases same : other = id
    · subst same
      rw [self]
      exact Or.inl rfl
    · rw [others other same]
      exact tabled.indexed.interested other
  · intro otherFd other known
    have different : other ≠ id := fun same => unknown otherFd (same ▸ known)
    rw [others other different]
    exact tabled.indexed.owned otherFd other known
  · intro idx pfd entry
    obtain ⟨other, known, index⟩ := tabled.indexed.covered idx pfd entry
    have different : other ≠ id := fun same => unknown _ (same ▸ known)
    refine ⟨other, known, ?_⟩
    rw [others other different]
    exact index
  · intro other registered
    have different : other ≠ id := by
      intro same
      subst same
      exact unknown _ registered
    have before : Registered p other := by
      unfold Registered at registered ⊢
      rw [others other different] at registered
      exact registered
    have watched := tabled.watches other before
    unfold Watched entryOf at watched ⊢
    rw [others other different]
    exact watched
  · unfold Poller.standing
    rw [self]
    simp only [Channel.new, Standing.mk.injEq, true_and]
    constructor
    · funext otherFd
      simpa [Poller.setObject] using unknown otherFd
    · simp
  · intro other different
    apply standing_eq
    · exact others other different
    · intro otherFd
      exact Iff.rfl

end

end Msmuduo.PollPoller
