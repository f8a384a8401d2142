import Msmuduo.PollPollerIndex

/-!
# What the poller watches

`Watches` is the intended meaning of the table: the entry of every registered
channel has the channel's events, its plain descriptor when the channel asks
for something, and the negated one when it asks for nothing. `updateChannel`
negates a descriptor but never restores it, and pushes a new one unnegated, so
the meaning holds exactly along the runs that never need either.
-/

namespace Msmuduo.PollPoller

open Msmuduo.Machine

set_option autoImplicit false

/-- The `pollfds_` entry at the channel's index. -/
def entryOf (p : Poller) (id : ChannelId) : Option PollFd :=
  if 0 ≤ (p.object id).index then p.pollfds[(p.object id).index.toNat]? else none

def Watched (p : Poller) (id : ChannelId) : Prop :=
  ∃ pfd, entryOf p id = some pfd ∧
    promote pfd.events = (p.object id).events ∧
    ((p.object id).events ≠ Channel.kNoneEvent → pfd.fd = (p.object id).fd) ∧
    ((p.object id).events = Channel.kNoneEvent → pfd.fd = -(p.object id).fd - 1)

def Watches (p : Poller) : Prop := ∀ id, Registered p id → Watched p id

/-- The steps that `updateChannel` handles as intended: a first update asks
for something, and a channel that asks for nothing is not enabled again. -/
def Direct (p : Poller) : Event → Prop
  | .interest id interest =>
      if (p.object id).index < 0 then
        interest.apply (p.object id).events ≠ Channel.kNoneEvent
      else (p.object id).events = Channel.kNoneEvent →
        interest.apply (p.object id).events = Channel.kNoneEvent
  | .remove _ => True

instance (p : Poller) : (event : Event) → Decidable (Direct p event)
  | .interest id interest =>
      inferInstanceAs (Decidable (if (p.object id).index < 0 then
        interest.apply (p.object id).events ≠ Channel.kNoneEvent
      else (p.object id).events = Channel.kNoneEvent →
        interest.apply (p.object id).events = Channel.kNoneEvent))
  | .remove _ => inferInstanceAs (Decidable True)

section

variable {p : Poller}

theorem entryOf_index {id : ChannelId} {idx : Nat}
    (index : (p.object id).index = idx) : entryOf p id = p.pollfds[idx]? := by
  unfold entryOf
  rw [index, if_pos (Int.natCast_nonneg idx), Int.toNat_natCast]

/-- Another registered channel keeps its entry and its mask. -/
def Framed (p next : Poller) (id : ChannelId) : Prop :=
  ∀ other, other ≠ id → Registered next other →
    Registered p other ∧ entryOf next other = entryOf p other ∧
      (next.object other).fd = (p.object other).fd ∧
      (next.object other).events = (p.object other).events

theorem framed_watches {next : Poller} {id : ChannelId} (watches : Watches p)
    (framed : Framed p next id) (own : Registered next id → Watched next id) :
    Watches next := by
  intro other registered
  by_cases same : other = id
  · subst same
    exact own registered
  · rcases framed other same registered with ⟨before, entry, fd, events⟩
    unfold Watched
    rw [entry, fd, events]
    exact watches other before

theorem added_framed (indexed : Indexed p) {id : ChannelId} (interest : Channel.Interest) :
    Framed p ((p.setObject id ((p.object id).setInterest interest)).added id) id := by
  intro other different registered
  have object : ((p.setObject id ((p.object id).setInterest interest)).added id).object other =
      p.object other := by
    rw [added_object_other different]
    simp [Poller.setObject, different]
  have before : Registered p other := by
    unfold Registered at registered ⊢
    rw [object] at registered
    simp only [Poller.added, Poller.setObject] at registered
    rw [Function.update_apply] at registered
    split at registered
    · exact absurd (Option.some.inj registered).symm different
    · exact registered
  rcases registered_entry indexed before with ⟨idx, pfd, index, entry, bound, -⟩
  refine ⟨before, ?_, by rw [object], by rw [object]⟩
  rw [entryOf_index index, entryOf_index (by rw [object]; exact index)]
  simp only [Poller.added, Poller.setObject]
  rw [List.getElem?_append_left bound]

theorem rewritten_framed (indexed : Indexed p) {id : ChannelId} {idx : Nat}
    {pfd : PollFd} (interest : Channel.Interest) (registered : Registered p id)
    (index : (p.object id).index = idx) :
    Framed p (rewritten p id ((p.object id).setInterest interest) idx pfd) id := by
  intro other different otherRegistered
  have object : (rewritten p id ((p.object id).setInterest interest) idx pfd).object other =
      p.object other := rewritten_object_other different _ _ _
  have before : Registered p other := by
    unfold Registered at otherRegistered ⊢
    rw [object] at otherRegistered
    exact otherRegistered
  rcases registered_entry indexed before with ⟨otherIdx, otherPfd, otherIndex, entry, -⟩
  have elsewhere : otherIdx ≠ idx := by
    intro sameIdx
    exact other_fd registered before different
      (same_index indexed before registered (by rw [otherIndex, index, sameIdx]))
  refine ⟨before, ?_, by rw [object], by rw [object]⟩
  rw [entryOf_index otherIndex, entryOf_index (by rw [object]; exact otherIndex)]
  simp only [rewritten]
  rw [List.getElem?_set_ne (Ne.symm elsewhere)]

theorem removal_framed {id : ChannelId} {next : Poller}
    (removal : Removal p id next) : Framed p next id := by
  intro other different registered
  rcases removal.object other with ⟨fd, events⟩
  have before : Registered p other := by
    unfold Registered at registered ⊢
    rw [fd, removal.channels, Function.update_apply] at registered
    split at registered
    · cases registered
    · exact registered
  rcases removal.kept _ other before different with
    ⟨idx, after, index, afterIndex, same⟩
  exact ⟨before, by rw [entryOf_index index, entryOf_index afterIndex, same], fd, events⟩

theorem removal_unregisters {id : ChannelId} {next : Poller}
    (removal : Removal p id next) : ¬Registered next id := by
  intro registered
  unfold Registered at registered
  rw [(removal.object id).1, removal.channels, Function.update_self] at registered
  cases registered

/-- The new entry is watched as intended exactly when the channel asks for
something: a fresh entry is never negated. -/
theorem added_watched_iff (indexed : Indexed p) (id : ChannelId) :
    Watched (p.added id) id ↔ (p.object id).events ≠ Channel.kNoneEvent := by
  have nonneg := indexed.nonneg id
  have entry : entryOf (p.added id) id = some (Poller.freshEntry (p.object id)) := by
    have index : ((p.added id).object id).index = p.pollfds.length := by
      rw [added_object_self]
    rw [entryOf_index index]
    simp [Poller.added]
  unfold Watched
  rw [entry, added_object_self]
  constructor
  · rintro ⟨pfd, same, -, -, negated⟩ empty
    cases same
    have plain := negated empty
    simp only [Poller.freshEntry] at plain
    omega
  · intro asks
    exact ⟨_, rfl, promote_toShort _ (indexed.interested id), fun _ => rfl,
      fun empty => absurd empty asks⟩

/-- A rewritten entry is watched as intended exactly when the channel did not
go from asking for nothing to asking for something. -/
theorem rewritten_watched_iff (indexed : Indexed p) {id : ChannelId} {idx : Nat}
    {pfd : PollFd} (interest : Channel.Interest)
    (index : (p.object id).index = idx) (entry : p.pollfds[idx]? = some pfd)
    (watched : Watched p id) :
    Watched (rewritten p id ((p.object id).setInterest interest) idx pfd) id ↔
      ((p.object id).events = Channel.kNoneEvent →
        interest.apply (p.object id).events = Channel.kNoneEvent) := by
  have nonneg := indexed.nonneg id
  have bound : idx < p.pollfds.length := (List.getElem?_eq_some_iff.mp entry).1
  have object : (rewritten p id ((p.object id).setInterest interest) idx pfd).object id =
      (p.object id).setInterest interest := by
    simp [rewritten, Poller.setObject]
  have newEntry : entryOf (rewritten p id ((p.object id).setInterest interest) idx pfd) id =
      some (Poller.refreshed ((p.object id).setInterest interest) pfd) := by
    have newIndex :
        ((rewritten p id ((p.object id).setInterest interest) idx pfd).object id).index = idx := by
      rw [object]
      exact index
    rw [entryOf_index newIndex]
    simp [rewritten, bound]
  rcases watched with ⟨oldPfd, oldEntry, -, plain, negated⟩
  rw [entryOf_index index, entry] at oldEntry
  cases oldEntry
  unfold Watched
  rw [newEntry, object]
  constructor
  · rintro ⟨newPfd, same, -, newPlain, -⟩ wasEmpty
    cases same
    by_contra nowAsks
    have newFd := newPlain nowAsks
    have oldFd := negated wasEmpty
    have notNone : ((p.object id).setInterest interest).isNoneEvent = false := by
      simpa [Channel.isNoneEvent, Channel.setInterest] using nowAsks
    rw [refreshed_enabled pfd notNone] at newFd
    simp only [Channel.setInterest] at newFd
    omega
  · intro stays
    refine ⟨_, rfl, promote_toShort _ (interested_setInterest indexed id interest), ?_, ?_⟩
    · intro nowAsks
      have asked : (p.object id).events ≠ Channel.kNoneEvent :=
        fun wasEmpty => nowAsks (stays wasEmpty)
      have notNone : ((p.object id).setInterest interest).isNoneEvent = false := by
        simpa [Channel.isNoneEvent, Channel.setInterest] using nowAsks
      rw [refreshed_enabled pfd notNone]
      exact plain asked
    · intro nowEmpty
      have isNone : ((p.object id).setInterest interest).isNoneEvent = true := by
        simpa [Channel.isNoneEvent] using nowEmpty
      rw [refreshed_disabled pfd isNone]

/-- One admitted step from a watched table: it never fails, it keeps the
correspondence, and the table is still watched exactly when the step is one of
the direct ones. -/
theorem step_watches (indexed : Indexed p) (watches : Watches p) (event : Event)
    (admitted : Admitted p event) :
    ∃ next, step p event = .ok next ∧ Indexed next ∧ (Watches next ↔ Direct p event) := by
  cases event with
  | interest id interest =>
      by_cases fresh : (p.object id).index < 0
      · have free : p.channels (p.object id).fd = none := by
          simpa [Admitted, fresh] using admitted
        have changed := setObject_unknown_indexed indexed interest fresh
        have own : (p.setObject id ((p.object id).setInterest interest)).object id =
            (p.object id).setInterest interest := by
          simp [Poller.setObject]
        refine ⟨_, step_interest_new interest fresh free,
          added_indexed changed (by rw [own]; exact fresh) (by rw [own]; exact free), ?_⟩
        have ownWatched := added_watched_iff changed id
        rw [own] at ownWatched
        have registered : Registered
            ((p.setObject id ((p.object id).setInterest interest)).added id) id := by
          unfold Registered
          rw [added_object_self, own]
          simp [Poller.added, own]
        simp only [Direct, if_pos fresh]
        constructor
        · intro nowWatches
          exact ownWatched.mp (nowWatches id registered)
        · intro asks
          exact framed_watches watches (added_framed indexed interest)
            (fun _ => ownWatched.mpr asks)
      · have registered : Registered p id := by
          simpa [Admitted, fresh] using admitted
        rcases step_interest_known indexed interest registered with
          ⟨idx, pfd, index, entry, taken⟩
        refine ⟨_, taken, rewritten_indexed indexed interest registered index entry, ?_⟩
        have ownWatched := rewritten_watched_iff indexed interest index entry
          (watches id registered)
        simp only [Direct, if_neg fresh]
        constructor
        · intro nowWatches
          apply ownWatched.mp
          apply nowWatches id
          unfold Registered at registered ⊢
          simpa [rewritten, Poller.setObject, Channel.setInterest] using registered
        · intro stays
          exact framed_watches watches (rewritten_framed indexed interest registered index)
            (fun _ => ownWatched.mpr stays)
  | remove id =>
      rcases admitted with ⟨registered, disabled⟩
      rcases registered_entry indexed registered with ⟨idx, pfd, index, entry, -, -, events⟩
      rcases watches id registered with ⟨watchedPfd, watchedEntry, -, -, negated⟩
      rw [entryOf_index index, entry] at watchedEntry
      cases watchedEntry
      have empty : (p.object id).events = Channel.kNoneEvent := by
        simpa [Channel.isNoneEvent] using disabled
      rcases removeChannel_cases indexed registered disabled index entry events with
        ⟨-, next, removed, removal⟩ | ⟨plain, -⟩
      · refine ⟨next, ?_, removal_indexed indexed registered removal, ?_⟩
        · simp only [step, require_ok disabled]
          exact removed
        · simp only [Direct, iff_true]
          exact framed_watches watches (removal_framed removal)
            (fun still => absurd still (removal_unregisters removal))
      · exact absurd (negated empty) plain

/-- From a watched table the intended meaning lasts for the whole run, and the
assertion of `removeChannel` on the descriptor never fails, exactly when every
step is direct. -/
theorem run_watches_iff {events : List Event} (indexed : Indexed p) (watches : Watches p)
    (admitted : AllSteps step Admitted p events) :
    (Throughout step Watches p events ∧ run step p events ≠ .error .removePollFd) ↔
      AllSteps step Direct p events := by
  induction events generalizing p with
  | nil => simp [Throughout, AllSteps, watches]
  | cons event rest ih =>
      rcases step_watches indexed watches event admitted.head with
        ⟨next, taken, nextIndexed, stays⟩
      rw [throughout_cons_ok rest taken, all_steps_cons_ok rest taken, run_cons_ok rest taken]
      constructor
      · rintro ⟨⟨-, throughout⟩, passed⟩
        have nextWatches := throughout.start
        exact ⟨stays.mp nextWatches,
          (ih nextIndexed nextWatches (admitted.tail taken)).mp ⟨throughout, passed⟩⟩
      · rintro ⟨direct, later⟩
        have nextWatches := stays.mpr direct
        have rest := (ih nextIndexed nextWatches (admitted.tail taken)).mpr later
        exact ⟨⟨watches, rest.1⟩, rest.2⟩

end

theorem new_watches (fds : ChannelId → Nat) : Watches (Poller.new fds) := by
  intro id registered
  cases registered

/-- For channels with any descriptors and any admitted calls on them: the
poller watches what the channels ask for throughout, and the assertion on
`pfd.fd` in `removeChannel` never fails, if and only if no first update asks
for nothing and no fully disabled channel is enabled again. -/
theorem poller_watches_iff_direct (fds : ChannelId → Nat) (events : List Event)
    (admitted : AllSteps step Admitted (Poller.new fds) events) :
    (Throughout step Watches (Poller.new fds) events ∧
      run step (Poller.new fds) events ≠ .error .removePollFd) ↔
      AllSteps step Direct (Poller.new fds) events :=
  run_watches_iff (new_indexed fds) (new_watches fds) admitted

/-- Two channels, one of them disabled and removed. -/
theorem poller_watches_two_channels :
    Throughout step Watches (Poller.new fun id => id + 3)
      [.interest 0 .enableReading, .interest 1 .enableReading,
        .interest 0 .enableWriting, .interest 0 .disableAll, .remove 0] ∧
    run step (Poller.new fun id => id + 3)
      [.interest 0 .enableReading, .interest 1 .enableReading,
        .interest 0 .enableWriting, .interest 0 .disableAll, .remove 0] ≠
      .error .removePollFd :=
  (poller_watches_iff_direct (fun id => id + 3)
    [.interest 0 .enableReading, .interest 1 .enableReading,
      .interest 0 .enableWriting, .interest 0 .disableAll, .remove 0]
    (by decide)).mpr (by decide)

/-- Disabled and enabled again, a channel asks for `POLLIN` while its entry
keeps the negated descriptor; and a channel whose first update is `disableAll`
fails the assertion when it is removed, as `~Acceptor` does before `listen`. -/
theorem poller_misses_reenabled_channel :
    (AllSteps step Admitted (Poller.new fun id => id + 3)
        [.interest 0 .enableReading, .interest 0 .disableAll, .interest 0 .enableReading] ∧
      ¬Throughout step Watches (Poller.new fun id => id + 3)
        [.interest 0 .enableReading, .interest 0 .disableAll, .interest 0 .enableReading]) ∧
    (AllSteps step Admitted (Poller.new fun id => id + 3)
        [.interest 0 .disableAll, .remove 0] ∧
      run step (Poller.new fun id => id + 3) [.interest 0 .disableAll, .remove 0] =
        .error .removePollFd) := by
  refine ⟨⟨by decide, ?_⟩, by decide, by rfl⟩
  intro throughout
  have decided := run_watches_iff (new_indexed fun id => id + 3) (new_watches fun id => id + 3)
    (show AllSteps step Admitted _ [.interest 0 .enableReading, .interest 0 .disableAll,
      .interest 0 .enableReading] by decide)
  exact absurd (decided.mp ⟨throughout, by nofun⟩) (by decide)

end Msmuduo.PollPoller
