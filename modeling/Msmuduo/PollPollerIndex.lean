import Msmuduo.PollPoller

/-!
# The poll table and the channel map stay in step

`Indexed` says that the entries of `pollfds_` and the channels of `channels_`
are in one-to-one correspondence through the stored indices, and that every
entry carries its channel's descriptor, plain or negated, and its channel's
events. Every admitted call keeps it.
-/

namespace Msmuduo.PollPoller

open Msmuduo.Machine

set_option autoImplicit false

theorem decode_plain (fd : Int) (nonneg : 0 ≤ fd) : decode fd = fd := by
  simp [decode, Int.not_lt.mpr nonneg]

theorem decode_negated (fd : Int) (nonneg : 0 ≤ fd) : decode (-fd - 1) = fd := by
  unfold decode
  rw [if_pos (by omega)]
  omega

theorem decode_cases (entry fd : Int) (decoded : decode entry = fd) :
    entry = fd ∨ entry = -fd - 1 := by
  unfold decode at decoded
  split at decoded
  · right
    omega
  · left
    exact decoded

/-- The events of an interested channel survive the narrowing to `short`. -/
theorem promote_toShort (mask : EventMask) (interested : Channel.Interested mask) :
    promote (toShort mask) = mask := by
  rcases interested with rfl | rfl | rfl | rfl <;> decide

structure Indexed (p : Poller) : Prop where
  nonneg : ∀ id, 0 ≤ (p.object id).fd
  interested : ∀ id, Channel.Interested (p.object id).events
  owned : ∀ fd id, p.channels fd = some id →
    (p.object id).fd = fd ∧
      ∃ (idx : Nat) (pfd : PollFd), (p.object id).index = idx ∧
        p.pollfds[idx]? = some pfd ∧ decode pfd.fd = fd ∧
        promote pfd.events = (p.object id).events
  covered : ∀ (idx : Nat) (pfd : PollFd), p.pollfds[idx]? = some pfd →
    ∃ id, p.channels (decode pfd.fd) = some id ∧ (p.object id).index = idx

def Registered (p : Poller) (id : ChannelId) : Prop :=
  p.channels (p.object id).fd = some id

instance (p : Poller) (id : ChannelId) : Decidable (Registered p id) :=
  inferInstanceAs (Decidable (p.channels (p.object id).fd = some id))

/-- The asserted preconditions: a first update brings a descriptor the poller
does not have, a later one a channel it still has, and a channel is removed
only while registered and after it was disabled. -/
def Admitted (p : Poller) : Event → Prop
  | .interest id _ =>
      if (p.object id).index < 0 then p.channels (p.object id).fd = none
      else Registered p id
  | .remove id => Registered p id ∧ (p.object id).isNoneEvent = true

instance (p : Poller) : (event : Event) → Decidable (Admitted p event)
  | .interest id _ =>
      inferInstanceAs (Decidable (if (p.object id).index < 0 then
        p.channels (p.object id).fd = none else Registered p id))
  | .remove id =>
      inferInstanceAs (Decidable (Registered p id ∧ (p.object id).isNoneEvent = true))

theorem new_indexed (fds : ChannelId → Nat) : Indexed (Poller.new fds) where
  nonneg := fun id => Int.natCast_nonneg (fds id)
  interested := fun _ => Or.inl rfl
  owned := by
    intro fd id known
    cases known
  covered := by
    intro idx pfd entry
    simp [Poller.new] at entry

section

variable {p : Poller}

/-- Two registered channels with one index have one entry, so one descriptor. -/
theorem same_index (indexed : Indexed p) {first second : Int}
    {left right : ChannelId} (leftKnown : p.channels first = some left)
    (rightKnown : p.channels second = some right)
    (same : (p.object left).index = (p.object right).index) : first = second := by
  rcases (indexed.owned first left leftKnown).2 with
    ⟨idx, pfd, leftIndex, entry, decoded, -⟩
  rcases (indexed.owned second right rightKnown).2 with
    ⟨other, otherPfd, rightIndex, otherEntry, otherDecoded, -⟩
  have sameIdx : idx = other := by
    rw [leftIndex, rightIndex] at same
    exact_mod_cast same
  subst sameIdx
  rw [entry] at otherEntry
  cases otherEntry
  exact decoded.symm.trans otherDecoded

/-- Two entries never belong to one channel. -/
theorem owners_differ (indexed : Indexed p) :
    p.pollfds.Pairwise fun first second =>
      p.channels (decode first.fd) ≠ p.channels (decode second.fd) := by
  rw [List.pairwise_iff_getElem]
  intro first second firstBound secondBound before same
  rcases indexed.covered first _ (List.getElem?_eq_getElem firstBound) with ⟨id, known, index⟩
  rcases indexed.covered second _ (List.getElem?_eq_getElem secondBound) with
    ⟨other, otherKnown, otherIndex⟩
  rw [same, otherKnown] at known
  cases known
  omega

/-- What a registered channel looks like in the table. -/
theorem registered_entry (indexed : Indexed p) {id : ChannelId}
    (registered : Registered p id) :
    ∃ (idx : Nat) (pfd : PollFd), (p.object id).index = idx ∧
      p.pollfds[idx]? = some pfd ∧ idx < p.pollfds.length ∧
      (pfd.fd = (p.object id).fd ∨ pfd.fd = -(p.object id).fd - 1) ∧
      promote pfd.events = (p.object id).events := by
  rcases (indexed.owned _ id registered).2 with ⟨idx, pfd, index, entry, decoded, events⟩
  have bound : idx < p.pollfds.length := (List.getElem?_eq_some_iff.mp entry).1
  exact ⟨idx, pfd, index, entry, bound, decode_cases _ _ decoded, events⟩

theorem refreshed_disabled {channel : Channel} (pfd : PollFd)
    (disabled : channel.isNoneEvent = true) :
    (Poller.refreshed channel pfd).fd = -channel.fd - 1 := by
  simp [Poller.refreshed, disabled]

theorem refreshed_enabled {channel : Channel} (pfd : PollFd)
    (enabled : channel.isNoneEvent = false) :
    (Poller.refreshed channel pfd).fd = pfd.fd := by
  simp [Poller.refreshed, enabled]

theorem interested_setInterest (indexed : Indexed p) (id : ChannelId)
    (interest : Channel.Interest) :
    Channel.Interested ((p.object id).setInterest interest).events :=
  Channel.interested_apply _ interest (indexed.interested id)

theorem updateKnown_ok {id : ChannelId} {idx : Nat} {pfd : PollFd}
    (registered : Registered p id) (index : (p.object id).index = idx)
    (entry : p.pollfds[idx]? = some pfd)
    (fd : pfd.fd = (p.object id).fd ∨ pfd.fd = -(p.object id).fd - 1) :
    p.updateKnown id = .ok
      { p with pollfds := p.pollfds.set idx (Poller.refreshed (p.object id) pfd) } := by
  have known : p.channels (p.object id).fd ≠ none := by
    rw [registered]
    simp
  have bound : idx < p.pollfds.length := (List.getElem?_eq_some_iff.mp entry).1
  have inRange : 0 ≤ (p.object id).index ∧ (p.object id).index < p.pollfds.length := by
    omega
  have position : (p.object id).index.toNat = idx := by omega
  have owner : p.channels (p.object id).fd = some id := registered
  unfold Poller.updateKnown
  dsimp only
  rw [require_ok known, require_ok owner, require_ok inRange, position]
  simp only [bind, Except.bind, entry]
  rw [require_ok fd]
  rfl

theorem added_object_self (id : ChannelId) :
    (p.added id).object id = { p.object id with index := p.pollfds.length } := by
  simp [Poller.added]

theorem added_object_other {id other : ChannelId} (different : other ≠ id) :
    (p.added id).object other = p.object other := by
  simp [Poller.added, different]

/-- A channel the poller has never seen is registered nowhere. -/
theorem Indexed.unknown (indexed : Indexed p) {id : ChannelId}
    (fresh : (p.object id).index < 0) (fd : Int) : p.channels fd ≠ some id := by
  intro known
  rcases (indexed.owned fd id known).2 with ⟨idx, _, index, -⟩
  omega

/-- Appending an entry for a descriptor the map does not have. -/
theorem added_indexed (indexed : Indexed p) {id : ChannelId}
    (fresh : (p.object id).index < 0)
    (free : p.channels (p.object id).fd = none) : Indexed (p.added id) := by
  have unowned := indexed.unknown fresh
  constructor
  · intro other
    by_cases same : other = id
    · subst same
      rw [added_object_self]
      exact indexed.nonneg other
    · rw [added_object_other same]
      exact indexed.nonneg other
  · intro other
    by_cases same : other = id
    · subst same
      rw [added_object_self]
      exact indexed.interested other
    · rw [added_object_other same]
      exact indexed.interested other
  · intro fd other known
    simp only [Poller.added] at known
    by_cases here : fd = (p.object id).fd
    · subst here
      simp only [Function.update_self, Option.some.injEq] at known
      subst known
      rw [added_object_self]
      refine ⟨rfl, p.pollfds.length, Poller.freshEntry (p.object id), rfl, ?_, ?_, ?_⟩
      · simp [Poller.added]
      · exact decode_plain _ (indexed.nonneg id)
      · exact promote_toShort _ (indexed.interested id)
    · rw [Function.update_of_ne here] at known
      have different : other ≠ id := fun same => unowned fd (same ▸ known)
      rcases indexed.owned fd other known with ⟨fdEq, idx, pfd, index, entry, rest⟩
      have bound : idx < p.pollfds.length := (List.getElem?_eq_some_iff.mp entry).1
      rw [added_object_other different]
      refine ⟨fdEq, idx, pfd, index, ?_, rest⟩
      simp only [Poller.added]
      rw [List.getElem?_append_left bound]
      exact entry
  · intro idx pfd entry
    simp only [Poller.added] at entry
    by_cases bound : idx < p.pollfds.length
    · rw [List.getElem?_append_left bound] at entry
      rcases indexed.covered idx pfd entry with ⟨other, known, index⟩
      have different : other ≠ id := fun same => unowned _ (same ▸ known)
      have elsewhere : decode pfd.fd ≠ (p.object id).fd := by
        intro same
        rw [same, free] at known
        cases known
      refine ⟨other, ?_, ?_⟩
      · simp only [Poller.added]
        rw [Function.update_of_ne elsewhere]
        exact known
      · rw [added_object_other different]
        exact index
    · rw [List.getElem?_append_right (by omega)] at entry
      have atEnd : idx = p.pollfds.length := by
        have inside := (List.getElem?_eq_some_iff.mp entry).1
        simp only [List.length_cons, List.length_nil] at inside
        omega
      subst atEnd
      simp only [Nat.sub_self, List.getElem?_cons_zero, Option.some.injEq] at entry
      subst entry
      refine ⟨id, ?_, ?_⟩
      · simp [Poller.added, Poller.freshEntry, decode_plain _ (indexed.nonneg id)]
      · rw [added_object_self]

/-- The state after a registered channel took the mask of `channel` and its
entry `pfd` at `idx` was written back. -/
def rewritten (p : Poller) (id : ChannelId) (channel : Channel) (idx : Nat)
    (pfd : PollFd) : Poller :=
  { (p.setObject id channel) with
    pollfds := p.pollfds.set idx (Poller.refreshed channel pfd) }

theorem step_interest_known (indexed : Indexed p) {id : ChannelId}
    (interest : Channel.Interest) (registered : Registered p id) :
    ∃ (idx : Nat) (pfd : PollFd), (p.object id).index = idx ∧
      p.pollfds[idx]? = some pfd ∧
      step p (.interest id interest) =
        .ok (rewritten p id ((p.object id).setInterest interest) idx pfd) := by
  rcases registered_entry indexed registered with ⟨idx, pfd, index, entry, -, fd, -⟩
  refine ⟨idx, pfd, index, entry, ?_⟩
  let q := p.setObject id ((p.object id).setInterest interest)
  have own : q.object id = (p.object id).setInterest interest := by
    simp [q, Poller.setObject]
  have ownIndex : (q.object id).index = idx := by
    rw [own]
    exact index
  have ownRegistered : Registered q id := by
    unfold Registered
    rw [own]
    exact registered
  have ownFd : pfd.fd = (q.object id).fd ∨ pfd.fd = -(q.object id).fd - 1 := by
    rw [own]
    exact fd
  have known : ¬(q.object id).index < 0 := by omega
  have updated := updateKnown_ok ownRegistered ownIndex entry ownFd
  change q.updateChannel id = _
  unfold Poller.updateChannel
  rw [if_neg known, updated, own]
  rfl

theorem rewritten_object_self (p : Poller) (id : ChannelId) (channel : Channel) (idx : Nat)
    (pfd : PollFd) : (rewritten p id channel idx pfd).object id = channel := by
  simp [rewritten, Poller.setObject]

theorem rewritten_object_other {p : Poller} {id other : ChannelId} (different : other ≠ id)
    (channel : Channel) (idx : Nat) (pfd : PollFd) :
    (rewritten p id channel idx pfd).object other = p.object other := by
  simp [rewritten, Poller.setObject, different]

theorem rewritten_indexed (indexed : Indexed p) {id : ChannelId}
    (interest : Channel.Interest) (registered : Registered p id)
    {idx : Nat} {pfd : PollFd} (index : (p.object id).index = idx)
    (entry : p.pollfds[idx]? = some pfd) :
    Indexed (rewritten p id ((p.object id).setInterest interest) idx pfd) := by
  have bound : idx < p.pollfds.length := (List.getElem?_eq_some_iff.mp entry).1
  have decoded : decode pfd.fd = (p.object id).fd := by
    rcases (indexed.owned _ id registered).2 with ⟨other, otherPfd, otherIndex, otherEntry, fd, -⟩
    have same : other = idx := by omega
    subst same
    rw [entry] at otherEntry
    cases otherEntry
    exact fd
  have refreshedFd : decode
      (Poller.refreshed ((p.object id).setInterest interest) pfd).fd = (p.object id).fd := by
    cases asks : ((p.object id).setInterest interest).isNoneEvent with
    | true =>
        rw [refreshed_disabled pfd asks]
        exact decode_negated _ (indexed.nonneg id)
    | false =>
        rw [refreshed_enabled pfd asks]
        exact decoded
  have asked := interested_setInterest indexed id interest
  constructor
  · intro other
    by_cases same : other = id
    · rw [same, rewritten_object_self]
      exact indexed.nonneg id
    · rw [rewritten_object_other same]
      exact indexed.nonneg other
  · intro other
    by_cases same : other = id
    · rw [same, rewritten_object_self]
      exact asked
    · rw [rewritten_object_other same]
      exact indexed.interested other
  · intro fd other known
    have knownBefore : p.channels fd = some other := known
    rcases indexed.owned fd other knownBefore with
      ⟨fdEq, otherIdx, otherPfd, otherIndex, otherEntry, rest⟩
    by_cases same : other = id
    · rw [same] at fdEq
      rw [same, rewritten_object_self]
      refine ⟨fdEq, idx, Poller.refreshed ((p.object id).setInterest interest) pfd, index, ?_,
        refreshedFd.trans fdEq, promote_toShort _ asked⟩
      exact List.getElem?_set_self bound
    · have elsewhere : otherIdx ≠ idx := by
        intro sameIdx
        have oneFd : fd = (p.object id).fd := same_index indexed knownBefore registered
          (by rw [otherIndex, index, sameIdx])
        rw [oneFd, registered] at knownBefore
        exact same (Option.some.inj knownBefore).symm
      rw [rewritten_object_other same]
      refine ⟨fdEq, otherIdx, otherPfd, otherIndex, ?_, rest⟩
      simp only [rewritten]
      rw [List.getElem?_set_ne (Ne.symm elsewhere)]
      exact otherEntry
  · intro otherIdx otherPfd otherEntry
    simp only [rewritten] at otherEntry
    by_cases same : otherIdx = idx
    · rw [same, List.getElem?_set_self bound] at otherEntry
      cases otherEntry
      refine ⟨id, ?_, ?_⟩
      · rw [refreshedFd]
        exact registered
      · rw [rewritten_object_self, same]
        exact index
    · rw [List.getElem?_set_ne (Ne.symm same)] at otherEntry
      rcases indexed.covered otherIdx otherPfd otherEntry with ⟨other, known, otherIndex⟩
      refine ⟨other, known, ?_⟩
      by_cases sameId : other = id
      · rw [sameId] at otherIndex
        rw [sameId, rewritten_object_self]
        exact otherIndex
      · rw [rewritten_object_other sameId]
        exact otherIndex

/-- A channel the poller does not know may change its mask freely. -/
theorem setObject_unknown_indexed (indexed : Indexed p) {id : ChannelId}
    (interest : Channel.Interest) (fresh : (p.object id).index < 0) :
    Indexed (p.setObject id ((p.object id).setInterest interest)) := by
  have unowned := indexed.unknown fresh
  constructor
  · intro other
    by_cases same : other = id
    · subst same
      simpa [Poller.setObject, Channel.setInterest] using indexed.nonneg other
    · simpa [Poller.setObject, same] using indexed.nonneg other
  · intro other
    by_cases same : other = id
    · subst same
      simpa [Poller.setObject] using interested_setInterest indexed other interest
    · simpa [Poller.setObject, same] using indexed.interested other
  · intro fd other known
    have different : other ≠ id := fun same => unowned fd (same ▸ known)
    simpa [Poller.setObject, different] using indexed.owned fd other known
  · intro idx pfd entry
    rcases indexed.covered idx pfd entry with ⟨other, known, index⟩
    have different : other ≠ id := fun same => unowned _ (same ▸ known)
    exact ⟨other, known, by simpa [Poller.setObject, different] using index⟩

theorem step_interest_new {id : ChannelId} (interest : Channel.Interest)
    (fresh : (p.object id).index < 0) (free : p.channels (p.object id).fd = none) :
    step p (.interest id interest) =
      .ok ((p.setObject id ((p.object id).setInterest interest)).added id) := by
  have own : ((p.setObject id ((p.object id).setInterest interest)).object id) =
      (p.object id).setInterest interest := by
    simp [Poller.setObject]
  have ownFresh : ((p.setObject id ((p.object id).setInterest interest)).object id).index < 0 := by
    rw [own]
    exact fresh
  have ownFree : (p.setObject id ((p.object id).setInterest interest)).channels
      ((p.setObject id ((p.object id).setInterest interest)).object id).fd = none := by
    rw [own]
    exact free
  change Poller.updateChannel _ id = _
  unfold Poller.updateChannel
  rw [if_pos ownFresh]
  unfold Poller.addNew
  rw [require_ok ownFree]
  rfl

/-- The table after the entry at `idx` was exchanged with the last one and the
last place was dropped. -/
theorem getElem?_exchange_dropLast {Entry : Type} (entries : List Entry)
    (idx position : Nat) (removed last : Entry) (inside : idx < entries.length - 1) :
    (((entries.set idx last).set (entries.length - 1) removed).dropLast)[position]? =
      if position = idx then some last
      else if position < entries.length - 1 then entries[position]? else none := by
  rw [List.dropLast_eq_take, List.length_set, List.length_set]
  by_cases kept : position < entries.length - 1
  · rw [List.getElem?_take_of_lt kept, List.getElem?_set_ne (by omega)]
    by_cases here : position = idx
    · subst here
      rw [List.getElem?_set_self (by omega), if_pos rfl]
    · rw [List.getElem?_set_ne (Ne.symm here), if_neg here, if_pos kept]
  · rw [List.getElem?_eq_none (by rw [List.length_take]; omega), if_neg (by omega),
      if_neg kept]

/-- What a removal leaves behind: the map without the descriptor, every other
registered channel with its entry, possibly at a new index, and nothing else
in the table. -/
structure Removal (p : Poller) (id : ChannelId) (next : Poller) : Prop where
  channels : next.channels = Function.update p.channels (p.object id).fd none
  object : ∀ other, (next.object other).fd = (p.object other).fd ∧
    (next.object other).events = (p.object other).events
  kept : ∀ fd other, p.channels fd = some other → other ≠ id →
    ∃ (before after : Nat), (p.object other).index = before ∧
      (next.object other).index = after ∧ next.pollfds[after]? = p.pollfds[before]?
  covered : ∀ (after : Nat) (pfd : PollFd), next.pollfds[after]? = some pfd →
    ∃ other, other ≠ id ∧ p.channels (decode pfd.fd) = some other ∧
      (next.object other).index = after

theorem other_fd {id other : ChannelId} {fd : Int}
    (registered : Registered p id) (known : p.channels fd = some other)
    (different : other ≠ id) : fd ≠ (p.object id).fd := by
  intro same
  rw [same, registered] at known
  exact different (Option.some.inj known).symm

theorem removal_indexed (indexed : Indexed p) {id : ChannelId} {next : Poller}
    (registered : Registered p id) (removal : Removal p id next) : Indexed next := by
  constructor
  · intro other
    rw [(removal.object other).1]
    exact indexed.nonneg other
  · intro other
    rw [(removal.object other).2]
    exact indexed.interested other
  · intro fd other known
    rw [removal.channels] at known
    have elsewhere : fd ≠ (p.object id).fd := by
      intro same
      rw [same, Function.update_self] at known
      cases known
    rw [Function.update_of_ne elsewhere] at known
    have different : other ≠ id := by
      intro same
      subst same
      exact elsewhere (indexed.owned fd other known).1.symm
    rcases indexed.owned fd other known with ⟨fdEq, idx, pfd, index, entry, decoded, events⟩
    rcases removal.kept fd other known different with
      ⟨before, after, beforeIndex, afterIndex, same⟩
    have sameIdx : before = idx := by omega
    subst sameIdx
    rw [(removal.object other).1, (removal.object other).2]
    exact ⟨fdEq, after, pfd, afterIndex, same.trans entry, decoded, events⟩
  · intro idx pfd entry
    rcases removal.covered idx pfd entry with ⟨other, different, known, index⟩
    refine ⟨other, ?_, index⟩
    rw [removal.channels, Function.update_of_ne (other_fd registered known different)]
    exact known

/-- The removed channel has the last entry: it is dropped. -/
theorem removal_of_last (indexed : Indexed p) {id : ChannelId}
    (registered : Registered p id)
    (index : (p.object id).index = ((p.pollfds.length - 1 : Nat) : Int)) :
    Removal p id
      { p with
        channels := Function.update p.channels (p.object id).fd none
        pollfds := p.pollfds.dropLast } := by
  refine ⟨rfl, fun _ => ⟨rfl, rfl⟩, ?_, ?_⟩
  · intro fd other known different
    rcases (indexed.owned fd other known).2 with ⟨idx, pfd, otherIndex, entry, -⟩
    have bound : idx < p.pollfds.length := (List.getElem?_eq_some_iff.mp entry).1
    have earlier : idx ≠ p.pollfds.length - 1 := by
      intro same
      exact other_fd registered known different
        (same_index indexed known registered (by rw [otherIndex, index, same]))
    refine ⟨idx, idx, otherIndex, otherIndex, ?_⟩
    rw [List.dropLast_eq_take, List.getElem?_take_of_lt (by omega)]
  · intro idx pfd entry
    have kept : idx < p.pollfds.length - 1 := by
      simpa using (List.getElem?_eq_some_iff.mp entry).1
    rw [List.dropLast_eq_take, List.getElem?_take_of_lt kept] at entry
    rcases indexed.covered idx pfd entry with ⟨other, known, otherIndex⟩
    refine ⟨other, ?_, known, otherIndex⟩
    intro same
    subst same
    omega

/-- The last entry takes the place of the removed one. -/
theorem removal_of_moved (indexed : Indexed p) {id moved : ChannelId} {idx : Nat}
    (pfd : PollFd) {last : PollFd} (registered : Registered p id)
    (index : (p.object id).index = idx) (inside : idx < p.pollfds.length - 1)
    (atEnd : p.pollfds[p.pollfds.length - 1]? = some last)
    (known : p.channels (decode last.fd) = some moved)
    (movedIndex : (p.object moved).index = ((p.pollfds.length - 1 : Nat) : Int)) :
    Removal p id
      { object := Function.update p.object moved { p.object moved with index := idx }
        channels := Function.update p.channels (p.object id).fd none
        pollfds := ((p.pollfds.set idx last).set (p.pollfds.length - 1) pfd).dropLast } := by
  have movedOther : moved ≠ id := by
    intro same
    subst same
    omega
  refine ⟨rfl, ?_, ?_, ?_⟩
  · intro other
    by_cases same : other = moved
    · subst same
      simp
    · simp [same]
  · intro fd other otherKnown different
    rcases (indexed.owned fd other otherKnown).2 with
      ⟨before, otherPfd, otherIndex, entry, -⟩
    have bound : before < p.pollfds.length := (List.getElem?_eq_some_iff.mp entry).1
    by_cases same : other = moved
    · subst same
      have beforeEnd : before = p.pollfds.length - 1 := by omega
      refine ⟨before, idx, otherIndex, by simp, ?_⟩
      rw [getElem?_exchange_dropLast _ _ _ _ _ inside, if_pos rfl, beforeEnd, atEnd]
    · have notEnd : before ≠ p.pollfds.length - 1 := by
        intro sameIdx
        have oneFd : fd = decode last.fd := same_index indexed otherKnown known
          (by rw [otherIndex, movedIndex, sameIdx])
        rw [oneFd, known] at otherKnown
        exact same (Option.some.inj otherKnown).symm
      have notRemoved : before ≠ idx := by
        intro sameIdx
        exact other_fd registered otherKnown different
          (same_index indexed otherKnown registered (by rw [otherIndex, index, sameIdx]))
      refine ⟨before, before, otherIndex, by simpa [same] using otherIndex, ?_⟩
      rw [getElem?_exchange_dropLast _ _ _ _ _ inside, if_neg notRemoved,
        if_pos (by omega)]
  · intro after otherPfd entry
    dsimp only at entry ⊢
    rw [getElem?_exchange_dropLast _ _ _ _ _ inside] at entry
    split at entry
    · next here =>
      cases entry
      exact ⟨moved, movedOther, known, by simp [here]⟩
    · next elsewhere =>
      split at entry
      · next kept =>
        rcases indexed.covered after otherPfd entry with ⟨other, otherKnown, otherIndex⟩
        have notMoved : other ≠ moved := by
          intro same
          subst same
          omega
        refine ⟨other, ?_, otherKnown, by simpa [notMoved] using otherIndex⟩
        intro same
        subst same
        omega
      · cases entry

/-- Removing a registered, disabled channel: the assertion on its entry
decides, and when it holds the removal goes through. -/
theorem removeChannel_cases (indexed : Indexed p) {id : ChannelId} {pfd : PollFd}
    {idx : Nat} (registered : Registered p id)
    (disabled : (p.object id).isNoneEvent = true) (index : (p.object id).index = idx)
    (entry : p.pollfds[idx]? = some pfd)
    (events : promote pfd.events = (p.object id).events) :
    (pfd.fd = -(p.object id).fd - 1 ∧
      ∃ next, p.removeChannel id = .ok next ∧ Removal p id next) ∨
    (pfd.fd ≠ -(p.object id).fd - 1 ∧ p.removeChannel id = .error .removePollFd) := by
  have known : p.channels (p.object id).fd ≠ none := by
    rw [registered]
    simp
  have owner : p.channels (p.object id).fd = some id := registered
  have bound : idx < p.pollfds.length := (List.getElem?_eq_some_iff.mp entry).1
  have inRange : 0 ≤ (p.object id).index ∧ (p.object id).index < p.pollfds.length := by
    omega
  have position : (p.object id).index.toNat = idx := by omega
  obtain ⟨last, atEnd⟩ : ∃ last, p.pollfds[p.pollfds.length - 1]? = some last :=
    ⟨_, List.getElem?_eq_getElem (by omega)⟩
  have unfolded : p.removeChannel id =
      (require (pfd.fd = -(p.object id).fd - 1 ∧ promote pfd.events = (p.object id).events)
        Assertion.removePollFd >>= fun _ =>
      if idx = p.pollfds.length - 1 then
        .ok { p with
          channels := Function.update p.channels (p.object id).fd none
          pollfds := p.pollfds.dropLast }
      else
        Poller.moveLast { p with channels := Function.update p.channels (p.object id).fd none }
          idx pfd last) := by
    unfold Poller.removeChannel
    dsimp only
    rw [require_ok known, require_ok owner, require_ok disabled, require_ok inRange,
      position, List.getLast?_eq_getElem?, entry, atEnd]
    rfl
  by_cases skipped : pfd.fd = -(p.object id).fd - 1
  · left
    refine ⟨skipped, ?_⟩
    rw [unfolded, require_ok ⟨skipped, events⟩]
    by_cases isLast : idx = p.pollfds.length - 1
    · refine ⟨_, ?_, removal_of_last indexed registered (by rw [index, isLast])⟩
      simp [bind, Except.bind, isLast]
    · have inside : idx < p.pollfds.length - 1 := by omega
      rcases indexed.covered _ last atEnd with ⟨moved, movedKnown, movedIndex⟩
      have movedOther : moved ≠ id := by
        intro same
        subst same
        omega
      have stillKnown : Function.update p.channels (p.object id).fd none (decode last.fd) =
          some moved := by
        rw [Function.update_of_ne (other_fd registered movedKnown movedOther)]
        exact movedKnown
      refine ⟨_, ?_, removal_of_moved indexed pfd registered index inside atEnd
        movedKnown movedIndex⟩
      simp only [bind, Except.bind, if_neg isLast, Poller.moveLast, stillKnown]
      rfl
  · right
    refine ⟨skipped, ?_⟩
    rw [unfolded, require_error (fun both => skipped both.1)]
    rfl

end

end Msmuduo.PollPoller
