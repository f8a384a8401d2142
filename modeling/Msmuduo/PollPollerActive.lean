import Mathlib.Data.List.Nodup
import Mathlib.Data.List.GetD
import Msmuduo.PollPollerWatch

/-!
# From the poll table to the active channels

Calls on channels and polls follow one another in any order. The table and the
map stay in one-to-one correspondence, a removal touches no other channel but
the one whose entry is moved, and `fillActiveChannels` finds every descriptor
that poll reports: it returns the channels whose entries were signalled, each
once and with the events of its own entry.
-/

namespace Msmuduo.PollPoller

open Msmuduo.Machine

set_option autoImplicit false

inductive PollFault where
  | call (assertion : Assertion)
  | activeKnownFd
  | activeSameFd
  deriving DecidableEq, Repr

/-- What poll writes into the entries, by position, and returns. -/
structure PollAnswer where
  revents : Nat → BitVec 16
  numEvents : Int

namespace Poller

def polled (p : Poller) (revents : Nat → BitVec 16) : Poller :=
  { p with pollfds := p.pollfds.mapIdx fun idx pfd => { pfd with revents := revents idx } }

/-- The loop of `fillActiveChannels` over the rest of the table. The mask is a
`short`, and `pfd->revents > 0` is a signed comparison. -/
def fillActiveChannels : List PollFd → Int → Poller → List ChannelId →
    Except PollFault (Poller × List ChannelId)
  | [], _, p, activeChannels => .ok (p, activeChannels)
  | pfd :: rest, numEvents, p, activeChannels =>
      if 0 < numEvents then
        if 0 < pfd.revents.toInt then
          match p.channels pfd.fd with
          | none => .error .activeKnownFd
          | some channel => do
              require ((p.object channel).fd = pfd.fd) .activeSameFd
              fillActiveChannels rest (numEvents - 1)
                (p.setObject channel
                  { p.object channel with revents := promote pfd.revents })
                (activeChannels ++ [channel])
        else fillActiveChannels rest numEvents p activeChannels
      else .ok (p, activeChannels)

/-- `poll` with an empty list of active channels, as `loop` calls it. -/
def poll (p : Poller) (answer : PollAnswer) : Except PollFault (Poller × List ChannelId) :=
  if 0 < answer.numEvents then
    fillActiveChannels (p.polled answer.revents).pollfds answer.numEvents
      (p.polled answer.revents) []
  else .ok (p.polled answer.revents, [])

end Poller

def signalled (pfd : PollFd) : Bool := pfd.revents != 0#16

/-- What poll promises: it reports on no skipped entry, none of its flags is
the sign bit of a `short`, and it returns the number of entries it reports on. -/
structure Answers (p : Poller) (answer : PollAnswer) : Prop where
  skipped : ∀ pfd ∈ (p.polled answer.revents).pollfds, signalled pfd = true → 0 ≤ pfd.fd
  unsigned : ∀ pfd ∈ (p.polled answer.revents).pollfds, pfd.revents.msb = false
  counted : answer.numEvents = (p.polled answer.revents).pollfds.countP signalled

inductive Round where
  | call (event : Event)
  | poll (answer : PollAnswer)

def serve (p : Poller) : Round → Except PollFault Poller
  | .call event => (step p event).mapError .call
  | .poll answer => do
      let (next, _) ← p.poll answer
      return next

/-- Calls are asked for nothing but to pass their assertions. -/
def Promised (p : Poller) : Round → Prop
  | .call _ => True
  | .poll answer => Answers p answer

/-! ## Calls -/

section

variable {p next : Poller} {id : ChannelId}

theorem removeChannel_registered (removed : p.removeChannel id = .ok next) :
    Registered p id ∧ (p.object id).isNoneEvent = true := by
  unfold Poller.removeChannel at removed
  rcases bind_ok_inv removed with ⟨_, -, removed⟩
  rcases bind_ok_inv removed with ⟨_, owner, removed⟩
  rcases bind_ok_inv removed with ⟨_, disabled, -⟩
  exact ⟨require_inv owner, require_inv disabled⟩

/-- A call that passes its assertions was admitted. -/
theorem admitted_of_step {event : Event} (taken : step p event = .ok next) :
    Admitted p event := by
  cases event with
  | interest id interest =>
      have own : (p.setObject id ((p.object id).setInterest interest)).object id =
          (p.object id).setInterest interest := by
        simp [Poller.setObject]
      change Poller.updateChannel _ id = _ at taken
      unfold Poller.updateChannel at taken
      by_cases fresh : (p.object id).index < 0
      · have new : ((p.object id).setInterest interest).index < 0 := fresh
        rw [own, if_pos new] at taken
        rcases bind_ok_inv taken with ⟨_, free, -⟩
        have unknown := require_inv free
        rw [own] at unknown
        rw [Admitted, if_pos fresh]
        exact unknown
      · have known : ¬((p.object id).setInterest interest).index < 0 := fresh
        rw [own, if_neg known] at taken
        rcases bind_ok_inv taken with ⟨_, -, passed⟩
        rcases bind_ok_inv passed with ⟨_, owner, -⟩
        have registered := require_inv owner
        rw [own] at registered
        rw [Admitted, if_neg fresh]
        exact registered
  | remove id =>
      rcases bind_ok_inv taken with ⟨_, -, removed⟩
      exact removeChannel_registered removed

/-- A channel that was removed left the table as `Removal` says. -/
theorem removeChannel_removal (indexed : Indexed p) (removed : p.removeChannel id = .ok next) :
    Removal p id next := by
  rcases removeChannel_registered removed with ⟨registered, disabled⟩
  rcases registered_entry indexed registered with ⟨idx, pfd, index, entry, -, -, events⟩
  rcases removeChannel_cases indexed registered disabled index entry events with
    ⟨-, other, taken, removal⟩ | ⟨-, failed⟩
  · rw [removed] at taken
    cases taken
    exact removal
  · rw [removed] at failed
    cases failed

theorem step_indexed (indexed : Indexed p) {event : Event} (taken : step p event = .ok next) :
    Indexed next := by
  have admitted := admitted_of_step taken
  cases event with
  | interest id interest =>
      by_cases fresh : (p.object id).index < 0
      · rw [Admitted, if_pos fresh] at admitted
        rw [step_interest_new interest fresh admitted] at taken
        cases taken
        have own : (p.setObject id ((p.object id).setInterest interest)).object id =
            (p.object id).setInterest interest := by
          simp [Poller.setObject]
        apply added_indexed (setObject_unknown_indexed indexed interest fresh)
        · rw [own]
          exact fresh
        · rw [own]
          exact admitted
      · rw [Admitted, if_neg fresh] at admitted
        rcases step_interest_known indexed interest admitted with ⟨idx, pfd, index, entry, ran⟩
        rw [ran] at taken
        cases taken
        exact rewritten_indexed indexed interest admitted index entry
  | remove id =>
      rcases bind_ok_inv taken with ⟨_, -, removed⟩
      exact removal_indexed indexed admitted.1 (removeChannel_removal indexed removed)

/-! ## A removal -/

/-- The entry of every other channel stays with it, and only the channel at the
end of the table gets a new index, the one that became free. -/
structure Undisturbed (p : Poller) (id : ChannelId) (next : Poller) : Prop where
  channels : next.channels = Function.update p.channels (p.object id).fd none
  entry : ∀ other, other ≠ id → Registered p other → entryOf next other = entryOf p other
  object : ∀ other, other ≠ id → Registered p other →
    next.object other =
      if (p.object other).index = (p.pollfds.length : Int) - 1 then
        { p.object other with index := (p.object id).index }
      else p.object other

theorem removed_object (indexed : Indexed p) (removed : p.removeChannel id = .ok next)
    {other : ChannelId} (known : Registered p other) (different : other ≠ id) :
    next.object other =
      if (p.object other).index = (p.pollfds.length : Int) - 1 then
        { p.object other with index := (p.object id).index }
      else p.object other := by
  have registered := (removeChannel_registered removed).1
  unfold Poller.removeChannel at removed
  rcases bind_ok_inv removed with ⟨_, -, removed⟩
  rcases bind_ok_inv removed with ⟨_, -, removed⟩
  rcases bind_ok_inv removed with ⟨_, -, removed⟩
  rcases bind_ok_inv removed with ⟨_, inside, removed⟩
  have range := require_inv inside
  split at removed
  · next pfd last entry atEnd =>
    rcases bind_ok_inv removed with ⟨_, -, removed⟩
    split at removed
    · next isLast =>
      cases removed
      have notLast : (p.object other).index ≠ (p.pollfds.length : Int) - 1 := by
        intro same
        exact other_fd registered known different
          (same_index indexed known registered (by omega))
      rw [if_neg notLast]
    · unfold Poller.moveLast at removed
      dsimp only at removed
      split at removed
      · cases removed
      · next moved found =>
        cases removed
        have owner : p.channels (decode last.fd) = some moved := by
          rw [Function.update_apply] at found
          split_ifs at found
          exact found
        have movedIndex : (p.object moved).index = ((p.pollfds.length - 1 : Nat) : Int) := by
          rw [List.getLast?_eq_getElem?] at atEnd
          rcases indexed.covered _ last atEnd with ⟨holder, held, index⟩
          rw [owner] at held
          cases held
          exact index
        have idxCast : (((p.object id).index.toNat : Nat) : Int) = (p.object id).index :=
          Int.toNat_of_nonneg range.1
        by_cases same : other = moved
        · rw [same, if_pos (by omega), ← idxCast]
          exact Function.update_self _ _ _
        · have notLast : (p.object other).index ≠ (p.pollfds.length : Int) - 1 := by
            intro atLast
            have oneFd := same_index indexed known owner (by omega)
            unfold Registered at known
            rw [oneFd, owner] at known
            exact same (Option.some.inj known).symm
          rw [if_neg notLast]
          exact Function.update_of_ne same _ _
  · cases removed

theorem removeChannel_undisturbed (indexed : Indexed p)
    (removed : p.removeChannel id = .ok next) : Undisturbed p id next := by
  have removal := removeChannel_removal indexed removed
  have registered := (removeChannel_registered removed).1
  constructor
  · exact removal.channels
  · intro other different known
    rcases removal.kept _ other known different with ⟨before, after, index, newIndex, same⟩
    rw [entryOf_index index, entryOf_index newIndex, same]
  · intro other different known
    exact removed_object indexed removed known different

/-! ## The correspondence -/

/-- The descriptors of the table, skipped ones included. -/
def descriptors (p : Poller) : List Int := p.pollfds.map fun pfd => decode pfd.fd

/-- `channels_` and `pollfds_` in one-to-one correspondence: the keys of the map
are the descriptors of the table, each of which it holds once. -/
structure InStep (p : Poller) : Prop where
  index : ∀ fd id, p.channels fd = some id → (p.object id).fd = fd ∧
    0 ≤ (p.object id).index ∧ (p.object id).index < p.pollfds.length ∧
    ∃ pfd, entryOf p id = some pfd ∧ decode pfd.fd = fd
  distinct : ∀ fd other id holder, p.channels fd = some id → p.channels other = some holder →
    id ≠ holder → (p.object id).index ≠ (p.object holder).index
  keys : ∀ fd, fd ∈ descriptors p ↔ p.channels fd ≠ none
  once : (descriptors p).Nodup

theorem Indexed.descriptors_nodup (indexed : Indexed p) : (descriptors p).Nodup := by
  apply List.pairwise_map.mpr
  apply (owners_differ indexed).imp
  intro first second differ same
  exact differ (congrArg p.channels same)

theorem Indexed.inStep (indexed : Indexed p) : InStep p := by
  constructor
  · intro fd id known
    rcases indexed.owned fd id known with ⟨own, idx, pfd, index, entry, decoded, -⟩
    have bound : idx < p.pollfds.length := (List.getElem?_eq_some_iff.mp entry).1
    refine ⟨own, by omega, by omega, pfd, ?_, decoded⟩
    rw [entryOf_index index]
    exact entry
  · intro fd other id holder known held different same
    have oneFd := same_index indexed known held same
    rw [oneFd, held] at known
    exact different (Option.some.inj known).symm
  · intro fd
    rw [descriptors, List.mem_map]
    constructor
    · rintro ⟨pfd, member, rfl⟩
      rcases List.mem_iff_getElem?.mp member with ⟨idx, entry⟩
      rcases indexed.covered idx pfd entry with ⟨id, known, -⟩
      rw [known]
      simp
    · intro known
      rcases Option.ne_none_iff_exists'.mp known with ⟨id, owner⟩
      rcases (indexed.owned fd id owner).2 with ⟨idx, pfd, -, entry, decoded, -⟩
      exact ⟨pfd, List.mem_of_getElem? entry, decoded⟩
  · exact indexed.descriptors_nodup

/-! ## A poll -/

theorem Indexed.congr (indexed : Indexed p) (channels : next.channels = p.channels)
    (object : ∀ id, (next.object id).fd = (p.object id).fd ∧
      (next.object id).events = (p.object id).events ∧
      (next.object id).index = (p.object id).index)
    {revents : Nat → BitVec 16} (pollfds : next.pollfds = (p.polled revents).pollfds) :
    Indexed next := by
  have entry : ∀ idx : Nat, next.pollfds[idx]? =
      p.pollfds[idx]?.map fun pfd => { pfd with revents := revents idx } := by
    intro idx
    rw [pollfds, Poller.polled, List.getElem?_mapIdx]
  constructor
  · intro id
    rw [(object id).1]
    exact indexed.nonneg id
  · intro id
    rw [(object id).2.1]
    exact indexed.interested id
  · intro fd id known
    rw [channels] at known
    rcases indexed.owned fd id known with ⟨own, idx, pfd, index, at_, decoded, events⟩
    rw [(object id).1, (object id).2.1, (object id).2.2]
    exact ⟨own, idx, { pfd with revents := revents idx }, index, by rw [entry, at_]; rfl,
      decoded, events⟩
  · intro idx pfd here
    rw [entry] at here
    rcases Option.map_eq_some_iff.mp here with ⟨before, at_, same⟩
    rcases indexed.covered idx before at_ with ⟨id, known, index⟩
    refine ⟨id, ?_, (object id).2.2.trans index⟩
    rw [channels, ← same]
    exact known

theorem polled_indexed (indexed : Indexed p) (revents : Nat → BitVec 16) :
    Indexed (p.polled revents) :=
  indexed.congr rfl (fun _ => ⟨rfl, rfl, rfl⟩) rfl

/-- The channels of the entries that poll reports on, in table order. -/
def reportedBy (p : Poller) (pollfds : List PollFd) : List ChannelId :=
  pollfds.filterMap fun pfd => if signalled pfd then p.channels pfd.fd else none

theorem mem_reportedBy (pollfds : List PollFd) :
    id ∈ reportedBy p pollfds ↔
      ∃ pfd ∈ pollfds, signalled pfd = true ∧ p.channels pfd.fd = some id := by
  rw [reportedBy, List.mem_filterMap]
  constructor
  · rintro ⟨pfd, member, found⟩
    split_ifs at found with set
    exact ⟨pfd, member, set, found⟩
  · rintro ⟨pfd, member, set, found⟩
    exact ⟨pfd, member, by rw [if_pos set, found]⟩

/-- The signed comparison sees every flag but the sign bit. -/
theorem toInt_pos_iff {revents : BitVec 16} (unsigned : revents.msb = false) :
    0 < revents.toInt ↔ revents ≠ 0#16 := by
  rw [BitVec.toInt_eq_toNat_of_msb unsigned]
  constructor
  · intro positive zero
    rw [zero] at positive
    simp at positive
  · intro nonzero
    have value : revents.toNat ≠ 0 := fun zero =>
      nonzero (BitVec.eq_of_toNat_eq (by simpa using zero))
    omega

theorem fillActiveChannels_stop (pollfds : List PollFd) (p : Poller)
    (activeChannels : List ChannelId) :
    Poller.fillActiveChannels pollfds 0 p activeChannels = .ok (p, activeChannels) := by
  cases pollfds with
  | nil => rfl
  | cons pfd rest => rfl

/-- An entry that poll reports on is counted and marks its channel. -/
theorem fillActiveChannels_signalled {pfd : PollFd} (rest : List PollFd) {p : Poller}
    (activeChannels : List ChannelId) {channel : ChannelId} (set : signalled pfd = true)
    (unsigned : pfd.revents.msb = false) (known : p.channels pfd.fd = some channel)
    (own : (p.object channel).fd = pfd.fd) :
    Poller.fillActiveChannels (pfd :: rest) ((pfd :: rest).countP signalled) p activeChannels =
      Poller.fillActiveChannels rest (rest.countP signalled)
        (p.setObject channel { p.object channel with revents := promote pfd.revents })
        (activeChannels ++ [channel]) := by
  have count : ((pfd :: rest).countP signalled : Int) = (rest.countP signalled : Int) + 1 := by
    rw [List.countP_cons_of_pos set]
    exact Int.natCast_succ _
  have nonzero : pfd.revents ≠ 0#16 := by simpa [signalled] using set
  rw [Poller.fillActiveChannels, count, if_pos (by omega),
    if_pos ((toInt_pos_iff unsigned).mpr nonzero), known, Int.add_sub_cancel]
  dsimp only
  rw [require_ok own]
  rfl

/-- Another one is passed over. -/
theorem fillActiveChannels_silent {pfd : PollFd} (rest : List PollFd) (p : Poller)
    (activeChannels : List ChannelId) (unset : signalled pfd = false)
    (unsigned : pfd.revents.msb = false) :
    Poller.fillActiveChannels (pfd :: rest) ((pfd :: rest).countP signalled) p activeChannels =
      Poller.fillActiveChannels rest (rest.countP signalled) p activeChannels := by
  have count : (pfd :: rest).countP signalled = rest.countP signalled :=
    List.countP_cons_of_neg (by simp [unset])
  have silent : ¬0 < pfd.revents.toInt := by
    rw [toInt_pos_iff unsigned]
    simpa [signalled] using unset
  by_cases more : 0 < rest.countP signalled
  · rw [Poller.fillActiveChannels, count, if_pos (by omega), if_neg silent]
  · -- The loop stops here, as it does in front of the rest.
    have none : rest.countP signalled = 0 := by omega
    rw [count, none]
    exact (fillActiveChannels_stop (pfd :: rest) p activeChannels).trans
      (fillActiveChannels_stop rest p activeChannels).symm

/-- The loop over entries whose lookups succeed and lead to different channels. -/
theorem fillActiveChannels_reports (pollfds : List PollFd) (p : Poller)
    (activeChannels : List ChannelId)
    (found : ∀ pfd ∈ pollfds, signalled pfd = true →
      ∃ id, p.channels pfd.fd = some id ∧ (p.object id).fd = pfd.fd)
    (unsigned : ∀ pfd ∈ pollfds, pfd.revents.msb = false)
    (differ : pollfds.Pairwise fun first second => signalled first = true →
      signalled second = true → p.channels first.fd ≠ p.channels second.fd) :
    ∃ next, Poller.fillActiveChannels pollfds (pollfds.countP signalled) p activeChannels =
        .ok (next, activeChannels ++ reportedBy p pollfds) ∧
      next.channels = p.channels ∧ next.pollfds = p.pollfds ∧
      (∀ pfd ∈ pollfds, signalled pfd = true → ∀ id, p.channels pfd.fd = some id →
        next.object id = { p.object id with revents := promote pfd.revents }) ∧
      ∀ id, id ∉ reportedBy p pollfds → next.object id = p.object id := by
  induction pollfds generalizing p activeChannels with
  | nil =>
      refine ⟨p, ?_, rfl, rfl, ?_, fun _ _ => rfl⟩
      · simp [Poller.fillActiveChannels, reportedBy]
      · intro pfd member
        cases member
  | cons pfd rest ih =>
      rw [List.pairwise_cons] at differ
      have foundLater : ∀ other ∈ rest, signalled other = true →
          ∃ id, p.channels other.fd = some id ∧ (p.object id).fd = other.fd :=
        fun other member => found other (by simp [member])
      have unsignedLater : ∀ other ∈ rest, other.revents.msb = false :=
        fun other member => unsigned other (by simp [member])
      have here := unsigned pfd (by simp)
      cases set : signalled pfd with
      | true =>
          rcases found pfd (by simp) set with ⟨channel, known, own⟩
          let marked := p.setObject channel
            { p.object channel with revents := promote pfd.revents }
          have fdKept : ∀ id, (marked.object id).fd = (p.object id).fd := by
            intro id
            by_cases same : id = channel
            · simp [marked, Poller.setObject, same]
            · simp [marked, Poller.setObject, same]
          have elsewhere : channel ∉ reportedBy p rest := by
            intro member
            rcases (mem_reportedBy rest).mp member with ⟨other, inside, otherSet, owner⟩
            exact differ.1 other inside set otherSet (known.trans owner.symm)
          rcases ih marked (activeChannels ++ [channel])
              (by
                intro other member otherSet
                rcases foundLater other member otherSet with ⟨id, owner, fd⟩
                exact ⟨id, owner, (fdKept id).trans fd⟩)
              unsignedLater differ.2 with
            ⟨next, filled, channels, table, reported, others⟩
          have head : reportedBy p (pfd :: rest) = channel :: reportedBy p rest := by
            simp [reportedBy, set, known]
          refine ⟨next, ?_, channels, table, ?_, ?_⟩
          · have behind : activeChannels ++ channel :: reportedBy p rest =
                activeChannels ++ [channel] ++ reportedBy p rest := by simp
            rw [fillActiveChannels_signalled rest activeChannels set here known own, head, behind]
            exact filled
          · intro other member otherSet id owner
            rcases List.mem_cons.mp member with first | later
            · rw [first, known] at owner
              cases owner
              rw [others channel elsewhere, first]
              exact Function.update_self _ _ _
            · have different : id ≠ channel := by
                intro same
                rw [same] at owner
                exact differ.1 other later set otherSet (known.trans owner.symm)
              have object : marked.object id = p.object id := Function.update_of_ne different _ _
              rw [reported other later otherSet id owner, object]
          · intro id unreported
            rw [head, List.mem_cons, not_or] at unreported
            rw [others id unreported.2]
            exact Function.update_of_ne unreported.1 _ _
      | false =>
          have head : reportedBy p (pfd :: rest) = reportedBy p rest := by
            simp [reportedBy, set]
          rcases ih p activeChannels foundLater unsignedLater differ.2 with
            ⟨next, filled, channels, table, reported, others⟩
          have reportedToo : ∀ other ∈ pfd :: rest, signalled other = true → ∀ id,
              p.channels other.fd = some id →
              next.object id = { p.object id with revents := promote other.revents } := by
            intro other member otherSet
            rcases List.mem_cons.mp member with first | later
            · rw [first, set] at otherSet
              cases otherSet
            · exact reported other later otherSet
          refine ⟨next, ?_, channels, table, reportedToo, by rwa [head]⟩
          rw [fillActiveChannels_silent rest p activeChannels set here, head]
          exact filled

/-! ## Runs -/

/-- The events that poll wrote into the entry of a channel. -/
def answerFor (p : Poller) (answer : PollAnswer) (id : ChannelId) : BitVec 16 :=
  answer.revents (p.object id).index.toNat

/-- What `poll` makes of an answer: the channels that are signalled, each once
and with its own events, and nothing else is changed. -/
structure Reports (p : Poller) (answer : PollAnswer) (next : Poller)
    (active : List ChannelId) : Prop where
  once : active.Nodup
  reported : ∀ id, id ∈ active ↔ Registered p id ∧ answerFor p answer id ≠ 0#16
  own : ∀ id ∈ active,
    next.object id = { p.object id with revents := promote (answerFor p answer id) }
  others : ∀ id, id ∉ active → next.object id = p.object id
  channels : next.channels = p.channels
  pollfds : next.pollfds = (p.polled answer.revents).pollfds

/-- A signalled entry belongs to a registered channel and has its events. -/
theorem signalled_entry (indexed : Indexed p) {answer : PollAnswer} (answers : Answers p answer)
    {pfd : PollFd} (member : pfd ∈ (p.polled answer.revents).pollfds)
    (set : signalled pfd = true) (known : p.channels pfd.fd = some id) :
    Registered p id ∧ pfd.revents = answerFor p answer id := by
  rcases List.mem_iff_getElem?.mp member with ⟨idx, entry⟩
  rcases (polled_indexed indexed answer.revents).covered idx pfd entry with
    ⟨holder, held, index⟩
  rw [decode_plain _ (answers.skipped pfd member set)] at held
  have same : id = holder := Option.some.inj (known.symm.trans held)
  have position : (p.object id).index = idx := by
    rw [same]
    exact index
  rw [Poller.polled, List.getElem?_mapIdx] at entry
  rcases Option.map_eq_some_iff.mp entry with ⟨before, -, written⟩
  constructor
  · unfold Registered
    rw [(indexed.owned _ id known).1]
    exact known
  · rw [answerFor, position, Int.toNat_natCast, ← written]

/-- The entry of a registered channel is among those that poll wrote. -/
theorem written_entry (indexed : Indexed p) {answer : PollAnswer} (answers : Answers p answer)
    (registered : Registered p id) (nonzero : answerFor p answer id ≠ 0#16) :
    ∃ pfd ∈ (p.polled answer.revents).pollfds, signalled pfd = true ∧
      p.channels pfd.fd = some id := by
  have registeredToo : Registered (p.polled answer.revents) id := registered
  rcases registered_entry (polled_indexed indexed answer.revents) registeredToo with
    ⟨idx, pfd, index, entry, -, fd, -⟩
  have member := List.mem_of_getElem? entry
  have position : (p.object id).index = idx := index
  have revents : pfd.revents = answerFor p answer id := by
    rw [Poller.polled, List.getElem?_mapIdx] at entry
    rcases Option.map_eq_some_iff.mp entry with ⟨before, -, written⟩
    rw [answerFor, position, Int.toNat_natCast, ← written]
  have set : signalled pfd = true := by
    simpa [signalled, revents] using nonzero
  have plain := answers.skipped pfd member set
  have own : 0 ≤ (p.object id).fd := indexed.nonneg id
  refine ⟨pfd, member, set, ?_⟩
  rcases fd with same | negated
  · rw [same]
    exact registered
  · have object : (p.polled answer.revents).object id = p.object id := rfl
    rw [object] at negated
    omega

theorem poll_reports (indexed : Indexed p) {answer : PollAnswer} (answers : Answers p answer) :
    ∃ next active, p.poll answer = .ok (next, active) ∧ Reports p answer next active := by
  let q := p.polled answer.revents
  have qIndexed : Indexed q := polled_indexed indexed answer.revents
  have plain : ∀ pfd ∈ q.pollfds, signalled pfd = true → decode pfd.fd = pfd.fd :=
    fun pfd member set => decode_plain _ (answers.skipped pfd member set)
  have found : ∀ pfd ∈ q.pollfds, signalled pfd = true →
      ∃ id, q.channels pfd.fd = some id ∧ (q.object id).fd = pfd.fd := by
    intro pfd member set
    rcases List.mem_iff_getElem?.mp member with ⟨idx, entry⟩
    rcases qIndexed.covered idx pfd entry with ⟨id, known, -⟩
    rw [plain pfd member set] at known
    exact ⟨id, known, (qIndexed.owned _ id known).1⟩
  have differ : q.pollfds.Pairwise fun first second => signalled first = true →
      signalled second = true → q.channels first.fd ≠ q.channels second.fd := by
    apply (owners_differ qIndexed).imp_of_mem
    intro first second firstMember secondMember apart firstSet secondSet
    rw [plain first firstMember firstSet, plain second secondMember secondSet] at apart
    exact apart
  rcases fillActiveChannels_reports q.pollfds q [] found answers.unsigned differ with
    ⟨next, filled, channels, table, reported, others⟩
  have polls : p.poll answer = .ok (next, reportedBy q q.pollfds) := by
    have counted : answer.numEvents = (q.pollfds.countP signalled : Nat) := answers.counted
    rw [Poller.poll]
    by_cases some : 0 < answer.numEvents
    · rw [if_pos some, counted]
      exact filled
    · have none : q.pollfds.countP signalled = 0 := by omega
      rw [none] at filled
      rw [if_neg some]
      exact (fillActiveChannels_stop q.pollfds q []).symm.trans filled
  refine ⟨next, reportedBy q q.pollfds, polls, ?_⟩
  constructor
  · apply differ.filterMap
    intro first second apart id firstFound other otherFound same
    split_ifs at firstFound with firstSet
    split_ifs at otherFound with otherSet
    exact apart firstSet otherSet (firstFound.trans (same ▸ otherFound.symm))
  · intro id
    rw [mem_reportedBy]
    constructor
    · rintro ⟨pfd, member, set, known⟩
      rcases signalled_entry indexed answers member set known with ⟨registered, revents⟩
      refine ⟨registered, ?_⟩
      rw [← revents]
      simpa [signalled] using set
    · rintro ⟨registered, nonzero⟩
      exact written_entry indexed answers registered nonzero
  · intro id member
    rcases (mem_reportedBy q.pollfds).mp member with ⟨pfd, inside, set, known⟩
    rw [reported pfd inside set id known, (signalled_entry indexed answers inside set known).2]
    rfl
  · exact others
  · exact channels
  · exact table

theorem Reports.indexed {answer : PollAnswer} {active : List ChannelId}
    (reports : Reports p answer next active) (indexed : Indexed p) : Indexed next := by
  apply indexed.congr reports.channels _ reports.pollfds
  intro id
  by_cases member : id ∈ active
  · rw [reports.own id member]
    exact ⟨rfl, rfl, rfl⟩
  · rw [reports.others id member]
    exact ⟨rfl, rfl, rfl⟩

theorem serve_indexed (indexed : Indexed p) {round : Round} (promised : Promised p round)
    (served : serve p round = .ok next) : Indexed next := by
  cases round with
  | call event =>
      cases taken : step p event with
      | error assertion =>
          simp only [serve, taken] at served
          cases served
      | ok after =>
          simp only [serve, taken] at served
          cases served
          exact step_indexed indexed taken
  | poll answer =>
      rcases poll_reports indexed promised with ⟨after, active, polls, reports⟩
      simp only [serve, polls] at served
      cases served
      exact reports.indexed indexed

/-- After all rounds of calls and polls: the map and the table are in one-to-one
correspondence, a removal leaves every other channel alone but for the index of
the one it moves, and the next poll reports exactly the signalled channels. -/
theorem poll_table_in_step (fds : ChannelId → Nat) (rounds : List Round)
    (promised : AllSteps serve Promised (Poller.new fds) rounds)
    (ran : run serve (Poller.new fds) rounds = .ok p) :
    InStep p ∧
      (∀ id next, step p (.remove id) = .ok next → Undisturbed p id next) ∧
      ∀ answer, Answers p answer → ∃ next active, p.poll answer = .ok (next, active) ∧
        Reports p answer next active := by
  have indexed : Indexed p := by
    apply run_keeps Indexed Promised _ (new_indexed fds) promised ran
    intro state round next indexed promised served
    exact serve_indexed indexed promised served
  refine ⟨indexed.inStep, ?_, ?_⟩
  · intro id next taken
    rcases bind_ok_inv taken with ⟨_, -, removed⟩
    exact removeChannel_undisturbed indexed removed
  · intro answer answers
    exact poll_reports indexed answers

end

/-- Three channels, the first of which is removed: the last takes its place, and
poll reports on it there. -/
theorem moved_channel_in_step :
    let rounds : List Round :=
      [.call (.interest 1 .enableReading), .call (.interest 2 .enableReading),
        .call (.interest 3 .enableReading), .call (.interest 1 .disableAll), .call (.remove 1)]
    let answer : PollAnswer := ⟨fun idx => if idx = 0 then 0x0100#16 else 0#16, 1⟩
    ∃ p next active, run serve (Poller.new fun id => id + 4) rounds = .ok p ∧ InStep p ∧
      p.pollfds = [⟨7, 0x0300#16, 0#16⟩, ⟨6, 0x0300#16, 0#16⟩] ∧
      p.poll answer = .ok (next, active) ∧ Reports p answer next active := by
  intro rounds answer
  have ends : ∃ p, run serve (Poller.new fun id => id + 4) rounds = .ok p ∧
      p.pollfds = [⟨7, 0x0300#16, 0#16⟩, ⟨6, 0x0300#16, 0#16⟩] := ⟨_, rfl, rfl⟩
  rcases ends with ⟨p, ran, table⟩
  have promised : AllSteps serve Promised (Poller.new fun id => id + 4) rounds :=
    ⟨trivial, trivial, trivial, trivial, trivial, trivial⟩
  rcases poll_table_in_step _ rounds promised ran with ⟨inStep, -, reports⟩
  have written : (p.polled answer.revents).pollfds =
      [⟨7, 0x0300#16, 0x0100#16⟩, ⟨6, 0x0300#16, 0#16⟩] := by
    rw [Poller.polled, table]
    rfl
  have answers : Answers p answer := by
    constructor
    · rw [written]
      decide
    · rw [written]
      decide
    · rw [written]
      rfl
  rcases reports answer answers with ⟨next, active, polls, report⟩
  exact ⟨p, next, active, ran, inStep, table, polls, report⟩

end Msmuduo.PollPoller
