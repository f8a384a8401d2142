import Msmuduo.Connector

/-!
# One attempt at a time

Something can lead to `startInLoop` in four ways: a retry timer, a queued
functor, a thread inside `start`, and the loop thread inside `start` or
`restart`. The connector neither counts these nor cancels any of them, so it
is the callers who must not add one while another, or an attempt that is under
way, exists. The assertions of the source hold exactly for such callers.
-/

namespace Msmuduo.Connecting

open Msmuduo.Machine

set_option autoImplicit false

/-- The results of `::connect` after which the socket gets a channel. -/
def Errno.connects : Errno → Bool
  | .zero | .EINPROGRESS | .EINTR | .EISCONN => true
  | _ => false

namespace Connector

/-- What `doPendingFunctors` has still to run, in order. -/
def queue (c : Connector) : List Functor := c.functors ++ c.pendingFunctors

/-- Everything that is an attempt or will become one, and a connection that
was made. -/
def attempts (c : Connector) : Nat :=
  c.timers + c.starting + c.queue.count .startInLoop +
    (if c.entering then 1 else 0) + (if c.state = .kDisconnected then 0 else 1)

def NoneScheduled (c : Connector) : Prop :=
  c.timers = 0 ∧ c.starting = 0 ∧ Functor.startInLoop ∉ c.queue ∧ c.entering = false

instance (c : Connector) : Decidable c.NoneScheduled :=
  inferInstanceAs (Decidable (_ ∧ _ ∧ _ ∧ _))

/-- The sockets the connector has created, and neither closed nor handed
over. -/
def Owns (c : Connector) (sockfd : Nat) : Prop :=
  sockfd < c.created ∧ sockfd ∉ c.closed ∧ sockfd ∉ c.handedOver

/-- At most one socket is being connected, and no functor in the queue
would destroy a channel the poller knows. `channel_` is at most one channel. -/
structure OneAttempt (c : Connector) : Prop where
  one_socket : ∀ first second, c.Owns first → c.Owns second → first = second
  registered_stays : c.registered = true → Functor.resetChannel ∉ c.queue

/-- The invariant that carries it. A channel that was removed from the poller
waits for the one `resetChannel` in the queue, which no `startInLoop`
overtakes. -/
structure Sound (c : Connector) : Prop where
  single : c.attempts ≤ 1
  recorded : ∀ sockfd, sockfd ∈ c.closed ∨ sockfd ∈ c.handedOver → sockfd < c.created
  connecting : c.state = .kConnecting → ∃ sockfd, c.channel = some ⟨sockfd, true⟩ ∧
    Functor.resetChannel ∉ c.queue ∧ ∀ other, c.Owns other ↔ other = sockfd
  otherwise : c.state ≠ .kConnecting → (∀ sockfd, ¬c.Owns sockfd) ∧
    ((c.channel = none ∧ c.queue.count .resetChannel = 0) ∨
      ∃ sockfd, c.channel = some ⟨sockfd, false⟩ ∧ c.queue.count .resetChannel = 1)
  ordered : c.queue.Pairwise fun first later => first = .startInLoop → later ≠ .resetChannel
  entered : c.entering = true → c.channel = none

end Connector

open Connector

/-- `start` in the loop thread and `restart` need a connector that is at rest;
`start` elsewhere may also find the old channel waiting for its destruction.
A retry timer must not overtake that destruction. -/
def Alone (c : Connector) : Event → Prop
  | .start => c.state = .kDisconnected ∧ c.channel = none ∧ c.NoneScheduled
  | .restart => c.channel = none ∧ c.NoneScheduled
  | .startElsewhere => c.state = .kDisconnected ∧ c.NoneScheduled
  | .retryTimer savedErrno =>
      c.connect_ = true → savedErrno.connects = true → c.channel = none
  | _ => True

instance (c : Connector) (event : Event) : Decidable (Alone c event) :=
  match event with
  | .start => inferInstanceAs (Decidable (_ ∧ _ ∧ _))
  | .restart => inferInstanceAs (Decidable (_ ∧ _))
  | .startElsewhere => inferInstanceAs (Decidable (_ ∧ _))
  | .retryTimer savedErrno =>
      inferInstanceAs
        (Decidable (c.connect_ = true → savedErrno.connects = true → c.channel = none))
  | .enter _ => isTrue trivial
  | .queueStart => isTrue trivial
  | .stop => isTrue trivial
  | .queueStop => isTrue trivial
  | .handleEvent _ _ _ => isTrue trivial
  | .swapFunctors => isTrue trivial
  | .runFunctor _ => isTrue trivial

section

variable {c next : Connector} {sockfd : Nat}

/-! ### The parts of the invariant -/

theorem Connector.Sound.of_connecting (sound : c.Sound) (state : c.state = .kConnecting) :
    c.timers = 0 ∧ c.starting = 0 ∧ c.queue.count .startInLoop = 0 ∧ c.entering = false := by
  have single := sound.single
  unfold attempts at single
  rw [state] at single
  simp only [reduceCtorEq, if_false] at single
  refine ⟨by omega, by omega, by omega, ?_⟩
  cases entering : c.entering with
  | false => rfl
  | true =>
      simp only [entering, if_true] at single
      omega

theorem disconnected_of_no_attempts (idle : c.attempts = 0) : c.state = .kDisconnected := by
  unfold attempts at idle
  by_contra busy
  rw [if_neg busy] at idle
  omega

/-- The functors of the queue after a channel has been taken from the poller. -/
theorem Connector.Sound.queue_reset (sound : c.Sound) (state : c.state = .kConnecting) :
    (c.queue ++ [Functor.resetChannel]).count .resetChannel = 1 ∧
    (c.queue ++ [Functor.resetChannel]).count .startInLoop = 0 ∧
    (c.queue ++ [Functor.resetChannel]).Pairwise
      fun first later => first = .startInLoop → later ≠ .resetChannel := by
  obtain ⟨sockfd, -, notQueued, -⟩ := sound.connecting state
  obtain ⟨-, -, noStart, -⟩ := sound.of_connecting state
  refine ⟨?_, ?_, ?_⟩
  · rw [List.count_append, List.count_eq_zero.mpr notQueued]
    rfl
  · rw [List.count_append, noStart]
    rfl
  · refine List.pairwise_append.mpr ⟨sound.ordered, List.pairwise_singleton _ _, ?_⟩
    rintro first member later - rfl
    exact absurd member (List.count_eq_zero.mp noStart)

/-- Giving up the one socket leaves none. -/
theorem not_owns_of_given_up (owns : ∀ other, c.Owns other ↔ other = sockfd)
    (created : next.created = c.created)
    (given : ∀ other, other ∈ next.closed ∨ other ∈ next.handedOver ↔
      (other ∈ c.closed ∨ other ∈ c.handedOver) ∨ other = sockfd) (other : Nat) :
    ¬next.Owns other := by
  rintro ⟨exists_, notClosed, notHanded⟩
  have outside := (given other).not.mp (not_or.mpr ⟨notClosed, notHanded⟩)
  simp only [not_or] at outside
  exact outside.2 ((owns other).mp ⟨created ▸ exists_, outside.1.1, outside.1.2⟩)

/-- An attempt that ends: the channel waits for its destruction, the socket
is closed or handed over, and at most one thing takes the place of the
attempt. -/
theorem Connector.Sound.finish (sound : c.Sound) (state : c.state = .kConnecting)
    (channel : c.channel = some ⟨sockfd, true⟩)
    (nextChannel : next.channel = some ⟨sockfd, false⟩)
    (queue : next.queue = c.queue ++ [.resetChannel])
    (entering : next.entering = c.entering) (starting : next.starting = c.starting)
    (ended : next.state ≠ .kConnecting)
    (replaced : next.timers + (if next.state = .kDisconnected then 0 else 1) ≤ 1)
    (created : next.created = c.created)
    (given : ∀ other, other ∈ next.closed ∨ other ∈ next.handedOver ↔
      (other ∈ c.closed ∨ other ∈ c.handedOver) ∨ other = sockfd) : next.Sound := by
  obtain ⟨one, noStart, ordered⟩ := sound.queue_reset state
  obtain ⟨held, holds, -, owns⟩ := sound.connecting state
  obtain rfl : held = sockfd := by
    rw [channel] at holds
    cases holds
    rfl
  obtain ⟨-, notStarting, -, notEntering⟩ := sound.of_connecting state
  constructor
  · rw [attempts, queue, noStart, entering, notEntering, starting, notStarting]
    simp only [Bool.false_eq_true, if_false]
    omega
  · intro other recorded
    rw [created]
    rcases (given other).mp recorded with old | rfl
    · exact sound.recorded other old
    · exact ((owns other).mpr rfl).1
  · exact fun again => absurd again ended
  · intro _
    refine ⟨not_owns_of_given_up owns created given, Or.inr ⟨held, nextChannel, ?_⟩⟩
    rw [queue, one]
  · rw [queue]
    exact ordered
  · rw [entering, notEntering]
    exact nofun

/-- Nothing but the functors, the schedule and `connect_` changes. -/
theorem Connector.Sound.reschedule (sound : c.Sound) (state : next.state = c.state)
    (channel : next.channel = c.channel) (created : next.created = c.created)
    (closed : next.closed = c.closed) (handedOver : next.handedOver = c.handedOver)
    (single : next.attempts ≤ 1)
    (resets : next.queue.count .resetChannel = c.queue.count .resetChannel)
    (ordered : next.queue.Pairwise fun first later => first = .startInLoop →
      later ≠ .resetChannel)
    (entered : next.entering = true → c.channel = none) : next.Sound := by
  have owns : ∀ other, next.Owns other ↔ c.Owns other := by
    intro other
    rw [Owns, Owns, created, closed, handedOver]
  constructor
  · exact single
  · rw [closed, handedOver, created]
    exact sound.recorded
  · intro connecting
    obtain ⟨held, holds, notQueued, only⟩ := sound.connecting (state ▸ connecting)
    refine ⟨held, channel.trans holds, ?_, fun other => (owns other).trans (only other)⟩
    rw [← List.count_eq_zero, resets, List.count_eq_zero]
    exact notQueued
  · intro notConnecting
    obtain ⟨none, waiting⟩ := sound.otherwise (state ▸ notConnecting)
    rw [channel, resets]
    exact ⟨fun other => (owns other).not.mpr (none other), waiting⟩
  · exact ordered
  · rw [channel]
    exact entered

/-! ### The functions of the connector -/

theorem retry_eq (c : Connector) (sockfd : Nat) : c.retry sockfd = { c with
    closed := c.closed ++ [sockfd]
    state := .kDisconnected
    timers := c.timers + c.connect_.toNat } := by
  obtain ⟨connect_, _⟩ := c
  cases connect_ <;> rfl

theorem connect_of_connects {savedErrno : Errno} (connects : savedErrno.connects = true)
    (free : c.channel = none) :
    c.connect savedErrno = .ok { c with
      created := c.created + 1
      state := .kConnecting
      channel := some ⟨c.created, true⟩ } := by
  have ran : { c with created := c.created + 1 }.connecting c.created = .ok { c with
      created := c.created + 1
      state := .kConnecting
      channel := some ⟨c.created, true⟩ } := by
    simp [Connector.connecting, free, require, bind, Except.bind, pure, Except.pure]
  cases savedErrno <;> first | exact ran | cases connects

theorem connect_of_not_connects {savedErrno : Errno} (fails : savedErrno.connects = false) :
    c.connect savedErrno = .ok ({ c with created := c.created + 1 }.retry c.created) ∨
      c.connect savedErrno = .ok ({ c with created := c.created + 1 }.close c.created) := by
  cases savedErrno <;> first | exact Or.inl rfl | exact Or.inr rfl | cases fails

/-- A socket that fails at once was never a connecting one. -/
theorem Connector.Sound.discard (sound : c.Sound) (state : c.state = .kDisconnected)
    (nextState : next.state = .kDisconnected) (channel : next.channel = c.channel)
    (queue : next.queue = c.queue) (entering : next.entering = c.entering)
    (created : next.created = c.created + 1) (closed : next.closed = c.closed ++ [c.created])
    (handedOver : next.handedOver = c.handedOver) (single : next.attempts ≤ 1) :
    next.Sound := by
  obtain ⟨none, waiting⟩ := sound.otherwise (by simp [state])
  constructor
  · exact single
  · intro other
    rw [closed, handedOver, created, List.mem_append, List.mem_singleton]
    rintro ((old | rfl) | old)
    · exact Nat.lt_succ_of_lt (sound.recorded other (Or.inl old))
    · exact Nat.lt_succ_self _
    · exact Nat.lt_succ_of_lt (sound.recorded other (Or.inr old))
  · rw [nextState]
    exact nofun
  · intro _
    rw [channel, queue]
    refine ⟨?_, waiting⟩
    rintro other ⟨exists_, notClosed, notHanded⟩
    rw [closed, List.mem_append, List.mem_singleton, not_or] at notClosed
    rw [created] at exists_
    exact none other ⟨by omega, notClosed.1, handedOver ▸ notHanded⟩
  · rw [queue]
    exact sound.ordered
  · rw [entering, channel]
    exact sound.entered

theorem Connector.Sound.begin (sound : c.Sound) (idle : c.attempts = 0)
    (free : c.channel = none) :
    { c with
      created := c.created + 1
      state := .kConnecting
      channel := some ⟨c.created, true⟩ }.Sound := by
  have state := disconnected_of_no_attempts idle
  obtain ⟨none, waiting⟩ := sound.otherwise (by simp [state])
  have noReset : c.queue.count .resetChannel = 0 := by
    rcases waiting with ⟨-, zero⟩ | ⟨sockfd, present, -⟩
    · exact zero
    · rw [free] at present
      cases present
  have fresh : c.created ∉ c.closed ∧ c.created ∉ c.handedOver := by
    rw [← not_or]
    exact fun old => Nat.lt_irrefl _ (sound.recorded c.created old)
  unfold attempts at idle
  constructor
  · simp only [attempts, reduceCtorEq, if_false]
    change c.timers + c.starting + c.queue.count .startInLoop + _ + 1 ≤ 1
    omega
  · exact fun other old => Nat.lt_succ_of_lt (sound.recorded other old)
  · intro _
    refine ⟨c.created, rfl, List.count_eq_zero.mp noReset, fun other => ⟨?_, ?_⟩⟩
    · rintro ⟨exists_, notClosed, notHanded⟩
      by_contra different
      exact none other ⟨Nat.lt_of_le_of_ne (Nat.le_of_lt_succ exists_) different,
        notClosed, notHanded⟩
    · rintro rfl
      exact ⟨Nat.lt_succ_self _, fresh.1, fresh.2⟩
  · exact fun notConnecting => absurd rfl notConnecting
  · exact sound.ordered
  · intro entering
    change c.entering = true at entering
    simp [entering] at idle

/-- `startInLoop` of the only attempt there is. -/
theorem startInLoop_sound (sound : c.Sound) (idle : c.attempts = 0) (savedErrno : Errno)
    (free : c.connect_ = true → savedErrno.connects = true → c.channel = none) :
    ∃ next, c.startInLoop savedErrno = .ok next ∧ next.Sound := by
  have state := disconnected_of_no_attempts idle
  simp only [Connector.startInLoop, bind, Except.bind, require_ok state]
  cases wanted : c.connect_ with
  | false => exact ⟨c, rfl, sound⟩
  | true =>
      simp only [if_true]
      cases connects : savedErrno.connects with
      | true =>
          have none := free wanted connects
          exact ⟨_, connect_of_connects connects none, sound.begin idle none⟩
      | false =>
          unfold attempts at idle
          rcases connect_of_not_connects connects with ran | ran
          · refine ⟨_, ran, ?_⟩
            rw [retry_eq]
            refine sound.discard state rfl rfl rfl rfl rfl rfl rfl ?_
            change c.timers + c.connect_.toNat + c.starting + c.queue.count .startInLoop +
              (if c.entering then 1 else 0) + 0 ≤ 1
            have atMostOne := c.connect_.toNat_le
            omega
          · exact ⟨_, ran, sound.discard state state rfl rfl rfl rfl rfl rfl sound.single⟩

theorem removeAndResetChannel_ok (channel : c.channel = some ⟨sockfd, true⟩) :
    c.removeAndResetChannel = .ok (sockfd,
      { c with channel := some ⟨sockfd, false⟩ }.queueInLoop .resetChannel) := by
  simp [Connector.removeAndResetChannel, channel, require, bind, Except.bind, pure, Except.pure]

/-- `retry` after the channel has been taken from the poller: the attempt
becomes a timer, or nothing when `stop` has been called. -/
theorem Connector.Sound.retry (sound : c.Sound) (state : c.state = .kConnecting)
    (channel : c.channel = some ⟨sockfd, true⟩) (before : States) :
    (({ c with state := before, channel := some ⟨sockfd, false⟩ }.queueInLoop
      .resetChannel).retry sockfd).Sound := by
  obtain ⟨noTimer, -, -, -⟩ := sound.of_connecting state
  have given : ∀ other, other ∈ c.closed ++ [sockfd] ∨ other ∈ c.handedOver ↔
      (other ∈ c.closed ∨ other ∈ c.handedOver) ∨ other = sockfd := by
    intro other
    rw [List.mem_append, List.mem_singleton, or_right_comm]
  have queue : c.functors ++ (c.pendingFunctors ++ [Functor.resetChannel]) =
      c.queue ++ [.resetChannel] := (List.append_assoc ..).symm
  rw [retry_eq]
  refine sound.finish state channel rfl queue rfl rfl nofun ?_ rfl given
  change c.timers + c.connect_.toNat + 0 ≤ 1
  have atMostOne := c.connect_.toNat_le
  omega

theorem handleError_sound (sound : c.Sound) (state : c.state = .kConnecting) :
    ∃ next, c.handleError = .ok next ∧ next.Sound ∧ next.state = .kDisconnected := by
  obtain ⟨sockfd, channel, -, -⟩ := sound.connecting state
  refine ⟨_, ?_, sound.retry state channel c.state, by rw [retry_eq]⟩
  simp only [Connector.handleError, if_pos state, removeAndResetChannel_ok channel, bind,
    Except.bind]
  rfl

theorem stopInLoop_sound (sound : c.Sound) : ∃ next, c.stopInLoop = .ok next ∧ next.Sound := by
  by_cases state : c.state = .kConnecting
  · obtain ⟨sockfd, channel, -, -⟩ := sound.connecting state
    refine ⟨_, ?_, sound.retry state channel .kDisconnected⟩
    have removed : { c with state := .kDisconnected }.removeAndResetChannel = .ok (sockfd,
        { c with state := .kDisconnected, channel := some ⟨sockfd, false⟩ }.queueInLoop
          .resetChannel) :=
      removeAndResetChannel_ok channel
    simp only [Connector.stopInLoop, if_pos state, removed, bind, Except.bind]
    rfl
  · refine ⟨c, ?_, sound⟩
    simp only [Connector.stopInLoop, if_neg state]
    rfl

/-- A connected socket is handed over, or closed after a `stop`. -/
theorem handleWrite_sound (sound : c.Sound) (state : c.state = .kConnecting) (err : Int)
    (isSelfConnect : Bool) : ∃ next, c.handleWrite err isSelfConnect = .ok next ∧ next.Sound := by
  obtain ⟨sockfd, channel, -, -⟩ := sound.connecting state
  obtain ⟨noTimer, -, -, -⟩ := sound.of_connecting state
  have queue : c.functors ++ (c.pendingFunctors ++ [Functor.resetChannel]) =
      c.queue ++ [.resetChannel] := (List.append_assoc ..).symm
  simp only [Connector.handleWrite, if_pos state, removeAndResetChannel_ok channel, bind,
    Except.bind]
  by_cases failed : err ≠ 0
  · rw [if_pos failed]
    exact ⟨_, rfl, sound.retry state channel c.state⟩
  rw [if_neg failed]
  cases isSelfConnect with
  | true => exact ⟨_, rfl, sound.retry state channel c.state⟩
  | false =>
      cases wanted : c.connect_ with
      | true =>
          refine ⟨{ c with
            state := .kConnected
            channel := some ⟨sockfd, false⟩
            pendingFunctors := c.pendingFunctors ++ [.resetChannel]
            handedOver := c.handedOver ++ [sockfd] }, ?_, ?_⟩
          · simp [Connector.queueInLoop, wanted, pure, Except.pure]
          · refine sound.finish state channel rfl queue rfl rfl nofun (by simp [noTimer]) rfl ?_
            intro other
            rw [List.mem_append, List.mem_singleton, or_assoc]
      | false =>
          refine ⟨{ c with
            state := .kConnected
            channel := some ⟨sockfd, false⟩
            pendingFunctors := c.pendingFunctors ++ [.resetChannel]
            closed := c.closed ++ [sockfd] }, ?_, ?_⟩
          · simp [Connector.queueInLoop, Connector.close, wanted, pure, Except.pure]
          · refine sound.finish state channel rfl queue rfl rfl nofun (by simp [noTimer]) rfl ?_
            intro other
            rw [List.mem_append, List.mem_singleton, or_right_comm]

theorem connecting_of_registered (sound : c.Sound) (registered : c.registered = true) :
    c.state = .kConnecting := by
  by_contra notConnecting
  rcases (sound.otherwise notConnecting).2 with ⟨free, -⟩ | ⟨sockfd, waiting, -⟩
  · simp [Connector.registered, free] at registered
  · simp [Connector.registered, waiting] at registered

/-- An error and a writable event may come together; the second then finds
the attempt given up. -/
theorem handleEvent_sound (sound : c.Sound) (registered : c.registered = true)
    (revents : EventMask) (err : Int) (isSelfConnect : Bool) :
    ∃ next, c.handleEvent revents err isSelfConnect = .ok next ∧ next.Sound := by
  have state := connecting_of_registered sound registered
  by_cases failed : EventMask.has revents (pollErr ||| pollNval) = true
  · obtain ⟨given, gaveUp, givenSound, givenState⟩ := handleError_sound sound state
    refine ⟨given, ?_, givenSound⟩
    simp only [Connector.handleEvent, if_pos failed, gaveUp, bind, Except.bind]
    split
    · simp only [Connector.handleWrite, givenState, reduceCtorEq, if_false, require, bind,
        Except.bind, if_true]
      rfl
    · rfl
  · simp only [Connector.handleEvent, if_neg failed, bind, Except.bind]
    split
    · exact handleWrite_sound sound state err isSelfConnect
    · exact ⟨c, rfl, sound⟩

/-! ### One event -/

theorem Connector.Sound.start (sound : c.Sound) (state : c.state = .kDisconnected)
    (free : c.channel = none) (none : c.NoneScheduled) :
    { c with connect_ := true, entering := true }.Sound := by
  obtain ⟨noTimer, noThread, noFunctor, -⟩ := none
  refine sound.reschedule rfl rfl rfl rfl rfl ?_ rfl sound.ordered (fun _ => free)
  change c.timers + c.starting + c.queue.count .startInLoop + 1 +
    (if c.state = .kDisconnected then 0 else 1) ≤ 1
  simp [noTimer, noThread, List.count_eq_zero.mpr noFunctor, state]

/-- `restart` leaves a connection that was made behind. -/
theorem Connector.Sound.disconnect (sound : c.Sound) (free : c.channel = none) :
    { c with state := .kDisconnected }.Sound := by
  have notConnecting : c.state ≠ .kConnecting := by
    intro state
    obtain ⟨sockfd, channel, -, -⟩ := sound.connecting state
    rw [free] at channel
    cases channel
  constructor
  · have single := sound.single
    unfold attempts at single
    change c.timers + c.starting + c.queue.count .startInLoop +
      (if c.entering then 1 else 0) + 0 ≤ 1
    omega
  · exact sound.recorded
  · exact nofun
  · exact fun _ => sound.otherwise notConnecting
  · exact sound.ordered
  · exact sound.entered

theorem enter_sound (sound : c.Sound) (entering : c.entering = true) (savedErrno : Errno) :
    ∃ next, { c with entering := false }.startInLoop savedErrno = .ok next ∧ next.Sound := by
  have free := sound.entered entering
  have single := sound.single
  simp only [attempts, entering, if_true] at single
  have idle : { c with entering := false }.attempts = 0 := by
    change c.timers + c.starting + c.queue.count .startInLoop + 0 +
      (if c.state = .kDisconnected then 0 else 1) = 0
    omega
  refine startInLoop_sound ?_ idle savedErrno (fun _ _ => free)
  exact sound.reschedule rfl rfl rfl rfl rfl (by omega) rfl sound.ordered nofun

theorem retryTimer_sound (sound : c.Sound) (scheduled : 0 < c.timers) (savedErrno : Errno)
    (free : c.connect_ = true → savedErrno.connects = true → c.channel = none) :
    ∃ next, { c with timers := c.timers - 1 }.startInLoop savedErrno = .ok next ∧
      next.Sound := by
  have single := sound.single
  unfold attempts at single
  have idle : { c with timers := c.timers - 1 }.attempts = 0 := by
    change c.timers - 1 + c.starting + c.queue.count .startInLoop +
      (if c.entering then 1 else 0) + (if c.state = .kDisconnected then 0 else 1) = 0
    omega
  refine startInLoop_sound ?_ idle savedErrno free
  exact sound.reschedule rfl rfl rfl rfl rfl (by omega) rfl sound.ordered sound.entered

/-- A functor queued last overtakes nothing. -/
theorem Connector.Sound.ordered_append {functor : Functor} (sound : c.Sound)
    (other : functor ≠ .resetChannel) :
    (c.queue ++ [functor]).Pairwise fun first later => first = .startInLoop →
      later ≠ .resetChannel := by
  refine List.pairwise_append.mpr ⟨sound.ordered, List.pairwise_singleton _ _, ?_⟩
  intro first _ later last _
  rw [List.mem_singleton.mp last]
  exact other

theorem Connector.Sound.queueStart (sound : c.Sound) (inside : 0 < c.starting) :
    ({ c with starting := c.starting - 1 }.queueInLoop .startInLoop).Sound := by
  have queue : ({ c with starting := c.starting - 1 }.queueInLoop .startInLoop).queue =
      c.queue ++ [.startInLoop] := (List.append_assoc ..).symm
  refine sound.reschedule rfl rfl rfl rfl rfl ?_ ?_ ?_ sound.entered
  · have single := sound.single
    unfold attempts at single ⊢
    rw [queue, List.count_append]
    change c.timers + (c.starting - 1) + (c.queue.count .startInLoop + 1) +
      (if c.entering then 1 else 0) + (if c.state = .kDisconnected then 0 else 1) ≤ 1
    omega
  · rw [queue, List.count_append]
    rfl
  · rw [queue]
    exact sound.ordered_append (by simp)

theorem Connector.Sound.queueStop (sound : c.Sound) :
    ({ c with stopping := c.stopping - 1 }.queueInLoop .stopInLoop).Sound := by
  have queue : ({ c with stopping := c.stopping - 1 }.queueInLoop .stopInLoop).queue =
      c.queue ++ [.stopInLoop] := (List.append_assoc ..).symm
  refine sound.reschedule rfl rfl rfl rfl rfl ?_ ?_ ?_ sound.entered
  · have single := sound.single
    unfold attempts at single ⊢
    rw [queue, List.count_append]
    exact single
  · rw [queue, List.count_append]
    rfl
  · rw [queue]
    exact sound.ordered_append (by simp)

theorem Connector.Sound.swapFunctors (sound : c.Sound) (finished : c.functors = []) :
    { c with functors := c.pendingFunctors, pendingFunctors := [] }.Sound := by
  have queue : { c with functors := c.pendingFunctors, pendingFunctors := [] }.queue =
      c.queue := by
    simp [Connector.queue, finished]
  refine sound.reschedule rfl rfl rfl rfl rfl ?_ ?_ ?_ sound.entered
  · rw [attempts, queue]
    exact sound.single
  · rw [queue]
  · rw [queue]
    exact sound.ordered

theorem startFunctor_sound {rest : List Functor} (sound : c.Sound)
    (functors : c.functors = .startInLoop :: rest) (savedErrno : Errno) :
    ∃ next, { c with functors := rest }.startInLoop savedErrno = .ok next ∧ next.Sound := by
  have queue : c.queue = .startInLoop :: { c with functors := rest }.queue := by
    simp [Connector.queue, functors]
  have single := sound.single
  unfold attempts at single
  rw [queue, List.count_cons_self] at single
  have idle : { c with functors := rest }.attempts = 0 := by
    change c.timers + c.starting +
      List.count Functor.startInLoop { c with functors := rest }.queue +
      (if c.entering then 1 else 0) + (if c.state = .kDisconnected then 0 else 1) = 0
    omega
  have ordered := sound.ordered
  rw [queue, List.pairwise_cons] at ordered
  -- The destruction of the old channel cannot be behind the functor.
  have noReset : Functor.resetChannel ∉ { c with functors := rest }.queue :=
    fun later => ordered.1 _ later rfl rfl
  have free : c.channel = none := by
    have state : { c with functors := rest }.state = .kDisconnected :=
      disconnected_of_no_attempts idle
    have notConnecting : c.state ≠ .kConnecting := by
      rw [state]
      exact nofun
    rcases (sound.otherwise notConnecting).2 with ⟨free, -⟩ | ⟨sockfd, -, one⟩
    · exact free
    · rw [queue, List.count_cons_of_ne (by simp), List.count_eq_zero.mpr noReset] at one
      cases one
  refine startInLoop_sound ?_ idle savedErrno (fun _ _ => free)
  refine sound.reschedule rfl rfl rfl rfl rfl (by omega) ?_ ordered.2 sound.entered
  rw [queue, List.count_cons_of_ne (by simp)]

theorem stopFunctor_sound {rest : List Functor} (sound : c.Sound)
    (functors : c.functors = .stopInLoop :: rest) :
    ∃ next, { c with functors := rest }.stopInLoop = .ok next ∧ next.Sound := by
  have queue : c.queue = .stopInLoop :: { c with functors := rest }.queue := by
    simp [Connector.queue, functors]
  have ordered := sound.ordered
  rw [queue, List.pairwise_cons] at ordered
  apply stopInLoop_sound
  refine sound.reschedule rfl rfl rfl rfl rfl ?_ ?_ ordered.2 sound.entered
  · have single := sound.single
    unfold attempts at single
    rw [queue, List.count_cons_of_ne (by simp)] at single
    exact single
  · rw [queue, List.count_cons_of_ne (by simp)]

theorem resetFunctor_sound {rest : List Functor} (sound : c.Sound)
    (functors : c.functors = .resetChannel :: rest) :
    ∃ next, { c with functors := rest }.resetChannel = .ok next ∧ next.Sound := by
  have queue : c.queue = .resetChannel :: { c with functors := rest }.queue := by
    simp [Connector.queue, functors]
  have ordered := sound.ordered
  rw [queue, List.pairwise_cons] at ordered
  have notConnecting : c.state ≠ .kConnecting := by
    intro state
    obtain ⟨-, -, notQueued, -⟩ := sound.connecting state
    exact notQueued (by simp [queue])
  obtain ⟨none, waiting⟩ := sound.otherwise notConnecting
  rw [queue, List.count_cons_self] at waiting
  obtain ⟨-, zero⟩ | ⟨sockfd, channel, one⟩ := waiting
  · cases zero
  refine ⟨{ c with functors := rest, channel := Option.none }, ?_, ?_⟩
  · simp [Connector.resetChannel, channel, require, bind, Except.bind, pure, Except.pure]
  · constructor
    · have single := sound.single
      unfold attempts at single
      rw [queue, List.count_cons_of_ne (by simp)] at single
      exact single
    · exact sound.recorded
    · exact fun state => absurd state notConnecting
    · exact fun _ => ⟨none, Or.inl ⟨rfl, Nat.succ.inj one⟩⟩
    · exact ordered.2
    · exact fun _ => rfl

theorem step_sound (c : Connector) (event : Event) (sound : c.Sound) (alone : Alone c event) :
    ∃ next, step c event = .ok next ∧ next.Sound := by
  cases event with
  | start =>
      obtain ⟨state, free, none⟩ := alone
      refine ⟨_, ?_, sound.start state free none⟩
      simp [step, none.2.2.2]
  | restart =>
      obtain ⟨free, none⟩ := alone
      refine ⟨_, ?_, (sound.disconnect free).start rfl free none⟩
      simp [step, none.2.2.2]
  | enter savedErrno =>
      simp only [step]
      split
      · next entering => exact enter_sound sound entering savedErrno
      · exact ⟨c, rfl, sound⟩
  | startElsewhere =>
      obtain ⟨state, noTimer, noThread, noFunctor, notEntering⟩ := alone
      refine ⟨_, rfl, sound.reschedule rfl rfl rfl rfl rfl ?_ rfl sound.ordered sound.entered⟩
      change c.timers + (c.starting + 1) + c.queue.count .startInLoop +
        (if c.entering then 1 else 0) + (if c.state = .kDisconnected then 0 else 1) ≤ 1
      simp [noTimer, noThread, List.count_eq_zero.mpr noFunctor, notEntering, state]
  | queueStart =>
      simp only [step]
      split
      · next inside => exact ⟨_, rfl, sound.queueStart inside⟩
      · exact ⟨c, rfl, sound⟩
  | stop =>
      exact ⟨_, rfl, sound.reschedule rfl rfl rfl rfl rfl sound.single rfl sound.ordered
        sound.entered⟩
  | queueStop =>
      simp only [step]
      split
      · exact ⟨_, rfl, sound.queueStop⟩
      · exact ⟨c, rfl, sound⟩
  | retryTimer savedErrno =>
      simp only [step]
      split
      · next possible => exact retryTimer_sound sound possible.2 savedErrno alone
      · exact ⟨c, rfl, sound⟩
  | handleEvent revents err isSelfConnect =>
      simp only [step]
      split
      · next possible => exact handleEvent_sound sound possible.2 revents err isSelfConnect
      · exact ⟨c, rfl, sound⟩
  | swapFunctors =>
      simp only [step]
      split
      · next handles =>
        refine ⟨_, rfl, sound.swapFunctors ?_⟩
        simp only [Connector.handlesEvents, Bool.and_eq_true, List.isEmpty_iff] at handles
        exact handles.2
      · exact ⟨c, rfl, sound⟩
  | runFunctor savedErrno =>
      simp only [step]
      split
      · next functor rest _ functors =>
        cases functor with
        | startInLoop => exact startFunctor_sound sound functors savedErrno
        | stopInLoop => exact stopFunctor_sound sound functors
        | resetChannel => exact resetFunctor_sound sound functors
      · exact ⟨c, rfl, sound⟩

theorem sound_new : Connector.new.Sound := by
  constructor <;> simp [Connector.new, attempts, Connector.queue, Owns]

theorem Connector.Sound.one_attempt (sound : c.Sound) : c.OneAttempt := by
  by_cases state : c.state = .kConnecting
  · obtain ⟨sockfd, -, notQueued, owns⟩ := sound.connecting state
    refine ⟨fun first second ownsFirst ownsSecond => ?_, fun _ => notQueued⟩
    rw [(owns first).mp ownsFirst, (owns second).mp ownsSecond]
  · refine ⟨fun first second ownsFirst _ => absurd ownsFirst ((sound.otherwise state).1 first), ?_⟩
    exact fun registered => absurd (connecting_of_registered sound registered) state

end

end Msmuduo.Connecting
