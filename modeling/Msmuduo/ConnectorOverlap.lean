import Msmuduo.ConnectorAttempts

/-!
# Overlapping attempts

The condition on the callers is not stricter than it has to be. From a state
with two attempts a run leads to a failed assertion although nobody calls
anything any more: the functors run, the results of `::connect` turn what is
scheduled into retry timers, and of two timers the second finds the
connector busy.
-/

namespace Msmuduo.Connecting

open Msmuduo.Machine Connector

set_option autoImplicit false

/-- Some admitted events lead to a failed assertion. -/
def Doomed (c : Connector) : Prop :=
  ∃ later fault, AllSteps step Alone c later ∧ run step c later = .error fault

/-- The event is taken, and after it some admitted events lead to a failed
assertion, or it fails itself. -/
def GoesWrong (c : Connector) (event : Event) : Prop :=
  ∃ later fault, run step c (event :: later) = .error fault ∧
    ∀ next, step c event = .ok next → AllSteps step Alone next later

/-- Where the threads stand the event is not a mere no-op. -/
def Possible (c : Connector) : Event → Prop
  | .start | .restart => c.entering = false
  | .retryTimer _ => c.handlesEvents = true ∧ 0 < c.timers
  | _ => True

/-- Two attempts in a state that is otherwise in order. -/
structure Connector.Overlapping (c : Connector) : Prop where
  outside : c.entering = false
  wanted : c.connect_ = true
  connecting : c.state = .kConnecting → ∃ sockfd, c.channel = some ⟨sockfd, true⟩ ∧
    Functor.resetChannel ∉ c.queue
  otherwise : c.state ≠ .kConnecting → c.channel = none ∨
    ∃ sockfd, c.channel = some ⟨sockfd, false⟩ ∧ Functor.resetChannel ∈ c.queue
  two : 2 ≤ c.attempts

section

variable {c next : Connector}

theorem doomed_of_step (event : Event) (alone : Alone c event) (taken : step c event = .ok next)
    (doomed : Doomed next) : Doomed c := by
  obtain ⟨later, fault, admitted, failed⟩ := doomed
  exact ⟨event :: later, fault, (all_steps_cons_ok later taken).mpr ⟨alone, admitted⟩,
    (run_cons_ok later taken).trans failed⟩

theorem doomed_now {fault : Fault} (event : Event) (alone : Alone c event)
    (failed : step c event = .error fault) : Doomed c :=
  ⟨[event], fault, (all_steps_singleton c event).mpr alone,
    (run_singleton c event).trans failed⟩

theorem goes_wrong_now {fault : Fault} {event : Event} (failed : step c event = .error fault) :
    GoesWrong c event :=
  ⟨[], fault, (run_singleton c event).trans failed, fun _ _ => trivial⟩

theorem goes_wrong_of_doomed {event : Event} (taken : step c event = .ok next)
    (doomed : Doomed next) : GoesWrong c event := by
  obtain ⟨later, fault, admitted, failed⟩ := doomed
  refine ⟨later, fault, (run_cons_ok later taken).trans failed, ?_⟩
  intro other takenOther
  rw [taken] at takenOther
  cases takenOther
  exact admitted

/-! ### What `startInLoop` does in a bad place -/

theorem startInLoop_busy (c : Connector) (busy : c.state ≠ .kDisconnected) (savedErrno : Errno) :
    c.startInLoop savedErrno = .error .startInLoopState := by
  simp only [Connector.startInLoop, require_error busy, bind, Except.bind]

theorem startInLoop_occupied (c : Connector) (state : c.state = .kDisconnected)
    (wanted : c.connect_ = true) (occupied : c.channel ≠ none) {savedErrno : Errno}
    (connects : savedErrno.connects = true) :
    c.startInLoop savedErrno = .error .connectingChannel := by
  have ran : { c with created := c.created + 1 }.connecting c.created =
      .error .connectingChannel := by
    simp [Connector.connecting, occupied, require, bind, Except.bind]
  simp only [Connector.startInLoop, require_ok state, bind, Except.bind, if_pos wanted]
  cases savedErrno <;> first | exact ran | cases connects

/-- A refused connection becomes a timer. -/
theorem startInLoop_again (c : Connector) (state : c.state = .kDisconnected)
    (wanted : c.connect_ = true) :
    c.startInLoop .ECONNREFUSED = .ok { c with
      created := c.created + 1
      closed := c.closed ++ [c.created]
      state := .kDisconnected
      timers := c.timers + 1 } := by
  simp only [Connector.startInLoop, require_ok state, bind, Except.bind, if_pos wanted,
    Connector.connect, retry_eq]
  rw [wanted]
  rfl

/-- A timer that fires while the connector is busy. -/
theorem late_timer_doomed (handles : c.handlesEvents = true) (scheduled : 0 < c.timers)
    (busy : c.state ≠ .kDisconnected) : Doomed c := by
  have failed : step c (.retryTimer .ECONNREFUSED) = .error .startInLoopState := by
    simp only [step, handles, scheduled, true_and, if_true]
    exact startInLoop_busy { c with timers := c.timers - 1 } busy _
  refine doomed_now (.retryTimer .ECONNREFUSED) ?_ failed
  intro _ connects
  cases connects

/-- When nothing else is left there are two timers, or a timer and a busy
connector. -/
theorem timers_doomed (overlapping : c.Overlapping) (finished : c.functors = [])
    (nothing : c.pendingFunctors = []) (noThread : c.starting = 0) : Doomed c := by
  have two := overlapping.two
  have handles : c.handlesEvents = true := by
    simp [Connector.handlesEvents, overlapping.outside, finished]
  have queue : c.queue = [] := by
    simp [Connector.queue, finished, nothing]
  simp only [attempts, noThread, queue, List.count_nil, overlapping.outside,
    Bool.false_eq_true, if_false] at two
  by_cases state : c.state = .kDisconnected
  · have free : c.channel = none := by
      rcases overlapping.otherwise (by simp [state]) with free | ⟨sockfd, -, waiting⟩
      · exact free
      · rw [queue] at waiting
        cases waiting
    simp only [state, if_true] at two
    have first : step c (.retryTimer .zero) = .ok { c with
        timers := c.timers - 1
        created := c.created + 1
        state := .kConnecting
        channel := some ⟨c.created, true⟩ } := by
      have scheduled : 0 < c.timers := by omega
      simp only [step, handles, scheduled, true_and, if_true, Connector.startInLoop,
        require_ok state, bind, Except.bind, if_pos overlapping.wanted]
      exact connect_of_connects rfl free
    refine doomed_of_step (.retryTimer .zero) (fun _ _ => free) first
      (late_timer_doomed handles ?_ (by simp))
    change 0 < c.timers - 1
    omega
  · rw [if_neg state] at two
    exact late_timer_doomed handles (by omega) state

/-! ### Running what is queued -/

/-- What is left to run before only timers remain. -/
def pendingWork (c : Connector) : Nat :=
  3 * c.starting + 2 * c.pendingFunctors.length + c.functors.length +
    (if c.state = .kConnecting then 3 else 0)

theorem queueStart_overlapping (overlapping : c.Overlapping) (inside : 0 < c.starting) :
    ({ c with starting := c.starting - 1 }.queueInLoop .startInLoop).Overlapping := by
  have queue : ({ c with starting := c.starting - 1 }.queueInLoop .startInLoop).queue =
      c.queue ++ [.startInLoop] := (List.append_assoc ..).symm
  constructor
  · exact overlapping.outside
  · exact overlapping.wanted
  · intro state
    obtain ⟨sockfd, channel, notQueued⟩ := overlapping.connecting state
    refine ⟨sockfd, channel, ?_⟩
    rw [queue]
    simp [notQueued]
  · intro state
    rw [queue]
    refine (overlapping.otherwise state).imp id ?_
    rintro ⟨sockfd, channel, waiting⟩
    exact ⟨sockfd, channel, List.mem_append_left _ waiting⟩
  · have two := overlapping.two
    unfold attempts at two ⊢
    rw [queue, List.count_append]
    change 2 ≤ c.timers + (c.starting - 1) + (c.queue.count .startInLoop + 1) +
      (if c.entering then 1 else 0) + (if c.state = .kDisconnected then 0 else 1)
    omega

theorem swapFunctors_overlapping (overlapping : c.Overlapping) (finished : c.functors = []) :
    { c with functors := c.pendingFunctors, pendingFunctors := [] }.Overlapping := by
  have queue : { c with functors := c.pendingFunctors, pendingFunctors := [] }.queue =
      c.queue := by
    simp [Connector.queue, finished]
  refine ⟨overlapping.outside, overlapping.wanted, ?_, ?_, ?_⟩
  · rw [queue]
    exact overlapping.connecting
  · rw [queue]
    exact overlapping.otherwise
  · rw [attempts, queue]
    exact overlapping.two

/-- A removed channel still waits when another functor has run. -/
theorem still_waiting (overlapping : c.Overlapping) {functor : Functor} {rest : List Functor}
    (functors : c.functors = functor :: rest) (other : functor ≠ .resetChannel)
    (state : c.state ≠ .kConnecting) :
    c.channel = none ∨ ∃ sockfd, c.channel = some ⟨sockfd, false⟩ ∧
      Functor.resetChannel ∈ { c with functors := rest }.queue := by
  refine (overlapping.otherwise state).imp id ?_
  rintro ⟨sockfd, channel, waiting⟩
  simp only [Connector.queue, functors, List.cons_append, List.mem_cons] at waiting
  exact ⟨sockfd, channel, waiting.resolve_left (Ne.symm other)⟩

/-- A start that is run becomes a timer. -/
theorem startFunctor_overlapping (overlapping : c.Overlapping) {rest : List Functor}
    (functors : c.functors = .startInLoop :: rest) (state : c.state = .kDisconnected) :
    ∃ next, { c with functors := rest }.startInLoop .ECONNREFUSED = .ok next ∧
      next.Overlapping ∧ pendingWork next < pendingWork c := by
  refine ⟨_, startInLoop_again { c with functors := rest } state overlapping.wanted,
    ⟨overlapping.outside, overlapping.wanted, by simp, ?_, ?_⟩, ?_⟩
  · exact fun _ => still_waiting overlapping functors (by simp) (by simp [state])
  · have two := overlapping.two
    simp only [attempts, Connector.queue, functors, List.cons_append, List.count_cons_self,
      state, if_true] at two
    simp only [attempts, Connector.queue, if_true]
    omega
  · simp only [pendingWork, functors, List.length_cons, state, reduceCtorEq, if_false]
    omega

/-- An attempt that is stopped becomes a timer too, since `connect_` is set. -/
theorem stopFunctor_overlapping (overlapping : c.Overlapping) {rest : List Functor}
    (functors : c.functors = .stopInLoop :: rest) :
    ∃ next, { c with functors := rest }.stopInLoop = .ok next ∧
      next.Overlapping ∧ pendingWork next < pendingWork c := by
  have two := overlapping.two
  by_cases state : c.state = .kConnecting
  · obtain ⟨sockfd, channel, notQueued⟩ := overlapping.connecting state
    have removed : { c with functors := rest, state := .kDisconnected }.removeAndResetChannel =
        .ok (sockfd, { c with
          functors := rest
          state := .kDisconnected
          channel := some ⟨sockfd, false⟩ }.queueInLoop .resetChannel) :=
      removeAndResetChannel_ok channel
    refine ⟨{ c with
      functors := rest
      state := .kDisconnected
      channel := some ⟨sockfd, false⟩
      pendingFunctors := c.pendingFunctors ++ [.resetChannel]
      closed := c.closed ++ [sockfd]
      timers := c.timers + 1 }, ?_, ⟨overlapping.outside, overlapping.wanted, by simp, ?_, ?_⟩, ?_⟩
    · simp only [Connector.stopInLoop, if_pos state, removed, bind, Except.bind, retry_eq,
        Connector.queueInLoop]
      rw [overlapping.wanted]
      rfl
    · exact fun _ => Or.inr ⟨sockfd, rfl, by simp [Connector.queue]⟩
    · simp only [attempts, Connector.queue, functors, List.cons_append, state, reduceCtorEq,
        if_false, List.count_append, List.count_cons] at two
      simp only [attempts, Connector.queue, if_true, List.count_append, List.count_cons,
        List.count_nil]
      simp at two ⊢
      omega
    · simp only [pendingWork, functors, List.length_cons, List.length_append, List.length_nil,
        state, reduceCtorEq, if_false, if_true]
      omega
  · refine ⟨{ c with functors := rest }, ?_, ⟨overlapping.outside, overlapping.wanted, ?_, ?_, ?_⟩,
      ?_⟩
    · simp only [Connector.stopInLoop, if_neg state]
      rfl
    · exact fun connecting => absurd connecting state
    · exact fun _ => still_waiting overlapping functors (by simp) state
    · simp only [attempts, Connector.queue, functors, List.cons_append] at two ⊢
      rwa [List.count_cons_of_ne (by simp)] at two
    · simp only [pendingWork, functors, List.length_cons]
      omega

theorem resetFunctor_overlapping (overlapping : c.Overlapping) {rest : List Functor}
    (functors : c.functors = .resetChannel :: rest) :
    ∃ next, { c with functors := rest }.resetChannel = .ok next ∧
      next.Overlapping ∧ pendingWork next < pendingWork c := by
  have state : c.state ≠ .kConnecting := by
    intro connecting
    obtain ⟨-, -, notQueued⟩ := overlapping.connecting connecting
    simp [Connector.queue, functors] at notQueued
  have unknown : ∀ channel ∈ c.channel, channel.registered = false := by
    rcases overlapping.otherwise state with free | ⟨sockfd, channel, -⟩
    · simp [free]
    · simp [channel]
  refine ⟨{ c with functors := rest, channel := none }, ?_,
    ⟨overlapping.outside, overlapping.wanted, ?_, ?_, ?_⟩, ?_⟩
  · simp only [Connector.resetChannel, require_ok unknown, bind, Except.bind]
    rfl
  · exact fun connecting => absurd connecting state
  · exact fun _ => Or.inl rfl
  · have two := overlapping.two
    simp only [attempts, Connector.queue, functors, List.cons_append] at two ⊢
    rwa [List.count_cons_of_ne (by simp)] at two
  · simp only [pendingWork, functors, List.length_cons]
    omega

/-- The first functor runs, with a refused connection where it connects:
either that fails an assertion, or two attempts remain. -/
theorem runFunctor_overlapping (overlapping : c.Overlapping) {functor : Functor}
    {rest : List Functor} (functors : c.functors = functor :: rest) :
    (∃ fault, step c (.runFunctor .ECONNREFUSED) = .error fault) ∨
      ∃ next, step c (.runFunctor .ECONNREFUSED) = .ok next ∧ next.Overlapping ∧
        pendingWork next < pendingWork c := by
  have taken : step c (.runFunctor .ECONNREFUSED) =
      { c with functors := rest }.perform .ECONNREFUSED functor := by
    simp only [step, overlapping.outside, functors]
  rw [taken]
  cases functor with
  | startInLoop =>
      by_cases state : c.state = .kDisconnected
      · exact Or.inr (startFunctor_overlapping overlapping functors state)
      · left
        exact ⟨.startInLoopState, startInLoop_busy { c with functors := rest } state _⟩
  | stopInLoop => exact Or.inr (stopFunctor_overlapping overlapping functors)
  | resetChannel => exact Or.inr (resetFunctor_overlapping overlapping functors)

theorem overlapping_doomed (overlapping : c.Overlapping) : Doomed c := by
  induction work : pendingWork c using Nat.strongRecOn generalizing c with
  | ind n ih =>
      subst work
      cases functors : c.functors with
      | cons functor rest =>
          rcases runFunctor_overlapping overlapping functors with
            ⟨fault, failed⟩ | ⟨next, taken, still, less⟩
          · exact doomed_now (.runFunctor .ECONNREFUSED) trivial failed
          · exact doomed_of_step (.runFunctor .ECONNREFUSED) trivial taken (ih _ less still rfl)
      | nil =>
          by_cases inside : 0 < c.starting
          · refine doomed_of_step .queueStart trivial (if_pos inside)
              (ih _ ?_ (queueStart_overlapping overlapping inside) rfl)
            change 3 * (c.starting - 1) + 2 * (c.pendingFunctors ++ [_]).length +
              c.functors.length + (if c.state = .kConnecting then 3 else 0) < pendingWork c
            rw [pendingWork, List.length_append, List.length_singleton]
            omega
          cases pending : c.pendingFunctors with
          | nil => exact timers_doomed overlapping functors pending (by omega)
          | cons functor rest =>
              have handles : c.handlesEvents = true := by
                simp [Connector.handlesEvents, overlapping.outside, functors]
              refine doomed_of_step .swapFunctors trivial (if_pos handles)
                (ih _ ?_ (swapFunctors_overlapping overlapping functors) rfl)
              simp only [pendingWork, functors, pending, List.length_cons, List.length_nil]
              omega

/-! ### Calls that overlap -/

/-- A connector that is entered while something else is scheduled: the new
attempt is refused, and becomes a timer beside the other one. -/
theorem entered_doomed (entering : c.entering = true) (wanted : c.connect_ = true)
    (state : c.state = .kDisconnected) (free : c.channel = none)
    (scheduled : 1 ≤ c.timers + c.starting + c.queue.count .startInLoop) : Doomed c := by
  have taken : step c (.enter .ECONNREFUSED) = .ok { c with
      entering := false
      created := c.created + 1
      closed := c.closed ++ [c.created]
      state := .kDisconnected
      timers := c.timers + 1 } := by
    simp only [step, entering, if_true]
    exact startInLoop_again { c with entering := false } state wanted
  refine doomed_of_step (.enter .ECONNREFUSED) trivial taken (overlapping_doomed ?_)
  refine ⟨rfl, wanted, by simp, fun _ => Or.inl free, ?_⟩
  change 2 ≤ c.timers + 1 + c.starting + c.queue.count .startInLoop + 0 + 0
  omega

theorem entered_occupied (entering : c.entering = true) (wanted : c.connect_ = true)
    (state : c.state = .kDisconnected) (occupied : c.channel ≠ none) : Doomed c := by
  have failed : step c (.enter .zero) = .error .connectingChannel := by
    simp only [step, entering, if_true]
    exact startInLoop_occupied { c with entering := false } state wanted occupied rfl
  exact doomed_now (.enter .zero) trivial failed

theorem scheduled_of_not_none (outside : c.entering = false) (busy : ¬c.NoneScheduled) :
    1 ≤ c.timers + c.starting + c.queue.count .startInLoop := by
  by_contra nothing
  refine busy ⟨by omega, by omega, ?_, outside⟩
  rw [← List.count_eq_zero]
  omega

theorem start_overlap (outside : c.entering = false) (overlaps : ¬Alone c .start) :
    GoesWrong c .start := by
  have taken : step c .start = .ok { c with connect_ := true, entering := true } := by
    simp [step, outside]
  apply goes_wrong_of_doomed taken
  by_cases state : c.state = .kDisconnected
  · by_cases free : c.channel = none
    · have scheduled := scheduled_of_not_none outside fun none => overlaps ⟨state, free, none⟩
      exact entered_doomed rfl rfl state free scheduled
    · exact entered_occupied rfl rfl state free
  · have failed : step { c with connect_ := true, entering := true } (.enter .zero) =
        .error .startInLoopState := by
      simp only [step, if_true]
      exact startInLoop_busy { c with connect_ := true, entering := false } state _
    exact doomed_now (.enter .zero) trivial failed

theorem restart_overlap (outside : c.entering = false) (overlaps : ¬Alone c .restart) :
    GoesWrong c .restart := by
  have taken : step c .restart =
      .ok { c with state := .kDisconnected, connect_ := true, entering := true } := by
    simp [step, outside]
  apply goes_wrong_of_doomed taken
  by_cases free : c.channel = none
  · have scheduled := scheduled_of_not_none outside fun none => overlaps ⟨free, none⟩
    exact entered_doomed rfl rfl rfl free scheduled
  · exact entered_occupied rfl rfl rfl free

theorem start_elsewhere_overlap (sound : c.Sound) (overlaps : ¬Alone c .startElsewhere) :
    GoesWrong c .startElsewhere := by
  apply goes_wrong_of_doomed rfl
  by_cases entering : c.entering = true
  · have single := sound.single
    simp only [attempts, entering, if_true] at single
    have state : c.state = .kDisconnected := by
      by_contra busy
      rw [if_neg busy] at single
      omega
    refine entered_doomed entering rfl state (sound.entered entering) ?_
    change 1 ≤ c.timers + (c.starting + 1) + c.queue.count .startInLoop
    omega
  · rw [Bool.not_eq_true] at entering
    refine overlapping_doomed ⟨entering, rfl, ?_, ?_, ?_⟩
    · intro connecting
      obtain ⟨sockfd, present, notQueued, -⟩ := sound.connecting connecting
      exact ⟨sockfd, present, notQueued⟩
    · intro notConnecting
      refine (sound.otherwise notConnecting).2.imp And.left ?_
      rintro ⟨sockfd, waiting, one⟩
      refine ⟨sockfd, waiting, List.count_pos_iff.mp ?_⟩
      change 0 < c.queue.count .resetChannel
      omega
    · change 2 ≤ c.timers + (c.starting + 1) + c.queue.count .startInLoop +
        (if c.entering then 1 else 0) + (if c.state = .kDisconnected then 0 else 1)
      by_cases state : c.state = .kDisconnected
      · have scheduled := scheduled_of_not_none entering fun none => overlaps ⟨state, none⟩
        omega
      · rw [if_neg state]
        omega

theorem retry_timer_overlap {savedErrno : Errno}
    (possible : c.handlesEvents = true ∧ 0 < c.timers)
    (overlaps : ¬Alone c (.retryTimer savedErrno)) : GoesWrong c (.retryTimer savedErrno) := by
  simp only [Alone, not_forall] at overlaps
  obtain ⟨wanted, connects, occupied⟩ := overlaps
  have taken : step c (.retryTimer savedErrno) =
      { c with timers := c.timers - 1 }.startInLoop savedErrno := if_pos possible
  by_cases state : c.state = .kDisconnected
  · have failed : { c with timers := c.timers - 1 }.startInLoop savedErrno =
        .error .connectingChannel :=
      startInLoop_occupied { c with timers := c.timers - 1 } state wanted occupied connects
    exact goes_wrong_now (taken.trans failed)
  · have failed : { c with timers := c.timers - 1 }.startInLoop savedErrno =
        .error .startInLoopState :=
      startInLoop_busy { c with timers := c.timers - 1 } state savedErrno
    exact goes_wrong_now (taken.trans failed)

theorem goes_wrong_of_overlap (sound : c.Sound) (event : Event) (possible : Possible c event)
    (overlaps : ¬Alone c event) : GoesWrong c event := by
  cases event with
  | start => exact start_overlap possible overlaps
  | restart => exact restart_overlap possible overlaps
  | startElsewhere => exact start_elsewhere_overlap sound overlaps
  | retryTimer savedErrno => exact retry_timer_overlap possible overlaps
  | _ => exact absurd trivial overlaps

/-- After an event that meets the condition every admitted run succeeds. -/
theorem not_goes_wrong_of_alone (sound : c.Sound) (event : Event) (alone : Alone c event) :
    ¬GoesWrong c event := by
  rintro ⟨later, fault, failed, admitted⟩
  obtain ⟨next, taken, nextSound⟩ := step_sound c event sound alone
  obtain ⟨final, ran, -⟩ := run_succeeds Connector.Sound step_sound nextSound (admitted next taken)
  rw [run_cons_ok later taken, ran] at failed
  cases failed

end

/-- In every run whose calls and timers meet the condition no assertion fails,
there is one socket at most and no registered channel is destroyed. At the end
of such a run an event that can happen keeps this up, whatever admitted events
follow, exactly if it meets the condition as well. -/
theorem connector_one_attempt (events : List Event)
    (admitted : AllSteps step Alone Connector.new events) :
    ∃ final, run step Connector.new events = .ok final ∧ final.OneAttempt ∧
      ∀ event, Possible final event → (¬GoesWrong final event ↔ Alone final event) := by
  obtain ⟨final, ran, sound⟩ := run_succeeds Connector.Sound step_sound sound_new admitted
  refine ⟨final, ran, sound.one_attempt, fun event possible => ⟨?_, ?_⟩⟩
  · intro right
    by_contra overlaps
    exact right (goes_wrong_of_overlap sound event possible overlaps)
  · exact not_goes_wrong_of_alone sound event

/-- A refused attempt is tried again by its timer and connects; the client
restarts the connector after the connection was lost, and another thread stops
it while it is connecting. -/
def retryThenRestart : List Event :=
  [.startElsewhere, .queueStart, .swapFunctors, .runFunctor .EINPROGRESS,
    .handleEvent (pollErr ||| pollOut) 10061 false, .swapFunctors, .runFunctor .zero,
    .retryTimer .zero, .handleEvent pollOut 0 false, .swapFunctors, .runFunctor .zero, .restart,
    .enter .EINPROGRESS, .stop, .queueStop, .swapFunctors, .runFunctor .zero, .swapFunctors,
    .runFunctor .zero, .start, .enter .zero]

theorem connector_one_attempt_retried :
    AllSteps step Alone Connector.new retryThenRestart ∧
      ∃ final, run step Connector.new retryThenRestart = .ok final ∧ final.OneAttempt ∧
        ∀ event, Possible final event → (¬GoesWrong final event ↔ Alone final event) :=
  ⟨by decide, connector_one_attempt retryThenRestart (by decide)⟩

/-- A refused attempt has set its timer when the client stops the connector
and starts it again. The timer is not cancelled: it fires while the new
attempt is under way. -/
def stopThenStart : List Event :=
  [.start, .enter .EINPROGRESS, .handleEvent pollOut 10061 false, .swapFunctors,
    .runFunctor .zero, .stop, .queueStop, .swapFunctors, .runFunctor .zero, .start,
    .enter .EINPROGRESS, .retryTimer .EINPROGRESS]

theorem second_attempt_starts : ¬∀ events,
    ∃ final, run step Connector.new events = .ok final ∧ final.OneAttempt := by
  intro claim
  obtain ⟨final, ran, -⟩ := claim stopThenStart
  have failed : run step Connector.new stopThenStart = .error .startInLoopState := by decide
  rw [failed] at ran
  cases ran

end Msmuduo.Connecting
