import Msmuduo.Fairness
import Msmuduo.TcpServerTeardown

/-!
# Closed connections are destroyed

A loop that keeps running calls every functor that is queued in it: the thread
gets through the active channels and the functors it has swapped out, and polls
again. So a connection that is in `handleClose`, then waits for the base loop
and then for its own, is destroyed in the end.
-/

namespace Msmuduo.ServerLoops

open Msmuduo.Machine Msmuduo.PollPoller

set_option autoImplicit false

/-! ## What a thread does to the other loops -/

/-- At most functors have been queued. -/
structure Extends (first second : Loop) : Prop where
  control : second.control = first.control
  pending : ∃ more, second.pendingFunctors = first.pendingFunctors ++ more

theorem Extends.refl (loop : Loop) : Extends loop loop := ⟨rfl, [], (List.append_nil _).symm⟩

theorem Extends.trans {first second third : Loop} (one : Extends first second)
    (two : Extends second third) : Extends first third := by
  obtain ⟨more, queued⟩ := one.pending
  obtain ⟨others, later⟩ := two.pending
  refine ⟨two.control.trans one.control, more ++ others, ?_⟩
  rw [later, queued, List.append_assoc]

section

variable {Name : Type} {connName : ChannelId → Name} {s next : System Name}
  {conn : ChannelId} {loop : LoopId}

/-- What has been logged stays, and nobody changes the threads. -/
def Logs (s next : System Name) : Prop := s.log ⊆ next.log ∧ next.config = s.config

theorem Logs.refl (s : System Name) : Logs s s := ⟨List.Subset.refl _, rfl⟩

theorem Logs.trans {final : System Name} (one : Logs s next) (two : Logs next final) :
    Logs s final :=
  ⟨List.Subset.trans one.1 two.1, two.2.trans one.2⟩

/-- Functors may have been queued, and something may have been logged. -/
def Extended (s next : System Name) : Prop :=
  (∀ loop, Extends (s.loops loop) (next.loops loop)) ∧ Logs s next

theorem Extended.refl (s : System Name) : Extended s s :=
  ⟨fun _ => Extends.refl _, Logs.refl s⟩

theorem Extended.trans {final : System Name} (one : Extended s next)
    (two : Extended next final) : Extended s final :=
  ⟨fun loop => (one.1 loop).trans (two.1 loop), one.2.trans two.2⟩

theorem extended_record (s : System Name) (effect : Effect) : Extended s (s.record effect) :=
  ⟨fun _ => Extends.refl _, List.subset_append_left _ _, rfl⟩

theorem extended_setLoop {value : Loop} (extends_ : Extends (s.loops loop) value) :
    Extended s (s.setLoop loop value) := by
  refine ⟨?_, List.Subset.refl _, rfl⟩
  intro other
  unfold System.setLoop
  dsimp only
  by_cases here : other = loop
  · subst here
    rw [Function.update_self]
    exact extends_
  · rw [Function.update_of_ne here]
    exact Extends.refl _

theorem extended_queueInLoop (s : System Name) (loop : LoopId) (functor : Functor) :
    Extended s (s.queueInLoop loop functor) :=
  extended_setLoop ⟨rfl, [functor], rfl⟩

theorem extended_onChannel {call : PollPoller.Event}
    (ran : s.onChannel loop conn call = .ok next) : Extended s next := by
  obtain ⟨_, _, rest⟩ := bind_ok_inv ran
  obtain ⟨poller, _, returned⟩ := bind_ok_inv rest
  cases returned
  exact extended_setLoop ⟨rfl, [], (List.append_nil _).symm⟩

theorem extended_removeChannel (ran : s.removeChannel loop conn = .ok next) :
    Extended s next := by
  obtain ⟨_, _, rest⟩ := bind_ok_inv ran
  exact extended_onChannel rest

theorem extended_connectEstablished (ran : s.connectEstablished loop conn = .ok next) :
    Extended s next := by
  obtain ⟨_, _, rest⟩ := bind_ok_inv ran
  obtain ⟨_, _, interest⟩ := bind_ok_inv rest
  exact extended_onChannel (s := s.setState conn .kConnected) interest

theorem extended_handleClose (ran : s.handleClose loop conn = .ok next) : Extended s next := by
  obtain ⟨_, _, rest⟩ := bind_ok_inv ran
  obtain ⟨_, _, interest⟩ := bind_ok_inv rest
  exact (extended_record (s.setState conn .kDisconnected) _).trans (extended_onChannel interest)

theorem extended_handleWrite {drained : Bool}
    (ran : s.handleWrite loop conn drained = .ok next) : Extended s next := by
  unfold System.handleWrite at ran
  split_ifs at ran
  · obtain ⟨idle, interest, returned⟩ := bind_ok_inv ran
    cases returned
    exact (extended_onChannel interest).trans (extended_queueInLoop _ _ _)
  · obtain ⟨idle, interest, returned⟩ := bind_ok_inv ran
    cases returned
    exact extended_onChannel interest
  · cases ran
    exact Extended.refl s

theorem extended_removeConnectionInLoop [DecidableEq Name]
    (ran : s.removeConnectionInLoop connName loop conn = .ok next) : Extended s next := by
  obtain ⟨_, _, rest⟩ := bind_ok_inv ran
  obtain ⟨_, _, returned⟩ := bind_ok_inv rest
  cases returned
  have queued : Extended s ((s.erased connName conn).queueInLoop (s.conns conn).loop
      (.connectDestroyed conn)) := extended_queueInLoop (s.erased connName conn) _ _
  exact queued.trans (extended_record _ _)

theorem extended_removeConnection [DecidableEq Name]
    (ran : s.removeConnection connName loop conn = .ok next) : Extended s next := by
  unfold System.removeConnection at ran
  split_ifs at ran
  · exact extended_removeConnectionInLoop ran
  · cases ran
    exact extended_queueInLoop _ _ _

theorem extended_create [DecidableEq Name] (s : System Name) (sockfd : Nat) :
    Extended s (s.create connName sockfd) := by
  refine ⟨?_, List.subset_append_left _ _, rfl⟩
  intro other
  rw [create_loops, Function.update_apply]
  split_ifs with here
  · rw [here]
    exact ⟨rfl, [], (List.append_nil _).symm⟩
  · exact Extends.refl _

theorem extended_keepRemaining {highWaterMark : Bool}
    (ran : s.keepRemaining conn highWaterMark = .ok next) : Extended s next := by
  have queued := extended_queueInLoop s (s.conns conn).loop (.highWaterMarkCallback conn)
  unfold System.keepRemaining at ran
  dsimp only at ran
  split_ifs at ran
  · cases ran
    exact queued
  · cases ran
    exact Extended.refl s
  · exact queued.trans (extended_onChannel ran)
  · exact extended_onChannel ran

theorem extended_call {userCall : UserCall} (ran : s.call conn userCall = .ok next) :
    Extended s next := by
  cases userCall with
  | forceClose =>
      unfold System.call at ran
      dsimp only at ran
      split_ifs at ran
      · cases ran
        exact extended_queueInLoop (s.setState conn .kDisconnecting) _ _
      · cases ran
        exact Extended.refl s
  | shutdown =>
      unfold System.call at ran
      dsimp only at ran
      split_ifs at ran
      · cases ran
        exact Extended.refl s
      · cases ran
        exact Extended.refl s
  | send remaining highWaterMark =>
      unfold System.call at ran
      dsimp only at ran
      split_ifs at ran
      · exact extended_keepRemaining ran
      · cases ran
        exact extended_queueInLoop s _ _
      · cases ran
        exact Extended.refl s
      · cases ran
        exact Extended.refl s

/-! ## How far a thread is -/

inductive Phase where
  | poll
  | channels
  | functors
  deriving DecidableEq, Repr

def Control.phase : Control → Phase
  | .atPoll => .poll
  | .nextChannel _ | .newConnection _ _ _ | .handleEvent _ _ _ _ _ => .channels
  | .nextFunctor _ _ | .connectEstablished _ _ _ | .forceCloseInLoop _ _ _ _ |
    .connectDestroyed _ _ _ => .functors

def CloseStage.left : Option CloseStage → Nat
  | none => 0
  | some .called => 1
  | some .calling => 2

def EventStage.left : EventStage → Nat
  | .done => 1
  | .write => 4
  | .read => 7
  | .hangUp => 10

/-- A bound on the pieces until the thread leaves its phase. -/
def Control.left : Control → Nat
  | .atPoll => 0
  | .nextChannel active => 13 * active.length
  | .newConnection _ calling active => 13 * active.length + (if calling then 2 else 1)
  | .handleEvent _ _ stage closing active =>
      13 * active.length + (stage.left + CloseStage.left closing)
  | .nextFunctor _ rest => 4 * rest.length
  | .connectEstablished _ _ rest => 4 * rest.length + 1
  | .forceCloseInLoop _ closing _ rest => 4 * rest.length + CloseStage.left (some closing)
  | .connectDestroyed _ _ rest => 4 * rest.length + 1

/-- The place one piece of the thread leads to, the swap apart. -/
inductive Later : Control → Control → Prop
  | polled (active : List Active) : Later .atPoll (.nextChannel active)
  | handled {old new : Control} : old.phase = .channels → new.phase = .channels →
      new.left < old.left → Later old new
  | finished (called : List Functor) : Later (.nextFunctor called []) .atPoll
  | called {new : Control} (called : List Functor) (functor : Functor) (rest : List Functor) :
      new.phase = .functors → new.rest = rest → new.left < 4 * (rest.length + 1) →
      Later (.nextFunctor called (functor :: rest)) new
  | returned {old new : Control} : old.phase = .functors → new.phase = .functors →
      new.rest = old.rest → new.left < old.left → Later old new

/-- The thread of one loop is at a new place, and functors may have been queued
anywhere. -/
structure Reaches (s next : System Name) (loop : LoopId) (control : Control) : Prop where
  others : ∀ other, other ≠ loop → Extends (s.loops other) (next.loops other)
  control : (next.loops loop).control = control
  pending : ∃ more, (next.loops loop).pendingFunctors = (s.loops loop).pendingFunctors ++ more
  logs : Logs s next

theorem reaches_setControl (extended : Extended s next) (control : Control) :
    Reaches s (next.setControl loop control) loop control where
  others := by
    intro other elsewhere
    unfold System.setControl System.setLoop
    dsimp only
    rw [Function.update_of_ne elsewhere]
    exact extended.1 other
  control := by
    simp [System.setControl, System.setLoop]
  pending := by
    obtain ⟨more, queued⟩ := (extended.1 loop).pending
    refine ⟨more, ?_⟩
    simpa [System.setControl, System.setLoop] using queued
  logs := extended.2

theorem Reaches.extended {final : System Name} {control : Control}
    (reaches : Reaches s next loop control) (extended : Extended next final) :
    Reaches s final loop control where
  others := fun other elsewhere => (reaches.others other elsewhere).trans (extended.1 other)
  control := (extended.1 loop).control.trans reaches.control
  pending := by
    obtain ⟨more, queued⟩ := reaches.pending
    obtain ⟨others, later⟩ := (extended.1 loop).pending
    exact ⟨more ++ others, by rw [later, queued, List.append_assoc]⟩
  logs := reaches.logs.trans extended.2

/-- The thread goes on from the place it has just reached. -/
theorem Reaches.moved {final : System Name} {old : Control}
    (reaches : Reaches s next loop old) (extended : Extended next final) (control : Control) :
    Reaches s (final.setControl loop control) loop control where
  others := fun other elsewhere =>
    (reaches.others other elsewhere).trans
      ((reaches_setControl extended control).others other elsewhere)
  control := (reaches_setControl extended control).control
  pending := by
    obtain ⟨more, queued⟩ := reaches.pending
    obtain ⟨others, later⟩ := (reaches_setControl extended control).pending
    exact ⟨more ++ others, by rw [later, queued, List.append_assoc]⟩
  logs := reaches.logs.trans extended.2

/-! ## One piece of a thread -/

theorem handleEvent_later {revents : EventMask} {eventStage : EventStage}
    {active : List Active} {answer : Answer}
    (ran : s.handleEvent loop conn revents eventStage active answer = .ok next) :
    ∃ control, Reaches s next loop control ∧
      Later (.handleEvent conn revents eventStage none active) control := by
  obtain ⟨_, _, rest⟩ := bind_ok_inv ran
  cases eventStage with
  | hangUp =>
      dsimp only at rest
      split_ifs at rest
      · obtain ⟨closed, closing, returned⟩ := bind_ok_inv rest
        cases returned
        refine ⟨_, reaches_setControl (extended_handleClose closing) _, .handled rfl rfl ?_⟩
        simp [Control.left, EventStage.left, CloseStage.left]
      · cases rest
        refine ⟨_, reaches_setControl (Extended.refl s) _, .handled rfl rfl ?_⟩
        simp [Control.left, EventStage.left, CloseStage.left]
  | read =>
      dsimp only at rest
      split_ifs at rest
      · obtain ⟨closed, closing, returned⟩ := bind_ok_inv rest
        cases returned
        refine ⟨_, reaches_setControl (extended_handleClose closing) _, .handled rfl rfl ?_⟩
        simp [Control.left, EventStage.left, CloseStage.left]
      · cases rest
        refine ⟨_, reaches_setControl (Extended.refl s) _, .handled rfl rfl ?_⟩
        simp [Control.left, EventStage.left, CloseStage.left]
  | write =>
      obtain ⟨written, writing, returned⟩ := bind_ok_inv rest
      cases returned
      have extended : Extended s written := by
        split_ifs at writing
        · exact extended_handleWrite writing
        · cases writing
          exact Extended.refl s
      refine ⟨_, reaches_setControl extended _, .handled rfl rfl ?_⟩
      simp [Control.left, EventStage.left, CloseStage.left]
  | done =>
      cases rest
      refine ⟨_, reaches_setControl (Extended.refl s) _, .handled rfl rfl ?_⟩
      simp [Control.left, EventStage.left, CloseStage.left]

theorem handleChannel_later [DecidableEq Name] {id : ChannelId} {revents : EventMask}
    {active : List Active} {answer : Answer}
    (ran : s.handleChannel connName loop id revents active answer = .ok next) :
    ∃ control, Reaches s next loop control ∧
      Later (.nextChannel ((id, revents) :: active)) control := by
  have skipped : ∀ final, Except.ok (ε := Fault) (s.setControl loop (.nextChannel active)) =
      .ok final → ∃ control, Reaches s final loop control ∧
        Later (.nextChannel ((id, revents) :: active)) control := by
    intro final same
    cases same
    refine ⟨_, reaches_setControl (Extended.refl s) _, .handled rfl rfl ?_⟩
    simp [Control.left]
  unfold System.handleChannel at ran
  split_ifs at ran
  · exact skipped next ran
  · unfold System.accept at ran
    split at ran
    · exact skipped next ran
    · split_ifs at ran
      · exact skipped next ran
      · next sockfd _ _ =>
        obtain ⟨_, _, rest⟩ := bind_ok_inv ran
        dsimp only at rest
        split_ifs at rest
        · obtain ⟨established, establishing, returned⟩ := bind_ok_inv rest
          cases returned
          refine ⟨_, reaches_setControl ((extended_create s sockfd).trans
            (extended_connectEstablished establishing)) _, .handled rfl rfl ?_⟩
          simp [Control.left, Nat.mul_add]
        · cases rest
          refine ⟨_, reaches_setControl ((extended_create s sockfd).trans
            (extended_queueInLoop _ _ _)) _, .handled rfl rfl ?_⟩
          simp [Control.left, Nat.mul_add]
  · exact skipped next ran
  · cases ran
    refine ⟨_, reaches_setControl (Extended.refl s) _, .handled rfl rfl ?_⟩
    simp [Control.left, EventStage.left, CloseStage.left, Nat.mul_add]

theorem callFunctor_later [DecidableEq Name] {functor : Functor}
    {before called rest : List Functor}
    (ran : s.callFunctor connName loop functor called rest = .ok next) :
    ∃ control, Reaches s next loop control ∧
      Later (.nextFunctor before (functor :: rest)) control := by
  have taken : Reaches s (s.taken loop called rest) loop (.nextFunctor called rest) :=
    reaches_setControl (Extended.refl s) _
  have goesOn : Later (.nextFunctor before (functor :: rest)) (.nextFunctor called rest) :=
    .called before functor rest rfl rfl (by simp [Control.left])
  cases functor with
  | connectEstablished conn =>
      obtain ⟨established, establishing, returned⟩ := bind_ok_inv ran
      cases returned
      refine ⟨_, taken.moved (extended_connectEstablished establishing) _,
        .called before _ rest rfl rfl ?_⟩
      simp [Control.left, Nat.mul_add]
  | removeConnectionInLoop conn =>
      exact ⟨_, taken.extended (extended_removeConnectionInLoop ran), goesOn⟩
  | connectDestroyed conn =>
      obtain ⟨_, _, entered⟩ := bind_ok_inv ran
      dsimp only at entered
      split_ifs at entered
      · obtain ⟨down, interest, returned⟩ := bind_ok_inv entered
        cases returned
        have lowered := extended_onChannel interest
        have extended := (extended_record (s.taken loop called rest)
          (.connectDestroyed conn loop)).trans lowered
        refine ⟨_, taken.moved extended _, .called before _ rest rfl rfl ?_⟩
        simp [Control.left, Nat.mul_add]
      · have extended := (extended_record _ _).trans (extended_removeChannel entered)
        exact ⟨_, taken.extended extended, goesOn⟩
  | forceCloseInLoop conn =>
      obtain ⟨_, _, entered⟩ := bind_ok_inv ran
      split_ifs at entered
      · obtain ⟨closed, closing, returned⟩ := bind_ok_inv entered
        cases returned
        refine ⟨_, taken.moved (extended_handleClose closing) _,
          .called before _ rest rfl rfl ?_⟩
        simp [Control.left, CloseStage.left, Nat.mul_add]
      · cases entered
        exact ⟨_, taken, goesOn⟩
  | writeCompleteCallback conn | highWaterMarkCallback conn =>
      cases ran
      exact ⟨_, taken, goesOn⟩
  | task =>
      cases ran
      exact ⟨_, taken, goesOn⟩

/-- What one piece of a thread does to its loop: the swap of the functors, or a
move to a later place. -/
inductive Piece (s next : System Name) (loop : LoopId) : Prop
  | swapped : (s.loops loop).control = .nextChannel [] →
      (next.loops loop).control = .nextFunctor [] (s.loops loop).pendingFunctors →
      Piece s next loop
  | went {control : Control} : Reaches s next loop control →
      Later (s.loops loop).control control → Piece s next loop

theorem swapFunctors_others (s : System Name) {other : LoopId} (elsewhere : other ≠ loop) :
    (s.swapFunctors loop).loops other = s.loops other := by
  unfold System.swapFunctors System.setLoop
  exact Function.update_of_ne elsewhere _ _

theorem advance_piece [DecidableEq Name] {answer : Answer}
    (ran : s.advance connName loop answer = .ok next) :
    Piece s next loop ∧ (∀ other, other ≠ loop → Extends (s.loops other) (next.loops other)) ∧
      Logs s next := by
  have went : ∀ {old new : Control} {final : System Name}, (s.loops loop).control = old →
      Reaches s final loop new → Later old new →
      Piece s final loop ∧ (∀ other, other ≠ loop → Extends (s.loops other) (final.loops other)) ∧
        Logs s final := by
    intro old new final at_ reaches later
    rw [← at_] at later
    exact ⟨.went reaches later, reaches.others, reaches.logs⟩
  have still := Extended.refl s
  unfold System.advance at ran
  split at ran
  · next control =>
    obtain ⟨active, _, returned⟩ := bind_ok_inv ran
    cases returned
    exact went control (reaches_setControl still _) (.polled active)
  · next control =>
    cases ran
    refine ⟨.swapped control ?_, ?_, List.Subset.refl _, rfl⟩
    · simp [System.swapFunctors, System.setLoop]
    · intro other elsewhere
      rw [swapFunctors_others s elsewhere]
      exact Extends.refl _
  · next id revents active control =>
    obtain ⟨new, reaches, later⟩ := handleChannel_later ran
    exact went control reaches later
  · next conn active control =>
    cases ran
    refine went control (reaches_setControl still _) (.handled rfl rfl ?_)
    simp [Control.left]
  · next conn active control =>
    cases ran
    refine went control (reaches_setControl still _) (.handled rfl rfl ?_)
    simp [Control.left]
  · next conn revents eventStage active control =>
    obtain ⟨new, reaches, later⟩ := handleEvent_later ran
    exact went control reaches later
  · next conn revents eventStage active control =>
    refine went control ((reaches_setControl still _).extended (extended_removeConnection ran))
      (.handled rfl rfl ?_)
    simp [Control.left, CloseStage.left]
  · next conn revents eventStage active control =>
    cases ran
    refine went control (reaches_setControl (extended_record s _) _) (.handled rfl rfl ?_)
    simp [Control.left, CloseStage.left]
  · next called control =>
    cases ran
    exact went control (reaches_setControl still _) (.finished called)
  · next called functor rest control =>
    obtain ⟨new, reaches, later⟩ := callFunctor_later ran
    exact went control reaches later
  · next conn called rest control =>
    cases ran
    refine went control (reaches_setControl still _) (.returned rfl rfl rfl ?_)
    simp [Control.left]
  · next conn called rest control =>
    refine went control ((reaches_setControl still _).extended (extended_removeConnection ran))
      (.returned rfl rfl rfl ?_)
    simp [Control.left, CloseStage.left]
  · next conn called rest control =>
    cases ran
    refine went control (reaches_setControl (extended_record s _) _) (.returned rfl rfl rfl ?_)
    simp [Control.left, CloseStage.left]
  · next conn called rest control =>
    refine went control ((reaches_setControl still _).extended (extended_removeChannel ran))
      (.returned rfl rfl rfl ?_)
    simp [Control.left]

/-! ## Steps -/

/-- The loop thread does something. -/
def Event.Runs (loop : LoopId) (event : Event) : Prop := ∃ answer, event = .advance loop answer

/-- A thread is moved by its own pieces only. -/
theorem step_others [DecidableEq Name] {event : Event}
    (ran : step connName s event = .ok next) :
    (∀ loop, ¬event.Runs loop → Extends (s.loops loop) (next.loops loop)) ∧ Logs s next := by
  have outside : Extended s next →
      (∀ loop, ¬event.Runs loop → Extends (s.loops loop) (next.loops loop)) ∧ Logs s next :=
    fun extended => ⟨fun loop _ => extended.1 loop, extended.2⟩
  cases event with
  | advance thread answer =>
      obtain ⟨-, others, logs⟩ := advance_piece ran
      refine ⟨?_, logs⟩
      intro loop idle
      apply others
      intro same
      rw [same] at idle
      exact idle ⟨answer, rfl⟩
  | call conn userCall =>
      unfold step at ran
      dsimp only at ran
      split_ifs at ran
      · exact outside (extended_call ran)
      · cases ran
        exact outside (Extended.refl s)
  | queueInLoop thread =>
      cases ran
      exact outside (extended_queueInLoop s thread .task)
  | hold conn =>
      unfold step at ran
      dsimp only at ran
      split_ifs at ran
      · cases ran
        exact outside (Extended.refl s)
      · cases ran
        exact outside (Extended.refl s)
  | release conn =>
      cases ran
      exact outside (Extended.refl s)

end

/-! ## Waiting for a functor -/

/-- The functor waits in the queue, or has been swapped out of it. -/
def Loop.Queued (loop : Loop) (functor : Functor) : Prop :=
  functor ∈ loop.control.rest ++ loop.pendingFunctors

/-- The functor is called next. -/
def Loop.Due (loop : Loop) (functor : Functor) : Prop :=
  ∃ called rest, loop.control = .nextFunctor called (functor :: rest)

/-- How far the swap is ahead of a thread. -/
def Phase.rank : Phase → Nat
  | .channels => 1
  | .poll => 2
  | .functors => 3

def Control.rank (functor : Functor) (control : Control) : Nat × Nat :=
  (if functor ∈ control.rest then 0 else control.phase.rank, control.left)

def lower : Nat × Nat → Nat × Nat → Prop := Prod.Lex (· < ·) (· < ·)

theorem lower_founded : WellFounded lower := (Prod.lex Nat.lt_wfRel Nat.lt_wfRel).wf

theorem Control.rest_of_channels {control : Control} (channels : control.phase = .channels) :
    control.rest = [] := by
  cases control with
  | atPoll => rfl
  | nextChannel active => rfl
  | newConnection conn calling active => rfl
  | handleEvent conn revents stage closing active => rfl
  | nextFunctor called rest => cases channels
  | connectEstablished conn called rest => cases channels
  | forceCloseInLoop conn closing called rest => cases channels
  | connectDestroyed conn called rest => cases channels

/-- A thread that goes on comes nearer to calling the functor, and does not
lose it. -/
theorem Later.nearer {old new : Control} {functor : Functor} (later : Later old new)
    (notDue : ∀ called rest, old ≠ .nextFunctor called (functor :: rest)) :
    (functor ∈ old.rest → functor ∈ new.rest) ∧
      lower (new.rank functor) (old.rank functor) := by
  cases later with
  | polled active =>
      refine ⟨id, Prod.Lex.left _ _ ?_⟩
      simp [Control.rest, Control.phase, Phase.rank]
  | handled oldPhase newPhase less =>
      have oldRest := Control.rest_of_channels oldPhase
      have newRest := Control.rest_of_channels newPhase
      refine ⟨by rw [oldRest, newRest]; exact id, ?_⟩
      unfold Control.rank
      rw [oldRest, newRest, oldPhase, newPhase]
      exact Prod.Lex.right _ less
  | finished called =>
      refine ⟨id, Prod.Lex.left _ _ ?_⟩
      simp [Control.rest, Control.phase, Phase.rank]
  | called called first rest newPhase newRest less =>
      have different : functor ≠ first := by
        intro same
        exact notDue called rest (by rw [same])
      have sameRest : functor ∈ Control.rest (.nextFunctor called (first :: rest)) ↔
          functor ∈ new.rest := by
        rw [newRest]
        simp [Control.rest, different]
      refine ⟨sameRest.mp, ?_⟩
      unfold Control.rank
      simp only [sameRest, newPhase]
      exact Prod.Lex.right _ less
  | returned oldPhase newPhase sameRest less =>
      refine ⟨by rw [sameRest]; exact id, ?_⟩
      unfold Control.rank
      rw [sameRest, oldPhase, newPhase]
      exact Prod.Lex.right _ less

section

variable {Name : Type} {s next : System Name} {loop : LoopId} {functor : Functor}

theorem Piece.nearer (piece : Piece s next loop) (queued : (s.loops loop).Queued functor)
    (notDue : ¬(s.loops loop).Due functor) :
    (next.loops loop).Queued functor ∧
      lower ((next.loops loop).control.rank functor) ((s.loops loop).control.rank functor) := by
  unfold Loop.Queued at queued ⊢
  rw [List.mem_append] at queued ⊢
  cases piece with
  | swapped before after =>
      -- the thread had no functors left over, so this one was in the queue
      have pending : functor ∈ (s.loops loop).pendingFunctors := by
        rcases queued with swapped | pending
        · rw [before] at swapped
          cases swapped
        · exact pending
      rw [before, after]
      refine ⟨.inl pending, Prod.Lex.left _ _ ?_⟩
      simp [Control.rest, Control.phase, Phase.rank, pending]
  | went reaches later =>
      obtain ⟨kept, less⟩ := later.nearer fun called rest at_ => notDue ⟨called, rest, at_⟩
      obtain ⟨more, grown⟩ := reaches.pending
      rw [reaches.control, grown]
      refine ⟨?_, less⟩
      rcases queued with swapped | pending
      · exact .inl (kept swapped)
      · exact .inr (List.mem_append_left _ pending)

theorem Extends.queued {first second : Loop} (extends_ : Extends first second)
    (queued : first.Queued functor) : second.Queued functor := by
  obtain ⟨more, grown⟩ := extends_.pending
  unfold Loop.Queued at queued ⊢
  rw [extends_.control, grown, ← List.append_assoc]
  exact List.mem_append_left _ queued

end

end Msmuduo.ServerLoops
