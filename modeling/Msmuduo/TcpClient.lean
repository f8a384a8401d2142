import Msmuduo.ConnectorAttempts

/-!
# Stopping a client

`TcpClient::stop` clears the flag of the client and the flag of the connector and
queues `stopInLoop`. `removeConnection` tests the first flag in the loop thread and
then calls `restart`, which sets the second one, so a `stop` between these two is
forgotten by the connector.

A call of `connect` or `stop` takes its stores one at a time. Each call of `stop`
carries a mark that says whether no step of a `connect` came after it began; the
marks of the calls that have queued their functor are in the order of the
functors. `settled` is how often `newConnection` had been called when a marked
`stopInLoop` had run. Marks and `settled` are a record of the run.
-/

namespace Msmuduo.Connecting

open Msmuduo.Machine

set_option autoImplicit false

structure TcpClient where
  retry_ : Bool
  connect_ : Bool
  connector : Connector
  /-- `connection_` points to a connection. -/
  connection : Bool
  /-- The loop thread is in `removeConnection`, in front of `restart`. -/
  restarting : Bool
  /-- Calls of `connect` that have not come to `Connector::start`. -/
  connecting : Nat
  /-- Calls of `stop` that have not come to `Connector::stop`. -/
  stopping : List Bool
  /-- Calls of `stop` that have not queued their functor. -/
  queueing : List Bool
  /-- The `stopInLoop` functors in the queue. -/
  queued : List Bool
  settled : Option Nat
  deriving DecidableEq, Repr

namespace TcpClient

def new (retry_ : Bool) : TcpClient where
  retry_ := retry_
  connect_ := true
  connector := Connector.new
  connection := false
  restarting := false
  connecting := 0
  stopping := []
  queueing := []
  queued := []
  settled := none

inductive Event where
  /-- The store of `TcpClient::connect`. -/
  | connect
  /-- `Connector::start`, in the loop thread and on another one. -/
  | start
  | startElsewhere
  | disconnect
  /-- The store of `TcpClient::stop`. -/
  | stop
  /-- The store of `Connector::stop`, in the `i`-th call that has it next. -/
  | stopConnector (i : Nat)
  | queueStop (i : Nat)
  /-- The connection closes: `removeConnection` with its test. -/
  | removeConnection
  | restart
  | runFunctor (savedErrno : Errno)
  | inConnector (event : Connecting.Event)
  deriving DecidableEq, Repr

/-- A call of `connect` takes the mark from every `stop` that began before. -/
def forget (c : TcpClient) : TcpClient :=
  { c with
    stopping := c.stopping.map fun _ => false
    queueing := c.queueing.map fun _ => false
    queued := c.queued.map fun _ => false
    settled := none }

/-- Each call of `newConnectionCallback_` sets `connection_`. -/
def lift (c : TcpClient) (event : Connecting.Event) : Except Fault TcpClient := do
  let connector ← Connecting.step c.connector event
  return { c with
    connector := connector
    connection := c.connection || c.connector.handedOver.length < connector.handedOver.length }

/-- The head of the functors is `stopInLoop`, and the loop thread runs functors. -/
def runsStop (c : TcpClient) : Bool :=
  !c.connector.entering && c.connector.functors.head? == some .stopInLoop

/-- The record when a `stopInLoop` has run. -/
def settle (c : TcpClient) : TcpClient :=
  { c with
    queued := c.queued.tail
    settled :=
      if c.queued.head? = some true then some (c.settled.getD c.connector.handedOver.length)
      else c.settled }

/-- The calls of the connector have events of their own above. A step that its
thread cannot take changes nothing. -/
def step (c : TcpClient) : Event → Except Fault TcpClient
  | .connect => .ok { c.forget with connect_ := true, connecting := c.connecting + 1 }
  | .start =>
      if 0 < c.connecting ∧ c.restarting = false ∧ c.connector.entering = false then
        { c.forget with connecting := c.connecting - 1 }.lift .start
      else .ok c
  | .startElsewhere =>
      if 0 < c.connecting then
        { c.forget with connecting := c.connecting - 1 }.lift .startElsewhere
      else .ok c
  | .disconnect => .ok { c with connect_ := false }
  | .stop => .ok { c with connect_ := false, stopping := c.stopping ++ [true] }
  | .stopConnector i =>
      match c.stopping[i]? with
      | some mark =>
          { c with
            stopping := c.stopping.eraseIdx i
            queueing := c.queueing ++ [mark] }.lift .stop
      | none => .ok c
  | .queueStop i =>
      match c.queueing[i]? with
      | some mark =>
          { c with
            queueing := c.queueing.eraseIdx i
            queued := c.queued ++ [mark] }.lift .queueStop
      | none => .ok c
  | .removeConnection =>
      if c.connection = true ∧ c.restarting = false ∧ c.connector.entering = false then
        .ok { c with connection := false, restarting := c.retry_ && c.connect_ }
      else .ok c
  | .restart =>
      if c.restarting then { c with restarting := false }.lift .restart else .ok c
  | .runFunctor savedErrno =>
      if c.restarting then .ok c
      else if c.runsStop then do
        let c ← c.lift (.runFunctor savedErrno)
        return c.settle
      else c.lift (.runFunctor savedErrno)
  | .inConnector event =>
      match event with
      | .queueStart => c.lift event
      | .enter _ | .retryTimer _ | .handleEvent _ _ _ | .swapFunctors =>
          if c.restarting then .ok c else c.lift event
      | _ => .ok c

/-- A call of `stop` does not come between the test of `removeConnection` and the
`restart` behind it with its store in the connector. -/
def Ordered (c : TcpClient) : Event → Prop
  | .stopConnector _ => c.restarting = false
  | _ => True

/-- Since a marked `stopInLoop` ran, `newConnection` was not called. -/
def StopKept (c : TcpClient) : Prop :=
  ∀ count, c.settled = some count → c.connector.handedOver.length = count

end TcpClient

/-! ## The connector when its flag is cleared -/

section

variable {c next : Connector}

/-- The flag is cleared and no socket is handed over. -/
structure Silent (c next : Connector) : Prop where
  cleared : next.connect_ = false
  handedOver : next.handedOver = c.handedOver

theorem retry_silent (cleared : c.connect_ = false) (sockfd : Nat) :
    Silent c (c.retry sockfd) := by
  rw [retry_eq]
  exact ⟨cleared, rfl⟩

theorem removeAndResetChannel_frame {sockfd : Nat}
    (ran : c.removeAndResetChannel = .ok (sockfd, next)) :
    next.connect_ = c.connect_ ∧ next.handedOver = c.handedOver := by
  unfold Connector.removeAndResetChannel at ran
  split at ran
  · cases ran
  · rcases bind_ok_inv ran with ⟨passed, -, done⟩
    cases done
    exact ⟨rfl, rfl⟩

theorem startInLoop_silent (cleared : c.connect_ = false) {savedErrno : Errno}
    (ran : c.startInLoop savedErrno = .ok next) : Silent c next := by
  rcases bind_ok_inv ran with ⟨passed, -, done⟩
  rw [cleared] at done
  cases done
  exact ⟨cleared, rfl⟩

/-- Giving up an attempt. -/
theorem give_up_silent (cleared : c.connect_ = false) {removed : Connector} {sockfd : Nat}
    (took : c.removeAndResetChannel = .ok (sockfd, removed)) :
    Silent c (removed.retry sockfd) := by
  rcases removeAndResetChannel_frame took with ⟨sameFlag, sameHanded⟩
  have silent := retry_silent (sameFlag.trans cleared) sockfd
  exact ⟨silent.cleared, silent.handedOver.trans sameHanded⟩

theorem stopInLoop_silent (cleared : c.connect_ = false) (ran : c.stopInLoop = .ok next) :
    Silent c next := by
  unfold Connector.stopInLoop at ran
  split at ran
  · rcases bind_ok_inv ran with ⟨⟨sockfd, removed⟩, took, done⟩
    cases done
    have silent := give_up_silent (c := { c with state := .kDisconnected }) cleared took
    exact ⟨silent.cleared, silent.handedOver⟩
  · cases ran
    exact ⟨cleared, rfl⟩

theorem handleError_silent (cleared : c.connect_ = false) (ran : c.handleError = .ok next) :
    Silent c next := by
  unfold Connector.handleError at ran
  split at ran
  · rcases bind_ok_inv ran with ⟨⟨sockfd, removed⟩, took, done⟩
    cases done
    exact give_up_silent cleared took
  · cases ran
    exact ⟨cleared, rfl⟩

theorem handleWrite_silent (cleared : c.connect_ = false) {err : Int} {isSelfConnect : Bool}
    (ran : c.handleWrite err isSelfConnect = .ok next) : Silent c next := by
  unfold Connector.handleWrite at ran
  split at ran
  · rcases bind_ok_inv ran with ⟨⟨sockfd, removed⟩, took, done⟩
    dsimp only at done
    split at done
    · cases done
      exact give_up_silent cleared took
    split at done
    · cases done
      exact give_up_silent cleared took
    · rcases removeAndResetChannel_frame took with ⟨sameFlag, sameHanded⟩
      have removedCleared := sameFlag.trans cleared
      split at done
      · next wanted => cases removedCleared.symm.trans wanted
      · cases done
        exact ⟨removedCleared, sameHanded⟩
  · rcases bind_ok_inv ran with ⟨passed, -, done⟩
    cases done
    exact ⟨cleared, rfl⟩

theorem handleEvent_silent (cleared : c.connect_ = false) {revents : EventMask} {err : Int}
    {isSelfConnect : Bool} (ran : c.handleEvent revents err isSelfConnect = .ok next) :
    Silent c next := by
  rcases bind_ok_inv ran with ⟨given, first, second⟩
  have before : Silent c given := by
    split at first
    · exact handleError_silent cleared first
    · cases first
      exact ⟨cleared, rfl⟩
  split at second
  · have after := handleWrite_silent before.cleared second
    exact ⟨after.cleared, after.handedOver.trans before.handedOver⟩
  · cases second
    exact before

/-- The calls that set the flag. -/
def setsFlag : Event → Bool
  | .start | .startElsewhere | .restart => true
  | _ => false

/-- With the flag cleared only a call that sets it leads to another connection. -/
theorem step_silent {event : Event} (cleared : c.connect_ = false)
    (taken : Connecting.step c event = .ok next) (calm : setsFlag event = false) :
    Silent c next := by
  cases event with
  | start | startElsewhere | restart => cases calm
  | stop =>
      cases taken
      exact ⟨rfl, rfl⟩
  | queueStart | queueStop | swapFunctors =>
      simp only [Connecting.step] at taken
      split at taken <;> cases taken <;> exact ⟨cleared, rfl⟩
  | enter savedErrno =>
      simp only [Connecting.step] at taken
      split at taken
      · have silent := startInLoop_silent (c := { c with entering := false }) cleared taken
        exact ⟨silent.cleared, silent.handedOver⟩
      · cases taken
        exact ⟨cleared, rfl⟩
  | retryTimer savedErrno =>
      simp only [Connecting.step] at taken
      split at taken
      · have silent := startInLoop_silent (c := { c with timers := c.timers - 1 }) cleared taken
        exact ⟨silent.cleared, silent.handedOver⟩
      · cases taken
        exact ⟨cleared, rfl⟩
  | handleEvent revents err isSelfConnect =>
      simp only [Connecting.step] at taken
      split at taken
      · exact handleEvent_silent cleared taken
      · cases taken
        exact ⟨cleared, rfl⟩
  | runFunctor savedErrno =>
      simp only [Connecting.step] at taken
      split at taken
      · next functor rest _ _ =>
        have silent : Silent { c with functors := rest } next := by
          cases functor with
          | startInLoop => exact startInLoop_silent cleared taken
          | stopInLoop => exact stopInLoop_silent cleared taken
          | resetChannel =>
              rcases bind_ok_inv taken with ⟨passed, -, done⟩
              cases done
              exact ⟨cleared, rfl⟩
        exact ⟨silent.cleared, silent.handedOver⟩
      · cases taken
        exact ⟨cleared, rfl⟩

end

/-! ## The client -/

namespace TcpClient

/-- A `stop` without a later `connect` has made both stores. -/
def Stopped (c : TcpClient) : Prop :=
  true ∈ c.queueing ∨ true ∈ c.queued ∨ c.settled.isSome = true

structure Kept (c : TcpClient) : Prop where
  client : true ∈ c.stopping ∨ c.Stopped → c.connect_ = false
  connector : c.Stopped → c.connector.connect_ = false ∧ c.restarting = false
  kept : c.StopKept

theorem new_kept (retry_ : Bool) : Kept (new retry_) where
  client := by simp [new, Stopped]
  connector := by simp [new, Stopped]
  kept := by nofun

section

variable {c next : TcpClient}

theorem lift_inv {event : Connecting.Event} (lifted : c.lift event = .ok next) :
    ∃ connector connection, Connecting.step c.connector event = .ok connector ∧
      next = { c with connector := connector, connection := connection } := by
  rcases bind_ok_inv lifted with ⟨connector, taken, done⟩
  cases done
  exact ⟨connector, _, taken, rfl⟩

/-- Behind a step of `connect` nothing is asked of the client. -/
theorem kept_of_forgotten (stopping : true ∉ c.stopping) (stopped : ¬c.Stopped) : Kept c where
  client := by
    rintro (waiting | later)
    · exact absurd waiting stopping
    · exact absurd later stopped
  connector := fun later => absurd later stopped
  kept := by
    intro count settled
    have later : c.Stopped := Or.inr (Or.inr (Option.isSome_of_eq_some settled))
    exact absurd later stopped

theorem forget_marks (c : TcpClient) : true ∉ c.forget.stopping ∧ ¬c.forget.Stopped := by
  simp [forget, Stopped]

/-- A step of the connector that does not set its flag. -/
theorem Kept.lift (before : Kept c) {event : Connecting.Event}
    (lifted : c.lift event = .ok next) (calm : setsFlag event = false) : Kept next := by
  rcases lift_inv lifted with ⟨connector, connection, taken, rfl⟩
  have silent : c.Stopped → Silent c.connector connector := by
    intro stopped
    exact step_silent (before.connector stopped).1 taken calm
  refine ⟨before.client, ?_, ?_⟩
  · intro stopped
    exact ⟨(silent stopped).cleared, (before.connector stopped).2⟩
  · intro count settled
    have stopped : c.Stopped := Or.inr (Or.inr (Option.isSome_of_eq_some settled))
    rw [(silent stopped).handedOver]
    exact before.kept count settled

theorem Kept.settle (before : Kept c) : Kept c.settle := by
  have stopped : c.settle.Stopped → c.Stopped := by
    rintro (queueing | queued | settled)
    · exact Or.inl queueing
    · exact Or.inr (Or.inl (List.mem_of_mem_tail queued))
    · simp only [TcpClient.settle] at settled
      split at settled
      · next head => exact Or.inr (Or.inl (List.mem_of_mem_head? head))
      · exact Or.inr (Or.inr settled)
  refine ⟨?_, fun later => before.connector (stopped later), ?_⟩
  · rintro (waiting | later)
    · exact before.client (Or.inl waiting)
    · exact before.client (Or.inr (stopped later))
  · intro count settled
    simp only [TcpClient.settle] at settled
    split at settled
    · cases already : c.settled with
      | none =>
          rw [already] at settled
          exact Option.some.inj settled
      | some earlier =>
          rw [already] at settled
          cases settled
          exact before.kept earlier already
    · exact before.kept count settled

theorem Kept.stopConnector (before : Kept c) {i : Nat} {mark : Bool}
    (calls : c.stopping[i]? = some mark) (ordered : c.restarting = false)
    (lifted : { c with
      stopping := c.stopping.eraseIdx i
      queueing := c.queueing ++ [mark] }.lift .stop = .ok next) : Kept next := by
  rcases lift_inv lifted with ⟨connector, connection, taken, rfl⟩
  cases taken
  -- The flag of the client was cleared by the store in front of this one.
  have client : true ∈ c.stopping ∨ true ∈ c.queueing ++ [mark] ∨ true ∈ c.queued ∨
      c.settled.isSome = true → c.connect_ = false := by
    rintro (waiting | queueing | later)
    · exact before.client (Or.inl waiting)
    · rcases List.mem_append.mp queueing with queueing | new
      · exact before.client (Or.inr (Or.inl queueing))
      · rw [← List.mem_singleton.mp new] at calls
        exact before.client (Or.inl (List.mem_of_getElem? calls))
    · exact before.client (Or.inr (Or.inr later))
  refine ⟨?_, fun _ => ⟨rfl, ordered⟩, before.kept⟩
  rintro (waiting | later)
  · exact client (Or.inl (List.mem_of_mem_eraseIdx waiting))
  · exact client (Or.inr later)

theorem Kept.queueStop (before : Kept c) {i : Nat} {mark : Bool}
    (calls : c.queueing[i]? = some mark)
    (lifted : { c with
      queueing := c.queueing.eraseIdx i
      queued := c.queued ++ [mark] }.lift .queueStop = .ok next) : Kept next := by
  have same : Kept { c with
      queueing := c.queueing.eraseIdx i
      queued := c.queued ++ [mark] } := by
    have stopped : { c with
        queueing := c.queueing.eraseIdx i
        queued := c.queued ++ [mark] }.Stopped → c.Stopped := by
      rintro (queueing | queued | settled)
      · exact Or.inl (List.mem_of_mem_eraseIdx queueing)
      · rcases List.mem_append.mp queued with queued | new
        · exact Or.inr (Or.inl queued)
        · rw [← List.mem_singleton.mp new] at calls
          exact Or.inl (List.mem_of_getElem? calls)
      · exact Or.inr (Or.inr settled)
    exact ⟨fun later => before.client (later.imp_right stopped),
      fun later => before.connector (stopped later), before.kept⟩
  exact same.lift lifted rfl

theorem step_kept {event : Event} (before : Kept c) (ordered : Ordered c event)
    (taken : step c event = .ok next) : Kept next := by
  cases event with
  | connect =>
      cases taken
      rcases forget_marks c with ⟨stopping, stopped⟩
      exact kept_of_forgotten stopping stopped
  | start =>
      simp only [step] at taken
      split at taken
      · rcases lift_inv taken with ⟨connector, connection, -, rfl⟩
        rcases forget_marks c with ⟨stopping, stopped⟩
        exact kept_of_forgotten stopping stopped
      · cases taken
        exact before
  | startElsewhere =>
      simp only [step] at taken
      split at taken
      · rcases lift_inv taken with ⟨connector, connection, -, rfl⟩
        rcases forget_marks c with ⟨stopping, stopped⟩
        exact kept_of_forgotten stopping stopped
      · cases taken
        exact before
  | disconnect =>
      cases taken
      exact ⟨fun _ => rfl, before.connector, before.kept⟩
  | stop =>
      cases taken
      exact ⟨fun _ => rfl, before.connector, before.kept⟩
  | stopConnector i =>
      simp only [step] at taken
      split at taken
      · next mark calls => exact before.stopConnector calls ordered taken
      · cases taken
        exact before
  | queueStop i =>
      simp only [step] at taken
      split at taken
      · next mark calls => exact before.queueStop calls taken
      · cases taken
        exact before
  | removeConnection =>
      simp only [step] at taken
      split at taken
      · next possible =>
        cases taken
        refine ⟨before.client, ?_, before.kept⟩
        intro stopped
        have cleared := before.client (Or.inr stopped)
        exact ⟨(before.connector stopped).1, by simp [cleared]⟩
      · cases taken
        exact before
  | restart =>
      simp only [step] at taken
      split at taken
      · next restarting =>
        have running : ¬c.Stopped := by
          intro stopped
          cases restarting.symm.trans (before.connector stopped).2
        rcases lift_inv taken with ⟨connector, connection, -, rfl⟩
        refine ⟨before.client, fun stopped => absurd stopped running, ?_⟩
        intro count settled
        have stopped : c.Stopped := Or.inr (Or.inr (Option.isSome_of_eq_some settled))
        exact absurd stopped running
      · cases taken
        exact before
  | runFunctor savedErrno =>
      simp only [step] at taken
      split at taken
      · cases taken
        exact before
      split at taken
      · rcases bind_ok_inv taken with ⟨lifted, ran, done⟩
        cases done
        exact (before.lift ran rfl).settle
      · exact before.lift taken rfl
  | inConnector event =>
      cases event with
      | queueStart => exact before.lift taken rfl
      | enter _ | retryTimer _ | handleEvent _ _ _ | swapFunctors =>
          simp only [step] at taken
          split at taken
          · cases taken
            exact before
          · exact before.lift taken rfl
      | _ =>
          cases taken
          exact before

end

/-- In every run in which no `stop` stores into the connector between the test of
`removeConnection` and its `restart`: once the `stopInLoop` of a `stop` has run,
`newConnection` is not called any more before the next `connect`. -/
theorem stop_kept (retry_ : Bool) (events : List Event)
    (ordered : AllSteps step Ordered (new retry_) events) :
    Throughout step StopKept (new retry_) events :=
  throughout_keeps Kept Ordered (fun _ _ _ before admitted => step_kept before admitted)
    (fun _ before => before.kept) (new_kept retry_) ordered

/-- A connection that is made, and the functor that frees its channel. -/
def established : List Event :=
  [.connect, .start, .inConnector (.enter .EINPROGRESS),
    .inConnector (.handleEvent pollOut 0 false), .inConnector .swapFunctors, .runFunctor .zero]

/-- A `stop` in front of the close of the connection. -/
theorem stop_before_close_kept :
    Throughout step StopKept (new true)
      [.connect, .start, .inConnector (.enter .EINPROGRESS),
        .inConnector (.handleEvent pollOut 0 false), .stop, .stopConnector 0, .queueStop 0,
        .removeConnection, .restart, .inConnector .swapFunctors, .runFunctor .zero,
        .runFunctor .zero] :=
  stop_kept true _ ⟨trivial, trivial, trivial, trivial, trivial, rfl, trivial, trivial, trivial,
    trivial, trivial, trivial, trivial⟩

/-- A whole `stop` falls between the test of `removeConnection` and `restart`. Its
`stopInLoop` gives up the new attempt, but with the flag set again this becomes a
retry, and the client connects once more. -/
theorem stop_before_restart_lost :
    ∃ c, run step (new true) (established ++
        [.removeConnection, .stop, .stopConnector 0, .queueStop 0, .restart,
          .inConnector (.enter .EINPROGRESS), .inConnector .swapFunctors, .runFunctor .zero,
          .inConnector .swapFunctors, .runFunctor .zero,
          .inConnector (.retryTimer .EINPROGRESS),
          .inConnector (.handleEvent pollOut 0 false)]) = .ok c ∧
      c.settled = some 1 ∧ c.connector.handedOver = [0, 2] :=
  ⟨_, rfl, rfl, rfl⟩

end TcpClient

end Msmuduo.Connecting
