import Msmuduo.ConnectorAttempts

/-!
# Who closes a socket

A socket leaves `connect` through one of seven ways, and an error and a writable
event may try two of them for one poll. Whatever the callers do, as long as no
assertion fails the connector has in hand the socket of `channel_` while it is
connecting and none else, and closes or hands over each of the others once.

`restart` belongs to `TcpClient`, which calls it when a connection that was handed
over has closed. `Handover` adds to the connector the connections that are open
and those that closed and may still be followed by a `restart`.
-/

namespace Msmuduo.Connecting

open Msmuduo.Machine

set_option autoImplicit false

structure Handover where
  connector : Connector
  openConnections : Nat
  closings : Nat
  deriving DecidableEq, Repr

namespace Handover

def new : Handover where
  connector := Connector.new
  openConnections := 0
  closings := 0

inductive Event where
  /-- A connection that was handed over closes. -/
  | connectionClosed
  | inConnector (event : Connecting.Event)
  deriving DecidableEq, Repr

/-- Each call of `newConnectionCallback_` opens a connection. -/
def inConnector (h : Handover) (event : Connecting.Event) : Except Fault Handover := do
  let connector ← Connecting.step h.connector event
  return { h with
    connector := connector
    openConnections := h.openConnections +
      (connector.handedOver.length - h.connector.handedOver.length) }

def step (h : Handover) : Event → Except Fault Handover
  | .connectionClosed =>
      if 0 < h.openConnections then
        .ok { h with openConnections := h.openConnections - 1, closings := h.closings + 1 }
      else .ok h
  | .inConnector .restart =>
      if 0 < h.closings ∧ h.connector.entering = false then
        { h with closings := h.closings - 1 }.inConnector .restart
      else .ok h
  | .inConnector event => h.inConnector event

end Handover

open Connector

namespace Connector

/-- The socket in hand. -/
def held (c : Connector) : List Nat :=
  if c.state = .kConnecting then (c.channel.map ConnectingChannel.sockfd).toList else []

/-- Each socket created was closed once, handed over once, or is in hand. -/
structure Custody (c : Connector) : Prop where
  once : (c.closed ++ c.handedOver ++ c.held).Perm (List.range c.created)
  connecting : c.state = .kConnecting → ∃ sockfd, c.channel = some ⟨sockfd, true⟩

end Connector

/-- What a step of the connector may do beside keeping custody: a connection that
was made stays, and a socket is handed over when one is. -/
structure Proceeds (c next : Connector) : Prop where
  custody : next.Custody
  handed : (next.handedOver = c.handedOver ∧ (c.state = .kConnected → next.state = .kConnected)) ∨
    (∃ sockfd, next.handedOver = c.handedOver ++ [sockfd] ∧ c.state = .kConnecting ∧
      next.state = .kConnected)

section

variable {c next : Connector} {sockfd : Nat}

theorem held_of_not_connecting (idle : c.state ≠ .kConnecting) : c.held = [] := if_neg idle

theorem held_of_connecting (state : c.state = .kConnecting)
    (channel : c.channel = some ⟨sockfd, true⟩) : c.held = [sockfd] := by
  rw [held, if_pos state, channel]
  rfl

theorem perm_close (closed handedOver : List Nat) (sockfd : Nat) :
    (closed ++ [sockfd] ++ handedOver).Perm (closed ++ handedOver ++ [sockfd]) := by
  rw [List.append_assoc, List.append_assoc]
  exact List.Perm.append_left closed List.perm_append_comm

/-- The socket in hand is given away. -/
theorem Connector.Custody.release (custody : c.Custody) (state : c.state = .kConnecting)
    (channel : c.channel = some ⟨sockfd, true⟩) (ended : next.state ≠ .kConnecting)
    (created : next.created = c.created)
    (given : (next.closed ++ next.handedOver).Perm (c.closed ++ c.handedOver ++ [sockfd])) :
    next.Custody where
  once := by
    rw [held_of_not_connecting ended, List.append_nil, created]
    have once := custody.once
    rw [held_of_connecting state channel] at once
    exact given.trans once
  connecting := fun again => absurd again ended

/-- Neither the sockets nor the attempt change. -/
theorem Connector.Custody.congr (custody : c.Custody) (state : next.state = c.state)
    (channel : next.channel = c.channel) (created : next.created = c.created)
    (closed : next.closed = c.closed) (handedOver : next.handedOver = c.handedOver) :
    next.Custody where
  once := by
    have held : next.held = c.held := by
      rw [Connector.held, Connector.held, state, channel]
    rw [closed, handedOver, held, created]
    exact custody.once
  connecting := by
    rw [state, channel]
    exact custody.connecting

theorem Proceeds.congr (custody : c.Custody) (state : next.state = c.state)
    (channel : next.channel = c.channel) (created : next.created = c.created)
    (closed : next.closed = c.closed) (handedOver : next.handedOver = c.handedOver) :
    Proceeds c next :=
  ⟨custody.congr state channel created closed handedOver, Or.inl ⟨handedOver, state.trans⟩⟩

/-! ### The functions of the connector -/

theorem removeAndResetChannel_inv {removed : Connector}
    (ran : c.removeAndResetChannel = .ok (sockfd, removed)) :
    c.channel = some ⟨sockfd, true⟩ ∧
      removed = { c with channel := some ⟨sockfd, false⟩ }.queueInLoop .resetChannel := by
  unfold Connector.removeAndResetChannel at ran
  cases channel : c.channel with
  | none =>
      rw [channel] at ran
      cases ran
  | some held =>
      rcases held with ⟨fd, registered⟩
      rw [channel] at ran
      cases registered with
      | false => cases ran
      | true =>
          cases ran
          exact ⟨rfl, rfl⟩

/-- `retry` behind `removeAndResetChannel`. -/
theorem Connector.Custody.retry (custody : c.Custody) (state : c.state = .kConnecting)
    (channel : c.channel = some ⟨sockfd, true⟩) (before : States) :
    (({ c with state := before, channel := some ⟨sockfd, false⟩ }.queueInLoop
      .resetChannel).retry sockfd).Custody := by
  rw [retry_eq]
  apply custody.release state channel
  · nofun
  · rfl
  · exact perm_close ..

/-- Giving up an attempt hands nothing over. -/
theorem Proceeds.retry (custody : c.Custody) (state : c.state = .kConnecting)
    (channel : c.channel = some ⟨sockfd, true⟩) (before : States) :
    Proceeds c (({ c with state := before, channel := some ⟨sockfd, false⟩ }.queueInLoop
      .resetChannel).retry sockfd) := by
  refine ⟨custody.retry state channel before, Or.inl ⟨?_, ?_⟩⟩
  · rw [retry_eq]
    rfl
  · intro connected
    rw [state] at connected
    cases connected

theorem stopInLoop_proceeds (custody : c.Custody) (ran : c.stopInLoop = .ok next) :
    Proceeds c next := by
  unfold Connector.stopInLoop at ran
  split at ran
  · next state =>
    rcases bind_ok_inv ran with ⟨⟨sockfd, removed⟩, took, done⟩
    rcases removeAndResetChannel_inv took with ⟨channel, rfl⟩
    cases done
    exact Proceeds.retry custody state channel .kDisconnected
  · cases ran
    exact Proceeds.congr custody rfl rfl rfl rfl rfl

theorem handleError_proceeds (custody : c.Custody) (ran : c.handleError = .ok next) :
    Proceeds c next ∧ next.state ≠ .kConnecting ∧ next.handedOver = c.handedOver := by
  unfold Connector.handleError at ran
  split at ran
  · next state =>
    rcases bind_ok_inv ran with ⟨⟨sockfd, removed⟩, took, done⟩
    rcases removeAndResetChannel_inv took with ⟨channel, rfl⟩
    cases done
    refine ⟨Proceeds.retry custody state channel c.state, ?_, ?_⟩ <;> rw [retry_eq]
    · nofun
    · rfl
  · next idle =>
    cases ran
    exact ⟨Proceeds.congr custody rfl rfl rfl rfl rfl, idle, rfl⟩

/-- Without an attempt a writable event changes nothing. -/
theorem handleWrite_idle (idle : c.state ≠ .kConnecting) {err : Int} {isSelfConnect : Bool}
    (ran : c.handleWrite err isSelfConnect = .ok next) : next = c := by
  unfold Connector.handleWrite at ran
  rw [if_neg idle] at ran
  rcases bind_ok_inv ran with ⟨-, -, done⟩
  cases done
  rfl

theorem handleWrite_proceeds (custody : c.Custody) {err : Int} {isSelfConnect : Bool}
    (ran : c.handleWrite err isSelfConnect = .ok next) : Proceeds c next := by
  by_cases state : c.state = .kConnecting
  · unfold Connector.handleWrite at ran
    rw [if_pos state] at ran
    rcases bind_ok_inv ran with ⟨⟨sockfd, removed⟩, took, done⟩
    rcases removeAndResetChannel_inv took with ⟨channel, rfl⟩
    dsimp only at done
    split at done
    · cases done
      exact Proceeds.retry custody state channel c.state
    split at done
    · cases done
      exact Proceeds.retry custody state channel c.state
    split at done <;> cases done
    · refine ⟨?_, Or.inr ⟨sockfd, rfl, state, rfl⟩⟩
      apply custody.release state channel
      · nofun
      · rfl
      · exact List.Perm.of_eq (List.append_assoc ..).symm
    · refine ⟨?_, Or.inl ⟨rfl, fun _ => rfl⟩⟩
      apply custody.release state channel
      · nofun
      · rfl
      · exact perm_close ..
  · rw [handleWrite_idle state ran]
    exact Proceeds.congr custody rfl rfl rfl rfl rfl

/-- Whichever of the two callbacks comes first leaves nothing for the other. -/
theorem handleEvent_proceeds (custody : c.Custody) {revents : EventMask} {err : Int}
    {isSelfConnect : Bool} (ran : c.handleEvent revents err isSelfConnect = .ok next) :
    Proceeds c next := by
  rcases bind_ok_inv ran with ⟨given, first, second⟩
  split at first
  · rcases handleError_proceeds custody first with ⟨proceeds, idle, -⟩
    split at second
    · rw [handleWrite_idle idle second]
      exact proceeds
    · cases second
      exact proceeds
  · cases first
    split at second
    · exact handleWrite_proceeds custody second
    · cases second
      exact Proceeds.congr custody rfl rfl rfl rfl rfl

theorem connect_proceeds (custody : c.Custody) (state : c.state = .kDisconnected)
    {savedErrno : Errno} (ran : c.connect savedErrno = .ok next) : Proceeds c next := by
  have idle : c.state ≠ .kConnecting := by simp [state]
  have unconnected : c.state ≠ .kConnected := by simp [state]
  have once := custody.once
  rw [held_of_not_connecting idle, List.append_nil] at once
  have more : (c.closed ++ c.handedOver ++ [c.created]).Perm (List.range (c.created + 1)) := by
    rw [List.range_succ]
    exact once.append_right _
  have discard : ∀ after : Connector, after.state = .kDisconnected →
      after.created = c.created + 1 → after.closed = c.closed ++ [c.created] →
      after.handedOver = c.handedOver → Proceeds c after := by
    intro after afterState created closed handedOver
    have afterIdle : after.state ≠ .kConnecting := by simp [afterState]
    refine ⟨⟨?_, fun again => absurd again afterIdle⟩, Or.inl ⟨handedOver, ?_⟩⟩
    · rw [held_of_not_connecting afterIdle, List.append_nil, closed, handedOver, created]
      exact (perm_close ..).trans more
    · exact fun connected => absurd connected unconnected
  cases connects : savedErrno.connects with
  | true =>
      cases channel : c.channel with
      | none =>
          rw [connect_of_connects connects channel] at ran
          cases ran
          exact ⟨⟨more, fun _ => ⟨c.created, rfl⟩⟩,
            Or.inl ⟨rfl, fun connected => absurd connected unconnected⟩⟩
      | some other =>
          have failed : c.connect savedErrno = .error .connectingChannel := by
            cases savedErrno <;> first
              | (simp [Connector.connect, Connector.connecting, channel, require, bind,
                  Except.bind]; done)
              | cases connects
          rw [failed] at ran
          cases ran
  | false =>
      rcases connect_of_not_connects connects with tried | tried
      · rw [tried, retry_eq] at ran
        cases ran
        exact discard _ rfl rfl rfl rfl
      · rw [tried] at ran
        cases ran
        exact discard _ state rfl rfl rfl

theorem startInLoop_proceeds (custody : c.Custody) {savedErrno : Errno}
    (ran : c.startInLoop savedErrno = .ok next) : Proceeds c next := by
  rcases bind_ok_inv ran with ⟨passed, required, started⟩
  have disconnected : c.state = .kDisconnected := require_inv required
  split at started
  · exact connect_proceeds custody disconnected started
  · cases started
    exact Proceeds.congr custody rfl rfl rfl rfl rfl

theorem resetChannel_proceeds (custody : c.Custody) (ran : c.resetChannel = .ok next) :
    Proceeds c next := by
  rcases bind_ok_inv ran with ⟨passed, required, done⟩
  cases done
  have idle : c.state ≠ .kConnecting := by
    intro state
    rcases custody.connecting state with ⟨sockfd, channel⟩
    have unknown := require_inv required ⟨sockfd, true⟩ channel
    cases unknown
  refine ⟨⟨?_, fun state => absurd state idle⟩, Or.inl ⟨rfl, id⟩⟩
  have once := custody.once
  rw [held_of_not_connecting idle] at once
  rw [held_of_not_connecting (c := { c with channel := none }) idle]
  exact once

theorem perform_proceeds (custody : c.Custody) {functor : Functor} {savedErrno : Errno}
    (ran : c.perform savedErrno functor = .ok next) : Proceeds c next := by
  cases functor with
  | startInLoop => exact startInLoop_proceeds custody ran
  | stopInLoop => exact stopInLoop_proceeds custody ran
  | resetChannel => exact resetChannel_proceeds custody ran

/-- A step behind a change of what is scheduled. -/
theorem Proceeds.behind {middle : Connector} (proceeds : Proceeds middle next)
    (state : middle.state = c.state) (handedOver : middle.handedOver = c.handedOver) :
    Proceeds c next where
  custody := proceeds.custody
  handed := by
    rw [← state, ← handedOver]
    exact proceeds.handed

/-! ### One event -/

theorem step_proceeds (custody : c.Custody) {event : Event} (other : event ≠ .restart)
    (taken : Connecting.step c event = .ok next) : Proceeds c next := by
  cases event with
  | restart => exact absurd rfl other
  | startElsewhere | stop =>
      cases taken
      exact Proceeds.congr custody rfl rfl rfl rfl rfl
  | start | queueStart | queueStop | swapFunctors =>
      simp only [Connecting.step] at taken
      split at taken <;> cases taken <;> exact Proceeds.congr custody rfl rfl rfl rfl rfl
  | enter savedErrno =>
      simp only [Connecting.step] at taken
      split at taken
      · have middle : { c with entering := false }.Custody := custody.congr rfl rfl rfl rfl rfl
        exact (startInLoop_proceeds middle taken).behind rfl rfl
      · cases taken
        exact Proceeds.congr custody rfl rfl rfl rfl rfl
  | retryTimer savedErrno =>
      simp only [Connecting.step] at taken
      split at taken
      · have middle : { c with timers := c.timers - 1 }.Custody :=
          custody.congr rfl rfl rfl rfl rfl
        exact (startInLoop_proceeds middle taken).behind rfl rfl
      · cases taken
        exact Proceeds.congr custody rfl rfl rfl rfl rfl
  | handleEvent revents err isSelfConnect =>
      simp only [Connecting.step] at taken
      split at taken
      · exact handleEvent_proceeds custody taken
      · cases taken
        exact Proceeds.congr custody rfl rfl rfl rfl rfl
  | runFunctor savedErrno =>
      simp only [Connecting.step] at taken
      split at taken
      · next functor rest _ _ =>
        have middle : { c with functors := rest }.Custody := custody.congr rfl rfl rfl rfl rfl
        exact (perform_proceeds middle taken).behind rfl rfl
      · cases taken
        exact Proceeds.congr custody rfl rfl rfl rfl rfl

/-- `restart` on a connector that is not connecting. -/
theorem restart_custody (custody : c.Custody) (idle : c.state ≠ .kConnecting)
    (taken : Connecting.step c .restart = .ok next) :
    next.Custody ∧ next.handedOver = c.handedOver := by
  simp only [Connecting.step] at taken
  split at taken <;> cases taken
  · exact ⟨custody, rfl⟩
  · refine ⟨⟨?_, fun connecting => by cases connecting⟩, rfl⟩
    have once := custody.once
    rw [held_of_not_connecting idle] at once
    exact once

end

/-! ### Runs -/

namespace Handover

/-- There is at most one connection, and while it is open or may still be
followed by a `restart` the connector stays connected. -/
structure Kept (h : Handover) : Prop where
  custody : h.connector.Custody
  single : h.openConnections + h.closings ≤ 1
  connected : 0 < h.openConnections + h.closings → h.connector.state = .kConnected

theorem new_kept : Kept new where
  custody := ⟨by decide, nofun⟩
  single := Nat.zero_le 1
  connected := nofun

theorem inConnector_kept {h next : Handover} {event : Connecting.Event} (kept : Kept h)
    (other : event ≠ .restart) (taken : h.inConnector event = .ok next) : Kept next := by
  rcases bind_ok_inv taken with ⟨connector, ran, done⟩
  cases done
  have proceeds := step_proceeds kept.custody other ran
  have single := kept.single
  rcases proceeds.handed with ⟨same, stays⟩ | ⟨sockfd, more, connecting, connected⟩
  · have count : h.openConnections +
        (connector.handedOver.length - h.connector.handedOver.length) = h.openConnections := by
      rw [same, Nat.sub_self, Nat.add_zero]
    refine ⟨proceeds.custody, ?_, ?_⟩
    · simpa only [count] using single
    · intro positive
      simp only [count] at positive
      exact stays (kept.connected positive)
  · have none : h.openConnections + h.closings = 0 := by
      by_contra some
      have state := kept.connected (Nat.pos_of_ne_zero some)
      cases connecting.symm.trans state
    refine ⟨proceeds.custody, ?_, fun _ => connected⟩
    simp only [more, List.length_append, List.length_singleton]
    omega

theorem step_kept {h next : Handover} {event : Event} (kept : Kept h)
    (taken : step h event = .ok next) : Kept next := by
  have single := kept.single
  cases event with
  | connectionClosed =>
      simp only [step] at taken
      split at taken
      · next positive =>
        cases taken
        refine ⟨kept.custody, ?_, fun _ => kept.connected (by omega)⟩
        dsimp only
        omega
      · cases taken
        exact kept
  | inConnector event =>
      by_cases restart : event = .restart
      · subst restart
        simp only [step] at taken
        split at taken
        · next possible =>
          have positive := possible.1
          have connected := kept.connected (by omega)
          rcases bind_ok_inv taken with ⟨connector, ran, done⟩
          cases done
          rcases restart_custody kept.custody (by simp [connected]) ran with ⟨custody, same⟩
          refine ⟨custody, ?_, ?_⟩
          · simp only [same]
            omega
          · intro more
            simp only [same] at more
            omega
        · cases taken
          exact kept
      · have ran : h.inConnector event = .ok next := by
          cases event with
          | restart => exact absurd rfl restart
          | _ => exact taken
        exact inConnector_kept kept restart ran

/-- For every run in which no assertion fails: each socket created was closed once
or handed over once or is neither yet, and the sockets that are neither are the
one of `channel_` while the connector is connecting, and none otherwise. -/
theorem sockets_owned_once {events : List Event} {h : Handover}
    (ran : run step new events = .ok h) :
    (h.connector.closed ++ h.connector.handedOver).Nodup ∧
      (∀ sockfd, sockfd ∈ h.connector.closed ∨ sockfd ∈ h.connector.handedOver →
        sockfd < h.connector.created) ∧
      ∀ sockfd, h.connector.Owns sockfd ↔ h.connector.state = .kConnecting ∧
        h.connector.channel.map ConnectingChannel.sockfd = some sockfd := by
  have kept : Kept h := run_invariant Kept (fun _ _ _ => step_kept) new_kept ran
  have once := kept.custody.once
  have nodup := once.nodup_iff.mpr List.nodup_range
  have members : ∀ sockfd, sockfd < h.connector.created ↔
      (sockfd ∈ h.connector.closed ∨ sockfd ∈ h.connector.handedOver) ∨
        sockfd ∈ h.connector.held := by
    intro sockfd
    rw [← List.mem_range, ← once.mem_iff, List.mem_append, List.mem_append]
  have inHand : ∀ sockfd, sockfd ∈ h.connector.held ↔ h.connector.state = .kConnecting ∧
      h.connector.channel.map ConnectingChannel.sockfd = some sockfd := by
    intro sockfd
    unfold Connector.held
    split <;> simp_all
  refine ⟨(List.nodup_append.mp nodup).1, ?_, ?_⟩
  · intro sockfd given
    exact (members sockfd).mpr (Or.inl given)
  · intro sockfd
    rw [← inHand]
    constructor
    · rintro ⟨created, notClosed, notHanded⟩
      rcases (members sockfd).mp created with (closed | handed) | held
      · exact absurd closed notClosed
      · exact absurd handed notHanded
      · exact held
    · intro held
      have apart := (List.nodup_append.mp nodup).2.2
      refine ⟨(members sockfd).mpr (Or.inr held), ?_, ?_⟩
      · intro closed
        exact apart sockfd (List.mem_append_left _ closed) sockfd held rfl
      · intro handed
        exact apart sockfd (List.mem_append_right _ handed) sockfd held rfl

/-- A refused attempt, one that is handed over and closes, and a third that a
`stop` gives up. -/
def threeAttempts : List Event :=
  [.inConnector .start, .inConnector (.enter .ECONNREFUSED),
    .inConnector (.retryTimer .EINPROGRESS), .inConnector (.handleEvent pollOut 0 false),
    .connectionClosed, .inConnector .swapFunctors, .inConnector (.runFunctor .zero),
    .inConnector .restart, .inConnector (.enter .EINPROGRESS), .inConnector .stop,
    .inConnector .queueStop, .inConnector .swapFunctors, .inConnector (.runFunctor .zero)]

theorem sockets_of_three_attempts :
    ∃ h, run step new threeAttempts = .ok h ∧ h.connector.closed = [0, 2] ∧
      h.connector.handedOver = [1] ∧ ∀ sockfd, h.connector.Owns sockfd →
        h.connector.channel.map ConnectingChannel.sockfd = some sockfd := by
  obtain ⟨h, ran, closed, handedOver⟩ : ∃ h, run step new threeAttempts = .ok h ∧
      h.connector.closed = [0, 2] ∧ h.connector.handedOver = [1] := ⟨_, rfl, rfl, rfl⟩
  refine ⟨h, ran, closed, handedOver, ?_⟩
  intro sockfd owns
  exact (((sockets_owned_once ran).2.2 sockfd).mp owns).2

end Handover

end Msmuduo.Connecting
