import Msmuduo.Channel

/-!
# The connector

`Connector` opens a socket, waits on a channel until it is connected, and hands
it over, trying again after a delay when the attempt fails. `start` and `stop`
may be called by any thread; what they do in the loop comes as a functor that
runs a turn later, and so does the destruction of the channel. The model keeps
`connect_`, `state_`, `channel_`, the functors, the retry timers and the
threads that are inside a call; real time is left out, so a retry timer may
fire whenever the loop thread looks at its events.

Sockets are numbered in the order in which `connect` creates them.
-/

namespace Msmuduo.Connecting

open Msmuduo.Machine

set_option autoImplicit false

inductive States where
  | kDisconnected
  | kConnecting
  | kConnected
  deriving DecidableEq, Repr

/-- What the call of `::connect` leaves in `savedErrno`. -/
inductive Errno where
  | zero
  | EINPROGRESS
  | EINTR
  | EISCONN
  | EAGAIN
  | EADDRINUSE
  | EADDRNOTAVAIL
  | ECONNREFUSED
  | ENETUNREACH
  | EACCES
  | EPERM
  | EAFNOSUPPORT
  | EALREADY
  | EBADF
  | EFAULT
  | ENOTSOCK
  | unexpected (code : Int)
  deriving DecidableEq, Repr

/-- The functors the connector puts into `pendingFunctors_`. -/
inductive Functor where
  | startInLoop
  | stopInLoop
  | resetChannel
  deriving DecidableEq, Repr

/-- `*channel_`, with whether the poller knows it. -/
structure ConnectingChannel where
  sockfd : Nat
  registered : Bool
  deriving DecidableEq, Repr

/-- The members of `Connector` and what the loop holds for it: the functors
queued and the rest of those being run, and the timers set by `retry`. A
thread inside `start` or `stop` has written `connect_` and not yet queued its
functor; the loop thread inside `start` or `restart` is about to enter
`startInLoop`. The last three fields record what became of the sockets. -/
structure Connector where
  connect_ : Bool
  state : States
  channel : Option ConnectingChannel
  pendingFunctors : List Functor
  functors : List Functor
  timers : Nat
  starting : Nat
  stopping : Nat
  entering : Bool
  created : Nat
  closed : List Nat
  handedOver : List Nat
  deriving DecidableEq, Repr

inductive Fault where
  | startInLoopState
  | connectingChannel
  | handleWriteState
  | channelNull
  | channelUnknown
  | channelRegistered
  deriving DecidableEq, Repr

namespace Connector

def new : Connector where
  connect_ := false
  state := .kDisconnected
  channel := none
  pendingFunctors := []
  functors := []
  timers := 0
  starting := 0
  stopping := 0
  entering := false
  created := 0
  closed := []
  handedOver := []

def queueInLoop (c : Connector) (functor : Functor) : Connector :=
  { c with pendingFunctors := c.pendingFunctors ++ [functor] }

def close (c : Connector) (sockfd : Nat) : Connector :=
  { c with closed := c.closed ++ [sockfd] }

def connecting (c : Connector) (sockfd : Nat) : Except Fault Connector := do
  let c := { c with state := .kConnecting }
  require (c.channel = none) .connectingChannel
  return { c with channel := some ⟨sockfd, true⟩ }

/-- The delay of the timer is `retryDelayMs_`. -/
def retry (c : Connector) (sockfd : Nat) : Connector :=
  let c := { c.close sockfd with state := .kDisconnected }
  if c.connect_ then { c with timers := c.timers + 1 } else c

def connect (c : Connector) (savedErrno : Errno) : Except Fault Connector :=
  let sockfd := c.created
  let c := { c with created := c.created + 1 }
  match savedErrno with
  | .zero | .EINPROGRESS | .EINTR | .EISCONN => c.connecting sockfd
  | .EAGAIN | .EADDRINUSE | .EADDRNOTAVAIL | .ECONNREFUSED | .ENETUNREACH =>
      .ok (c.retry sockfd)
  | .EACCES | .EPERM | .EAFNOSUPPORT | .EALREADY | .EBADF | .EFAULT | .ENOTSOCK =>
      .ok (c.close sockfd)
  | .unexpected _ => .ok (c.close sockfd)

def startInLoop (c : Connector) (savedErrno : Errno) : Except Fault Connector := do
  require (c.state = .kDisconnected) .startInLoopState
  if c.connect_ then
    c.connect savedErrno
  else
    return c

/-- `channel_->remove()` ends in an assertion of the poller that it knows the
channel. -/
def removeAndResetChannel (c : Connector) : Except Fault (Nat × Connector) :=
  match c.channel with
  | none => .error .channelNull
  | some channel => do
      require channel.registered .channelUnknown
      return (channel.sockfd,
        { c with channel := some ⟨channel.sockfd, false⟩ }.queueInLoop .resetChannel)

/-- The destructor of `Channel` asserts that the poller does not know it. -/
def resetChannel (c : Connector) : Except Fault Connector := do
  require (∀ channel ∈ c.channel, channel.registered = false) .channelRegistered
  return { c with channel := none }

def stopInLoop (c : Connector) : Except Fault Connector := do
  if c.state = .kConnecting then
    let (sockfd, c) ← { c with state := .kDisconnected }.removeAndResetChannel
    return c.retry sockfd
  else
    return c

/-- `err` is what `getSocketError` returns. -/
def handleWrite (c : Connector) (err : Int) (isSelfConnect : Bool) :
    Except Fault Connector := do
  if c.state = .kConnecting then
    let (sockfd, c) ← c.removeAndResetChannel
    if err ≠ 0 then
      return c.retry sockfd
    else if isSelfConnect then
      return c.retry sockfd
    else
      let c := { c with state := .kConnected }
      if c.connect_ then
        return { c with handedOver := c.handedOver ++ [sockfd] }
      else
        return c.close sockfd
  else
    require (c.state = .kDisconnected) .handleWriteState
    return c

def handleError (c : Connector) : Except Fault Connector := do
  if c.state = .kConnecting then
    let (sockfd, c) ← c.removeAndResetChannel
    return c.retry sockfd
  else
    return c

/-- `Channel::handleEvent` with the two callbacks the connector sets. -/
def handleEvent (c : Connector) (revents : EventMask) (err : Int) (isSelfConnect : Bool) :
    Except Fault Connector := do
  let c ← (if EventMask.has revents (pollErr ||| pollNval) then c.handleError else .ok c)
  if EventMask.has revents pollOut then
    c.handleWrite err isSelfConnect
  else
    return c

/-- A functor run by `doPendingFunctors`. -/
def perform (c : Connector) (savedErrno : Errno) : Functor → Except Fault Connector
  | .startInLoop => c.startInLoop savedErrno
  | .stopInLoop => c.stopInLoop
  | .resetChannel => c.resetChannel

/-- The loop thread is neither inside a call of the connector nor in the
middle of `doPendingFunctors`: it handles events. -/
def handlesEvents (c : Connector) : Bool := !c.entering && c.functors.isEmpty

def registered (c : Connector) : Bool :=
  match c.channel with
  | none => false
  | some channel => channel.registered

end Connector

/-- `start` and `restart` are the calls of the loop thread, which go on with
`enter`. A start on another thread and a stop write `connect_` first and queue
their functor later. -/
inductive Event where
  | start
  | restart
  | enter (savedErrno : Errno)
  | startElsewhere
  | queueStart
  | stop
  | queueStop
  | retryTimer (savedErrno : Errno)
  | handleEvent (revents : EventMask) (err : Int) (isSelfConnect : Bool)
  | swapFunctors
  | runFunctor (savedErrno : Errno)
  deriving DecidableEq, Repr

/-- An event that cannot happen where the threads stand changes nothing. -/
def step (c : Connector) : Event → Except Fault Connector
  | .start =>
      if c.entering then .ok c else .ok { c with connect_ := true, entering := true }
  | .restart =>
      if c.entering then .ok c
      else .ok { c with state := .kDisconnected, connect_ := true, entering := true }
  | .enter savedErrno =>
      if c.entering then { c with entering := false }.startInLoop savedErrno else .ok c
  | .startElsewhere => .ok { c with connect_ := true, starting := c.starting + 1 }
  | .queueStart =>
      if 0 < c.starting then
        .ok ({ c with starting := c.starting - 1 }.queueInLoop .startInLoop)
      else .ok c
  | .stop => .ok { c with connect_ := false, stopping := c.stopping + 1 }
  | .queueStop =>
      if 0 < c.stopping then
        .ok ({ c with stopping := c.stopping - 1 }.queueInLoop .stopInLoop)
      else .ok c
  | .retryTimer savedErrno =>
      if c.handlesEvents ∧ 0 < c.timers then
        { c with timers := c.timers - 1 }.startInLoop savedErrno
      else .ok c
  | .handleEvent revents err isSelfConnect =>
      if c.handlesEvents ∧ c.registered then c.handleEvent revents err isSelfConnect
      else .ok c
  | .swapFunctors =>
      if c.handlesEvents then
        .ok { c with functors := c.pendingFunctors, pendingFunctors := [] }
      else .ok c
  | .runFunctor savedErrno =>
      match c.entering, c.functors with
      | false, functor :: rest => { c with functors := rest }.perform savedErrno functor
      | _, _ => .ok c

end Msmuduo.Connecting
