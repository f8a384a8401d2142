import Mathlib.Data.List.Basic
import Mathlib.Logic.Function.Basic
import Msmuduo.PollPoller
import Msmuduo.TcpConnection

/-!
# A server and its loops

`TcpServer` with its acceptor loop and any number of io loops, each in a thread
of its own. The state has every loop with its poll table, its queue of functors
and the place its thread has reached; the connections; the map `connections_`;
and the references the program around the server holds.

A step is a piece of one thread with at most one action that another thread can
see: a functor pushed under the lock, a reference dropped, a descriptor
accepted. User code runs inside the callbacks, and its calls are steps of their
own. They are admitted at any place of the thread they are made in.

A connection exists as long as somebody refers to it, so its socket is open
exactly as long. The channel of a connection refers to nothing: `tie` is
commented out in the source. What the connection does with its buffers is in
`TcpConnection`; here a read or write is only what the kernel returned for it.
The channel of the timer queue, which every loop has as well, is left out: like
the wakeup channel it is never removed and nothing to the server.
-/

namespace Msmuduo.ServerLoops

open Msmuduo.Machine Msmuduo.PollPoller

set_option autoImplicit false

abbrev LoopId := Nat

/-- `loop_` of the server, where the acceptor is. The io loops come after it. -/
def baseLoop : LoopId := 0

/-- The channel every loop is woken up through. -/
def wakeupChannel : ChannelId := 0

def acceptChannel : ChannelId := 1

/-- A connection and its channel are created together and share a name. The
names from here on are those of connections. -/
def firstConn : ChannelId := 2

/-- What is bound into a queue. All but the last hold a `TcpConnectionPtr`. -/
inductive Functor where
  | connectEstablished (conn : ChannelId)
  | removeConnectionInLoop (conn : ChannelId)
  | connectDestroyed (conn : ChannelId)
  | forceCloseInLoop (conn : ChannelId)
  | writeCompleteCallback (conn : ChannelId)
  | highWaterMarkCallback (conn : ChannelId)
  | task
  deriving DecidableEq, Repr

def Functor.conn : Functor → Option ChannelId
  | .connectEstablished conn => some conn
  | .removeConnectionInLoop conn => some conn
  | .connectDestroyed conn => some conn
  | .forceCloseInLoop conn => some conn
  | .writeCompleteCallback conn => some conn
  | .highWaterMarkCallback conn => some conn
  | .task => none

/-- How far `handleClose` is: in `connectionCallback_`, or behind
`closeCallback_` and about to return. -/
inductive CloseStage where
  | calling
  | called
  deriving DecidableEq, Repr

/-- The test of `Channel::handleEvent` that comes next. -/
inductive EventStage where
  | hangUp
  | read
  | write
  | done
  deriving DecidableEq, Repr

/-- A channel of `activeChannels_` with its `revents_`. -/
abbrev Active := ChannelId × EventMask

/-- The place a loop thread has reached, which is also its stack: at `poll`, in
the loop over the active channels or inside one of their handlers, in the loop
over the functors or inside one of them. `called` are the functors that have
been called; their references last until `doPendingFunctors` returns. -/
inductive Control where
  | atPoll
  | nextChannel (active : List Active)
  | newConnection (conn : ChannelId) (calling : Bool) (active : List Active)
  | handleEvent (conn : ChannelId) (revents : EventMask) (stage : EventStage)
      (closing : Option CloseStage) (active : List Active)
  | nextFunctor (called rest : List Functor)
  | connectEstablished (conn : ChannelId) (called rest : List Functor)
  | forceCloseInLoop (conn : ChannelId) (closing : CloseStage) (called rest : List Functor)
  | connectDestroyed (conn : ChannelId) (called rest : List Functor)
  deriving DecidableEq, Repr

namespace Control

/-- The active channels that have not been handled. -/
def active : Control → List Active
  | nextChannel active => active
  | newConnection _ _ active => active
  | handleEvent _ _ _ _ active => active
  | _ => []

/-- The functors that have been swapped out and not been called. -/
def rest : Control → List Functor
  | nextFunctor _ rest => rest
  | connectEstablished _ _ rest => rest
  | forceCloseInLoop _ _ _ rest => rest
  | connectDestroyed _ _ rest => rest
  | _ => []

def called : Control → List Functor
  | nextFunctor called _ => called
  | connectEstablished _ called _ => called
  | forceCloseInLoop _ _ called _ => called
  | connectDestroyed _ called _ => called
  | _ => []

/-- The connections that local variables and arguments on the stack refer to.
`handleEvent` has only the raw pointer until `handleClose` takes `guardThis`. -/
def guards : Control → List ChannelId
  | newConnection conn _ _ => [conn]
  | handleEvent conn _ _ (some _) _ => [conn]
  | connectEstablished conn _ _ => [conn]
  | forceCloseInLoop conn _ _ _ => [conn]
  | connectDestroyed conn _ _ => [conn]
  | _ => []

/-- `EventLoop::eventHandling_` -/
def eventHandling : Control → Bool
  | nextChannel _ => true
  | newConnection _ _ _ => true
  | handleEvent _ _ _ _ _ => true
  | _ => false

end Control

structure Conn where
  loop : LoopId
  fd : Int
  state : TcpConnection.StateE
  deriving DecidableEq, Repr

structure Loop where
  poller : Poller
  pendingFunctors : List Functor
  control : Control

/-- Every `TcpConnectionPtr` in the queue and on the stack of the loop. -/
def Loop.references (loop : Loop) : List ChannelId :=
  loop.control.guards ++
    (loop.control.called ++ loop.control.rest ++ loop.pendingFunctors).filterMap Functor.conn

/-- What a run leaves behind. -/
inductive Effect where
  | newConnection (conn : ChannelId)
  | handleClose (conn : ChannelId)
  | handleCloseReturned (conn : ChannelId)
  | removeConnectionInLoop (conn : ChannelId)
  | connectDestroyed (conn : ChannelId) (loop : LoopId)
  deriving DecidableEq, Repr

def Effect.conn : Effect → ChannelId
  | .newConnection conn => conn
  | .handleClose conn => conn
  | .handleCloseReturned conn => conn
  | .removeConnectionInLoop conn => conn
  | .connectDestroyed conn _ => conn

structure Config where
  /-- `loops_.size()`; without io loops the base loop serves the connections. -/
  threads : Nat
  listenFd : Nat
  wakeupFd : LoopId → Nat
  writeCompleteCallback : Bool
  listenFd_other : listenFd ≠ wakeupFd baseLoop

inductive Fault where
  | poller (assertion : PollPoller.Assertion)
  | notInLoopThread
  | connectEstablishedState
  | handleCloseState
  | erasedOne
  | removedActive
  | unknownPollFd
  /-- A channel was used after its connection was destroyed. -/
  | dangling
  deriving DecidableEq, Repr

structure System (Name : Type) where
  config : Config
  /-- `next_` of the thread pool -/
  next : Nat
  conns : ChannelId → Conn
  nextConn : ChannelId
  connections : List (Name × ChannelId)
  loops : LoopId → Loop
  /-- How many `TcpConnectionPtr` the program keeps for a connection. -/
  held : ChannelId → Nat
  log : List Effect

/-- What the kernel answers in one piece of a thread: to `poll`, `accept`,
`recv` and `send`. -/
structure Answer where
  revents : Int → EventMask
  connfd : Option Nat
  received : Int
  drained : Bool

inductive UserCall where
  | forceClose
  | shutdown
  /-- `remaining` says whether the kernel left bytes to be sent later, and
  `highWaterMark` whether they come over the mark. -/
  | send (remaining highWaterMark : Bool)
  deriving DecidableEq, Repr

/-- One piece of a loop thread, a call in the thread of the connection's loop,
a task queued by anybody, or a reference taken or dropped by the program. -/
inductive Event where
  | advance (loop : LoopId) (answer : Answer)
  | call (conn : ChannelId) (userCall : UserCall)
  | queueInLoop (loop : LoopId)
  | hold (conn : ChannelId)
  | release (conn : ChannelId)

/-! ## Polling -/

/-- What WSAPoll writes into an entry when `revents` is going on: the events
asked for and the three it always reports, and nothing for a negative descriptor. -/
def reported (pfd : PollFd) (revents : Int → EventMask) : EventMask :=
  if pfd.fd < 0 then 0#32
  else revents pfd.fd &&& (promote pfd.events ||| (pollErr ||| pollHup ||| pollNval))

/-- The rest of the loop in `PollPoller::fillActiveChannels`. -/
def fillActiveChannels (p : Poller) (revents : Int → EventMask) :
    List PollFd → Except Fault (List Active)
  | [] => .ok []
  | pfd :: pollfds =>
      if reported pfd revents ≠ 0#32 then
        match p.channels pfd.fd with
        | none => .error .unknownPollFd
        | some id => do
            require ((p.object id).fd = pfd.fd) .unknownPollFd
            let active ← fillActiveChannels p revents pollfds
            return (id, reported pfd revents) :: active
      else fillActiveChannels p revents pollfds

/-- A table with one more channel that asks for reading. -/
def enableNew (p : Poller) (id : ChannelId) : Poller :=
  (p.setObject id ((p.object id).setInterest .enableReading)).added id

/-- The table of a loop before the first connection: the wakeup channel, and in
the base loop the acceptor's. -/
def initialPoller (config : Config) (loop : LoopId) : Poller :=
  let woken := enableNew (Poller.new fun id =>
    if id = acceptChannel then config.listenFd else config.wakeupFd loop) wakeupChannel
  if loop = baseLoop then enableNew woken acceptChannel else woken

namespace System

variable {Name : Type} [DecidableEq Name]

def new (Name : Type) (config : Config) : System Name where
  config := config
  next := 0
  conns := fun _ => ⟨baseLoop, 0, .kConnecting⟩
  nextConn := firstConn
  connections := []
  loops := fun loop => ⟨initialPoller config loop, [], .atPoll⟩
  held := fun _ => 0
  log := []

section

variable (s : System Name)

/-- Somebody has a `TcpConnectionPtr` to the connection. -/
def Referenced (conn : ChannelId) : Prop :=
  (∃ entry ∈ s.connections, entry.2 = conn) ∨
  (∃ loop ∈ List.range (s.config.threads + 1), conn ∈ (s.loops loop).references) ∨
  0 < s.held conn

instance (conn : ChannelId) : Decidable (s.Referenced conn) :=
  inferInstanceAs (Decidable (_ ∨ _ ∨ _))

def Created (conn : ChannelId) : Prop := firstConn ≤ conn ∧ conn < s.nextConn

instance (conn : ChannelId) : Decidable (s.Created conn) :=
  inferInstanceAs (Decidable (_ ∧ _))

/-- `~TcpConnection` has run and with it `~Socket`. -/
def SocketClosed (conn : ChannelId) : Prop := s.Created conn ∧ ¬s.Referenced conn

/-- The descriptors the kernel does not give out. -/
def FdOpen (fd : Int) : Prop :=
  fd = s.config.listenFd ∨
  (∃ loop ∈ List.range (s.config.threads + 1), fd = s.config.wakeupFd loop) ∨
  ∃ conn ∈ List.range s.nextConn, s.Created conn ∧ s.Referenced conn ∧ (s.conns conn).fd = fd

instance (fd : Int) : Decidable (s.FdOpen fd) :=
  inferInstanceAs (Decidable (_ ∨ _ ∨ _))

def setLoop (loop : LoopId) (value : Loop) : System Name :=
  { s with loops := Function.update s.loops loop value }

def setControl (loop : LoopId) (control : Control) : System Name :=
  s.setLoop loop { s.loops loop with control := control }

def setState (conn : ChannelId) (state : TcpConnection.StateE) : System Name :=
  { s with conns := Function.update s.conns conn { s.conns conn with state := state } }

def record (effect : Effect) : System Name := { s with log := s.log ++ [effect] }

def queueInLoop (loop : LoopId) (functor : Functor) : System Name :=
  s.setLoop loop
    { s.loops loop with pendingFunctors := (s.loops loop).pendingFunctors ++ [functor] }

def channel (conn : ChannelId) : Channel := (s.loops (s.conns conn).loop).poller.object conn

/-! ## Connections -/

/-- `Channel::update` and `Channel::remove` through the loop of the channel,
which must be the loop of the thread. -/
def onChannel (loop : LoopId) (conn : ChannelId) (call : PollPoller.Event) :
    Except Fault (System Name) := do
  require (loop = (s.conns conn).loop) .notInLoopThread
  let poller ← (PollPoller.step (s.loops loop).poller call).mapError .poller
  return s.setLoop loop { s.loops loop with poller := poller }

def setInterest (loop : LoopId) (conn : ChannelId) (interest : Channel.Interest) :
    Except Fault (System Name) :=
  s.onChannel loop conn (.interest conn interest)

/-- `EventLoop::removeChannel` lets the channel that is being handled be
removed. No handler does that, so here none is let. -/
def removeChannel (loop : LoopId) (conn : ChannelId) : Except Fault (System Name) := do
  require ((s.loops loop).control.eventHandling = false) .removedActive
  s.onChannel loop conn (.remove conn)

/-- `connectEstablished` up to `connectionCallback_`. -/
def connectEstablished (loop : LoopId) (conn : ChannelId) : Except Fault (System Name) := do
  require (loop = (s.conns conn).loop) .notInLoopThread
  require ((s.conns conn).state = .kConnecting) .connectEstablishedState
  (s.setState conn .kConnected).setInterest loop conn .enableReading

/-- `handleClose` up to `connectionCallback_`. -/
def handleClose (loop : LoopId) (conn : ChannelId) : Except Fault (System Name) := do
  require (loop = (s.conns conn).loop) .notInLoopThread
  require ((s.conns conn).state = .kConnected ∨ (s.conns conn).state = .kDisconnecting)
    .handleCloseState
  ((s.setState conn .kDisconnected).record (.handleClose conn)).setInterest loop conn .disableAll

/-- `handleWrite`. Behind the last byte it stops asking for the writable event. -/
def handleWrite (loop : LoopId) (conn : ChannelId) (drained : Bool) :
    Except Fault (System Name) :=
  if (s.channel conn).isWriting && drained then do
    let idle ← s.setInterest loop conn .disableWriting
    return if s.config.writeCompleteCallback then
      idle.queueInLoop loop (.writeCompleteCallback conn) else idle
  else .ok s

/-! ## The server -/

def removeConnectionInLoop (connName : ChannelId → Name) (loop : LoopId) (conn : ChannelId) :
    Except Fault (System Name) := do
  require (loop = baseLoop) .notInLoopThread
  require ((s.connections.filter fun entry => entry.1 = connName conn).length = 1) .erasedOne
  let erased := { s with
    connections := s.connections.filter fun entry => entry.1 ≠ connName conn }
  return (erased.queueInLoop (s.conns conn).loop (.connectDestroyed conn)).record
    (.removeConnectionInLoop conn)

/-- `closeCallback_`, which is `removeConnection`. -/
def removeConnection (connName : ChannelId → Name) (loop : LoopId) (conn : ChannelId) :
    Except Fault (System Name) :=
  if loop = baseLoop then s.removeConnectionInLoop connName loop conn
  else .ok (s.queueInLoop baseLoop (.removeConnectionInLoop conn))

/-- The loop for the next connection and the new `next_`. -/
def getNextLoop : LoopId × Nat :=
  if s.config.threads = 0 then (baseLoop, s.next)
  else (s.next + 1, if s.config.threads ≤ s.next + 1 then 0 else s.next + 1)

/-- The new connection in the map, before it is handed to its loop. -/
def create (connName : ChannelId → Name) (sockfd : Nat) : System Name :=
  let ioLoop := s.getNextLoop.1
  let conn := s.nextConn
  let made : System Name := { s with
    next := s.getNextLoop.2
    conns := Function.update s.conns conn ⟨ioLoop, sockfd, .kConnecting⟩
    nextConn := conn + 1
    connections := (s.connections.filter fun entry => entry.1 ≠ connName conn) ++
      [(connName conn, conn)] }
  (made.setLoop ioLoop { s.loops ioLoop with
    poller := (s.loops ioLoop).poller.setObject conn (Channel.new sockfd) }).record
      (.newConnection conn)

def newConnection (connName : ChannelId → Name) (loop : LoopId) (sockfd : Nat)
    (active : List Active) : Except Fault (System Name) := do
  require (loop = baseLoop) .notInLoopThread
  let conn := s.nextConn
  let ioLoop := s.getNextLoop.1
  let made := s.create connName sockfd
  if loop = ioLoop then
    let established ← made.connectEstablished loop conn
    return established.setControl loop (.newConnection conn true active)
  else
    return (made.queueInLoop ioLoop (.connectEstablished conn)).setControl loop
      (.newConnection conn false active)

/-! ## The loops -/

def poll (loop : LoopId) (revents : Int → EventMask) : Except Fault (System Name) := do
  let active ← fillActiveChannels (s.loops loop).poller revents (s.loops loop).poller.pollfds
  return s.setControl loop (.nextChannel active)

/-- `Acceptor::handleRead`. An answer that is in use is as good as none. -/
def accept (connName : ChannelId → Name) (loop : LoopId) (connfd : Option Nat)
    (active : List Active) : Except Fault (System Name) :=
  match connfd with
  | none => .ok (s.setControl loop (.nextChannel active))
  | some sockfd =>
      if s.FdOpen sockfd then .ok (s.setControl loop (.nextChannel active))
      else s.newConnection connName loop sockfd active

/-- The call of `handleEvent` on the next active channel. What the wakeup
channel reads is nothing to the server. -/
def handleChannel (connName : ChannelId → Name) (loop : LoopId) (id : ChannelId)
    (revents : EventMask) (active : List Active) (answer : Answer) :
    Except Fault (System Name) :=
  if id = wakeupChannel then .ok (s.setControl loop (.nextChannel active))
  else if id = acceptChannel then
    if EventMask.has revents (pollIn ||| pollPri) then s.accept connName loop answer.connfd active
    else .ok (s.setControl loop (.nextChannel active))
  else .ok (s.setControl loop (.handleEvent id revents .hangUp none active))

/-- One test of `Channel::handleEvent` with its callback, on the object the raw
pointers lead to. -/
def handleEvent (loop : LoopId) (conn : ChannelId) (revents : EventMask) (stage : EventStage)
    (active : List Active) (answer : Answer) : Except Fault (System Name) := do
  require (s.Referenced conn) .dangling
  match stage with
  | .hangUp =>
      if EventMask.has revents pollHup && !EventMask.has revents pollIn then
        let closed ← s.handleClose loop conn
        return closed.setControl loop (.handleEvent conn revents .read (some .calling) active)
      else return s.setControl loop (.handleEvent conn revents .read none active)
  | .read =>
      if EventMask.has revents (pollIn ||| pollPri) && answer.received == 0 then
        let closed ← s.handleClose loop conn
        return closed.setControl loop (.handleEvent conn revents .write (some .calling) active)
      else return s.setControl loop (.handleEvent conn revents .write none active)
  | .write =>
      let written ← (if EventMask.has revents pollOut then
        s.handleWrite loop conn answer.drained else .ok s)
      return written.setControl loop (.handleEvent conn revents .done none active)
  | .done => return s.setControl loop (.nextChannel active)

def callFunctor (connName : ChannelId → Name) (loop : LoopId) (functor : Functor)
    (called rest : List Functor) : Except Fault (System Name) :=
  let s := s.setControl loop (.nextFunctor called rest)
  match functor with
  | .connectEstablished conn => do
      let established ← s.connectEstablished loop conn
      return established.setControl loop (.connectEstablished conn called rest)
  | .removeConnectionInLoop conn => s.removeConnectionInLoop connName loop conn
  | .connectDestroyed conn => do
      require (loop = (s.conns conn).loop) .notInLoopThread
      let entered := s.record (.connectDestroyed conn loop)
      if (s.conns conn).state = .kConnected then
        let down ← (entered.setState conn .kDisconnected).setInterest loop conn .disableAll
        return down.setControl loop (.connectDestroyed conn called rest)
      else entered.removeChannel loop conn
  | .forceCloseInLoop conn => do
      require (loop = (s.conns conn).loop) .notInLoopThread
      if (s.conns conn).state = .kConnected ∨ (s.conns conn).state = .kDisconnecting then
        let closed ← s.handleClose loop conn
        return closed.setControl loop (.forceCloseInLoop conn .calling called rest)
      else return s
  | .writeCompleteCallback _ => .ok s
  | .highWaterMarkCallback _ => .ok s
  | .task => .ok s

def swapFunctors (loop : LoopId) : System Name :=
  s.setLoop loop { s.loops loop with
    pendingFunctors := []
    control := .nextFunctor [] (s.loops loop).pendingFunctors }

/-- The next piece of a loop thread. -/
def advance (connName : ChannelId → Name) (loop : LoopId) (answer : Answer) :
    Except Fault (System Name) :=
  match (s.loops loop).control with
  | .atPoll => s.poll loop answer.revents
  | .nextChannel [] => .ok (s.swapFunctors loop)
  | .nextChannel ((id, revents) :: active) =>
      s.handleChannel connName loop id revents active answer
  | .newConnection conn true active =>
      .ok (s.setControl loop (.newConnection conn false active))
  | .newConnection _ false active => .ok (s.setControl loop (.nextChannel active))
  | .handleEvent conn revents stage none active =>
      s.handleEvent loop conn revents stage active answer
  | .handleEvent conn revents stage (some .calling) active =>
      (s.setControl loop (.handleEvent conn revents stage (some .called) active)).removeConnection
        connName loop conn
  | .handleEvent conn revents stage (some .called) active =>
      .ok ((s.record (.handleCloseReturned conn)).setControl loop
        (.handleEvent conn revents stage none active))
  | .nextFunctor _ [] => .ok (s.setControl loop .atPoll)
  | .nextFunctor called (functor :: rest) =>
      s.callFunctor connName loop functor (called ++ [functor]) rest
  | .connectEstablished _ called rest => .ok (s.setControl loop (.nextFunctor called rest))
  | .forceCloseInLoop conn .calling called rest =>
      (s.setControl loop (.forceCloseInLoop conn .called called rest)).removeConnection
        connName loop conn
  | .forceCloseInLoop conn .called called rest =>
      .ok ((s.record (.handleCloseReturned conn)).setControl loop (.nextFunctor called rest))
  | .connectDestroyed conn called rest =>
      (s.setControl loop (.nextFunctor called rest)).removeChannel loop conn

/-- `sendInLoop` from where it has bytes left over. -/
def keepRemaining (conn : ChannelId) (highWaterMark : Bool) : Except Fault (System Name) :=
  let home := (s.conns conn).loop
  let marked := if highWaterMark then
    s.queueInLoop home (.highWaterMarkCallback conn) else s
  if (s.channel conn).isWriting then .ok marked
  else marked.setInterest home conn .enableWriting

/-- A call through a `TcpConnectionPtr` in the thread of the connection's loop. -/
def call (conn : ChannelId) : UserCall → Except Fault (System Name)
  | .forceClose =>
      if (s.conns conn).state = .kConnected ∨ (s.conns conn).state = .kDisconnecting then
        .ok ((s.setState conn .kDisconnecting).queueInLoop (s.conns conn).loop
          (.forceCloseInLoop conn))
      else .ok s
  | .shutdown =>
      if (s.conns conn).state = .kConnected then .ok (s.setState conn .kDisconnecting)
      else .ok s
  | .send remaining highWaterMark =>
      if (s.conns conn).state = .kConnected then
        if remaining then s.keepRemaining conn highWaterMark
        else if !(s.channel conn).isWriting && s.config.writeCompleteCallback then
          .ok (s.queueInLoop (s.conns conn).loop (.writeCompleteCallback conn))
        else .ok s
      else .ok s

def hold (conn : ChannelId) : System Name :=
  { s with held := Function.update s.held conn (s.held conn + 1) }

def release (conn : ChannelId) : System Name :=
  { s with held := Function.update s.held conn (s.held conn - 1) }

end

end System

/-- A call or a copy needs a pointer to the connection, so there is one. -/
def step {Name : Type} [DecidableEq Name] (connName : ChannelId → Name) (s : System Name) :
    Event → Except Fault (System Name)
  | .advance loop answer => s.advance connName loop answer
  | .call conn userCall =>
      if s.Created conn ∧ s.Referenced conn then s.call conn userCall else .ok s
  | .queueInLoop loop => .ok (s.queueInLoop loop .task)
  | .hold conn => if s.Created conn ∧ s.Referenced conn then .ok (s.hold conn) else .ok s
  | .release conn => .ok (s.release conn)

end Msmuduo.ServerLoops
