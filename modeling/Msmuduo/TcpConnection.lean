import Msmuduo.Buffer
import Msmuduo.Channel

/-!
# One TCP connection

A transcription of `TcpConnection.cpp` and of `Channel::handleEvent`, which
calls back into the connection. The kernel and the user are inputs: every
`::send` and `WSARecv` comes with what the kernel answers, and every user
callback with the calls its body makes on the connection, in order.

`log` records what the outside sees of the connection: the `::send` calls, the
callbacks and the calls that leave it. `pendingFunctors` is the part of the
loop's queue that belongs to this connection. Allocation never fails here, so
the lengths of messages and buffers stay below `size_t`.
-/

namespace Msmuduo

open Msmuduo.Machine

set_option autoImplicit false

namespace TcpConnection

inductive StateE where
  | kDisconnected
  | kConnecting
  | kConnected
  | kDisconnecting
  deriving DecidableEq, Repr

/-- The error codes `sendInLoop` tells apart. -/
inductive Errno where
  | eWouldBlock
  | ePipe
  | eConnReset
  | other (code : Int)
  deriving DecidableEq, Repr

/-- What the kernel does with the bytes of a `::send`: it takes as many of
them as it has room for, or fails. -/
inductive SendResult where
  | wrote (room : Nat)
  | failed (errno : Errno)
  deriving DecidableEq, Repr

/-- The value `::send` returns for `len` bytes. -/
def SendResult.count (result : SendResult) (len : Nat) : Int :=
  match result with
  | .wrote room => min room len
  | .failed _ => -1

/-- The bytes that are the kernel's after the call. -/
def SendResult.taken (result : SendResult) (data : List Byte) : List Byte :=
  match result with
  | .wrote room => data.take room
  | .failed _ => []

def Errno.isFault : Errno → Bool
  | .ePipe | .eConnReset => true
  | .eWouldBlock | .other _ => false

inductive Functor where
  | sendInLoop (message : List Byte)
  | shutdownInLoop
  | forceCloseInLoop
  | writeCompleteCallback
  | highWaterMarkCallback (size : Nat)
  deriving DecidableEq, Repr

/-- `sendInLoop` is entered with the result of its direct `::send`, when it
makes one; `handleWrite` with the queued bytes it offers. -/
inductive Effect where
  | sendInLoop (message : List Byte) (direct : Option SendResult)
  | handleWrite (queued : List Byte) (result : SendResult)
  | shutdownWrite
  | connectionCallback (connected : Bool)
  | messageCallback
  | handleClose
  | closeCallback
  | handleError
  | removeChannel
  deriving DecidableEq, Repr

inductive Assertion where
  | buffer (assertion : Buffer.Assertion)
  | sendInLoopTotal
  | sendInLoopRemaining
  | connectEstablishedState
  | handleCloseState
  | removeNoneEvent
  | destructorState
  deriving DecidableEq, Repr

/-- The thread a public function is called in. -/
inductive Thread where
  | loop
  | other
  deriving DecidableEq, Repr

/-- What user code does with a connection it holds. `send` comes with the
kernel's answer to a direct write, should there be one; `retrieve` takes up to
`len` bytes out of the input buffer. -/
inductive UserCall where
  | send (message : List Byte) (direct : SendResult)
  | shutdown
  | forceClose
  | retrieve (len : Nat)
  deriving DecidableEq, Repr

end TcpConnection

open TcpConnection

structure TcpConnection where
  state : StateE
  channel : Channel
  highWaterMark : Nat
  writeCompleteCallback : Bool
  highWaterMarkCallback : Bool
  inputBuffer : Buffer
  outputBuffer : Buffer
  pendingFunctors : List Functor
  log : List Effect
  deriving DecidableEq, Repr

namespace TcpConnection

/-- The callbacks the owner sets before `connectEstablished`. -/
structure Options where
  writeCompleteCallback : Bool
  highWaterMarkCallback : Bool
  highWaterMark : Nat := 64 * 1024 * 1024
  deriving DecidableEq, Repr

def new (sockfd : Int) (options : Options) : TcpConnection where
  state := .kConnecting
  channel := Channel.new sockfd
  highWaterMark := options.highWaterMark
  writeCompleteCallback := options.writeCompleteCallback
  highWaterMarkCallback := options.highWaterMarkCallback
  inputBuffer := Buffer.new Buffer.kInitialSize
  outputBuffer := Buffer.new Buffer.kInitialSize
  pendingFunctors := []
  log := []

def connected (c : TcpConnection) : Bool := c.state == .kConnected

def setState (c : TcpConnection) (state : StateE) : TcpConnection :=
  { c with state := state }

def setInterest (c : TcpConnection) (interest : Channel.Interest) : TcpConnection :=
  { c with channel := c.channel.setInterest interest }

def record (c : TcpConnection) (effect : Effect) : TcpConnection :=
  { c with log := c.log ++ [effect] }

def queueInLoop (c : TcpConnection) (functor : Functor) : TcpConnection :=
  { c with pendingFunctors := c.pendingFunctors ++ [functor] }

def queueWhen (c : TcpConnection) (condition : Bool) (functor : Functor) :
    TcpConnection :=
  if condition then c.queueInLoop functor else c

/-- A failed assertion inside one of the two buffers. -/
def inBuffer {Value : Type} (result : Except Buffer.Assertion Value) :
    Except Assertion Value :=
  result.mapError .buffer

/-! ## Sending -/

/-- The local variables of `sendInLoop` after the direct write. -/
structure Attempt where
  connection : TcpConnection
  nwrote : Nat
  remaining : Nat
  faultError : Bool

/-- The direct write, made only when nothing is queued and nobody waits for
the socket to become writable. -/
def directWrite (c : TcpConnection) (message : List Byte) (direct : SendResult) :
    Attempt :=
  if !c.channel.isWriting && c.outputBuffer.readableBytes == 0 then
    let sent := c.record (.sendInLoop message (some direct))
    match direct with
    | .wrote room =>
        let nwrote := min room message.length
        let remaining := message.length - nwrote
        ⟨sent.queueWhen (remaining == 0 && c.writeCompleteCallback)
          .writeCompleteCallback, nwrote, remaining, false⟩
    | .failed errno => ⟨sent, 0, message.length, errno.isFault⟩
  else ⟨c.record (.sendInLoop message none), 0, message.length, false⟩

/-- Keeps the bytes the kernel did not take and asks for the writable event. -/
def queueOutput (c : TcpConnection) (rest : List Byte) : Except Assertion TcpConnection := do
  let oldLen := c.outputBuffer.readableBytes
  let remaining := rest.length
  let marked := c.queueWhen
    (decide (c.highWaterMark ≤ oldLen + remaining) && decide (oldLen < c.highWaterMark) &&
      c.highWaterMarkCallback) (.highWaterMarkCallback (oldLen + remaining))
  let outputBuffer ← inBuffer (c.outputBuffer.append rest)
  let kept := { marked with outputBuffer := outputBuffer }
  return if kept.channel.isWriting then kept else kept.setInterest .enableWriting

def sendInLoop (c : TcpConnection) (message : List Byte) (direct : SendResult) :
    Except Assertion TcpConnection :=
  if c.state = .kDisconnected then .ok c
  else do
    let attempt := c.directWrite message direct
    require (attempt.remaining + attempt.nwrote = message.length) .sendInLoopTotal
    require (attempt.remaining ≤ message.length) .sendInLoopRemaining
    if !attempt.faultError && decide (0 < attempt.remaining) then
      attempt.connection.queueOutput (message.drop attempt.nwrote)
    else return attempt.connection

def send (c : TcpConnection) (thread : Thread) (message : List Byte)
    (direct : SendResult) : Except Assertion TcpConnection :=
  if c.state = .kConnected then
    match thread with
    | .loop => c.sendInLoop message direct
    | .other => .ok (c.queueInLoop (.sendInLoop message))
  else .ok c

/-! ## Closing -/

def shutdownInLoop (c : TcpConnection) : TcpConnection :=
  if c.channel.isWriting then c else c.record .shutdownWrite

def shutdown (c : TcpConnection) (thread : Thread) : TcpConnection :=
  if c.state = .kConnected then
    match thread with
    | .loop => (c.setState .kDisconnecting).shutdownInLoop
    | .other => (c.setState .kDisconnecting).queueInLoop .shutdownInLoop
  else c

def forceClose (c : TcpConnection) : TcpConnection :=
  if c.state = .kConnected ∨ c.state = .kDisconnecting then
    (c.setState .kDisconnecting).queueInLoop .forceCloseInLoop
  else c

/-- The writable event: offers the whole queue to the kernel. A result of zero
is only logged, like an error. -/
def handleWrite (c : TcpConnection) (result : SendResult) :
    Except Assertion TcpConnection :=
  if c.channel.isWriting then do
    let offered := c.record (.handleWrite c.outputBuffer.content result)
    let n := result.count c.outputBuffer.readableBytes
    if 0 < n then
      let outputBuffer ← inBuffer (c.outputBuffer.retrieve n.toNat)
      let drained := { offered with outputBuffer := outputBuffer }
      if outputBuffer.readableBytes = 0 then
        let idle := (drained.setInterest .disableWriting).queueWhen
          c.writeCompleteCallback .writeCompleteCallback
        return if idle.state = .kDisconnecting then idle.shutdownInLoop else idle
      else return drained
    else return offered
  else .ok c

/-! ## User code -/

def call (c : TcpConnection) (thread : Thread) :
    UserCall → Except Assertion TcpConnection
  | .send message direct => c.send thread message direct
  | .shutdown => .ok (c.shutdown thread)
  | .forceClose => .ok c.forceClose
  | .retrieve len => do
      let inputBuffer ← inBuffer
        (c.inputBuffer.retrieve (min len c.inputBuffer.readableBytes))
      return { c with inputBuffer := inputBuffer }

/-- The body of a user callback. It runs in the loop thread. -/
def userCode (c : TcpConnection) (calls : List UserCall) :
    Except Assertion TcpConnection :=
  run (fun c => call c .loop) c calls

def connectionCallback (c : TcpConnection) (user : List UserCall) :
    Except Assertion TcpConnection :=
  (c.record (.connectionCallback c.connected)).userCode user

def messageCallback (c : TcpConnection) (user : List UserCall) :
    Except Assertion TcpConnection :=
  (c.record .messageCallback).userCode user

/-! ## Life cycle -/

def connectEstablished (c : TcpConnection) (user : List UserCall) :
    Except Assertion TcpConnection := do
  require (c.state = .kConnecting) .connectEstablishedState
  ((c.setState .kConnected).setInterest .enableReading).connectionCallback user

/-- `channel_->remove()` -/
def removeChannel (c : TcpConnection) : Except Assertion TcpConnection := do
  require (c.channel.isNoneEvent = true) .removeNoneEvent
  return c.record .removeChannel

def connectDestroyed (c : TcpConnection) (user : List UserCall) :
    Except Assertion TcpConnection := do
  let down ← (if c.state = .kConnected then
      ((c.setState .kDisconnected).setInterest .disableAll).connectionCallback user
    else .ok c)
  down.removeChannel

/-- The closing callback of the owner comes last; it takes the connection out
of the owner's map and queues `connectDestroyed`. -/
def handleClose (c : TcpConnection) (user : List UserCall) :
    Except Assertion TcpConnection := do
  let entered := c.record .handleClose
  require (entered.state = .kConnected ∨ entered.state = .kDisconnecting) .handleCloseState
  let down ← ((entered.setState .kDisconnected).setInterest .disableAll).connectionCallback user
  return down.record .closeCallback

def forceCloseInLoop (c : TcpConnection) (user : List UserCall) :
    Except Assertion TcpConnection :=
  if c.state = .kConnected ∨ c.state = .kDisconnecting then c.handleClose user else .ok c

def handleError (c : TcpConnection) : TcpConnection := c.record .handleError

def handleRead (c : TcpConnection) (receive : Buffer.Receive) (user : List UserCall) :
    Except Assertion TcpConnection := do
  let result ← inBuffer (c.inputBuffer.readFd receive)
  let read := { c with inputBuffer := result.buffer }
  if 0 < result.retReadCnt then read.messageCallback user
  else if result.retReadCnt = 0 then read.handleClose user
  else return read.handleError

/-- What the outside answers while one event is handled: the user code run by
a hang-up, the receive with the user code behind it, and the send. -/
structure Answers where
  closing : List UserCall
  receive : Buffer.Receive
  reading : List UserCall
  sending : SendResult
  deriving DecidableEq, Repr

/-- `Channel::handleEvent` with the four callbacks of the connection. The tests
are not exclusive, and a hang-up with readable bytes is left to the read. -/
def handleEvent (c : TcpConnection) (answers : Answers) :
    Except Assertion TcpConnection := do
  let revents := c.channel.revents
  let closed ← (if EventMask.has revents pollHup && !EventMask.has revents pollIn then
    c.handleClose answers.closing else .ok c)
  let noted := if EventMask.has revents (pollErr ||| pollNval) then closed.handleError else closed
  let read ← (if EventMask.has revents (pollIn ||| pollPri) then
    noted.handleRead answers.receive answers.reading else .ok noted)
  if EventMask.has revents pollOut then read.handleWrite answers.sending else .ok read

/-- One functor of the queue. The two callbacks run user code. -/
def perform (c : TcpConnection) (functor : Functor) (direct : SendResult)
    (user : List UserCall) : Except Assertion TcpConnection :=
  match functor with
  | .sendInLoop message => c.sendInLoop message direct
  | .shutdownInLoop => .ok c.shutdownInLoop
  | .forceCloseInLoop => c.forceCloseInLoop user
  | .writeCompleteCallback => c.userCode user
  | .highWaterMarkCallback _ => c.userCode user

/-- `~TcpConnection` -/
def destructor (c : TcpConnection) : Except Assertion Unit :=
  require (c.state = .kDisconnected) .destructorState

/-- Everything that can happen to a connection. `handleEvent` is the loop's call
after a poll that returned `revents`; `functor` takes the front of the queue. -/
inductive Event where
  | connectEstablished (user : List UserCall)
  | connectDestroyed (user : List UserCall)
  | handleEvent (revents : EventMask) (answers : Answers)
  | call (thread : Thread) (userCall : UserCall)
  | functor (direct : SendResult) (user : List UserCall)
  | sendInLoop (message : List Byte) (direct : SendResult)
  | handleWrite (result : SendResult)
  | shutdownInLoop
  | handleClose (user : List UserCall)
  deriving DecidableEq, Repr

def step (c : TcpConnection) : Event → Except Assertion TcpConnection
  | .connectEstablished user => c.connectEstablished user
  | .connectDestroyed user => c.connectDestroyed user
  | .handleEvent revents answers =>
      { c with channel := { c.channel with revents := revents } }.handleEvent answers
  | .call thread userCall => c.call thread userCall
  | .functor direct user =>
      match c.pendingFunctors with
      | [] => .ok c
      | functor :: rest => { c with pendingFunctors := rest }.perform functor direct user
  | .sendInLoop message direct => c.sendInLoop message direct
  | .handleWrite result => c.handleWrite result
  | .shutdownInLoop => .ok c.shutdownInLoop
  | .handleClose user => c.handleClose user

end TcpConnection

end Msmuduo
