import Msmuduo.HttpServer
import Msmuduo.OrderedSet

/-!
# The hub

A transcription of the publish and subscribe example: `codec.cpp`, the server in
`hub.cpp` and the client in `pubsub.cpp`. A connection pointer is its address,
and the order of the addresses is the order of a set of connections. Of a
`TcpConnection` the example uses its state, its context and its input buffer;
`sent` are the bytes handed to `send` while the state allows sending.

The loops of both message callbacks end only where `parseMessage` reports
something else than `kSuccess`. Every success consumes a line, so the turns they
are given here are enough, and running out of them stands for a loop that never
returns.
-/

namespace Msmuduo.Hub

open Msmuduo.Machine Msmuduo.Search Msmuduo.Window

set_option autoImplicit false

inductive Fault where
  | findCRLFStart
  | findCRLFEnd
  | badContext
  | neverReturns
  | buffer (assertion : Buffer.Assertion)
  deriving DecidableEq, Repr

def inBuffer {Value : Type} (result : Except Buffer.Assertion Value) : Except Fault Value :=
  result.mapError .buffer

/-! ## The codec -/

inductive ParseResult where
  | kError
  | kSuccess
  | kContinue
  deriving DecidableEq, Repr

/-- What `parseMessage` leaves in its result, its three out parameters, which
its callers pass empty, and the buffer. -/
structure Parsed where
  result : ParseResult
  cmd : List Byte
  topic : List Byte
  content : List Byte
  buf : Buffer
  deriving DecidableEq, Repr

/-- `findCRLF(const char* start)` -/
def findCRLFFrom (b : Buffer) (start : Nat) : Except Fault (Option Nat) := do
  require (b.peek ≤ start) .findCRLFStart
  require (start ≤ b.beginWrite) .findCRLFEnd
  let crlf := start + search Buffer.kCRLF (window b.buffer start b.beginWrite)
  return if crlf = b.beginWrite then none else some crlf

def parseMessage (buf : Buffer) : Except Fault Parsed :=
  match buf.findCRLF with
  | some crlf =>
      let space := find buf.buffer buf.peek crlf 32
      if space ≠ crlf then do
        let cmd := window buf.buffer buf.peek space
        let topic := window buf.buffer (space + 1) crlf
        if cmd = text "pub" then
          let start := crlf + 2
          match ← findCRLFFrom buf start with
          | some crlf =>
              let content := window buf.buffer start crlf
              let rest ← inBuffer (buf.retrieveUntil (crlf + 2))
              return ⟨.kSuccess, cmd, topic, content, rest⟩
          | none => return ⟨.kContinue, cmd, topic, [], buf⟩
        else
          let rest ← inBuffer (buf.retrieveUntil (crlf + 2))
          return ⟨.kSuccess, cmd, topic, [], rest⟩
      else .ok ⟨.kError, [], [], [], buf⟩
  | none => .ok ⟨.kContinue, [], [], [], buf⟩

/-! ## Connections -/

structure Connection where
  state : TcpConnection.StateE
  context : Option (List (List Byte))
  inputBuffer : Buffer
  sent : List Byte
  deriving DecidableEq, Repr

namespace Connection

/-- No connection has this address. -/
def absent : Connection where
  state := .kDisconnected
  context := none
  inputBuffer := Buffer.new Buffer.kInitialSize
  sent := []

def send (c : Connection) (message : List Byte) : Connection :=
  if c.state = .kConnected then { c with sent := c.sent ++ message } else c

def shutdown (c : Connection) : Connection :=
  if c.state = .kConnected then { c with state := .kDisconnecting } else c

end Connection

/-! ## The server -/

structure Topic where
  topic : List Byte
  content : List Byte
  lastPubTime : Int
  audiences : OrderedSet Nat

namespace Topic

def new (topic : List Byte) : Topic where
  topic := topic
  content := []
  lastPubTime := 0
  audiences := OrderedSet.empty

/-- `Timestamp::valid` of `lastPubTime_` -/
def published (t : Topic) : Bool := decide (0 < t.lastPubTime)

def makeMessage (t : Topic) : List Byte :=
  text "pub " ++ t.topic ++ text "\r\n" ++ t.content ++ text "\r\n"

end Topic

/-- The requests `onMessage` tells apart. -/
inductive Command where
  | pub (topic content : List Byte)
  | sub (topic : List Byte)
  | unsub (topic : List Byte)
  deriving DecidableEq, Repr

/-- What the server has carried out, in order. -/
inductive Entry where
  | up (conn : Nat)
  | down (conn : Nat)
  | command (conn : Nat) (command : Command)
  deriving DecidableEq, Repr

structure PubSubServer where
  connections : Nat → Connection
  topics : List Byte → Option Topic
  log : List Entry

namespace PubSubServer

def new : PubSubServer where
  connections := fun _ => Connection.absent
  topics := fun _ => none
  log := []

def setConnection (s : PubSubServer) (conn : Nat) (connection : Connection) : PubSubServer :=
  { s with connections := Function.update s.connections conn connection }

def record (s : PubSubServer) (entry : Entry) : PubSubServer := { s with log := s.log ++ [entry] }

/-- `conn->send(message)` -/
def send (s : PubSubServer) (message : List Byte) (conn : Nat) : PubSubServer :=
  s.setConnection conn ((s.connections conn).send message)

/-- The topic a reference from `getTopic` refers to. -/
def getTopic (s : PubSubServer) (topic : List Byte) : Topic :=
  (s.topics topic).getD (Topic.new topic)

/-- The map after `getTopic` and what its caller did with the reference. -/
def setTopic (s : PubSubServer) (topic : List Byte) (t : Topic) : PubSubServer :=
  { s with topics := Function.update s.topics topic (some t) }

def doPublish (s : PubSubServer) (topic content : List Byte) (time : Int) : PubSubServer :=
  let t : Topic := { s.getTopic topic with content := content, lastPubTime := time }
  t.audiences.elements.foldl (fun s conn => s.send t.makeMessage conn) (s.setTopic topic t)

/-- `Topic::add` -/
def add (s : PubSubServer) (topic : List Byte) (conn : Nat) : PubSubServer :=
  let t := s.getTopic topic
  let added := s.setTopic topic { t with audiences := t.audiences.insert conn }
  if t.published then added.send t.makeMessage conn else added

/-- `Topic::remove` -/
def remove (s : PubSubServer) (topic : List Byte) (conn : Nat) : PubSubServer :=
  let t := s.getTopic topic
  s.setTopic topic { t with audiences := t.audiences.erase conn }

/-- The context of a connection as a `ConnectionSubscription`. -/
def connSub (s : PubSubServer) (conn : Nat) : Except Fault (List (List Byte)) :=
  match (s.connections conn).context with
  | some topics => .ok topics
  | none => .error .badContext

def setConnSub (s : PubSubServer) (conn : Nat) (topics : List (List Byte)) : PubSubServer :=
  s.setConnection conn { s.connections conn with context := some topics }

def doSubscribe (s : PubSubServer) (conn : Nat) (topic : List Byte) :
    Except Fault PubSubServer := do
  let topics ← s.connSub conn
  return (s.setConnSub conn (topics.insert topic)).add topic conn

def doUnsubscribe (s : PubSubServer) (conn : Nat) (topic : List Byte) :
    Except Fault PubSubServer := do
  let removed := s.remove topic conn
  let topics ← removed.connSub conn
  return removed.setConnSub conn (topics.erase topic)

/-- The loop that unsubscribes a closed connection. The iterator is increased
before the element is erased, so every element is visited. -/
def unsubscribeAll (conn : Nat) : List (List Byte) → PubSubServer → Except Fault PubSubServer
  | [], s => .ok s
  | topic :: topics, s => do
      let unsubscribed ← s.doUnsubscribe conn topic
      unsubscribeAll conn topics unsubscribed

/-- `onConnection` of a new connection. -/
def connectionUp (s : PubSubServer) (conn : Nat) : PubSubServer :=
  (s.setConnection conn { Connection.absent with state := .kConnected, context := some [] }).record
    (.up conn)

/-- `onConnection` of a closed connection. -/
def connectionDown (s : PubSubServer) (conn : Nat) : Except Fault PubSubServer := do
  let closed := s.setConnection conn { s.connections conn with state := .kDisconnected }
  let topics ← closed.connSub conn
  let left ← unsubscribeAll conn topics closed
  return left.record (.down conn)

/-- The request in a parsed message. -/
def commandOf (cmd topic content : List Byte) : Option Command :=
  if cmd = text "pub" then some (.pub topic content)
  else if cmd = text "sub" then some (.sub topic)
  else if cmd = text "unsub" then some (.unsub topic)
  else none

def execute (s : PubSubServer) (conn : Nat) (command : Command) (receiveTime : Int) :
    Except Fault PubSubServer := do
  let executed ← (match command with
    | .pub topic content => .ok (s.doPublish topic content receiveTime)
    | .sub topic => s.doSubscribe conn topic
    | .unsub topic => s.doUnsubscribe conn topic)
  return executed.record (.command conn command)

def shutdown (s : PubSubServer) (conn : Nat) : PubSubServer :=
  s.setConnection conn (s.connections conn).shutdown

/-- The loop of `onMessage`. -/
def onMessage : Nat → PubSubServer → Nat → Int → Except Fault PubSubServer
  | 0, _, _, _ => .error .neverReturns
  | turns + 1, s, conn, receiveTime => do
      let parsed ← parseMessage (s.connections conn).inputBuffer
      let read := s.setConnection conn { s.connections conn with inputBuffer := parsed.buf }
      match parsed.result with
      | .kSuccess =>
          match commandOf parsed.cmd parsed.topic parsed.content with
          | some command =>
              let executed ← read.execute conn command receiveTime
              onMessage turns executed conn receiveTime
          | none => return read.shutdown conn
      | .kError => return read.shutdown conn
      | .kContinue => return read

/-- One receive that found bytes: `handleRead` puts them into the input buffer
and calls the message callback. -/
def handleRead (s : PubSubServer) (conn : Nat) (data : List Byte) (receiveTime : Int) :
    Except Fault PubSubServer := do
  let read ← inBuffer ((s.connections conn).inputBuffer.readFd (.received data))
  let received := s.setConnection conn { s.connections conn with inputBuffer := read.buffer }
  received.onMessage (read.buffer.readableBytes + 1) conn receiveTime

/-- What happens to the server: a connection is established, some bytes are
received on it, or it is closed. -/
inductive Event where
  | connect (conn : Nat)
  | receive (conn : Nat) (data : List Byte) (receiveTime : Int)
  | disconnect (conn : Nat)
  deriving DecidableEq, Repr

/-- What cannot happen in the state of the connection leaves the server alone. -/
def step (s : PubSubServer) : Event → Except Fault PubSubServer
  | .connect conn =>
      if (s.connections conn).state = .kDisconnected then .ok (s.connectionUp conn) else .ok s
  | .receive conn data receiveTime =>
      if (s.connections conn).state = .kDisconnected ∨ data = [] then .ok s
      else s.handleRead conn data receiveTime
  | .disconnect conn =>
      if (s.connections conn).state = .kDisconnected then .ok s else s.connectionDown conn

end PubSubServer

/-! ## The client -/

/-- A `PubSubClient` with its connection. `state` is that of `conn_`, and
`kDisconnected` when there is none; `sent` are the bytes given to `send`, and
`calls` the arguments `subscribeCallback_` has been called with. -/
structure PubSubClient where
  state : TcpConnection.StateE
  subscribeCallback : Bool
  inputBuffer : Buffer
  sent : List Byte
  calls : List (List Byte × List Byte)
  deriving DecidableEq, Repr

namespace PubSubClient

def new : PubSubClient where
  state := .kDisconnected
  subscribeCallback := false
  inputBuffer := Buffer.new Buffer.kInitialSize
  sent := []
  calls := []

def connected (c : PubSubClient) : Bool := c.state == .kConnected

def shutdown (c : PubSubClient) : PubSubClient :=
  if c.state = .kConnected then { c with state := .kDisconnecting } else c

def send (c : PubSubClient) (message : List Byte) : Bool × PubSubClient :=
  if c.connected then (true, { c with sent := c.sent ++ message }) else (false, c)

def subscribe (c : PubSubClient) (topic : List Byte) : Bool × PubSubClient :=
  let message := text "sub " ++ topic ++ text "\r\n"
  { c with subscribeCallback := true }.send message

def unsubscribe (c : PubSubClient) (topic : List Byte) : PubSubClient :=
  let message := text "unsub " ++ topic ++ text "\r\n"
  (c.send message).2

def publish (c : PubSubClient) (topic content : List Byte) : Bool × PubSubClient :=
  let message := text "pub " ++ topic ++ text "\r\n" ++ content ++ text "\r\n"
  c.send message

/-- `onConnection`. The connection is a new one with an empty input buffer. -/
def connectionUp (c : PubSubClient) : PubSubClient :=
  { c with
    state := .kConnected
    inputBuffer := Buffer.new Buffer.kInitialSize
    sent := []
    calls := [] }

def connectionDown (c : PubSubClient) : PubSubClient := { c with state := .kDisconnected }

/-- The loop of `onMessage`. -/
def onMessage : Nat → PubSubClient → Except Fault PubSubClient
  | 0, _ => .error .neverReturns
  | turns + 1, c => do
      let parsed ← parseMessage c.inputBuffer
      let read := { c with inputBuffer := parsed.buf }
      match parsed.result with
      | .kSuccess =>
          if parsed.cmd = text "pub" ∧ c.subscribeCallback then
            onMessage turns { read with calls := c.calls ++ [(parsed.topic, parsed.content)] }
          else onMessage turns read
      | .kError => return read.shutdown
      | .kContinue => return read

def handleRead (c : PubSubClient) (data : List Byte) : Except Fault PubSubClient := do
  let read ← inBuffer (c.inputBuffer.readFd (.received data))
  onMessage (read.buffer.readableBytes + 1) { c with inputBuffer := read.buffer }

end PubSubClient

end Msmuduo.Hub
