import Msmuduo.BufferInts
import Msmuduo.OrderedSet
import Msmuduo.TcpConnection

/-!
# The chat server

A transcription of the chat example: `LengthHeaderCodec` in `codec.h` and the
server in `server.cpp`. A connection pointer is its address, and the order of the
addresses is the order of the set `connections_`. Of a `TcpConnection` the example
uses its state and its input buffer; `sent` are the bytes handed to `send` while
the state allows sending.

The loop of `onMessage` ends where too few bytes are left or the length is
invalid. Every message takes the header at least, so the turns it is given here
are enough, and running out of them stands for a loop that never returns.
-/

namespace Msmuduo.Chat

open Msmuduo.Machine Msmuduo.Window Msmuduo.Endian Msmuduo.Endiantool

set_option autoImplicit false

inductive Fault where
  | neverReturns
  | buffer (assertion : Buffer.Assertion)
  deriving DecidableEq, Repr

def inBuffer {Value : Type} (result : Except Buffer.Assertion Value) : Except Fault Value :=
  result.mapError .buffer

/-! ## The codec -/

def kHeaderLen : Nat := 4

def maxLength : Int32 := 65536

/-- The `int32_t` that is read through `peek()`. -/
def headerAt (machine : ByteOrder) (buf : Buffer) : Int32 :=
  let be32 := UInt32.ofNat
    (machine.load (window buf.buffer buf.peek (buf.peek + kHeaderLen)))
  (networkToHost32 machine be32).toInt32

/-- The buffer that `LengthHeaderCodec::send` hands to the connection. -/
def frame (machine : ByteOrder) (message : List Byte) : Except Buffer.Assertion Buffer := do
  let buf ← (Buffer.new Buffer.kInitialSize).append message
  let len := Int32.ofNat message.length
  let be32 := hostToNetwork32 machine len.toUInt32
  buf.prepend (machine.store 4 be32.toNat)

/-! ## The server -/

structure Connection where
  state : TcpConnection.StateE
  inputBuffer : Buffer
  sent : List Byte
  deriving DecidableEq, Repr

namespace Connection

/-- No connection has this address. -/
def absent : Connection where
  state := .kDisconnected
  inputBuffer := Buffer.new Buffer.kInitialSize
  sent := []

def send (c : Connection) (message : List Byte) : Connection :=
  if c.state = .kConnected then { c with sent := c.sent ++ message } else c

def shutdown (c : Connection) : Connection :=
  if c.state = .kConnected then { c with state := .kDisconnecting } else c

end Connection

/-- What has happened to the server and what it has done about it, in order. -/
inductive Entry where
  | up (conn : Nat)
  | down (conn : Nat)
  | data (conn : Nat) (data : List Byte)
  | message (conn : Nat) (message : List Byte)
  deriving DecidableEq, Repr

structure ChatServer where
  connection : Nat → Connection
  connections : OrderedSet Nat
  log : List Entry

namespace ChatServer

def new : ChatServer where
  connection := fun _ => Connection.absent
  connections := OrderedSet.empty
  log := []

def setConnection (s : ChatServer) (conn : Nat) (connection : Connection) : ChatServer :=
  { s with connection := Function.update s.connection conn connection }

def setBuffer (s : ChatServer) (conn : Nat) (buf : Buffer) : ChatServer :=
  s.setConnection conn { s.connection conn with inputBuffer := buf }

def record (s : ChatServer) (entry : Entry) : ChatServer := { s with log := s.log ++ [entry] }

/-- `codec_.send(conn, message)` -/
def send (machine : ByteOrder) (s : ChatServer) (conn : Nat) (message : List Byte) :
    Except Fault ChatServer := do
  let buf ← inBuffer (frame machine message)
  return s.setConnection conn ((s.connection conn).send buf.content)

/-- The loop of `onStringMessage`. -/
def sendAll (machine : ByteOrder) (message : List Byte) :
    List Nat → ChatServer → Except Fault ChatServer
  | [], s => .ok s
  | conn :: conns, s => do
      let next ← s.send machine conn message
      sendAll machine message conns next

def onStringMessage (machine : ByteOrder) (s : ChatServer) (conn : Nat) (message : List Byte) :
    Except Fault ChatServer := do
  let told ← sendAll machine message s.connections.elements s
  return told.record (.message conn message)

def shutdown (s : ChatServer) (conn : Nat) : ChatServer :=
  s.setConnection conn (s.connection conn).shutdown

/-- The loop of `LengthHeaderCodec::onMessage`. The message callback runs between the
two calls of `retrieve`. -/
def onMessage (machine : ByteOrder) : Nat → ChatServer → Nat → Except Fault ChatServer
  | 0, _, _ => .error .neverReturns
  | turns + 1, s, conn => do
      let buf := (s.connection conn).inputBuffer
      if kHeaderLen ≤ buf.readableBytes then
        let len := headerAt machine buf
        if maxLength < len ∨ len < 0 then return s.shutdown conn
        else if len.toNatClampNeg + kHeaderLen ≤ buf.readableBytes then
          let opened ← inBuffer (buf.retrieve kHeaderLen)
          let message := window opened.buffer opened.peek (opened.peek + len.toNatClampNeg)
          let told ← (s.setBuffer conn opened).onStringMessage machine conn message
          let rest ← inBuffer ((told.connection conn).inputBuffer.retrieve len.toNatClampNeg)
          onMessage machine turns (told.setBuffer conn rest) conn
        else return s
      else return s

/-- One receive that found bytes: `handleRead` puts them into the input buffer
and calls the message callback. -/
def handleRead (machine : ByteOrder) (s : ChatServer) (conn : Nat) (data : List Byte) :
    Except Fault ChatServer := do
  let read ← inBuffer ((s.connection conn).inputBuffer.readFd (.received data))
  let received := (s.setBuffer conn read.buffer).record (.data conn data)
  received.onMessage machine (read.buffer.readableBytes + 1) conn

/-- `onConnection` of a new connection. -/
def connectionUp (s : ChatServer) (conn : Nat) : ChatServer :=
  let established := s.setConnection conn { Connection.absent with state := .kConnected }
  { established with connections := established.connections.insert conn }.record (.up conn)

/-- `onConnection` of a closed connection. -/
def connectionDown (s : ChatServer) (conn : Nat) : ChatServer :=
  let closed := s.setConnection conn { s.connection conn with state := .kDisconnected }
  { closed with connections := closed.connections.erase conn }.record (.down conn)

/-- What happens to the server: a connection is established, some bytes are
received on it, or it is closed. -/
inductive Event where
  | connect (conn : Nat)
  | receive (conn : Nat) (data : List Byte)
  | disconnect (conn : Nat)
  deriving DecidableEq, Repr

/-- What cannot happen in the state of the connection leaves the server alone. -/
def step (machine : ByteOrder) (s : ChatServer) : Event → Except Fault ChatServer
  | .connect conn =>
      if (s.connection conn).state = .kDisconnected then .ok (s.connectionUp conn) else .ok s
  | .receive conn data =>
      if (s.connection conn).state = .kDisconnected ∨ data = [] then .ok s
      else s.handleRead machine conn data
  | .disconnect conn =>
      if (s.connection conn).state = .kDisconnected then .ok s else .ok (s.connectionDown conn)

end ChatServer

end Msmuduo.Chat
