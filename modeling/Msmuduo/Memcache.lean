import Msmuduo.BufferDeque
import Msmuduo.KeyedSet
import Msmuduo.LogStream
import Msmuduo.TimerSequence

/-!
# The memcached server

A transcription of `Item.h`, `Item.cpp`, `Session.h`, `Session.cpp` and of the server
in `MemcacheServer.cpp`, with one worker thread as in `server.cpp`. Items are
immutable once they are stored, so a pointer to one is the item. Of a `TcpConnection`
the server uses its state and its input buffer; `sent` are the bytes handed to `send`
while the state allows sending. `hash` is `boost::hash_range`.

Every turn of the loop of `onMessage` takes at least one byte or leaves the loop, so
the turns it is given here are enough, and running out of them stands for a loop that
never returns.
-/

namespace Msmuduo.Memcache

open Msmuduo.Machine Msmuduo.Window

set_option autoImplicit false

/-- An assertion that fails, an access outside a range or a sum that does not fit. -/
inductive Fault where
  | neverReturns
  | valuelen
  | receivedBytes
  | neededBytes
  | appended
  | resetKey
  | storeItem
  | newCommand
  | receiveValue
  | discardValue
  | doUpdate
  | noToken
  | overflow
  | sessionExists
  | sessionMissing
  | buffer (assertion : Buffer.Assertion)
  | stream (overrun : Overrun)
  deriving DecidableEq, Repr

def inBuffer {Value : Type} (result : Except Buffer.Assertion Value) : Except Fault Value :=
  result.mapError .buffer

def inStream {Value : Type} (result : Except Overrun Value) : Except Fault Value :=
  result.mapError .stream

/-! ## Items -/

inductive UpdatePolicy where
  | kInvalid
  | kSet
  | kAdd
  | kReplace
  | kAppend
  | kPrepend
  | kCas
  deriving DecidableEq, Repr

/-- `data` are the bytes that have been copied to `data_`, from its start on. -/
structure Item where
  keylen : Nat
  flags : UInt32
  relExptime : Int32
  valuelen : Nat
  cas : UInt64
  hash : Nat
  data : List Byte
  deriving DecidableEq, Repr

namespace Item

def receivedBytes (item : Item) : Nat := item.data.length

def totalLen (item : Item) : Nat := item.keylen + item.valuelen

def neededBytes (item : Item) : Nat := item.totalLen - item.receivedBytes

def key (item : Item) : List Byte := item.data.take item.keylen

def value (item : Item) : List Byte := (item.data.drop item.keylen).take item.valuelen

def append (item : Item) (data : List Byte) : Except Fault Item := do
  require (data.length ≤ item.neededBytes) .neededBytes
  let next := { item with data := item.data ++ data }
  require (next.receivedBytes ≤ next.totalLen) .appended
  return next

/-- The constructor, which `makeItem` calls. -/
def makeItem (hash : List Byte → Nat) (key : List Byte) (flags : UInt32) (exptime : Int32)
    (valuelen : Int) (cas : UInt64) : Except Fault Item := do
  require (2 ≤ valuelen) .valuelen
  let item : Item :=
    { keylen := key.length
      flags := flags
      relExptime := exptime
      valuelen := valuelen.toNat
      cas := cas
      hash := hash key
      data := [] }
  require (item.receivedBytes < item.totalLen) .receivedBytes
  item.append key

def endsWithCRLF (item : Item) : Bool :=
  item.receivedBytes = item.totalLen && item.data.getD (item.totalLen - 2) 0 = 13 &&
    item.data.getD (item.totalLen - 1) 0 = 10

/-- What `output` puts into its `LogStream`. -/
def header (item : Item) (needCas : Bool) : List Msmuduo.Item :=
  [.char 32, .uint32 item.flags, .char 32, .int32 (Int32.ofNat (item.valuelen - 2))] ++
    (if needCas then [.char 32, .uint64 item.cas] else []) ++
    [.cString (some (CString.ofString Buffer.kCRLF))]

/-- The bytes `output` appends. The stream reads nothing it has not written. -/
def output (item : Item) (needCas : Bool) : Except Fault (List Byte) := do
  let memory : { bytes : List Byte // bytes.length = kSmallBuffer } :=
    ⟨List.replicate kSmallBuffer 0, List.length_replicate⟩
  let buf ← inStream (run LogStream.insert (LogStream.new memory) (item.header needCas))
  return text "VALUE " ++ item.key ++ buf.buffer.content ++ item.value

def resetKey (hash : List Byte → Nat) (item : Item) (k : List Byte) : Except Fault Item := do
  require (k.length ≤ 250) .resetKey
  let next ← { item with keylen := k.length, data := [] }.append k
  return { next with hash := hash k }

end Item

/-! ## The server -/

inductive Session.State where
  | kNewCommand
  | kReceiveValue
  | kDiscardValue
  deriving DecidableEq, Repr

inductive Session.Protocol where
  | kAscii
  | kBinary
  | kAuto
  deriving DecidableEq, Repr

/-- A session and, in the first three fields, its connection. -/
structure Session where
  connection : TcpConnection.StateE
  inputBuffer : Buffer
  sent : List Byte
  state : Session.State
  protocol : Session.Protocol
  command : List Byte
  noreply : Bool
  policy : UpdatePolicy
  currItem : Option Item
  bytesToDiscard : Nat
  needle : Item
  outputBuf : List Byte
  bytesRead : Nat
  requestsProcessed : Nat
  deriving DecidableEq, Repr

abbrev ItemMap := KeyedSet Item.key

def kShards : Nat := 4096

structure MemcacheServer where
  startTime : Int64
  cas : AtomicInt64
  shards : Nat → ItemMap
  sessions : Nat → Option Session
  stopped : Bool

namespace MemcacheServer

def new (startTime : Int64) : MemcacheServer where
  startTime := startTime
  cas := AtomicIntegerT.new
  shards := fun _ => KeyedSet.empty
  sessions := fun _ => none
  stopped := false

/-- `setCas(g_cas.incrementAndGet())`: the `LONG` becomes a `uint64_t`. -/
def nextCas (s : MemcacheServer) : UInt64 × MemcacheServer :=
  let (value, cas) := s.cas.incrementAndGet
  (UInt64.ofInt value.toInt, { s with cas := cas })

def setItems (s : MemcacheServer) (hash : Nat) (items : ItemMap) : MemcacheServer :=
  { s with shards := Function.update s.shards (hash % kShards) items }

/-- Whether the item was stored, and `*exists`. -/
def storeItem (s : MemcacheServer) (item : Item) (policy : UpdatePolicy) :
    Except Fault (Bool × Bool × MemcacheServer) := do
  require (item.neededBytes = 0) .storeItem
  let items := s.shards (item.hash % kShards)
  let found := (items.find item.key).isSome
  if policy = .kSet then
    let (cas, counted) := s.nextCas
    let others := if found then items.erase item.key else items
    return (true, found, counted.setItems item.hash (others.insert { item with cas := cas }))
  else if policy = .kAdd then
    if found then return (false, found, s)
    else
      let (cas, counted) := s.nextCas
      return (true, found, counted.setItems item.hash (items.insert { item with cas := cas }))
  else return (true, found, s)

def getItem (s : MemcacheServer) (key : Item) : Option Item :=
  (s.shards (key.hash % kShards)).find key.key

def deleteItem (s : MemcacheServer) (key : Item) : Bool × MemcacheServer :=
  let items := s.shards (key.hash % kShards)
  ((items.find key.key).isSome, s.setItems key.hash (items.erase key.key))

/-- `stop` makes the loop quit three seconds later. -/
def stop (s : MemcacheServer) : MemcacheServer := { s with stopped := true }

end MemcacheServer

/-! ## Request lines -/

/-- `SpaceSeparator`: the next token and what is behind it. -/
def spaceSeparator (next : List Byte) : Option (List Byte × List Byte) :=
  let start := next.dropWhile (· = 32)
  if start = [] then none
  else some (start.takeWhile (· ≠ 32), start.dropWhile (· ≠ 32))

/-- The tokens of a text that is shorter than `turns`. -/
def tokenizer : Nat → List Byte → List (List Byte)
  | 0, _ => []
  | turns + 1, next =>
      match spaceSeparator next with
      | none => []
      | some (token, behind) => token :: tokenizer turns behind

/-- The digits at the front of a text, as a number. -/
def digitsValue (digits : List Byte) : Nat :=
  digits.foldl (fun value digit => 10 * value + (digit.toNat - 48)) 0

def isdigit (byte : Byte) : Bool := decide (48 ≤ byte) && decide (byte ≤ 57)

/-- `strtoull` in base ten, from the start of a token on: its value and how many bytes
it has read, none if there is no digit. It does not go beyond a token with digits,
because a space, a line end or another byte that is no digit stands behind it. -/
def strtoull (token : List Byte) : UInt64 × Nat :=
  let blanks := token.takeWhile isspace
  let start := token.dropWhile isspace
  let negative := start.head? = some 45
  let signed := negative || start.head? = some 43
  let number := if signed then start.tail else start
  let digits := number.takeWhile isdigit
  let value := digitsValue digits
  if digits = [] then (0, 0)
  else
    (if 2 ^ 64 ≤ value then UInt64.ofNat (2 ^ 64 - 1)
      else if negative then -UInt64.ofNat value
      else UInt64.ofNat value,
      blanks.length + (if signed then 1 else 0) + digits.length)

/-- `Reader::read`: the number that a token is as a whole, before it is cast. -/
def Reader.read : List (List Byte) → Option (UInt64 × List (List Byte))
  | [] => none
  | first :: last =>
      let (x, read) := strtoull first
      if read = first.length then some (x, last) else none

namespace Session

def kLongestKeySize : Nat := 250

def kLongestKey : List Byte := List.replicate kLongestKeySize 120

/-- A new session of a connection that is up. -/
def new (hash : List Byte → Nat) : Except Fault Session := do
  let needle ← Item.makeItem hash kLongestKey 0 0 2 0
  return {
    connection := .kConnected
    inputBuffer := Buffer.new Buffer.kInitialSize
    sent := []
    state := .kNewCommand
    protocol := .kAscii
    command := []
    noreply := false
    policy := .kInvalid
    currItem := none
    bytesToDiscard := 0
    needle := needle
    outputBuf := []
    bytesRead := 0
    requestsProcessed := 0 }

def send (s : Session) (message : List Byte) : Session :=
  if s.connection = .kConnected then { s with sent := s.sent ++ message } else s

/-- `conn_->send(&outputBuf_)`, which empties the buffer where it sends. -/
def sendOutputBuf (s : Session) : Session :=
  if s.connection = .kConnected then { s with sent := s.sent ++ s.outputBuf, outputBuf := [] }
  else s

def shutdown (s : Session) : Session :=
  if s.connection = .kConnected then { s with connection := .kDisconnecting } else s

def reply (s : Session) (msg : List Byte) : Session := if s.noreply then s else s.send msg

def resetRequest (s : Session) : Session :=
  { s with
    command := []
    noreply := false
    policy := .kInvalid
    currItem := none
    bytesToDiscard := 0 }

def badFormat : List Byte := text "CLIENT_ERROR bad command line format\r\n"

/-- The policy a command stands for. -/
def policyOf (command : List Byte) : Option UpdatePolicy :=
  if command = text "set" then some .kSet
  else if command = text "add" then some .kAdd
  else if command = text "replace" then some .kReplace
  else if command = text "append" then some .kAppend
  else if command = text "prepend" then some .kPrepend
  else if command = text "cas" then some .kCas
  else none

/-- The numbers of an update: `flags`, `exptime`, `bytes` and `cas`. -/
def readUpdate (policy : UpdatePolicy) (beg : List (List Byte)) :
    Option (UInt32 × Int64 × Int32 × UInt64) := do
  let (flags, beg) ← Reader.read beg
  let (exptime, beg) ← Reader.read beg
  let (bytes, beg) ← Reader.read beg
  if policy = .kCas then
    let (cas, _) ← Reader.read beg
    return (flags.toUInt32, exptime.toInt64, bytes.toInt64.toInt32, cas)
  else return (flags.toUInt32, exptime.toInt64, bytes.toInt64.toInt32, 0)

def relExptime (startTime exptime : Int64) : Int32 :=
  if exptime > 60 * 60 * 24 * 30 then
    let relative := (exptime - startTime).toInt32
    if relative < 1 then 1 else relative
  else exptime.toInt32

section

variable (hash : List Byte → Nat)

/-- Whether the request is finished, and what it has changed. -/
def doUpdate (owner : MemcacheServer) (session : Session) (beg : List (List Byte)) :
    Except Fault (Bool × MemcacheServer × Session) :=
  match policyOf session.command, beg with
  | none, _ => .error .doUpdate
  | some _, [] => .error .noToken
  | some policy, key :: fields => do
      let session := { session with policy := policy }
      let numbers := if key.length ≤ kLongestKeySize then readUpdate policy fields else none
      match numbers with
      | none => return (true, owner, session.reply badFormat)
      | some (flags, exptime, bytes, cas) =>
          if 1024 * 1024 < bytes then do
            let told := session.reply (text "SERVER_ERROR object too large for cache\r\n")
            let needle ← told.needle.resetKey hash key
            let (_, owner) := owner.deleteItem needle
            require (bytes.toInt + 2 < 2 ^ 31) .overflow
            return (false, owner,
              { told with
                needle := needle
                bytesToDiscard := (bytes.toInt + 2).toNat
                state := .kDiscardValue })
          else do
            let item ← Item.makeItem hash key flags (relExptime owner.startTime exptime)
              (bytes.toInt + 2) cas
            return (false, owner, { session with currItem := some item, state := .kReceiveValue })

def doDelete (owner : MemcacheServer) (session : Session) (beg : List (List Byte)) :
    Except Fault (MemcacheServer × Session) :=
  match beg with
  | [] => .error .noToken
  | key :: rest =>
      if ¬key.length ≤ kLongestKeySize then return (owner, session.reply badFormat)
      else if rest ≠ [] ∧ rest.head? ≠ some (text "0") then
        return (owner, session.reply
          (text "CLIENT_ERROR bad command line format.  Usage: delete <key> [noreply]\r\n"))
      else do
        let needle ← session.needle.resetKey hash key
        let (found, owner) := owner.deleteItem needle
        return (owner, { session with needle := needle }.reply
          (if found then text "DELETED\r\n" else text "NOT_FOUND\r\n"))

/-- The loop of `get`. It is left early at a key that is too long. -/
def getItems (owner : MemcacheServer) (cas : Bool) :
    Session → List (List Byte) → Except Fault (Bool × Session)
  | session, [] => .ok (true, session)
  | session, key :: beg =>
      if key.length ≤ kLongestKeySize then do
        let needle ← session.needle.resetKey hash key
        match owner.getItem needle with
        | none => getItems owner cas { session with needle := needle } beg
        | some item => do
            let found ← item.output cas
            getItems owner cas
              { session with needle := needle, outputBuf := session.outputBuf ++ found } beg
      else .ok (false, session.reply badFormat)

def doGet (owner : MemcacheServer) (session : Session) (cas : Bool) (beg : List (List Byte)) :
    Except Fault Session := do
  let (whole, session) ← getItems hash owner cas session beg
  if whole then
    return { session with outputBuf := session.outputBuf ++ text "END\r\n" }.sendOutputBuf
  else return session

/-- `noreply` at the end of a request line. -/
def isQuiet (request : List Byte) : Bool :=
  8 ≤ request.length && request.drop (request.length - 8) = text " noreply"

/-- What is left of the line without it. -/
def withoutNoreply (request : List Byte) : List Byte :=
  if isQuiet request then request.take (request.length - 8) else request

def processRequest (owner : MemcacheServer) (session : Session) (request : List Byte) :
    Except Fault (Bool × MemcacheServer × Session) := do
  require (session.command = [] ∧ session.noreply = false ∧ session.policy = .kInvalid ∧
    session.currItem = none ∧ session.bytesToDiscard = 0) .newCommand
  let session :=
    { session with
      requestsProcessed := session.requestsProcessed + 1
      noreply := isQuiet request }
  let line := withoutNoreply request
  match tokenizer (line.length + 1) line with
  | [] => return (true, owner, session.reply (text "ERROR\r\n"))
  | command :: beg =>
      let session := { session with command := command }
      if (policyOf command).isSome then doUpdate hash owner session beg
      else if command = text "get" ∨ command = text "gets" then do
        let answered ← doGet hash owner session (command = text "gets") beg
        return (true, owner, answered)
      else if command = text "delete" then do
        let (owner, answered) ← doDelete hash owner session beg
        return (true, owner, answered)
      else if command = text "version" then
        return (true, owner, session.reply (text "VERSION 0.01 muduo\r\n"))
      else if command = text "quit" then return (true, owner, session.shutdown)
      else if command = text "shutdown" then return (true, owner.stop, session.shutdown)
      else return (true, owner, session.reply (text "ERROR\r\n"))

/-- The answer to an update whose value has arrived. -/
def updated (policy : UpdatePolicy) (stored found : Bool) : List Byte :=
  if stored then text "STORED\r\n"
  else if policy = .kCas then (if found then text "EXISTS\r\n" else text "NOT_FOUND\r\n")
  else text "NOT_STORED\r\n"

def receiveValue (owner : MemcacheServer) (session : Session) :
    Except Fault (MemcacheServer × Session) :=
  match session.currItem with
  | none => .error .receiveValue
  | some currItem => do
      let buf := session.inputBuffer
      let avail := min buf.readableBytes currItem.neededBytes
      let item ← currItem.append (window buf.buffer buf.peek (buf.peek + avail))
      let rest ← inBuffer (buf.retrieve avail)
      let received := { session with currItem := some item, inputBuffer := rest }
      if item.neededBytes = 0 then
        if item.endsWithCRLF then do
          let (stored, found, owner) ← owner.storeItem item session.policy
          let answered := received.reply (updated session.policy stored found)
          return (owner, { answered.resetRequest with state := .kNewCommand })
        else
          let answered := received.reply (text "CLIENT_ERROR bad data chunk\r\n")
          return (owner, { answered.resetRequest with state := .kNewCommand })
      else return (owner, received)

def discardValue (session : Session) : Except Fault Session := do
  require (session.currItem = none) .discardValue
  let buf := session.inputBuffer
  if buf.readableBytes < session.bytesToDiscard then
    return { session with
      bytesToDiscard := session.bytesToDiscard - buf.readableBytes
      inputBuffer := buf.retrieveAll }
  else
    let rest ← inBuffer (buf.retrieve session.bytesToDiscard)
    return { { session with inputBuffer := rest }.resetRequest with state := .kNewCommand }

/-- The first byte decides where the protocol is not known yet. -/
def decideProtocol (session : Session) : Except Fault Session :=
  if session.protocol = .kAuto then do
    require (session.bytesRead = 0) .newCommand
    let first := session.inputBuffer.buffer.getD session.inputBuffer.peek 0
    return { session with protocol := if first = 0x80 then .kBinary else .kAscii }
  else return session

/-- The loop of `onMessage`. Binary requests are not handled and stay where they are. -/
def readRequests : Nat → MemcacheServer → Session → Except Fault (MemcacheServer × Session)
  | 0, _, _ => .error .neverReturns
  | turns + 1, owner, session =>
      if 0 < session.inputBuffer.readableBytes then
        match session.state with
        | .kNewCommand => do
            let session ← decideProtocol session
            if session.protocol = .kBinary then readRequests turns owner session
            else
              let buf := session.inputBuffer
              match buf.findCRLF with
              | some crlf => do
                  let (finished, owner, processed) ←
                    processRequest hash owner session (window buf.buffer buf.peek crlf)
                  let settled := if finished then processed.resetRequest else processed
                  let rest ← inBuffer (buf.retrieveUntil (crlf + 2))
                  readRequests turns owner { settled with inputBuffer := rest }
              | none =>
                  if 1024 < buf.readableBytes then return (owner, session.shutdown)
                  else return (owner, session)
        | .kReceiveValue => do
            let (owner, session) ← receiveValue owner session
            readRequests turns owner session
        | .kDiscardValue => do
            let session ← discardValue session
            readRequests turns owner session
      else return (owner, session)

def onMessage (owner : MemcacheServer) (session : Session) :
    Except Fault (MemcacheServer × Session) := do
  let initialReadable := session.inputBuffer.readableBytes
  let (owner, session) ← readRequests hash (initialReadable + 1) owner session
  return (owner,
    { session with
      bytesRead := session.bytesRead + (initialReadable - session.inputBuffer.readableBytes) })

end

end Session

/-! ## Runs -/

/-- What happens to the server: a connection is established, some bytes are received on
it, or it is closed. -/
inductive Event where
  | connect (conn : Nat)
  | receive (conn : Nat) (data : List Byte)
  | disconnect (conn : Nat)
  deriving DecidableEq, Repr

namespace MemcacheServer

def setSession (s : MemcacheServer) (conn : Nat) (session : Option Session) : MemcacheServer :=
  { s with sessions := Function.update s.sessions conn session }

/-- `onConnection` of a new connection. -/
def connectionUp (hash : List Byte → Nat) (s : MemcacheServer) (conn : Nat) :
    Except Fault MemcacheServer := do
  let session ← Session.new hash
  require (s.sessions conn = none) .sessionExists
  return s.setSession conn (some session)

/-- `onConnection` of a closed connection. -/
def connectionDown (s : MemcacheServer) (conn : Nat) : Except Fault MemcacheServer := do
  require (s.sessions conn ≠ none) .sessionMissing
  return s.setSession conn none

/-- A connection has one name, is up once and receives nothing before and after. -/
def step (hash : List Byte → Nat) (s : MemcacheServer) : Event → Except Fault MemcacheServer
  | .connect conn =>
      if (s.sessions conn).isSome then return s else s.connectionUp hash conn
  | .receive conn data =>
      match s.sessions conn with
      | none => return s
      | some session =>
          if data = [] then return s
          else do
            let read ← inBuffer (session.inputBuffer.readFd (.received data))
            let (s, session) ← { session with inputBuffer := read.buffer }.onMessage hash s
            return s.setSession conn (some session)
  | .disconnect conn =>
      if (s.sessions conn).isSome then s.connectionDown conn else return s

end MemcacheServer

end Msmuduo.Memcache
