import Msmuduo.BufferInts
import Msmuduo.HttpServer

/-!
# The FastCGI codec

A transcription of `FastCgiCodec.h`, `FastCgiCodec.cpp` and of the callbacks of
`fastcgi_test.cpp`. The message callback of a connection is bound to a codec of its
own, so a connection is modelled with its codec. `sent` are the bytes handed to
`send` while the state allows sending, `requests` what the request callback was
called with.

A record takes its header at least and a parameter the bytes of its two lengths,
so the turns the two loops are given here are enough, and running out of them stands
for a loop that never returns.
-/

namespace Msmuduo.FastCgi

open Msmuduo.Machine Msmuduo.Window Msmuduo.Endian Msmuduo.Endiantool

set_option autoImplicit false

inductive Fault where
  | neverReturns
  | onBeginRequestReadable
  | onBeginRequestType
  | buffer (assertion : Buffer.Assertion)
  deriving DecidableEq, Repr

def inBuffer {Value : Type} (result : Except Buffer.Assertion Value) : Except Fault Value :=
  result.mapError .buffer

/-! ## Records -/

structure RecordHeader where
  version : Byte
  type : Byte
  id : UInt16
  length : UInt16
  padding : Byte
  reserved : Byte
  deriving DecidableEq, Repr

def kRecordHeader : Nat := 8

def kFcgiBeginRequest : Byte := 1

def kFcgiEndRequest : Byte := 3

def kFcgiParams : Byte := 4

def kFcgiStdin : Byte := 5

def kFcgiStdout : Byte := 6

def kFcgiResponder : UInt16 := 1

def kFcgiKeepConn : Byte := 1

/-- The header whose bytes in memory these are. -/
def RecordHeader.load (machine : ByteOrder) (memory : List Byte) : RecordHeader where
  version := memory.getD 0 0
  type := memory.getD 1 0
  id := UInt16.ofNat (machine.load (window memory 2 4))
  length := UInt16.ofNat (machine.load (window memory 4 6))
  padding := memory.getD 6 0
  reserved := memory.getD 7 0

def RecordHeader.store (machine : ByteOrder) (header : RecordHeader) : List Byte :=
  [header.version, header.type] ++ machine.store 2 header.id.toNat ++
    machine.store 2 header.length.toNat ++ [header.padding, header.reserved]

/-- The header at `peek()`, with its numbers in host order. -/
def headerAt (machine : ByteOrder) (buf : Buffer) : RecordHeader :=
  let header := RecordHeader.load machine
    (window buf.buffer buf.peek (buf.peek + kRecordHeader))
  { header with
    id := networkToHost16 machine header.id
    length := hostToNetwork16 machine header.length }

/-! ## Responses -/

/-- `-response->readableBytes() & 7` -/
def paddingOf (readable : Nat) : Nat := toSizeT (-(readable : Int)) &&& 7

def endStdout (machine : ByteOrder) (buf : Buffer) : Except Buffer.Assertion Buffer :=
  let header : RecordHeader :=
    { version := 1, type := kFcgiStdout, id := hostToNetwork16 machine 1, length := 0,
      padding := 0, reserved := 0 }
  buf.append (header.store machine)

/-- The header of the record is built and not appended. -/
def endRequest (machine : ByteOrder) (buf : Buffer) : Except Buffer.Assertion Buffer := do
  let first ← buf.appendInt32 machine 0
  first.appendInt32 machine 0

def respond (machine : ByteOrder) (response : Buffer) : Except Buffer.Assertion Buffer := do
  let stdout ←
    if response.readableBytes < 65536 ∧ kRecordHeader ≤ response.prependableBytes then do
      let header : RecordHeader :=
        { version := 1
          type := kFcgiStdout
          id := hostToNetwork16 machine 1
          length := hostToNetwork16 machine (UInt16.ofNat response.readableBytes)
          padding := UInt8.ofNat (paddingOf response.readableBytes)
          reserved := 0 }
      let headed ← response.prepend (header.store machine)
      headed.append (List.replicate header.padding.toNat 0)
    else pure response
  let ended ← endStdout machine stdout
  endRequest machine ended

/-! ## Requests -/

structure FastCgiCodec where
  gotRequest : Bool
  keepConn : Bool
  stdin : Buffer
  paramsStream : Buffer
  params : StringMap
  deriving DecidableEq, Repr

namespace FastCgiCodec

def new : FastCgiCodec where
  gotRequest := false
  keepConn := false
  stdin := Buffer.new Buffer.kInitialSize
  paramsStream := Buffer.new Buffer.kInitialSize
  params := []

/-- `static_cast<uint32_t>(-1)` -/
def noLength : UInt32 := 0xFFFFFFFF

/-- `readLen`, on the buffer `paramsStream_`. -/
def readLen (machine : ByteOrder) (paramsStream : Buffer) :
    Except Buffer.Assertion (UInt32 × Buffer) :=
  if 1 ≤ paramsStream.readableBytes then do
    let byte ← paramsStream.peekInt8
    if byte.toUInt8 &&& 0x80 ≠ 0 then
      if 4 ≤ paramsStream.readableBytes then do
        let (length, rest) ← paramsStream.readInt32 machine
        return (length.toUInt32 &&& 0x7fffffff, rest)
      else return (noLength, paramsStream)
    else do
      let (length, rest) ← paramsStream.readInt8
      return (length.toInt32.toUInt32, rest)
  else return (noLength, paramsStream)

/-- What has been read of the stream when a parameter turns out to be incomplete
stays read. -/
def parseAllParams (machine : ByteOrder) :
    Nat → FastCgiCodec → Except Fault (Bool × FastCgiCodec)
  | 0, _ => .error .neverReturns
  | turns + 1, codec =>
      if 0 < codec.paramsStream.readableBytes then do
        let (nameLen, afterNameLen) ← inBuffer (readLen machine codec.paramsStream)
        if nameLen = noLength then return (false, { codec with paramsStream := afterNameLen })
        else
          let (valueLen, afterLengths) ← inBuffer (readLen machine afterNameLen)
          if valueLen = noLength then return (false, { codec with paramsStream := afterLengths })
          else if (nameLen + valueLen).toNat ≤ afterLengths.readableBytes then
            let (name, afterName) ← inBuffer (afterLengths.retrieveAsString nameLen.toNat)
            let (value, rest) ← inBuffer (afterName.retrieveAsString valueLen.toNat)
            parseAllParams machine turns
              { codec with
                paramsStream := rest
                params := StringMap.assign name value codec.params }
          else return (false, { codec with paramsStream := afterLengths })
      else return (true, codec)

def onParams (machine : ByteOrder) (codec : FastCgiCodec) (content : List Byte) :
    Except Fault (Bool × FastCgiCodec) :=
  if 0 < content.length then do
    let paramsStream ← inBuffer (codec.paramsStream.append content)
    return (true, { codec with paramsStream := paramsStream })
  else parseAllParams machine (codec.paramsStream.readableBytes + 1) codec

def onStdin (codec : FastCgiCodec) (content : List Byte) : Except Fault FastCgiCodec :=
  if 0 < content.length then do
    let stdin ← inBuffer (codec.stdin.append content)
    return { codec with stdin := stdin }
  else return { codec with gotRequest := true }

def onBeginRequest (machine : ByteOrder) (codec : FastCgiCodec) (header : RecordHeader)
    (buf : Buffer) : Except Fault (Bool × FastCgiCodec) := do
  require (header.length.toNat ≤ buf.readableBytes) .onBeginRequestReadable
  require (header.type = kFcgiBeginRequest) .onBeginRequestType
  let body := buf.peek + kRecordHeader
  if kRecordHeader ≤ header.length.toNat then
    let be16 := UInt16.ofNat (machine.load (window buf.buffer body (body + 2)))
    let role := hostToNetwork16 machine be16
    let flags := buf.buffer.getD (body + 2) 0
    if role = kFcgiResponder then
      return (true, { codec with keepConn := flags = kFcgiKeepConn })
    else return (false, codec)
  else return (false, codec)

/-- The `switch` of `parseRequest`. What the handlers return is not looked at. -/
def dispatch (machine : ByteOrder) (codec : FastCgiCodec) (header : RecordHeader) (buf : Buffer) :
    Except Fault FastCgiCodec :=
  let body := buf.peek + kRecordHeader
  let content := window buf.buffer body (body + header.length.toNat)
  if header.type = kFcgiBeginRequest then do
    let (_, next) ← codec.onBeginRequest machine header buf
    return next
  else if header.type = kFcgiParams then do
    let (_, next) ← codec.onParams machine content
    return next
  else if header.type = kFcgiStdin then codec.onStdin content
  else return codec

def parseRequest (machine : ByteOrder) :
    Nat → FastCgiCodec → Buffer → Except Fault (FastCgiCodec × Buffer)
  | 0, _, _ => .error .neverReturns
  | turns + 1, codec, buf =>
      if kRecordHeader ≤ buf.readableBytes then
        let header := headerAt machine buf
        let total := kRecordHeader + header.length.toNat + header.padding.toNat
        if total ≤ buf.readableBytes then do
          let next ← codec.dispatch machine header buf
          let rest ← inBuffer (buf.retrieve total)
          parseRequest machine turns next rest
        else return (codec, buf)
      else return (codec, buf)

end FastCgiCodec

/-- What the request callback is called with. -/
structure Request where
  params : StringMap
  body : List Byte
  deriving DecidableEq, Repr

/-- A connection and its codec. -/
structure Connection where
  state : TcpConnection.StateE
  inputBuffer : Buffer
  codec : FastCgiCodec
  requests : List Request
  sent : List Byte
  deriving DecidableEq, Repr

namespace Connection

/-- `onConnection` of `fastcgi_test.cpp`. -/
def new : Connection where
  state := .kConnected
  inputBuffer := Buffer.new Buffer.kInitialSize
  codec := FastCgiCodec.new
  requests := []
  sent := []

def send (c : Connection) (message : List Byte) : Connection :=
  if c.state = .kConnected then { c with sent := c.sent ++ message } else c

def shutdown (c : Connection) : Connection :=
  if c.state = .kConnected then { c with state := .kDisconnecting } else c

def responseText : List Byte := text "Context-Type: text/plain\r\n\r\n" ++ text "hello world"

/-- `onRequest` of `fastcgi_test.cpp`: the response does not depend on the request. -/
def onRequest (machine : ByteOrder) (c : Connection) (request : Request) :
    Except Fault Connection := do
  let typed ← inBuffer
    ((Buffer.new Buffer.kInitialSize).append (text "Context-Type: text/plain\r\n\r\n"))
  let response ← inBuffer (typed.append (text "hello world"))
  let record ← inBuffer (respond machine response)
  return ({ c with requests := c.requests ++ [request] }.send record.content)

def onMessage (machine : ByteOrder) (c : Connection) : Except Fault Connection := do
  let (codec, buf) ←
    c.codec.parseRequest machine (c.inputBuffer.readableBytes + 1) c.inputBuffer
  let parsed := { c with codec := codec, inputBuffer := buf }
  if codec.gotRequest then
    let answered ← parsed.onRequest machine ⟨codec.params, codec.stdin.content⟩
    let cleared :=
      { answered with
        codec :=
          { codec with
            stdin := codec.stdin.retrieveAll
            paramsStream := codec.paramsStream.retrieveAll
            params := []
            gotRequest := false } }
    if codec.keepConn then return cleared else return cleared.shutdown
  else return parsed

/-- One receive. Nothing is received of an empty delivery. -/
def receive (machine : ByteOrder) (c : Connection) (delivery : List Byte) :
    Except Fault Connection :=
  if delivery = [] then return c
  else do
    let read ← inBuffer (c.inputBuffer.readFd (.received delivery))
    { c with inputBuffer := read.buffer }.onMessage machine

end Connection

end Msmuduo.FastCgi
