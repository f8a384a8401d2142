import Mathlib.Data.List.DropRight
import Msmuduo.TcpConnection

/-!
# The HTTP server

A transcription of `HttpRequest.h`, `HttpContext.cpp`, `HttpResponse.cpp` and of
the message callback of `HttpServer.cpp`. A pointer into a line is an index, and
a range between two pointers a window of the line.

The parser is a loop that ends only where it clears `hasMore`. One turn of it is
`parseTurn`; every turn that goes on in the first two states consumes a line, so
the turns `parseRequest` allows are enough, and running out of them stands for a
loop that never returns.
-/

namespace Msmuduo

open Msmuduo.Machine Msmuduo.Window

set_option autoImplicit false

/-- The bytes of a string literal. -/
def text (literal : String) : List Byte :=
  literal.toList.map fun character => UInt8.ofNat character.toNat

/-- The text of `%d`. -/
def decimal : Int → List Byte
  | .ofNat n => text (String.ofList (Nat.toDigits 10 n))
  | .negSucc n => text "-" ++ text (String.ofList (Nat.toDigits 10 (n + 1)))

/-- `std::find` on the bytes between two pointers. -/
def find (values : List Byte) (start stop : Nat) (value : Byte) : Nat :=
  start + (window values start stop).idxOf value

/-- `isspace` in the "C" locale. -/
def isspace (byte : Byte) : Bool := byte == 32 || (decide (9 ≤ byte) && decide (byte ≤ 13))

/-- A `std::map<string, string>` as the list of its entries in key order. -/
abbrev StringMap := List (List Byte × List Byte)

/-- `map[key] = value` -/
def StringMap.assign (key value : List Byte) : StringMap → StringMap
  | [] => [(key, value)]
  | (other, kept) :: rest =>
      if key < other then (key, value) :: (other, kept) :: rest
      else if key = other then (key, value) :: rest
      else (other, kept) :: assign key value rest

inductive HttpFault where
  | setMethodInvalid
  | neverReturns
  | buffer (assertion : Buffer.Assertion)
  | connection (assertion : TcpConnection.Assertion)
  deriving DecidableEq, Repr

/-! ## Requests -/

namespace HttpRequest

inductive Method where
  | kInvalid
  | kGet
  | kPost
  | kHead
  | kPut
  | kDelete
  deriving DecidableEq, Repr

inductive Version where
  | kUnkown
  | kHttp10
  | kHttp11
  deriving DecidableEq, Repr

end HttpRequest

open HttpRequest

structure HttpRequest where
  method : Method
  version : Version
  path : List Byte
  query : List Byte
  receiveTime : Int
  headers : StringMap
  deriving DecidableEq, Repr

namespace HttpRequest

def new : HttpRequest where
  method := .kInvalid
  version := .kUnkown
  path := []
  query := []
  receiveTime := 0
  headers := []

/-- The comparisons of `setMethod`. -/
def methodOf (m : List Byte) : Method :=
  if m = text "GET" then .kGet
  else if m = text "POST" then .kPost
  else if m = text "HEAD" then .kHead
  else if m = text "PUT" then .kPut
  else if m = text "DELETE" then .kDelete
  else .kInvalid

def setMethod (r : HttpRequest) (m : List Byte) : Except HttpFault (Bool × HttpRequest) := do
  require (r.method = .kInvalid) .setMethodInvalid
  return (methodOf m != .kInvalid, { r with method := methodOf m })

/-- `addHeader` with pointers into `line`, whose end is the end of the value. -/
def addHeader (r : HttpRequest) (line : List Byte) (colon : Nat) : HttpRequest :=
  let field := window line 0 colon
  let value := ((line.drop (colon + 1)).dropWhile isspace).rdropWhile isspace
  { r with headers := StringMap.assign field value r.headers }

def getHeader (r : HttpRequest) (field : List Byte) : List Byte :=
  (r.headers.lookup field).getD []

/-- What `reset` leaves: `swap` exchanges every field but `version_`. -/
def swapWithNew (r : HttpRequest) : HttpRequest := { new with version := r.version }

end HttpRequest

/-! ## Parsing -/

namespace HttpContext

inductive HttpRequestParseState where
  | kExpectRequestLine
  | kExpectHeaders
  | kExpectBody
  | kGotAll
  deriving DecidableEq, Repr

end HttpContext

open HttpContext

structure HttpContext where
  state : HttpRequestParseState
  request : HttpRequest
  deriving DecidableEq, Repr

namespace HttpContext

def new : HttpContext where
  state := .kExpectRequestLine
  request := HttpRequest.new

def gotAll (c : HttpContext) : Bool := c.state == .kGotAll

def reset (c : HttpContext) : HttpContext where
  state := .kExpectRequestLine
  request := c.request.swapWithNew

/-- `processRequestLine` on the bytes of `line`. The fields set before an error
is found stay set. -/
def processRequestLine (r : HttpRequest) (line : List Byte) :
    Except HttpFault (Bool × HttpRequest) :=
  let stop := line.length
  let space := find line 0 stop 32
  if space ≠ stop then do
    let (set, r) ← r.setMethod (window line 0 space)
    if set then
      let start := space + 1
      let space := find line start stop 32
      if space ≠ stop then
        let question := find line start space 63
        let r :=
          if question ≠ space then
            { r with path := window line start question, query := window line question space }
          else { r with path := window line start space }
        let start := space + 1
        if stop - start = 8 ∧ window line start (stop - 1) = text "HTTP/1." then
          match line.getLast? with
          | some 49 => return (true, { r with version := .kHttp11 })
          | some 48 => return (true, { r with version := .kHttp10 })
          | _ => return (false, r)
        else return (false, r)
      else return (false, r)
    else return (false, r)
  else return (false, r)

/-- One turn of the loop goes on or returns `ok`. -/
inductive Turn where
  | again (context : HttpContext) (buf : Buffer)
  | done (ok : Bool) (context : HttpContext) (buf : Buffer)
  deriving DecidableEq, Repr

def inBuffer {Value : Type} (result : Except Buffer.Assertion Value) :
    Except HttpFault Value :=
  result.mapError .buffer

def parseTurn (c : HttpContext) (buf : Buffer) (receiveTime : Int) : Except HttpFault Turn :=
  match c.state with
  | .kExpectRequestLine =>
      match buf.findCRLF with
      | some crlf => do
          let (ok, r) ← processRequestLine c.request (window buf.buffer buf.peek crlf)
          if ok then
            let rest ← inBuffer (buf.retrieveUntil (crlf + 2))
            return .again ⟨.kExpectHeaders, { r with receiveTime := receiveTime }⟩ rest
          else return .done false { c with request := r } buf
      | none => return .done true c buf
  | .kExpectHeaders =>
      match buf.findCRLF with
      | some crlf => do
          let line := window buf.buffer buf.peek crlf
          let colon := find line 0 line.length 58
          let rest ← inBuffer (buf.retrieveUntil (crlf + 2))
          if colon ≠ line.length then
            return .again { c with request := c.request.addHeader line colon } rest
          else return .done true { c with state := .kGotAll } rest
      | none => return .done true c buf
  | .kExpectBody | .kGotAll => return .again c buf

structure Parsed where
  ok : Bool
  context : HttpContext
  buffer : Buffer
  deriving DecidableEq, Repr

def parseLoop : Nat → HttpContext → Buffer → Int → Except HttpFault Parsed
  | 0, _, _, _ => .error .neverReturns
  | turns + 1, c, buf, receiveTime => do
      match ← c.parseTurn buf receiveTime with
      | .again c buf => parseLoop turns c buf receiveTime
      | .done ok c buf => return ⟨ok, c, buf⟩

def parseRequest (c : HttpContext) (buf : Buffer) (receiveTime : Int) :
    Except HttpFault Parsed :=
  parseLoop (buf.readableBytes + 2) c buf receiveTime

end HttpContext

/-! ## Responses -/

structure HttpResponse where
  headers : StringMap
  statusCode : Int
  statusMessage : List Byte
  closeConnection : Bool
  body : List Byte
  deriving DecidableEq, Repr

namespace HttpResponse

def new (close : Bool) : HttpResponse where
  headers := []
  statusCode := 0
  statusMessage := []
  closeConnection := close
  body := []

/-- The arguments of the `append` calls in `appendToBuffer`, in order. -/
def pieces (r : HttpResponse) : List (List Byte) :=
  [text "HTTP/1.1 " ++ decimal r.statusCode, r.statusMessage, text "\r\n"] ++
  (if r.closeConnection then [text "Connection: close\r\n"]
    else [text "Content-Length: " ++ decimal (toInt r.body.length) ++ text "\r\n",
      text "Connection: Keep-Alive\r\n"]) ++
  r.headers.flatMap (fun (key, value) => [key, text ": ", value, text "\r\n"]) ++
  [text "\r\n", r.body]

def appendToBuffer (r : HttpResponse) (output : Buffer) : Except Buffer.Assertion Buffer :=
  run Buffer.append output r.pieces

end HttpResponse

/-! ## The message callback -/

/-- `httpCallback_` fills in the response it is given. -/
abbrev HttpCallback := HttpRequest → HttpResponse → HttpResponse

/-- The callback of a server whose owner set none. -/
def defaultHttpCallback : HttpCallback := fun _ resp =>
  { resp with
    statusCode := 404
    statusMessage := text "Not Found"
    closeConnection := true }

/-- One connection of the server. `dispatched` are the requests passed to
`httpCallback_`, and `rejected` says that `parseRequest` has returned false. -/
structure HttpConnection where
  connection : TcpConnection
  context : HttpContext
  dispatched : List HttpRequest
  rejected : Bool
  deriving DecidableEq, Repr

namespace HttpConnection

/-- `onConnection` of a new connection. -/
def start (connection : TcpConnection) : HttpConnection where
  connection := connection
  context := HttpContext.new
  dispatched := []
  rejected := false

/-- The calls the callback makes on its connection. -/
def calls (h : HttpConnection) (userCalls : List TcpConnection.UserCall) :
    Except HttpFault HttpConnection := do
  let connection ← (h.connection.userCode userCalls).mapError .connection
  return { h with connection := connection }

def badRequest : List Byte := text "HTTP/1.1 400 Bad Request\r\n\r\n"

/-- The response the callback returns for a request. -/
def respond (httpCallback : HttpCallback) (req : HttpRequest) : HttpResponse :=
  let connection := req.getHeader (text "Connection")
  let close := connection == text "close" ||
    (req.version == .kHttp10 && connection != text "Keep-Alive")
  httpCallback req (HttpResponse.new close)

def onRequest (httpCallback : HttpCallback) (h : HttpConnection) (req : HttpRequest)
    (direct : TcpConnection.SendResult) : Except HttpFault HttpConnection := do
  let response := respond httpCallback req
  let buf ← HttpContext.inBuffer (response.appendToBuffer (Buffer.new Buffer.kInitialSize))
  { h with dispatched := h.dispatched ++ [req] }.calls
    (.send buf.content direct :: if response.closeConnection then [.shutdown] else [])

/-- The part of `onMessage` behind the parse. A rejected request is answered
before `gotAll()` is asked. -/
def afterParse (httpCallback : HttpCallback) (h : HttpConnection) (parsed : Parsed)
    (direct : TcpConnection.SendResult) : Except HttpFault HttpConnection := do
  let read : HttpConnection :=
    { h with
      connection := { h.connection with inputBuffer := parsed.buffer }
      context := parsed.context
      rejected := h.rejected || !parsed.ok }
  let replied ← (if parsed.ok then .ok read
    else read.calls [.send badRequest direct, .shutdown])
  if replied.context.gotAll then
    let answered ← replied.onRequest httpCallback replied.context.request direct
    return { answered with context := answered.context.reset }
  else return replied

def onMessage (httpCallback : HttpCallback) (h : HttpConnection) (receiveTime : Int)
    (direct : TcpConnection.SendResult) : Except HttpFault HttpConnection := do
  let parsed ← h.context.parseRequest h.connection.inputBuffer receiveTime
  h.afterParse httpCallback parsed direct

/-- One receive that found bytes: `handleRead` puts them into the input buffer
and calls the message callback. -/
structure Delivery where
  data : List Byte
  receiveTime : Int
  direct : TcpConnection.SendResult
  deriving DecidableEq, Repr

def deliver (httpCallback : HttpCallback) (h : HttpConnection) (delivery : Delivery) :
    Except HttpFault HttpConnection := do
  let result ← HttpContext.inBuffer
    (h.connection.inputBuffer.readFd (.received delivery.data))
  { h with connection := { h.connection with inputBuffer := result.buffer } }.onMessage
    httpCallback delivery.receiveTime delivery.direct

end HttpConnection

end Msmuduo
