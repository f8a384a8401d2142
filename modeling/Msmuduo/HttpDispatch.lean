import Msmuduo.HttpGrammar
import Msmuduo.TcpConnectionShutdown

/-!
# One delivery to the HTTP server

What one call of the message callback does, told on the bytes received so far:
it rejects the first line, dispatches one request, or waits. Nothing else in it
can fail, so the faults of a delivery are those of the parser.
-/

namespace Msmuduo.TcpConnection

open Msmuduo.Machine

set_option autoImplicit false

/-- A message and, if asked for, the shutdown behind it: both reach a connection
only while it is connected. -/
theorem userCode_reply {c : TcpConnection} (sound : Sound c) (alive : Open c)
    (message : List Byte) (direct : SendResult) (close : Bool) :
    ∃ next, c.userCode (.send message direct :: if close then [.shutdown] else []) = .ok next ∧
      Sound next ∧ Open next ∧ next.inputBuffer = c.inputBuffer ∧
      executed next.log = executed c.log ++ (if c.connected then [message] else []) ∧
      next.connected = (c.connected && !close) := by
  unfold userCode
  rcases alive with connected | disconnecting
  · have up : c.state ≠ .kDisconnected := by simp [connected]
    rcases sendInLoop_proceeds sound message direct with ⟨sent, ran, sentSound, -⟩
    rcases sendInLoop_log up ran with ⟨used, log, -, state, input, -⟩
    have sentState : sent.state = .kConnected := state.trans connected
    have called : call c .loop (.send message direct) = .ok sent := by
      simp [call, send, connected, ran]
    have counted : executed sent.log = executed c.log ++ [message] := by
      rw [log, executed_snoc]
      rfl
    rw [run_cons_ok _ called]
    cases close with
    | false =>
        refine ⟨sent, rfl, sentSound, Or.inl sentState, input, ?_, ?_⟩
        · simp [counted, TcpConnection.connected, connected]
        · simp [TcpConnection.connected, sentState, connected]
    | true =>
        rcases shutdown_proceeds sentSound .loop with ⟨closedSound, quiet⟩
        refine ⟨sent.shutdown .loop, rfl, closedSound, quiet.open_iff.mpr (Or.inl sentState),
          ?_, ?_, ?_⟩
        · rw [← input]
          simp only [shutdown, sentState, if_true, shutdownInLoop]
          split <;> rfl
        · have same : executed (sent.shutdown .loop).log = executed sent.log := by
            simp only [shutdown, sentState, if_true, shutdownInLoop]
            split
            · rfl
            · simp [record, executed, setState]
          rw [same, counted]
          simp [TcpConnection.connected, connected]
        · have state : (sent.shutdown .loop).state = .kDisconnecting := by
            simp only [shutdown, sentState, if_true, shutdownInLoop]
            split <;> rfl
          simp [TcpConnection.connected, state]
  · have called : call c .loop (.send message direct) = .ok c := by
      simp [call, send, disconnecting]
    have idle : call c .loop .shutdown = .ok c := by
      simp [call, shutdown, disconnecting]
    rw [run_cons_ok _ called]
    refine ⟨c, ?_, sound, Or.inr disconnecting, rfl, ?_, ?_⟩
    · cases close with
      | false => rfl
      | true => exact run_cons_ok _ idle
    · simp [TcpConnection.connected, disconnecting]
    · simp [TcpConnection.connected, disconnecting]

end Msmuduo.TcpConnection

namespace Msmuduo.HttpConnection

open Msmuduo.Machine Msmuduo.Buffer Msmuduo.TcpConnection HttpContext HttpRequest

set_option autoImplicit false

/-- The bytes of a response. -/
def responseBytes (response : HttpResponse) : List Byte := response.pieces.flatten

theorem appendToBuffer_represents (response : HttpResponse) {buf : Buffer} {bytes : List Byte}
    (represents : Represents buf bytes) :
    ∃ next, response.appendToBuffer buf = .ok next ∧
      Represents next (bytes ++ responseBytes response) := by
  unfold HttpResponse.appendToBuffer responseBytes
  generalize response.pieces = pieces
  induction pieces generalizing buf bytes with
  | nil => exact ⟨buf, rfl, by simpa using represents⟩
  | cons piece pieces ih =>
      rcases append_represents represents piece with ⟨middle, appended, after⟩
      rcases ih after with ⟨next, ran, final⟩
      refine ⟨next, (run_cons_ok pieces appended).trans ran, ?_⟩
      simpa using final

/-- The calls of a callback, on a connection that can take them. -/
theorem calls_reply {h : HttpConnection} (sound : Sound h.connection)
    (alive : Open h.connection) (message : List Byte) (direct : SendResult) (close : Bool) :
    ∃ next, h.calls (.send message direct :: if close then [.shutdown] else []) =
        .ok { h with connection := next } ∧
      Sound next ∧ Open next ∧ next.inputBuffer = h.connection.inputBuffer ∧
      executed next.log =
        executed h.connection.log ++ (if h.connection.connected then [message] else []) ∧
      next.connected = (h.connection.connected && !close) := by
  rcases userCode_reply sound alive message direct close with ⟨next, ran, facts⟩
  refine ⟨next, ?_, facts⟩
  simp only [calls, ran]
  rfl

/-! ## One delivery -/

/-- The connection can take replies, and `received` are its unconsumed bytes. -/
structure Ready (h : HttpConnection) (received : List Byte) : Prop where
  sound : Sound h.connection
  alive : Open h.connection
  received : h.connection.inputBuffer.content = received

section

variable {h : HttpConnection} {received : List Byte}

/-- The receive and the parse, told on the bytes. -/
theorem deliver_parsed (httpCallback : HttpCallback) (ready : Ready h received)
    (delivery : Delivery) :
    (∃ fault, parseText delivery.receiveTime h.context (received ++ delivery.data) =
        .error fault ∧ h.deliver httpCallback delivery = .error fault) ∨
    (∃ parsed buffer,
      parseText delivery.receiveTime h.context (received ++ delivery.data) = .ok parsed ∧
      Represents buffer parsed.rest ∧
      h.deliver httpCallback delivery =
        h.afterParse httpCallback ⟨parsed.ok, parsed.context, buffer⟩ delivery.direct) := by
  have represents : Represents h.connection.inputBuffer received := by
    rw [← ready.received]
    exact ready.sound.input
  rcases readFd_received represents delivery.data with ⟨filled, read, filledRepresents⟩
  simp only [deliver, read, onMessage]
  rcases parseRequest_text h.context filledRepresents delivery.receiveTime with
    ⟨fault, failed, faulted⟩ | ⟨parsed, buffer, parse, ran, after⟩
  · refine Or.inl ⟨fault, failed, ?_⟩
    change (h.context.parseRequest filled delivery.receiveTime >>= _) = _
    rw [faulted]
    rfl
  · refine Or.inr ⟨parsed, buffer, parse, after, ?_⟩
    change (h.context.parseRequest filled delivery.receiveTime >>= _) = _
    rw [ran]
    rfl

/-- A failed parse: nothing is dispatched. -/
theorem afterParse_rejected (httpCallback : HttpCallback) (ready : Ready h received)
    {parsed : TextParsed} {buffer : Buffer} (after : Represents buffer parsed.rest)
    (failed : parsed.ok = false) (state : parsed.context.state = .kExpectRequestLine)
    (direct : SendResult) :
    ∃ next, h.afterParse httpCallback ⟨parsed.ok, parsed.context, buffer⟩ direct = .ok next ∧
      Ready next parsed.rest ∧ next.context = parsed.context ∧ next.rejected = true := by
  let read : HttpConnection :=
    { h with
      connection := { h.connection with inputBuffer := buffer }
      context := parsed.context
      rejected := h.rejected || !parsed.ok }
  have readSound : Sound read.connection := ready.sound.withInput after
  rcases calls_reply readSound ready.alive badRequest direct true with
    ⟨connection, called, sound, alive, input, -⟩
  have unfinished : parsed.context.gotAll = false := by simp [gotAll, state]
  refine ⟨{ read with connection := connection }, ?_, ⟨sound, alive, ?_⟩, rfl, ?_⟩
  · simp only [if_true] at called
    simp only [afterParse, failed, Bool.false_eq_true, if_false]
    rw [← failed, called]
    simp [bind, Except.bind, read, unfinished, pure, Except.pure]
  · exact (congrArg Buffer.content input).trans after.content
  · simp [read, failed]

/-- A parse that waits: the connection is as it was, but for its input. -/
theorem afterParse_waiting (httpCallback : HttpCallback) (ready : Ready h received)
    {parsed : TextParsed} {buffer : Buffer} (after : Represents buffer parsed.rest)
    (ok : parsed.ok = true) (waits : parsed.context.gotAll = false) (direct : SendResult) :
    ∃ next, h.afterParse httpCallback ⟨parsed.ok, parsed.context, buffer⟩ direct = .ok next ∧
      Ready next parsed.rest ∧ next.context = parsed.context ∧ next.rejected = h.rejected ∧
      next.dispatched = h.dispatched ∧
      executed next.connection.log = executed h.connection.log ∧
      next.connection.connected = h.connection.connected := by
  refine ⟨{ h with
      connection := { h.connection with inputBuffer := buffer }
      context := parsed.context }, ?_,
    ⟨ready.sound.withInput after, ready.alive, after.content⟩, rfl, rfl, rfl, rfl, rfl⟩
  simp [afterParse, ok, waits, bind, Except.bind, pure, Except.pure]

/-- A complete request: it is dispatched and answered, and the context reset. -/
theorem afterParse_dispatched (httpCallback : HttpCallback) (ready : Ready h received)
    {parsed : TextParsed} {buffer : Buffer} (after : Represents buffer parsed.rest)
    (ok : parsed.ok = true) (complete : parsed.context.gotAll = true) (direct : SendResult) :
    ∃ next, h.afterParse httpCallback ⟨parsed.ok, parsed.context, buffer⟩ direct = .ok next ∧
      Ready next parsed.rest ∧ next.context = parsed.context.reset ∧
      next.rejected = h.rejected ∧
      next.dispatched = h.dispatched ++ [parsed.context.request] ∧
      executed next.connection.log = executed h.connection.log ++
        (if h.connection.connected then
          [responseBytes (respond httpCallback parsed.context.request)] else []) ∧
      next.connection.connected = (h.connection.connected &&
        !(respond httpCallback parsed.context.request).closeConnection) := by
  let response := respond httpCallback parsed.context.request
  let read : HttpConnection :=
    { h with
      connection := { h.connection with inputBuffer := buffer }
      context := parsed.context
      dispatched := h.dispatched ++ [parsed.context.request] }
  have readSound : Sound read.connection := ready.sound.withInput after
  rcases appendToBuffer_represents response (new_represents kInitialSize) with
    ⟨output, appended, written⟩
  rcases calls_reply readSound ready.alive output.content direct response.closeConnection with
    ⟨connection, called, sound, alive, input, sent, connected⟩
  rw [written.content, List.nil_append] at sent
  refine ⟨{ read with connection := connection, context := parsed.context.reset }, ?_,
    ⟨sound, alive, ?_⟩, rfl, rfl, rfl, sent, connected⟩
  · have answered : onRequest httpCallback { read with dispatched := h.dispatched }
        parsed.context.request direct = .ok { read with connection := connection } := by
      simp only [onRequest]
      rw [show (respond httpCallback parsed.context.request).appendToBuffer
        (Buffer.new kInitialSize) = .ok output from appended]
      exact called
    simp only [afterParse, ok, if_true, Bool.not_true, Bool.or_false]
    simp only [bind, Except.bind, complete, if_true]
    rw [show onRequest httpCallback _ parsed.context.request direct = _ from answered]
    rfl
  · exact (congrArg Buffer.content input).trans after.content

end

end Msmuduo.HttpConnection
