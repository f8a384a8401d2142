import Mathlib.Algebra.Order.Ring.Nat
import Msmuduo.HttpDispatch

/-!
# Streams of requests, cut into deliveries

A peer writes well-formed requests; the network cuts the stream into deliveries.
`Serving` says how far the server is: the requests it has dispatched and
answered, those it has not, and the received bytes of the latter. A call of the
message callback dispatches one request at most, so a stream is served whole,
and then in the same way for every cut, exactly when no more requests end late
in the stream than there are deliveries left to dispatch them.
-/

namespace Msmuduo.HttpConnection

open Msmuduo.Machine Msmuduo.Buffer Msmuduo.TcpConnection HttpContext HttpRequest

set_option autoImplicit false

/-! ## Counting requests and deliveries -/

/-- How many of the requests end within the first `length` bytes of the stream. -/
def completed : List RequestText → Nat → Nat
  | [], _ => 0
  | t :: rest, length =>
      if t.bytes.length ≤ length then completed rest (length - t.bytes.length) + 1 else 0

/-- After every number of deliveries, no more requests are still incomplete than
there are deliveries to come. -/
def KeepsUp (requests : List RequestText) (lengths : List Nat) : Prop :=
  ∀ i ≤ lengths.length,
    requests.length ≤ completed requests (lengths.take i).sum + (lengths.length - i)

instance (requests : List RequestText) (lengths : List Nat) :
    Decidable (KeepsUp requests lengths) :=
  inferInstanceAs (Decidable (∀ i ≤ lengths.length, _))

/-- The same in the middle of a stream, where `received` bytes of the requests
have arrived but the first dispatch is still to come. -/
def Drains (requests : List RequestText) (received : Nat) (lengths : List Nat) : Prop :=
  requests.length ≤ lengths.length ∧ ∀ i < lengths.length,
    requests.length ≤ completed requests (received + (lengths.take (i + 1)).sum) +
      (lengths.length - (i + 1))

theorem bytes_length_pos (t : RequestText) : 0 < t.bytes.length := by
  simp only [RequestText.bytes, kCRLF, List.length_append, List.length_cons, List.length_nil]
  omega

theorem completed_zero (requests : List RequestText) : completed requests 0 = 0 := by
  cases requests with
  | nil => rfl
  | cons t rest =>
      have positive := bytes_length_pos t
      exact if_neg (by omega)

theorem keepsUp_iff_drains (requests : List RequestText) (lengths : List Nat) :
    KeepsUp requests lengths ↔ Drains requests 0 lengths := by
  constructor
  · intro keepsUp
    constructor
    · have first := keepsUp 0 (Nat.zero_le _)
      rwa [List.take_zero, List.sum_nil, completed_zero, Nat.zero_add, Nat.sub_zero] at first
    · intro i bound
      rw [Nat.zero_add]
      exact keepsUp (i + 1) bound
  · rintro ⟨enough, later⟩ i bound
    cases i with
    | zero =>
        rw [List.take_zero, List.sum_nil, completed_zero, Nat.zero_add, Nat.sub_zero]
        exact enough
    | succ i =>
        have after := later i bound
        rwa [Nat.zero_add] at after

theorem drains_nil (requests : List RequestText) (received : Nat) :
    Drains requests received [] ↔ requests = [] := by
  constructor
  · intro drains
    exact List.length_eq_zero_iff.mp (Nat.le_zero.mp drains.1)
  · rintro rfl
    exact ⟨Nat.le_refl 0, fun i bound => absurd bound (Nat.not_lt_zero i)⟩

/-- A delivery that completes the first request dispatches it. -/
theorem drains_dispatch {t : RequestText} {rest : List RequestText} {received length : Nat}
    (lengths : List Nat) (complete : t.bytes.length ≤ received + length) :
    Drains (t :: rest) received (length :: lengths) ↔
      Drains rest (received + length - t.bytes.length) lengths := by
  have step : ∀ more, completed (t :: rest) (received + length + more) =
      completed rest (received + length - t.bytes.length + more) + 1 := by
    intro more
    rw [completed, if_pos (by omega)]
    congr 2
    omega
  constructor
  · rintro ⟨enough, later⟩
    refine ⟨by simpa using enough, ?_⟩
    intro i bound
    have after := later (i + 1) (by simpa using bound)
    rw [List.take_succ_cons, List.sum_cons, ← Nat.add_assoc, step] at after
    simp only [List.length_cons] at after
    omega
  · rintro ⟨enough, later⟩
    refine ⟨by simpa using enough, ?_⟩
    intro i bound
    rw [List.take_succ_cons, List.sum_cons, ← Nat.add_assoc, step]
    cases i with
    | zero =>
        simp only [List.length_cons]
        omega
    | succ i =>
        have after := later i (by simpa using bound)
        simp only [List.length_cons]
        omega

/-- A delivery that completes no request only adds its bytes. -/
theorem drains_wait {requests : List RequestText} {received length : Nat}
    (lengths : List Nat) (none : completed requests (received + length) = 0) :
    Drains requests received (length :: lengths) ↔
      Drains requests (received + length) lengths := by
  constructor
  · rintro ⟨-, later⟩
    constructor
    · have first := later 0 (by simp)
      simpa [none] using first
    · intro i bound
      have after := later (i + 1) (by simpa using bound)
      rw [List.take_succ_cons, List.sum_cons, ← Nat.add_assoc] at after
      simp only [List.length_cons] at after
      omega
  · rintro ⟨enough, later⟩
    refine ⟨by simp only [List.length_cons]; omega, ?_⟩
    intro i bound
    cases i with
    | zero => simpa [none] using enough
    | succ i =>
        have after := later i (by simpa using bound)
        rw [List.take_succ_cons, List.sum_cons, ← Nat.add_assoc]
        simp only [List.length_cons]
        omega

/-! ## Serving -/

/-- The replies to a sequence of requests: each is sent while the connection is
connected, and a closing one is the last. -/
def serve (httpCallback : HttpCallback) (service : List (List Byte) × Bool)
    (req : HttpRequest) : List (List Byte) × Bool :=
  let response := respond httpCallback req
  (service.1 ++ (if service.2 then [responseBytes response] else []),
    service.2 && !response.closeConnection)

def serveAll (httpCallback : HttpCallback) (requests : List HttpRequest) :
    List (List Byte) × Bool :=
  requests.foldl (serve httpCallback) ([], true)

theorem serveAll_snoc (httpCallback : HttpCallback) (requests : List HttpRequest)
    (req : HttpRequest) :
    serveAll httpCallback (requests ++ [req]) =
      serve httpCallback (serveAll httpCallback requests) req := by
  simp [serveAll]

/-- The callback answers by method, path, query, version and headers. -/
def IgnoresTime (httpCallback : HttpCallback) : Prop :=
  ∀ req response, httpCallback req.timeless response = httpCallback req response

theorem respond_timeless {httpCallback : HttpCallback} (ignores : IgnoresTime httpCallback)
    (req : HttpRequest) : respond httpCallback req.timeless = respond httpCallback req :=
  ignores req _

/-- The requests `finished` are dispatched and answered; the parser is where it
would be had it read `pending`, the received bytes of the requests behind them,
from a fresh context. -/
structure Serving (httpCallback : HttpCallback) (h : HttpConnection)
    (finished : List RequestText) (pending : List Byte) : Prop where
  ready : Ready h h.connection.inputBuffer.content
  dispatched : h.dispatched.map HttpRequest.timeless = finished.map RequestText.request
  sent : executed h.connection.log =
    (serveAll httpCallback (finished.map RequestText.request)).1
  connected : h.connection.connected =
    (serveAll httpCallback (finished.map RequestText.request)).2
  resumes : ∃ version, ∀ more,
    parseText 0 h.context.timeless (h.connection.inputBuffer.content ++ more) =
      parseText 0 (fresh version) (pending ++ more)

section

variable {httpCallback : HttpCallback} {h : HttpConnection} {finished : List RequestText}
  {pending : List Byte}

/-- The parse of a delivery, read off from a fresh context. -/
theorem Serving.parse (serving : Serving httpCallback h finished pending)
    {version : Version}
    (resumes : ∀ more,
      parseText 0 h.context.timeless (h.connection.inputBuffer.content ++ more) =
        parseText 0 (fresh version) (pending ++ more))
    (delivery : Delivery) {plain : TextParsed}
    (parse : parseText 0 (fresh version) (pending ++ delivery.data) = .ok plain) :
    ∃ (parsed : TextParsed) (buffer : Buffer),
      parsed.timeless = plain ∧ Represents buffer parsed.rest ∧
        h.deliver httpCallback delivery =
          h.afterParse httpCallback ⟨parsed.ok, parsed.context, buffer⟩ delivery.direct := by
  rw [← resumes, parseText_timeless delivery.receiveTime] at parse
  rcases deliver_parsed httpCallback serving.ready delivery with
    ⟨fault, faulted, -⟩ | ⟨parsed, buffer, parsedToo, after, delivered⟩
  · rw [faulted] at parse
    cases parse
  · rw [parsedToo] at parse
    exact ⟨parsed, buffer, Except.ok.inj parse, after, delivered⟩

/-- The delivery that completes the first request behind the finished ones
dispatches exactly this request. -/
theorem deliver_dispatches (serving : Serving httpCallback h finished pending)
    (ignores : IgnoresTime httpCallback) {t : RequestText}
    (wellFormed : RequestText.WellFormed t) (delivery : Delivery) {left : List Byte}
    (complete : pending ++ delivery.data = t.bytes ++ left) :
    ∃ next, h.deliver httpCallback delivery = .ok next ∧
      Serving httpCallback next (finished ++ [t]) left := by
  rcases serving.resumes with ⟨version, resumes⟩
  have plain := parseText_wellFormed wellFormed version left
  rw [← complete] at plain
  rcases serving.parse resumes delivery plain with ⟨parsed, buffer, same, after, delivered⟩
  have ok : parsed.ok = true := congrArg TextParsed.ok same
  have context : parsed.context.timeless = ⟨.kGotAll, t.request⟩ :=
    congrArg TextParsed.context same
  have rest : parsed.rest = left := congrArg TextParsed.rest same
  have gotAll : parsed.context.gotAll = true := by
    have state : parsed.context.state = .kGotAll := congrArg HttpContext.state context
    simp [HttpContext.gotAll, state]
  have request : parsed.context.request.timeless = t.request :=
    congrArg HttpContext.request context
  have response : respond httpCallback parsed.context.request = respond httpCallback t.request := by
    rw [← request, respond_timeless ignores]
  rcases afterParse_dispatched httpCallback serving.ready after ok gotAll delivery.direct with
    ⟨next, ran, ready, reset, -, dispatched, sent, connected⟩
  refine ⟨next, delivered.trans ran, ⟨ready.sound, ready.alive, rfl⟩, ?_, ?_, ?_, ?_⟩
  · simp [dispatched, serving.dispatched, request]
  · rw [List.map_append, List.map_singleton, serveAll_snoc, sent, response, serving.sent,
      serving.connected]
    rfl
  · rw [List.map_append, List.map_singleton, serveAll_snoc, connected, response,
      serving.connected]
    rfl
  · refine ⟨parsed.context.request.version, ?_⟩
    intro more
    rw [reset, ready.received, rest]
    rfl

/-- A delivery that ends inside the first request behind the finished ones, or
at the end of the stream, dispatches nothing. -/
theorem deliver_waits (serving : Serving httpCallback h finished pending)
    (delivery : Delivery)
    (beginning : ∀ version, ∃ plain,
      parseText 0 (fresh version) (pending ++ delivery.data) = .ok plain ∧
        (plain.ok && !plain.context.gotAll) = true) :
    ∃ next, h.deliver httpCallback delivery = .ok next ∧
      Serving httpCallback next finished (pending ++ delivery.data) := by
  rcases serving.resumes with ⟨version, resumes⟩
  rcases beginning version with ⟨plain, parse, waits⟩
  rcases serving.parse resumes delivery parse with ⟨parsed, buffer, same, after, delivered⟩
  subst same
  have flags := Bool.and_eq_true_iff.mp waits
  have ok : parsed.ok = true := flags.1
  have unfinished : parsed.context.gotAll = false := by
    have open_ : (!parsed.context.gotAll) = true := flags.2
    simpa using open_
  rcases afterParse_waiting httpCallback serving.ready after ok unfinished delivery.direct with
    ⟨next, ran, ready, context, -, dispatched, sent, connected⟩
  refine ⟨next, delivered.trans ran, ⟨ready.sound, ready.alive, rfl⟩, ?_, ?_, ?_, ?_⟩
  · rw [dispatched, serving.dispatched]
  · rw [sent, serving.sent]
  · rw [connected, serving.connected]
  · refine ⟨version, ?_⟩
    intro more
    have whole := parseText_append 0 (fresh version) (pending ++ delivery.data) more
    rw [parse] at whole
    rw [whole, context, ready.received]
    exact (if_pos waits).symm

/-- A whole cut of a stream. The server is done with all requests at its end
exactly when the deliveries drain them. -/
theorem run_serving (ignores : IgnoresTime httpCallback) (deliveries : List Delivery)
    {todo : List RequestText} (serving : Serving httpCallback h finished pending)
    (wellFormed : ∀ t ∈ todo, RequestText.WellFormed t)
    (stream : pending ++ deliveries.flatMap Delivery.data = todo.flatMap RequestText.bytes) :
    ∃ final served left rest, run (deliver httpCallback) h deliveries = .ok final ∧
      Serving httpCallback final served rest ∧ served ++ left = finished ++ todo ∧
      (left = [] ↔ Drains todo pending.length (deliveries.map (·.data.length))) := by
  induction deliveries generalizing h finished pending todo with
  | nil =>
      refine ⟨h, finished, todo, pending, rfl, serving, rfl, ?_⟩
      exact (drains_nil todo pending.length).symm
  | cons delivery deliveries ih =>
      rw [List.flatMap_cons, ← List.append_assoc] at stream
      rw [List.map_cons]
      have length : (pending ++ delivery.data).length =
          pending.length + delivery.data.length := List.length_append
      cases todo with
      | nil =>
          have empty : pending ++ delivery.data = [] := (List.append_eq_nil_iff.mp stream).1
          rcases deliver_waits serving delivery (fun version => by
              rw [empty]
              exact ⟨_, rfl, rfl⟩) with ⟨next, taken, nextServing⟩
          rw [run_cons_ok deliveries taken, drains_wait _ rfl, ← length]
          exact ih nextServing wellFormed stream
      | cons t rest =>
          have front :
              t.bytes <+: pending ++ delivery.data ++ deliveries.flatMap Delivery.data := by
            rw [stream, List.flatMap_cons]
            exact List.prefix_append _ _
          by_cases complete : t.bytes.length ≤ (pending ++ delivery.data).length
          · rcases List.prefix_of_prefix_length_le front (List.prefix_append _ _) complete with
              ⟨left, split⟩
            rcases deliver_dispatches serving ignores (wellFormed t (by simp)) delivery
              split.symm with ⟨next, taken, nextServing⟩
            have later : left ++ deliveries.flatMap Delivery.data =
                rest.flatMap RequestText.bytes := by
              rw [← split, List.flatMap_cons, List.append_assoc] at stream
              exact List.append_cancel_left stream
            have leftLength : pending.length + delivery.data.length - t.bytes.length =
                left.length := by
              rw [← length, ← split, List.length_append]
              omega
            rw [length] at complete
            rw [run_cons_ok deliveries taken, drains_dispatch _ complete, leftLength]
            rcases ih nextServing (fun other member => wellFormed other (by simp [member])) later
              with ⟨final, served, remaining, unread, ran, finalServing, parts, drained⟩
            exact ⟨final, served, remaining, unread, ran, finalServing, by simpa using parts,
              drained⟩
          · rcases List.prefix_of_prefix_length_le (List.prefix_append _ _) front
              (Nat.le_of_not_le complete) with ⟨missing, split⟩
            have someMissing : missing ≠ [] := by
              rintro rfl
              apply complete
              rw [← split, List.append_nil]
            have unfinished : completed (t :: rest)
                (pending.length + delivery.data.length) = 0 := by
              rw [← length]
              exact if_neg complete
            rcases deliver_waits serving delivery (fun version =>
              parseText_beginning (wellFormed t (by simp)) version split.symm someMissing) with
              ⟨next, taken, nextServing⟩
            rw [run_cons_ok deliveries taken, drains_wait _ unfinished, ← length]
            exact ih nextServing wellFormed stream

theorem start_serving (httpCallback : HttpCallback) (sockfd : Int) (options : Options)
    {c : TcpConnection}
    (established : (TcpConnection.new sockfd options).connectEstablished [] = .ok c) :
    Serving httpCallback (start c) [] [] := by
  have log : c.log = [.connectionCallback true] := by
    cases established
    rfl
  have state : c.state = .kConnected := by
    cases established
    rfl
  have empty : c.inputBuffer.content = [] := by
    cases established
    exact (new_represents kInitialSize).content
  rcases connectEstablished_opens (new_sound sockfd options) rfl [] with
    ⟨opened, same, sound, alive, -⟩
  cases established.symm.trans same
  refine ⟨⟨sound, alive, rfl⟩, rfl, ?_, ?_, .kUnkown, ?_⟩
  · simp only [start, log]
    rfl
  · simp only [start, TcpConnection.connected, state]
    rfl
  · intro more
    simp only [start, empty]
    rfl

end

/-- Two servers at the end of two cuts: both have passed the same requests to
the callback, which are all requests of the stream, and sent the same replies. -/
def SameService (requests : List RequestText) (one two : HttpConnection) : Prop :=
  one.dispatched.map HttpRequest.timeless = two.dispatched.map HttpRequest.timeless ∧
    executed one.connection.log = executed two.connection.log ∧
    one.dispatched.map HttpRequest.timeless = requests.map RequestText.request

/-- The lengths of the deliveries. -/
def lengths (deliveries : List Delivery) : List Nat := deliveries.map (·.data.length)

theorem dispatched_all_iff {httpCallback : HttpCallback} {final : HttpConnection}
    {requests served left : List RequestText} {rest : List Byte}
    (serving : Serving httpCallback final served rest) (parts : served ++ left = requests) :
    final.dispatched.map HttpRequest.timeless = requests.map RequestText.request ↔
      left = [] := by
  rw [serving.dispatched, ← parts, List.map_append]
  constructor
  · intro same
    have lengths := congrArg List.length same
    simp only [List.length_append, List.length_map] at lengths
    exact List.length_eq_zero_iff.mp (by omega)
  · rintro rfl
    simp

/-- For every stream of well-formed requests, every callback that is a function
of the request and every two cuts of the stream: the server serves both the same
and dispatches every request, if and only if both cuts keep up. -/
theorem segmentation_independent_iff (httpCallback : HttpCallback)
    (ignores : IgnoresTime httpCallback) (requests : List RequestText)
    (wellFormed : ∀ t ∈ requests, RequestText.WellFormed t) (first second : List Delivery)
    (firstStream : first.flatMap Delivery.data = requests.flatMap RequestText.bytes)
    (secondStream : second.flatMap Delivery.data = requests.flatMap RequestText.bytes)
    (sockfd : Int) (options : Options) (c : TcpConnection)
    (established : (TcpConnection.new sockfd options).connectEstablished [] = .ok c) :
    ∃ one two, run (deliver httpCallback) (start c) first = .ok one ∧
      run (deliver httpCallback) (start c) second = .ok two ∧
      (SameService requests one two ↔
        KeepsUp requests (lengths first) ∧ KeepsUp requests (lengths second)) := by
  have serving := start_serving httpCallback sockfd options established
  rcases run_serving ignores first serving wellFormed firstStream with
    ⟨one, served, left, unread, ran, oneServing, parts, drained⟩
  rcases run_serving ignores second serving wellFormed secondStream with
    ⟨two, servedToo, leftToo, unreadToo, ranToo, twoServing, partsToo, drainedToo⟩
  rw [List.nil_append] at parts partsToo
  have all := dispatched_all_iff oneServing parts
  have allToo := dispatched_all_iff twoServing partsToo
  refine ⟨one, two, ran, ranToo, ?_⟩
  rw [keepsUp_iff_drains, keepsUp_iff_drains]
  constructor
  · rintro ⟨sameRequests, -, whole⟩
    exact ⟨drained.mp (all.mp whole), drainedToo.mp (allToo.mp (sameRequests ▸ whole))⟩
  · rintro ⟨drains, drainsToo⟩
    have noneLeft := drained.mpr drains
    have noneLeftToo := drainedToo.mpr drainsToo
    have whole := all.mpr noneLeft
    have wholeToo := allToo.mpr noneLeftToo
    refine ⟨whole.trans wholeToo.symm, ?_, whole⟩
    subst noneLeft noneLeftToo
    rw [List.append_nil] at parts partsToo
    rw [oneServing.sent, twoServing.sent, parts, partsToo]

/-- `GET / HTTP/1.1` without headers. -/
def plainGet : RequestText := ⟨.kGet, text "/", .kHttp11, []⟩

theorem plainGet_wellFormed : RequestText.WellFormed plainGet :=
  ⟨by decide, by decide, by decide, by decide, by decide⟩

set_option maxRecDepth 20000 in
/-- Two requests, one delivery for each of them, or the first one in two pieces. -/
theorem two_cuts_served_alike :
    ∃ c one two, (TcpConnection.new 5 ⟨false, false, 64⟩).connectEstablished [] = .ok c ∧
      run (deliver defaultHttpCallback) (start c)
        [⟨plainGet.bytes, 1, .wrote 100⟩, ⟨plainGet.bytes, 2, .wrote 0⟩] = .ok one ∧
      run (deliver defaultHttpCallback) (start c)
        [⟨text "GET / HT", 1, .wrote 0⟩, ⟨text "TP/1.1\r\n\r\n", 2, .wrote 3⟩,
          ⟨plainGet.bytes, 3, .wrote 0⟩] = .ok two ∧
      SameService [plainGet, plainGet] one two := by
  rcases segmentation_independent_iff defaultHttpCallback (fun _ _ => rfl)
      [plainGet, plainGet] (by simp [plainGet_wellFormed])
      [⟨plainGet.bytes, 1, .wrote 100⟩, ⟨plainGet.bytes, 2, .wrote 0⟩]
      [⟨text "GET / HT", 1, .wrote 0⟩, ⟨text "TP/1.1\r\n\r\n", 2, .wrote 3⟩,
        ⟨plainGet.bytes, 3, .wrote 0⟩] rfl (by decide) 5 ⟨false, false, 64⟩ _ rfl with
    ⟨one, two, ran, ranToo, served⟩
  exact ⟨_, one, two, rfl, ran, ranToo, served.mpr (by decide)⟩

set_option maxRecDepth 20000 in
/-- Two pipelined requests that arrive together: the second one is never
dispatched. -/
theorem pipelined_request_stays :
    ∃ c one two, (TcpConnection.new 5 ⟨false, false, 64⟩).connectEstablished [] = .ok c ∧
      run (deliver fun _ response => response) (start c)
        [⟨plainGet.bytes ++ plainGet.bytes, 1, .wrote 100⟩] = .ok one ∧
      run (deliver fun _ response => response) (start c)
        [⟨plainGet.bytes, 1, .wrote 100⟩, ⟨plainGet.bytes, 2, .wrote 100⟩] = .ok two ∧
      one.dispatched.length = 1 ∧ two.dispatched.length = 2 ∧
      one.connection.inputBuffer.content = plainGet.bytes ∧
      ¬SameService [plainGet, plainGet] one two := by
  refine ⟨_, _, _, rfl, rfl, rfl, rfl, rfl, by decide, ?_⟩
  intro same
  have lengths := congrArg List.length same.1
  exact absurd lengths (by decide)

end Msmuduo.HttpConnection
