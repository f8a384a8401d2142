import Msmuduo.HttpDispatch

/-!
# The assertion of `setMethod`

A request line that begins with a method and is rejected for what follows stays
in the buffer, and the method it set stays in the context. The server answers
400 and shuts its write side down, but reading goes on, so the next delivery
parses the same line again and runs into `assert(method_ == kInvalid)`. This is
the only way to reach the assertion.
-/

namespace Msmuduo.HttpConnection

open Msmuduo.Machine Msmuduo.Window Msmuduo.TcpConnection HttpContext HttpRequest

set_option autoImplicit false

/-- The line begins with one of the five method words and a space. -/
def BeginsWithMethod (line : List Byte) : Prop :=
  32 ∈ line ∧ methodOf (line.take (line.idxOf 32)) ≠ .kInvalid

instance (line : List Byte) : Decidable (BeginsWithMethod line) :=
  inferInstanceAs (Decidable (_ ∧ _))

/-! ## The request line -/

theorem processRequestLine_unspaced (r : HttpRequest) {line : List Byte}
    (unspaced : 32 ∉ line) : processRequestLine r line = .ok (false, r) := by
  simp [processRequestLine, find_whole, List.idxOf_eq_length unspaced, pure, Except.pure]

theorem processRequestLine_set {r : HttpRequest} {line : List Byte} (spaced : 32 ∈ line)
    (set : r.method ≠ .kInvalid) :
    processRequestLine r line = .error .setMethodInvalid := by
  have inside : line.idxOf 32 ≠ line.length := Nat.ne_of_lt (List.idxOf_lt_length_of_mem spaced)
  simp only [processRequestLine, find_whole, if_pos inside, setMethod, require_error set]
  rfl

/-- On a request without a method the line decides which method is set, and a
line without a known method is rejected. -/
theorem processRequestLine_unset {r : HttpRequest} {line : List Byte} (spaced : 32 ∈ line)
    (unset : r.method = .kInvalid) :
    ∃ ok after, processRequestLine r line = .ok (ok, after) ∧
      after.method = methodOf (line.take (line.idxOf 32)) ∧
      (after.method = .kInvalid → ok = false) := by
  have inside : line.idxOf 32 ≠ line.length := Nat.ne_of_lt (List.idxOf_lt_length_of_mem spaced)
  have word : window line 0 (line.idxOf 32) = line.take (line.idxOf 32) := by simp [window]
  simp only [processRequestLine, find_whole, if_pos inside, setMethod, require_ok unset, word,
    bind, Except.bind, pure, Except.pure]
  by_cases known : (methodOf (line.take (line.idxOf 32)) != .kInvalid) = true
  · have set : methodOf (line.take (line.idxOf 32)) ≠ .kInvalid := by simpa using known
    simp only [if_pos known]
    repeat' split
    all_goals exact ⟨_, _, rfl, rfl, fun impossible => absurd impossible set⟩
  · simp only [if_neg known]
    exact ⟨false, _, rfl, rfl, fun _ => rfl⟩

/-- Every line is read without a fault on a request without a method. -/
theorem processRequestLine_total {r : HttpRequest} (unset : r.method = .kInvalid)
    (line : List Byte) :
    ∃ ok after, processRequestLine r line = .ok (ok, after) ∧
      (after.method ≠ .kInvalid ↔ BeginsWithMethod line) ∧
      (¬BeginsWithMethod line → ok = false) := by
  by_cases spaced : 32 ∈ line
  · rcases processRequestLine_unset spaced unset with ⟨ok, after, ran, method, rejects⟩
    refine ⟨ok, after, ran, ?_, ?_⟩
    · rw [method]
      exact ⟨fun known => ⟨spaced, known⟩, fun begins => begins.2⟩
    · intro unknown
      apply rejects
      by_contra known
      rw [method] at known
      exact unknown ⟨spaced, known⟩
  · refine ⟨false, r, processRequestLine_unspaced r spaced, ?_, fun _ => rfl⟩
    exact ⟨fun set => absurd unset set, fun begins => absurd begins.1 spaced⟩

/-! ## The parser -/

/-- A context the parser can be called on: it expects a request line on a
request without a method, or headers. -/
def Expectant (c : HttpContext) : Prop :=
  c.state = .kExpectRequestLine ∧ c.request.method = .kInvalid ∨ c.state = .kExpectHeaders

/-- What is left behind by a rejected request line. -/
def Stuck (c : HttpContext) (content : List Byte) : Prop :=
  c.state = .kExpectRequestLine ∧ ∃ offset, lineEnd content = some offset ∧
    (c.request.method ≠ .kInvalid ↔ BeginsWithMethod (content.take offset))

/-- From an expectant context the parser meets no fault. It waits in an
expectant context, completes a request, or is stuck on the first line. -/
theorem parseText_expectant {c : HttpContext} (expectant : Expectant c) (receiveTime : Int)
    (content : List Byte) :
    ∃ parsed, parseText receiveTime c content = .ok parsed ∧
      (parsed.ok = true ∧ (parsed.context.gotAll = true ∨ Expectant parsed.context) ∨
        parsed.ok = false ∧ parsed.rest = content ∧ Stuck parsed.context content) := by
  have headers : ∀ (r : HttpRequest) (content : List Byte),
      (parseHeaders r content).ok = true ∧ ((parseHeaders r content).context.gotAll = true ∨
        Expectant (parseHeaders r content).context) := by
    intro r content
    rcases parseHeaders_ok r content with ⟨ok, state | state⟩
    · exact ⟨ok, Or.inr (Or.inr state)⟩
    · exact ⟨ok, Or.inl (by simp [gotAll, state])⟩
  rcases c with ⟨state, r⟩
  rcases expectant with ⟨rfl, unset⟩ | rfl
  · cases found : lineEnd content with
    | none =>
        exact ⟨⟨true, ⟨.kExpectRequestLine, r⟩, content⟩, by simp [parseText, found],
          Or.inl ⟨rfl, Or.inr (Or.inl ⟨rfl, unset⟩)⟩⟩
    | some offset =>
        rcases processRequestLine_total unset (content.take offset) with
          ⟨ok, after, processed, method, -⟩
        simp only [parseText, found, processed]
        cases ok with
        | true => exact ⟨_, rfl, Or.inl (headers _ _)⟩
        | false => exact ⟨_, rfl, Or.inr ⟨rfl, rfl, rfl, offset, found, method⟩⟩
  · exact ⟨_, rfl, Or.inl (headers r content)⟩

/-- A stuck context with a method runs into the assertion as soon as it is
called again. -/
theorem parseText_stuck_fault {c : HttpContext} {content : List Byte} {offset : Nat}
    (stuck : Stuck c content) (found : lineEnd content = some offset)
    (begins : BeginsWithMethod (content.take offset)) (receiveTime : Int) (more : List Byte) :
    parseText receiveTime c (content ++ more) = .error .setMethodInvalid := by
  rcases stuck with ⟨state, other, foundToo, method⟩
  cases found.symm.trans foundToo
  have bound := lineEnd_bound found
  simp only [parseText, state, lineEnd_append more found,
    List.take_append_of_le_length (show offset ≤ content.length by omega)]
  rw [processRequestLine_set begins.1 (method.mpr begins)]
  rfl

/-- A stuck context without a method rejects the same line again. -/
theorem parseText_stuck_again {c : HttpContext} {content : List Byte} {offset : Nat}
    (stuck : Stuck c content) (found : lineEnd content = some offset)
    (unknown : ¬BeginsWithMethod (content.take offset)) (receiveTime : Int)
    (more : List Byte) :
    ∃ parsed, parseText receiveTime c (content ++ more) = .ok parsed ∧ parsed.ok = false ∧
      parsed.rest = content ++ more ∧ Stuck parsed.context (content ++ more) := by
  rcases stuck with ⟨state, other, foundToo, method⟩
  cases found.symm.trans foundToo
  have bound := lineEnd_bound found
  have unset : c.request.method = .kInvalid := by
    by_contra set
    exact unknown (method.mp set)
  have line : (content ++ more).take offset = content.take offset :=
    List.take_append_of_le_length (by omega)
  rcases processRequestLine_total unset (content.take offset) with
    ⟨ok, after, processed, methodAfter, rejects⟩
  cases rejects unknown
  refine ⟨⟨false, { c with request := after }, content ++ more⟩, ?_, rfl, rfl, state, offset,
    lineEnd_append more found, ?_⟩
  · simp only [parseText, state, lineEnd_append more found, line, processed]
    rfl
  · rw [line]
    exact methodAfter

/-! ## Whole runs -/

/-- The connection has been rejected and is stuck, or the context is one the
parser can be called on. -/
structure Guarded (h : HttpConnection) : Prop where
  ready : Ready h h.connection.inputBuffer.content
  expectant : h.rejected = false → Expectant h.context
  stuck : h.rejected = true → Stuck h.context h.connection.inputBuffer.content

/-- No request line that begins with a method was rejected before: the first
line of a rejected connection does not begin with a method. -/
def Unblocked (h : HttpConnection) (_ : Delivery) : Prop :=
  h.rejected = true → ∀ offset, lineEnd h.connection.inputBuffer.content = some offset →
    ¬BeginsWithMethod (h.connection.inputBuffer.content.take offset)

section

variable {h : HttpConnection} {httpCallback : HttpCallback}

/-- A delivery that rejects leaves a guarded connection. -/
theorem Guarded.rejects (guarded : Guarded h) {delivery : Delivery} {parsed : TextParsed}
    (parse : parseText delivery.receiveTime h.context
      (h.connection.inputBuffer.content ++ delivery.data) = .ok parsed)
    (failed : parsed.ok = false)
    (stuck : Stuck parsed.context parsed.rest) :
    ∃ next, h.deliver httpCallback delivery = .ok next ∧ Guarded next := by
  rcases deliver_parsed httpCallback guarded.ready delivery with
    ⟨fault, faulted, -⟩ | ⟨other, buffer, same, after, delivered⟩
  · rw [parse] at faulted
    cases faulted
  · cases parse.symm.trans same
    rcases afterParse_rejected httpCallback guarded.ready after failed stuck.1 delivery.direct
      with ⟨next, ran, ready, context, rejected⟩
    refine ⟨next, delivered.trans ran, ⟨ready.sound, ready.alive, rfl⟩, ?_, ?_⟩
    · intro unrejected
      rw [rejected] at unrejected
      cases unrejected
    · intro _
      rw [context, ready.received]
      exact stuck

/-- A delivery that waits or dispatches leaves a guarded connection. -/
theorem Guarded.accepts (guarded : Guarded h) (unrejected : h.rejected = false)
    {delivery : Delivery} {parsed : TextParsed}
    (parse : parseText delivery.receiveTime h.context
      (h.connection.inputBuffer.content ++ delivery.data) = .ok parsed)
    (ok : parsed.ok = true)
    (outcome : parsed.context.gotAll = true ∨ Expectant parsed.context) :
    ∃ next, h.deliver httpCallback delivery = .ok next ∧ Guarded next := by
  rcases deliver_parsed httpCallback guarded.ready delivery with
    ⟨fault, faulted, -⟩ | ⟨other, buffer, same, after, delivered⟩
  · rw [parse] at faulted
    cases faulted
  · cases parse.symm.trans same
    cases complete : parsed.context.gotAll with
    | true =>
        rcases afterParse_dispatched httpCallback guarded.ready after ok complete
          delivery.direct with ⟨next, ran, ready, context, rejected, -⟩
        refine ⟨next, delivered.trans ran, ⟨ready.sound, ready.alive, rfl⟩, ?_, ?_⟩
        · intro _
          rw [context]
          exact Or.inl ⟨rfl, rfl⟩
        · intro impossible
          rw [rejected, unrejected] at impossible
          cases impossible
    | false =>
        have expectant : Expectant parsed.context := by
          rcases outcome with complete' | expectant
          · rw [complete] at complete'
            cases complete'
          · exact expectant
        rcases afterParse_waiting httpCallback guarded.ready after ok complete delivery.direct
          with ⟨next, ran, ready, context, rejected, -⟩
        refine ⟨next, delivered.trans ran, ⟨ready.sound, ready.alive, rfl⟩, ?_, ?_⟩
        · intro _
          rw [context]
          exact expectant
        · intro impossible
          rw [rejected, unrejected] at impossible
          cases impossible

theorem deliver_guarded (guarded : Guarded h) (delivery : Delivery)
    (unblocked : Unblocked h delivery) :
    ∃ next, h.deliver httpCallback delivery = .ok next ∧ Guarded next := by
  cases rejected : h.rejected with
  | false =>
      rcases parseText_expectant (guarded.expectant rejected) delivery.receiveTime
          (h.connection.inputBuffer.content ++ delivery.data) with
        ⟨parsed, parse, ⟨ok, outcome⟩ | ⟨failed, rest, stuck⟩⟩
      · exact guarded.accepts rejected parse ok outcome
      · rw [← rest] at stuck
        exact guarded.rejects parse failed stuck
  | true =>
      have stuck := guarded.stuck rejected
      rcases stuck.2 with ⟨offset, found, -⟩
      rcases parseText_stuck_again stuck found (unblocked rejected offset found)
        delivery.receiveTime delivery.data with ⟨parsed, parse, failed, rest, again⟩
      rw [← rest] at again
      exact guarded.rejects parse failed again

theorem deliver_blocked (guarded : Guarded h) (delivery : Delivery)
    (blocked : ¬Unblocked h delivery) :
    h.deliver httpCallback delivery = .error .setMethodInvalid := by
  simp only [Unblocked, not_forall, not_not] at blocked
  rcases blocked with ⟨rejected, offset, found, begins⟩
  have faults := parseText_stuck_fault (guarded.stuck rejected) found begins
    delivery.receiveTime delivery.data
  rcases deliver_parsed httpCallback guarded.ready delivery with
    ⟨fault, faulted, delivered⟩ | ⟨parsed, buffer, parse, -⟩
  · rw [faults] at faulted
    cases faulted
    exact delivered
  · rw [faults] at parse
    cases parse

theorem run_unblocked_iff {deliveries : List Delivery} (guarded : Guarded h) :
    run (deliver httpCallback) h deliveries ≠ .error .setMethodInvalid ↔
      AllSteps (deliver httpCallback) Unblocked h deliveries := by
  induction deliveries generalizing h with
  | nil => simp [AllSteps]
  | cons delivery rest ih =>
      by_cases unblocked : Unblocked h delivery
      · rcases deliver_guarded guarded delivery unblocked with ⟨next, taken, nextGuarded⟩
        rw [run_cons_ok rest taken, all_steps_cons_ok rest taken, ih nextGuarded]
        simp [unblocked]
      · rw [run_cons_error rest (deliver_blocked guarded delivery unblocked)]
        simp only [ne_eq, not_true_eq_false, false_iff]
        intro admitted
        exact unblocked admitted.head

end

theorem start_guarded (sockfd : Int) (options : Options) {c : TcpConnection}
    (established : (TcpConnection.new sockfd options).connectEstablished [] = .ok c) :
    Guarded (start c) := by
  rcases connectEstablished_opens (new_sound sockfd options) rfl [] with
    ⟨opened, same, sound, alive, -⟩
  cases established.symm.trans same
  exact ⟨⟨sound, alive, rfl⟩, fun _ => Or.inl ⟨rfl, rfl⟩, by nofun⟩

/-- For every stream of bytes and every way to cut it into deliveries: the
assertion of `setMethod` never fails if and only if nothing is delivered any
more after a request line that begins with a method was rejected. -/
theorem setMethod_assertion_iff_unblocked (httpCallback : HttpCallback) (sockfd : Int)
    (options : Options) (c : TcpConnection)
    (established : (TcpConnection.new sockfd options).connectEstablished [] = .ok c)
    (deliveries : List Delivery) :
    run (deliver httpCallback) (start c) deliveries ≠ .error .setMethodInvalid ↔
      AllSteps (deliver httpCallback) Unblocked (start c) deliveries :=
  run_unblocked_iff (start_guarded sockfd options established)

set_option maxRecDepth 20000 in
/-- A request in two pieces. -/
theorem pieces_pass_assertion :
    ∃ c, (TcpConnection.new 5 ⟨false, false, 64⟩).connectEstablished [] = .ok c ∧
      run (deliver defaultHttpCallback) (start c)
        [⟨text "GET / HT", 1, .wrote 0⟩, ⟨text "TP/1.1\r\n\r\n", 2, .wrote 100⟩] ≠
        .error .setMethodInvalid :=
  ⟨_, rfl,
    (setMethod_assertion_iff_unblocked defaultHttpCallback 5 ⟨false, false, 64⟩ _ rfl
      [⟨text "GET / HT", 1, .wrote 0⟩, ⟨text "TP/1.1\r\n\r\n", 2, .wrote 100⟩]).mpr
      ((all_steps_cons_ok _ rfl).mpr ⟨by nofun, (all_steps_singleton _ _).mpr (by nofun)⟩)⟩

set_option maxRecDepth 20000 in
/-- The version is missing, so the line is rejected; one more byte from the peer
fails the assertion. -/
theorem rejected_line_fails_assertion :
    ∃ c, (TcpConnection.new 5 ⟨false, false, 64⟩).connectEstablished [] = .ok c ∧
      run (deliver defaultHttpCallback) (start c)
        [⟨text "GET x\r\n", 1, .wrote 100⟩, ⟨text "y", 2, .wrote 0⟩] =
        .error .setMethodInvalid :=
  ⟨_, rfl, by rfl⟩

end Msmuduo.HttpConnection
