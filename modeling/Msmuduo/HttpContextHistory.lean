import Msmuduo.HttpChunks
import Msmuduo.HttpRequestLine

/-!
# The history of a parsing context

A context lives through calls of `parseRequest`, on one buffer after another,
and of `reset`. The loop of `parseRequest` has no branch for `kGotAll`: called
on a completed request it goes round forever. `reset` goes by
`HttpRequest::swap`, which leaves out `version_`: after an accepted request
line the context is never again like a new one.
-/

namespace Msmuduo.HttpContext

open Msmuduo.Machine Msmuduo.Buffer HttpConnection HttpRequest

set_option autoImplicit false

/-- A buffer with its indices in order. -/
structure SoundBuffer where
  buf : Buffer
  represents : Represents buf buf.content

/-- A buffer with exactly these readable bytes. -/
def SoundBuffer.holding (content : List Byte) : SoundBuffer where
  buf :=
    { buffer := List.replicate kCheapPrepend 0 ++ content
      readerIndex := kCheapPrepend
      writerIndex := kCheapPrepend + content.length }
  represents := by
    constructor
    · exact Nat.le_add_right _ _
    · simp
    · simp
    · rfl

inductive ContextCall where
  | parseRequest (input : SoundBuffer) (receiveTime : Int)
  | reset

def call (c : HttpContext) : ContextCall → Except HttpFault HttpContext
  | .parseRequest input receiveTime => do
      let parsed ← c.parseRequest input.buf receiveTime
      return parsed.context
  | .reset => .ok c.reset

/-- The loop ends after some number of turns, with a result or in an assertion. -/
def LoopEnds (c : HttpContext) (buf : Buffer) (receiveTime : Int) : Prop :=
  ∃ turns, parseLoop turns c buf receiveTime ≠ .error .neverReturns

/-- What a caller gets to see: every `parseRequest` shows its result, the
context with its request, and the bytes it left. -/
def observe : HttpContext → List ContextCall → List (Except HttpFault Parsed)
  | _, [] => []
  | c, .parseRequest input receiveTime :: rest =>
      match c.parseRequest input.buf receiveTime with
      | .error fault => [.error fault]
      | .ok parsed => .ok parsed :: observe parsed.context rest
  | c, .reset :: rest => observe c.reset rest

/-- The call meets a line of the language where a request line is expected. -/
def AcceptsLine (c : HttpContext) : ContextCall → Prop
  | .parseRequest input _ =>
      c.state = .kExpectRequestLine ∧ ∃ offset, lineEnd input.buf.content = some offset ∧
        ∃ method target version,
          RequestLine (input.buf.content.take offset) method target version
  | .reset => False

/-! ## One call -/

theorem call_parse {c next : HttpContext} {input : SoundBuffer} {receiveTime : Int}
    (called : call c (.parseRequest input receiveTime) = .ok next) :
    ∃ parsed, parseText receiveTime c input.buf.content = .ok parsed ∧ parsed.context = next := by
  simp only [call] at called
  rcases parseRequest_text c input.represents receiveTime with
    ⟨fault, -, faulted⟩ | ⟨parsed, buf, parse, ran, -⟩
  · rw [faulted] at called
    cases called
  · rw [ran] at called
    exact ⟨parsed, parse, Except.ok.inj called⟩

theorem parseHeaders_version (r : HttpRequest) (content : List Byte) :
    (parseHeaders r content).context.request.version = r.version := by
  induction r, content using parseHeaders.induct with
  | case1 r content missing => rw [parseHeaders_none r missing]
  | case2 r content offset found line colon inside ih =>
      rw [parseHeaders_some r found, if_pos inside]
      exact ih
  | case3 r content offset found line colon outside =>
      rw [parseHeaders_some r found, if_neg outside]

/-- No call leaves the context in `kExpectBody`. -/
theorem parseText_state {c : HttpContext} {receiveTime : Int} {content : List Byte}
    {parsed : TextParsed} (parse : parseText receiveTime c content = .ok parsed) :
    parsed.context.state ≠ .kExpectBody := by
  have headers : ∀ (r : HttpRequest) (content : List Byte),
      (parseHeaders r content).context.state ≠ .kExpectBody := by
    intro r content
    rcases parseHeaders_ok r content with ⟨-, state | state⟩
    · rw [state]
      simp
    · rw [state]
      simp
  rcases c with ⟨state, r⟩
  cases state with
  | kExpectBody => cases parse
  | kGotAll => cases parse
  | kExpectHeaders =>
      cases parse
      exact headers r content
  | kExpectRequestLine =>
      cases found : lineEnd content with
      | none =>
          simp only [parseText, found] at parse
          cases parse
          simp
      | some offset =>
          simp only [parseText, found] at parse
          rcases bind_ok_inv parse with ⟨⟨ok, after⟩, -, finish⟩
          cases ok with
          | true =>
              cases finish
              exact headers _ _
          | false =>
              cases finish
              simp

theorem call_state {c next : HttpContext} {event : ContextCall}
    (called : call c event = .ok next) : next.state ≠ .kExpectBody := by
  cases event with
  | reset =>
      cases called
      simp [reset]
  | parseRequest input receiveTime =>
      rcases call_parse called with ⟨parsed, parse, same⟩
      rw [← same]
      exact parseText_state parse

/-- A call sets the version if and only if it accepts a request line, and no
call takes it back. -/
theorem call_version {c next : HttpContext} {event : ContextCall}
    (called : call c event = .ok next) :
    next.request.version = .kUnkown ↔ c.request.version = .kUnkown ∧ ¬AcceptsLine c event := by
  cases event with
  | reset =>
      cases called
      simp [reset, swapWithNew, AcceptsLine]
  | parseRequest input receiveTime =>
      rcases call_parse called with ⟨parsed, parse, same⟩
      rw [← same]
      rcases c with ⟨state, r⟩
      cases state with
      | kExpectBody => cases parse
      | kGotAll => cases parse
      | kExpectHeaders =>
          cases parse
          simp [AcceptsLine, parseHeaders_version]
      | kExpectRequestLine =>
          cases found : lineEnd input.buf.content with
          | none =>
              simp only [parseText, found] at parse
              cases parse
              simp [AcceptsLine, found]
          | some offset =>
              simp only [parseText, found] at parse
              rcases bind_ok_inv parse with ⟨⟨ok, after⟩, processed, finish⟩
              have accepts := processRequestLine_ok_iff processed
              have accepted : AcceptsLine ⟨.kExpectRequestLine, r⟩
                  (.parseRequest input receiveTime) ↔ ok = true := by
                simp [AcceptsLine, found, accepts]
              rw [accepted]
              rcases processRequestLine_cases processed with
                ⟨rfl, method, target, version, parts, sets⟩ | ⟨rfl, kept⟩
              · cases finish
                simp [parseHeaders_version, sets, parts.version_known]
              · cases finish
                simp [kept]

theorem parseText_faults {c : HttpContext} {receiveTime : Int} {content : List Byte}
    (spins : parseText receiveTime c content = .error .neverReturns) :
    c.state = .kExpectBody ∨ c.state = .kGotAll := by
  rcases c with ⟨state, r⟩
  cases state with
  | kExpectBody => exact Or.inl rfl
  | kGotAll => exact Or.inr rfl
  | kExpectHeaders => cases spins
  | kExpectRequestLine =>
      exfalso
      cases found : lineEnd content with
      | none =>
          simp only [parseText, found] at spins
          cases spins
      | some offset =>
          simp only [parseText, found] at spins
          by_cases unset : r.method = .kInvalid
          · rcases processRequestLine_total unset (content.take offset) with ⟨ok, after, ran, -⟩
            rw [ran] at spins
            cases ok with
            | true => cases spins
            | false => cases spins
          · by_cases spaced : 32 ∈ content.take offset
            · rw [processRequestLine_set spaced unset] at spins
              cases spins
            · rw [processRequestLine_unspaced r spaced] at spins
              cases spins

/-! ## Histories -/

theorem run_state {calls : List ContextCall} {c : HttpContext}
    (reached : run call HttpContext.new calls = .ok c) : c.state ≠ .kExpectBody := by
  apply run_invariant (fun c => c.state ≠ .kExpectBody) _ _ reached
  · intro state event next _ called
    exact call_state called
  · simp [HttpContext.new]

/-- For every context in the history of calls and every buffer: the loop of the
next `parseRequest` ends if and only if the context has no completed request. -/
theorem loop_ends_iff_not_gotAll {calls : List ContextCall} {c : HttpContext}
    (reached : run call HttpContext.new calls = .ok c) (input : SoundBuffer)
    (receiveTime : Int) :
    LoopEnds c input.buf receiveTime ↔ c.gotAll = false := by
  have notBody := run_state reached
  constructor
  · rintro ⟨turns, ends⟩
    by_contra got
    have state : c.state = .kGotAll := by simpa [gotAll] using got
    exact ends (parseLoop_spins turns c input.buf receiveTime (Or.inr state))
  · intro unfinished
    refine ⟨input.buf.readableBytes + 2, ?_⟩
    change c.parseRequest input.buf receiveTime ≠ .error .neverReturns
    rcases parseRequest_text c input.represents receiveTime with
      ⟨fault, faults, failed⟩ | ⟨parsed, buf, -, ran, -⟩
    · intro spins
      rw [failed] at spins
      cases spins
      rcases parseText_faults faults with body | all
      · exact notBody body
      · simp [gotAll, all] at unfinished
    · rw [ran]
      simp

/-- A request, a reset, and the beginning of the next request. -/
theorem loop_ends_after_reset :
    ∃ c, run call HttpContext.new
        [.parseRequest (.holding (text "GET / HTTP/1.1\r\n\r\n")) 0, .reset] = .ok c ∧
      LoopEnds c (SoundBuffer.holding (text "GET / HT")).buf 1 := by
  have reached : run call HttpContext.new
      [.parseRequest (.holding (text "GET / HTTP/1.1\r\n\r\n")) 0, .reset] =
        .ok (fresh .kHttp11) := by decide
  exact ⟨_, reached, (loop_ends_iff_not_gotAll reached (.holding (text "GET / HT")) 1).mpr rfl⟩

/-- A second call on a completed request never returns, whatever the buffer. -/
theorem completed_request_spins :
    ∃ c, run call HttpContext.new
        [.parseRequest (.holding (text "GET / HTTP/1.1\r\n\r\n")) 0] = .ok c ∧
      ¬LoopEnds c (SoundBuffer.holding []).buf 1 := by
  have reached : run call HttpContext.new
      [.parseRequest (.holding (text "GET / HTTP/1.1\r\n\r\n")) 0] = .ok ⟨.kGotAll,
        { HttpRequest.new with method := .kGet, version := .kHttp11, path := text "/" }⟩ := by
    decide
  refine ⟨_, reached, ?_⟩
  rintro ⟨turns, ends⟩
  exact ends (parseLoop_spins turns _ _ 1 (Or.inr rfl))

/-- The version is unset exactly while no request line has been accepted. -/
theorem run_version {calls : List ContextCall} {c : HttpContext}
    (reached : run call HttpContext.new calls = .ok c) :
    c.request.version = .kUnkown ↔
      AllSteps call (fun c event => ¬AcceptsLine c event) HttpContext.new calls := by
  apply run_history (fun calls c => c.request.version = .kUnkown ↔
    AllSteps call (fun c event => ¬AcceptsLine c event) HttpContext.new calls) _ _ reached
  · simp [AllSteps, HttpContext.new, HttpRequest.new]
  · intro calls c event next ran unset called
    rw [call_version called, all_steps_append [event] ran, all_steps_singleton, unset]

theorem reset_fresh (c : HttpContext) : c.reset = fresh c.request.version := rfl

/-- After every history: the context after `reset` is the new one, and shows the
same in every further sequence of calls, if and only if no call of the history
accepted a request line. -/
theorem reset_like_new_iff {calls : List ContextCall} {c : HttpContext}
    (reached : run call HttpContext.new calls = .ok c) :
    (c.reset = HttpContext.new ∧
        ∀ later, observe c.reset later = observe HttpContext.new later) ↔
      AllSteps call (fun c event => ¬AcceptsLine c event) HttpContext.new calls := by
  rw [← run_version reached, reset_fresh]
  constructor
  · rintro ⟨same, -⟩
    exact congrArg (fun c => c.request.version) same
  · intro unset
    rw [unset]
    exact ⟨rfl, fun _ => rfl⟩

/-- An incomplete and a rejected line leave nothing behind. -/
theorem rejected_line_leaves_nothing :
    ∃ c, run call HttpContext.new
        [.parseRequest (.holding (text "GET / HT")) 0,
          .parseRequest (.holding (text "BAD\r\n")) 1] = .ok c ∧
      c.reset = HttpContext.new ∧
      AllSteps call (fun c event => ¬AcceptsLine c event) HttpContext.new
        [.parseRequest (.holding (text "GET / HT")) 0,
          .parseRequest (.holding (text "BAD\r\n")) 1] := by
  have reached : run call HttpContext.new
      [.parseRequest (.holding (text "GET / HT")) 0,
        .parseRequest (.holding (text "BAD\r\n")) 1] = .ok HttpContext.new := by decide
  exact ⟨_, reached, rfl, (reset_like_new_iff reached).mp ⟨rfl, fun _ => rfl⟩⟩

/-- The version of a request is still there after `reset`. -/
theorem version_survives_reset :
    ∃ c, run call HttpContext.new
        [.parseRequest (.holding (text "GET / HTTP/1.1\r\n\r\n")) 0] = .ok c ∧
      c.reset.request.version = .kHttp11 ∧ HttpContext.new.request.version = .kUnkown ∧
      observe c.reset [.parseRequest (.holding []) 1] ≠
        observe HttpContext.new [.parseRequest (.holding []) 1] := by
  have reached : run call HttpContext.new
      [.parseRequest (.holding (text "GET / HTTP/1.1\r\n\r\n")) 0] = .ok ⟨.kGotAll,
        { HttpRequest.new with method := .kGet, version := .kHttp11, path := text "/" }⟩ := by
    decide
  refine ⟨_, reached, rfl, rfl, ?_⟩
  decide

end Msmuduo.HttpContext
