import Msmuduo.HttpRejection

/-!
# Parsing a text that arrives in chunks

`feed` is what a caller of the parser does with chunks that arrive one after the
other: append the chunk, parse, and go on until a call rejects or completes a
request. However a text is cut, this ends where one call on the whole text ends.
-/

namespace Msmuduo.HttpContext

open Msmuduo.Buffer HttpConnection

set_option autoImplicit false

inductive Verdict where
  | error
  | complete
  | incomplete
  deriving DecidableEq, Repr

def Parsed.verdict (parsed : Parsed) : Verdict :=
  if !parsed.ok then .error
  else if parsed.context.gotAll then .complete
  else .incomplete

/-- The last call and the chunks that were not appended any more. Without chunks
there is no call, and nothing has been rejected. -/
def feed (receiveTime : Int) (c : HttpContext) (buf : Buffer) :
    List (List Byte) → Except HttpFault (Parsed × List (List Byte))
  | [] => .ok (⟨true, c, buf⟩, [])
  | chunk :: rest => do
      let buf ← inBuffer (buf.append chunk)
      let parsed ← c.parseRequest buf receiveTime
      if parsed.ok && !parsed.context.gotAll then
        feed receiveTime parsed.context parsed.buffer rest
      else return (parsed, rest)

section

variable {c : HttpContext} {buf : Buffer} {content : List Byte} (receiveTime : Int)

/-- One call on a buffer and an expectant context. -/
theorem parseRequest_expectant (expectant : Expectant c) (represents : Represents buf content) :
    ∃ parsed next, parseText receiveTime c content = .ok parsed ∧
      c.parseRequest buf receiveTime = .ok ⟨parsed.ok, parsed.context, next⟩ ∧
      Represents next parsed.rest ∧
      (parsed.ok = true → parsed.context.gotAll = false → Expectant parsed.context) := by
  rcases parseText_expectant expectant receiveTime content with ⟨parsed, parse, outcome⟩
  rcases parseRequest_text c represents receiveTime with
    ⟨fault, faulted, -⟩ | ⟨other, next, same, called, after⟩
  · cases parse.symm.trans faulted
  · cases parse.symm.trans same
    refine ⟨parsed, next, parse, called, after, ?_⟩
    intro ok waiting
    rcases outcome with ⟨-, complete | still⟩ | ⟨failed, -⟩
    · rw [waiting] at complete
      cases complete
    · exact still
    · rw [ok] at failed
      cases failed

/-- One turn of `feed`. -/
theorem feed_cons (expectant : Expectant c) (represents : Represents buf content)
    (chunk : List Byte) (rest : List (List Byte)) :
    ∃ parsed next, parseText receiveTime c (content ++ chunk) = .ok parsed ∧
      feed receiveTime c buf (chunk :: rest) =
        (if parsed.ok && !parsed.context.gotAll then
          feed receiveTime parsed.context next rest
        else .ok (⟨parsed.ok, parsed.context, next⟩, rest)) ∧
      Represents next parsed.rest ∧
      (parsed.ok = true → parsed.context.gotAll = false → Expectant parsed.context) := by
  rcases append_represents represents chunk with ⟨longer, appended, longerRepresents⟩
  rcases parseRequest_expectant receiveTime expectant longerRepresents with
    ⟨parsed, next, parse, called, after, still⟩
  refine ⟨parsed, next, parse, ?_, after, still⟩
  have filled : inBuffer (buf.append chunk) = .ok longer := by
    rw [appended]
    rfl
  simp only [feed, filled, called, bind, Except.bind, pure, Except.pure]

/-- The loop over the chunks against one parse of all the bytes. The context is
one that has taken in all it can of the bytes in the buffer. -/
theorem feed_follows_parseText (chunks : List (List Byte)) (expectant : Expectant c)
    (represents : Represents buf content)
    (settled : parseText receiveTime c content = .ok ⟨true, c, content⟩) :
    ∃ parsed next left,
      parseText receiveTime c (content ++ chunks.flatten) = .ok parsed ∧
      feed receiveTime c buf chunks = .ok (⟨parsed.ok, parsed.context, next⟩, left) ∧
      next.content ++ left.flatten = parsed.rest := by
  induction chunks generalizing c buf content with
  | nil =>
      refine ⟨⟨true, c, content⟩, buf, [], ?_, rfl, ?_⟩
      · simpa using settled
      · simp [represents.content]
  | cons chunk rest ih =>
      rcases feed_cons receiveTime expectant represents chunk rest with
        ⟨parsed, next, parse, turn, after, still⟩
      have whole := parseText_append receiveTime c (content ++ chunk) rest.flatten
      simp only [parse] at whole
      rw [List.flatten_cons, ← List.append_assoc, whole, turn]
      cases goes : parsed.ok && !parsed.context.gotAll with
      | false =>
          refine ⟨parsed.extend rest.flatten, next, rest, rfl, rfl, ?_⟩
          rw [after.content]
          rfl
      | true =>
          have ok : parsed.ok = true := by simp_all
          have unfinished : parsed.context.gotAll = false := by simp_all
          -- A second call without new bytes changes nothing.
          have again := parseText_append receiveTime c (content ++ chunk) []
          simp only [parse, List.append_nil, goes, if_true] at again
          apply ih (still ok unfinished) after
          rw [← again]
          rcases parsed with ⟨status, context, left⟩
          cases ok
          rfl

end

theorem new_expectant : Expectant HttpContext.new := Or.inl ⟨rfl, rfl⟩

/-- For every text and every way to cut it into chunks: feeding the chunks and
parsing the whole text in one call both return, with the same verdict, the same
parse state and request, and the same bytes not yet consumed. -/
theorem feed_chunks_like_whole (initialSize : Nat) (receiveTime : Int)
    (chunks : List (List Byte)) :
    ∃ buf whole fed left,
      (Buffer.new initialSize).append chunks.flatten = .ok buf ∧
      HttpContext.new.parseRequest buf receiveTime = .ok whole ∧
      feed receiveTime HttpContext.new (Buffer.new initialSize) chunks = .ok (fed, left) ∧
      fed.verdict = whole.verdict ∧
      fed.context.state = whole.context.state ∧
      fed.context.request = whole.context.request ∧
      fed.buffer.content ++ left.flatten = whole.buffer.content := by
  have empty := new_represents initialSize
  rcases append_represents empty chunks.flatten with ⟨buf, appended, represents⟩
  rcases parseRequest_expectant receiveTime new_expectant represents with
    ⟨parsed, rest, parse, called, after, -⟩
  rcases feed_follows_parseText receiveTime chunks new_expectant empty rfl with
    ⟨other, next, left, same, fed, unconsumed⟩
  cases parse.symm.trans same
  refine ⟨buf, _, _, left, appended, called, fed, rfl, rfl, rfl, ?_⟩
  rw [after.content]
  exact unconsumed

end Msmuduo.HttpContext
