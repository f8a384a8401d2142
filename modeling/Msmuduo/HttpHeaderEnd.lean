import Msmuduo.HttpGrammar

/-!
# The line that ends the headers

In `kExpectHeaders` the parser takes the first line without a colon for the
empty line behind the headers. The comment in the source says "empty line", but
the test is only that the line has no colon, so a line such as `foo` ends the
request as well, and what follows it is read as the next request.
-/

namespace Msmuduo.HttpContext

open Msmuduo.Search Msmuduo.Buffer

set_option autoImplicit false

/-- The lines of a text, without what follows the last end of a line. -/
def completeLines (content : List Byte) : List (List Byte) :=
  match found : lineEnd content with
  | none => []
  | some offset => content.take offset :: completeLines (content.drop (offset + 2))
termination_by content.length
decreasing_by
  have bound := lineEnd_bound found
  rw [List.length_drop]
  omega

/-- The first line without a colon. -/
def firstColonless (lines : List (List Byte)) : Option (List Byte) :=
  lines.find? fun line => !line.contains 58

/-- What a call consumed, from the readable bytes before and after it. -/
def consumed (before after : List Byte) : List Byte :=
  before.take (before.length - after.length)

/-! ## Lines of a prefix -/

theorem completeLines_none {content : List Byte} (missing : lineEnd content = none) :
    completeLines content = [] := by
  rw [completeLines]
  split
  · rfl
  · next offset found => rw [missing] at found; cases found

theorem completeLines_some {content : List Byte} {offset : Nat}
    (found : lineEnd content = some offset) :
    completeLines content = content.take offset :: completeLines (content.drop (offset + 2)) := by
  rw [completeLines]
  split
  · next missing => rw [missing] at found; cases found
  · next other same =>
    cases found.symm.trans same
    rfl

/-- The line that was found and its end, before any other bytes. -/
theorem lineEnd_split {content : List Byte} {offset : Nat}
    (found : lineEnd content = some offset) :
    content = content.take offset ++ kCRLF ++ content.drop (offset + 2) := by
  rcases search_of_lineEnd found with ⟨same, inside⟩
  have occurs := occurs_of_search_lt inside
  rw [same] at occurs
  rcases occurs with ⟨rest, split⟩
  have two : kCRLF.length = 2 := rfl
  have behind : content.drop (offset + 2) = rest := by
    rw [← List.drop_drop, ← split, ← two, List.drop_left]
  rw [behind, List.append_assoc, split, List.take_append_drop]

theorem lineEnd_clean {content : List Byte} {offset : Nat}
    (found : lineEnd content = some offset) : ¬kCRLF <:+: content.take offset := by
  rcases search_of_lineEnd found with ⟨same, -⟩
  rw [← same]
  exact search_clean (by decide) content

theorem completeLines_line {line : List Byte} (clean : ¬kCRLF <:+: line) (rest : List Byte) :
    completeLines (line ++ kCRLF ++ rest) = line :: completeLines rest := by
  rw [completeLines_some (lineEnd_line clean rest), take_line, drop_line]

theorem consumed_append (before rest after : List Byte) (shorter : after.length ≤ rest.length) :
    consumed (before ++ rest) after = before ++ consumed rest after := by
  unfold consumed
  rw [List.length_append, Nat.add_sub_assoc shorter, List.take_length_add_append]

theorem consumed_self (content : List Byte) : consumed content content = [] := by
  simp [consumed]

/-- The first line of what was consumed is the first line of the text. -/
theorem completeLines_consumed {content after : List Byte} {offset : Nat}
    (found : lineEnd content = some offset)
    (shorter : after.length ≤ (content.drop (offset + 2)).length) :
    completeLines (consumed content after) =
      content.take offset :: completeLines (consumed (content.drop (offset + 2)) after) := by
  calc completeLines (consumed content after)
      = completeLines (consumed (content.take offset ++ kCRLF ++ content.drop (offset + 2))
          after) := by rw [← lineEnd_split found]
    _ = completeLines (content.take offset ++ kCRLF ++
          consumed (content.drop (offset + 2)) after) := by rw [consumed_append _ _ _ shorter]
    _ = content.take offset :: completeLines (consumed (content.drop (offset + 2)) after) :=
          completeLines_line (lineEnd_clean found) _

/-! ## The parser on its lines -/

theorem find_colon_iff (line : List Byte) :
    find line 0 line.length 58 ≠ line.length ↔ 58 ∈ line := by
  rw [find_whole]
  constructor
  · intro inside
    by_contra missing
    exact inside (List.idxOf_eq_length missing)
  · intro colon
    exact Nat.ne_of_lt (List.idxOf_lt_length_of_mem colon)

/-- The parser completes a request exactly at the first line without a colon,
and that is the last line it consumes. -/
theorem parseHeaders_lines (r : HttpRequest) (content : List Byte) :
    (parseHeaders r content).rest.length ≤ content.length ∧
      ((parseHeaders r content).context.gotAll = true →
        ∃ line, firstColonless (completeLines content) = some line ∧
          (completeLines (consumed content (parseHeaders r content).rest)).getLast? =
            some line) ∧
      ((parseHeaders r content).context.gotAll = false →
        firstColonless (completeLines content) = none) := by
  induction r, content using parseHeaders.induct with
  | case1 r content missing =>
      rw [parseHeaders_none r missing, completeLines_none missing]
      refine ⟨Nat.le_refl _, ?_, fun _ => rfl⟩
      intro done
      cases done
  | case2 r content offset found line colon inside ih =>
      rcases ih with ⟨shorter, complete, waiting⟩
      have present : 58 ∈ line := (find_colon_iff line).mp inside
      have skips : firstColonless (completeLines content) =
          firstColonless (completeLines (content.drop (offset + 2))) := by
        rw [completeLines_some found]
        exact List.find?_cons_of_neg (by simpa using present)
      rw [parseHeaders_some r found, if_pos inside, skips]
      refine ⟨shorter.trans (by simp), ?_, waiting⟩
      intro done
      rcases complete done with ⟨last, first, ends⟩
      refine ⟨last, first, ?_⟩
      rw [completeLines_consumed found shorter, List.getLast?_cons, ends]
      rfl
  | case3 r content offset found line colon outside =>
      have absent : 58 ∉ line := fun present => outside ((find_colon_iff line).mpr present)
      rw [parseHeaders_some r found, if_neg outside]
      refine ⟨by simp, ?_, fun waiting => by cases waiting⟩
      intro _
      refine ⟨line, ?_, ?_⟩
      · rw [completeLines_some found]
        exact List.find?_cons_of_pos (by simpa using absent)
      · rw [completeLines_consumed found (Nat.le_refl _), consumed_self, completeLines_none rfl]
        rfl

/-! ## The end of the headers -/

/-- For every context that expects headers and every buffer the parser returns.
It completes the request only at an empty line if and only if the first line of
the buffer that has no colon is empty, if there is one. -/
theorem completes_at_empty_line_iff (c : HttpContext) (buf : Buffer) (receiveTime : Int)
    (expects : c.state = .kExpectHeaders) (represents : Represents buf buf.content) :
    ∃ parsed, c.parseRequest buf receiveTime = .ok parsed ∧
      ((parsed.context.gotAll = true →
          (completeLines (consumed buf.content parsed.buffer.content)).getLast? = some []) ↔
        ∀ line, firstColonless (completeLines buf.content) = some line → line = []) := by
  rcases c with ⟨state, r⟩
  cases expects
  rcases parseRequest_text ⟨.kExpectHeaders, r⟩ represents receiveTime with
    ⟨fault, faulted, -⟩ | ⟨parsed, next, parse, called, after⟩
  · cases faulted
  · cases parse
    rcases parseHeaders_lines r buf.content with ⟨-, complete, waiting⟩
    refine ⟨_, called, ?_⟩
    dsimp only
    rw [after.content]
    cases done : (parseHeaders r buf.content).context.gotAll with
    | false => simp [waiting done]
    | true =>
        rcases complete done with ⟨last, first, ends⟩
        simp [first, ends]

set_option maxRecDepth 20000 in
/-- A header and the empty line behind it. -/
theorem empty_line_completes :
    ∃ buf parsed, (Buffer.new 64).append (text "Host: a\r\n\r\nrest") = .ok buf ∧
      parseRequest ⟨.kExpectHeaders, HttpRequest.new⟩ buf 1 = .ok parsed ∧
      parsed.context.gotAll = true ∧
      (completeLines (consumed buf.content parsed.buffer.content)).getLast? = some [] := by
  rcases append_represents (new_represents 64) (text "Host: a\r\n\r\nrest") with
    ⟨buf, appended, represents⟩
  have content : buf.content = text "Host: a\r\n\r\nrest" := represents.content
  have first : firstColonless (completeLines buf.content) = some [] := by
    rw [content, completeLines_some (show lineEnd _ = some 7 from rfl),
      completeLines_some (show lineEnd _ = some 0 from rfl)]
    rfl
  rcases completes_at_empty_line_iff ⟨.kExpectHeaders, HttpRequest.new⟩ buf 1 rfl
    represents.self with ⟨parsed, called, ends⟩
  have complete : parsed.context.gotAll = true := by
    cases appended
    cases called
    rfl
  refine ⟨buf, parsed, appended, called, complete, ends.mpr ?_ complete⟩
  intro line found
  cases first.symm.trans found
  rfl

set_option maxRecDepth 20000 in
/-- The line `foo` ends the request, and the bytes behind it are parsed as
another one. -/
theorem colonless_line_completes :
    ∃ buf parsed smuggled,
      (Buffer.new 64).append (text "foo\r\nGET /admin HTTP/1.1\r\n\r\n") = .ok buf ∧
      parseRequest ⟨.kExpectHeaders, HttpRequest.new⟩ buf 1 = .ok parsed ∧
      parsed.context.gotAll = true ∧
      (completeLines (consumed buf.content parsed.buffer.content)).getLast? ≠ some [] ∧
      parsed.context.reset.parseRequest parsed.buffer 1 = .ok smuggled ∧
      smuggled.context.gotAll = true ∧ smuggled.context.request.path = text "/admin" := by
  refine ⟨_, _, _, rfl, rfl, rfl, ?_, rfl, rfl, rfl⟩
  rw [completeLines_some (show lineEnd _ = some 3 from rfl), completeLines_none rfl]
  decide

end Msmuduo.HttpContext
