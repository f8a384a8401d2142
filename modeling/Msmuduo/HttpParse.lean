import Msmuduo.BufferDeque
import Msmuduo.HttpServer

/-!
# Parsing the bytes of a request

The parser works on a buffer, but what it computes depends on the readable
bytes alone. `parseText` is that computation; `parseRequest` follows it on every
buffer, its loop included. On the bytes it is easy to say what happens when more
of them arrive: a parse that stopped for want of a line goes on as if the whole
text had been there from the start.
-/

namespace Msmuduo

/-- A request without the time it was received. -/
def HttpRequest.timeless (r : HttpRequest) : HttpRequest := { r with receiveTime := 0 }

end Msmuduo

namespace Msmuduo.HttpContext

open Msmuduo.Machine Msmuduo.Search Msmuduo.Window Msmuduo.Buffer

set_option autoImplicit false

/-! ## Lines -/

/-- Where the first line of the text ends. -/
def lineEnd (content : List Byte) : Option Nat :=
  let offset := search kCRLF content
  if offset = content.length then none else some offset

theorem search_of_lineEnd {content : List Byte} {offset : Nat}
    (found : lineEnd content = some offset) :
    search kCRLF content = offset ∧ search kCRLF content < content.length := by
  have bound := search_le_length kCRLF content
  unfold lineEnd at found
  dsimp only at found
  split at found
  · cases found
  · next inside =>
    cases found
    exact ⟨rfl, by omega⟩

theorem lineEnd_bound {content : List Byte} {offset : Nat}
    (found : lineEnd content = some offset) : offset + 2 ≤ content.length := by
  rcases search_of_lineEnd found with ⟨same, inside⟩
  have occurs := (occurs_of_search_lt inside).length_le
  have two : kCRLF.length = 2 := rfl
  rw [List.length_drop, two, same] at occurs
  omega

theorem lineEnd_append {content : List Byte} {offset : Nat} (more : List Byte)
    (found : lineEnd content = some offset) : lineEnd (content ++ more) = some offset := by
  rcases search_of_lineEnd found with ⟨same, inside⟩
  unfold lineEnd
  rw [search_append more inside, same, List.length_append]
  rw [same] at inside
  exact if_neg (by omega)

theorem lineEnd_line {line : List Byte} (clean : ¬kCRLF <:+: line) (rest : List Byte) :
    lineEnd (line ++ kCRLF ++ rest) = some line.length := by
  have first : search kCRLF (line ++ kCRLF ++ rest) = line.length := by
    rw [List.append_assoc]
    exact search_line (by decide) clean rest
  unfold lineEnd
  rw [first]
  apply if_neg
  simp [kCRLF]

theorem take_line (line rest : List Byte) :
    (line ++ kCRLF ++ rest).take line.length = line := by
  simp

theorem drop_line (line rest : List Byte) :
    (line ++ kCRLF ++ rest).drop (line.length + 2) = rest := by
  have two : kCRLF.length = 2 := rfl
  rw [← two, ← List.length_append, List.drop_left]

section

variable {buf : Buffer} {content : List Byte}

theorem findCRLF_represents (represents : Represents buf content) :
    buf.findCRLF = (lineEnd content).map (buf.peek + ·) := by
  have length := represents.readable
  have ordered := represents.ordered
  have same : window buf.buffer buf.peek buf.beginWrite = content := represents.content
  unfold findCRLF lineEnd
  simp only [same]
  unfold readableBytes at length
  unfold peek beginWrite
  by_cases last : search kCRLF content = content.length
  · rw [if_pos (by omega), if_pos last]
    rfl
  · rw [if_neg (by omega), if_neg last]
    rfl

theorem retrieveLine_represents (represents : Represents buf content) {offset : Nat}
    (found : lineEnd content = some offset) :
    ∃ next, inBuffer (buf.retrieveUntil (buf.peek + offset + 2)) = .ok next ∧
      Represents next (content.drop (offset + 2)) := by
  have bound := lineEnd_bound found
  rw [← represents.readable] at bound
  have inside : buf.peek + (offset + 2) ≤ buf.beginWrite := by
    have ordered := represents.ordered
    unfold readableBytes at bound
    unfold peek beginWrite
    omega
  rcases retrieveUntil_represents represents (offset + 2) inside with ⟨next, retrieved, after⟩
  refine ⟨next, ?_, after⟩
  rw [Nat.add_assoc, retrieved]
  rfl

end

/-! ## The parser on texts -/

structure TextParsed where
  ok : Bool
  context : HttpContext
  rest : List Byte
  deriving DecidableEq, Repr

/-- The header lines up to the first one without a colon. -/
def parseHeaders (r : HttpRequest) (content : List Byte) : TextParsed :=
  match found : lineEnd content with
  | none => ⟨true, ⟨.kExpectHeaders, r⟩, content⟩
  | some offset =>
      let line := content.take offset
      let colon := find line 0 line.length 58
      if colon ≠ line.length then
        parseHeaders (r.addHeader line colon) (content.drop (offset + 2))
      else ⟨true, ⟨.kGotAll, r⟩, content.drop (offset + 2)⟩
termination_by content.length
decreasing_by
  have bound := lineEnd_bound found
  rw [List.length_drop]
  omega

def parseText (receiveTime : Int) (c : HttpContext) (content : List Byte) :
    Except HttpFault TextParsed :=
  match c.state with
  | .kExpectRequestLine =>
      match lineEnd content with
      | none => .ok ⟨true, c, content⟩
      | some offset => do
          let (ok, r) ← processRequestLine c.request (content.take offset)
          if ok then
            return parseHeaders { r with receiveTime := receiveTime }
              (content.drop (offset + 2))
          else return ⟨false, { c with request := r }, content⟩
  | .kExpectHeaders => .ok (parseHeaders c.request content)
  | .kExpectBody | .kGotAll => .error .neverReturns

theorem parseHeaders_none {content : List Byte} (r : HttpRequest)
    (missing : lineEnd content = none) :
    parseHeaders r content = ⟨true, ⟨.kExpectHeaders, r⟩, content⟩ := by
  rw [parseHeaders]
  split
  · rfl
  · next offset found => rw [missing] at found; cases found

theorem parseHeaders_some {content : List Byte} (r : HttpRequest) {offset : Nat}
    (found : lineEnd content = some offset) :
    parseHeaders r content =
      if find (content.take offset) 0 (content.take offset).length 58 ≠
          (content.take offset).length then
        parseHeaders (r.addHeader (content.take offset)
          (find (content.take offset) 0 (content.take offset).length 58))
          (content.drop (offset + 2))
      else ⟨true, ⟨.kGotAll, r⟩, content.drop (offset + 2)⟩ := by
  rw [parseHeaders]
  split
  · next missing => rw [missing] at found; cases found
  · next other same =>
    cases found.symm.trans same
    rfl

/-- The loop over the header lines, with more turns than bytes. -/
theorem parseLoop_headers (turns : Nat) (r : HttpRequest) {buf : Buffer}
    {content : List Byte} (represents : Represents buf content) (receiveTime : Int)
    (enough : content.length < turns) :
    ∃ next, parseLoop turns ⟨.kExpectHeaders, r⟩ buf receiveTime =
        .ok ⟨(parseHeaders r content).ok, (parseHeaders r content).context, next⟩ ∧
      Represents next (parseHeaders r content).rest := by
  induction turns generalizing r buf content with
  | zero => exact absurd enough (Nat.not_lt_zero _)
  | succ turns ih =>
      rw [parseLoop, parseTurn]
      dsimp only
      rw [findCRLF_represents represents]
      cases found : lineEnd content with
      | none =>
          rw [parseHeaders_none r found]
          exact ⟨buf, rfl, represents⟩
      | some offset =>
          have bound := lineEnd_bound found
          have line := represents.window_peek offset (by
            rw [represents.readable]
            omega)
          rcases retrieveLine_represents represents found with ⟨rest, retrieved, after⟩
          rw [parseHeaders_some r found]
          simp only [Option.map_some, line, retrieved, bind, Except.bind]
          by_cases colon : find (content.take offset) 0 (content.take offset).length 58 ≠
              (content.take offset).length
          · simp only [if_pos colon]
            exact ih _ after (by rw [List.length_drop]; omega)
          · simp only [if_neg colon]
            exact ⟨rest, rfl, after⟩

theorem parseLoop_spins (turns : Nat) (c : HttpContext) (buf : Buffer) (receiveTime : Int)
    (spinning : c.state = .kExpectBody ∨ c.state = .kGotAll) :
    parseLoop turns c buf receiveTime = .error .neverReturns := by
  induction turns with
  | zero => rfl
  | succ turns ih =>
      rw [parseLoop, parseTurn]
      rcases spinning with state | state <;> rw [state] <;> exact ih

/-- On every buffer the parser computes what `parseText` says about its bytes. -/
theorem parseRequest_text (c : HttpContext) {buf : Buffer} {content : List Byte}
    (represents : Represents buf content) (receiveTime : Int) :
    (∃ fault, parseText receiveTime c content = .error fault ∧
      c.parseRequest buf receiveTime = .error fault) ∨
    (∃ parsed next, parseText receiveTime c content = .ok parsed ∧
      c.parseRequest buf receiveTime = .ok ⟨parsed.ok, parsed.context, next⟩ ∧
      Represents next parsed.rest) := by
  have enough : content.length < buf.readableBytes + 2 := by
    rw [represents.readable]
    omega
  unfold parseRequest
  rcases c with ⟨state, r⟩
  cases state with
  | kExpectBody =>
      exact Or.inl ⟨.neverReturns, rfl, parseLoop_spins _ _ buf receiveTime (Or.inl rfl)⟩
  | kGotAll =>
      exact Or.inl ⟨.neverReturns, rfl, parseLoop_spins _ _ buf receiveTime (Or.inr rfl)⟩
  | kExpectHeaders =>
      rcases parseLoop_headers _ r represents receiveTime enough with ⟨next, ran, after⟩
      exact Or.inr ⟨_, next, rfl, ran, after⟩
  | kExpectRequestLine =>
      rw [parseLoop, parseTurn]
      dsimp only [parseText]
      rw [findCRLF_represents represents]
      cases found : lineEnd content with
      | none => exact Or.inr ⟨_, buf, rfl, rfl, represents⟩
      | some offset =>
          have bound := lineEnd_bound found
          have line := represents.window_peek offset (by
            rw [represents.readable]
            omega)
          simp only [Option.map_some, line]
          cases processed : processRequestLine r (content.take offset) with
          | error fault => exact Or.inl ⟨fault, rfl, rfl⟩
          | ok result =>
              rcases result with ⟨ok, after⟩
              cases ok with
              | false => exact Or.inr ⟨_, buf, rfl, rfl, represents⟩
              | true =>
                  rcases retrieveLine_represents represents found with
                    ⟨rest, retrieved, restRepresents⟩
                  have shorter : (content.drop (offset + 2)).length < buf.readableBytes + 1 := by
                    rw [List.length_drop, represents.readable]
                    omega
                  rcases parseLoop_headers _ { after with receiveTime := receiveTime }
                    restRepresents receiveTime shorter with ⟨next, ran, nextRepresents⟩
                  refine Or.inr ⟨_, next, rfl, ?_, nextRepresents⟩
                  simp only [retrieved, bind, Except.bind, if_true]
                  exact ran

/-! ## More bytes -/

theorem parseHeaders_ok (r : HttpRequest) (content : List Byte) :
    (parseHeaders r content).ok = true ∧
      ((parseHeaders r content).context.state = .kExpectHeaders ∨
        (parseHeaders r content).context.state = .kGotAll) := by
  induction r, content using parseHeaders.induct with
  | case1 r content missing =>
      rw [parseHeaders_none r missing]
      exact ⟨rfl, Or.inl rfl⟩
  | case2 r content offset found line colon inside ih =>
      rw [parseHeaders_some r found, if_pos inside]
      exact ih
  | case3 r content offset found line colon outside =>
      rw [parseHeaders_some r found, if_neg outside]
      exact ⟨rfl, Or.inr rfl⟩

/-- The rest of a finished parse grows at its end. -/
def TextParsed.extend (parsed : TextParsed) (more : List Byte) : TextParsed :=
  { parsed with rest := parsed.rest ++ more }

theorem parseHeaders_append (r : HttpRequest) (content more : List Byte) :
    parseHeaders r (content ++ more) =
      if (parseHeaders r content).context.gotAll then (parseHeaders r content).extend more
      else parseHeaders (parseHeaders r content).context.request
        ((parseHeaders r content).rest ++ more) := by
  induction r, content using parseHeaders.induct with
  | case1 r content missing =>
      rw [parseHeaders_none r missing]
      rfl
  | case2 r content offset found line colon inside ih =>
      have bound := lineEnd_bound found
      rw [parseHeaders_some r found, if_pos inside,
        parseHeaders_some r (lineEnd_append more found),
        List.take_append_of_le_length (by omega), if_pos inside,
        List.drop_append_of_le_length bound]
      exact ih
  | case3 r content offset found line colon outside =>
      have bound := lineEnd_bound found
      rw [parseHeaders_some r found, if_neg outside,
        parseHeaders_some r (lineEnd_append more found),
        List.take_append_of_le_length (by omega), if_neg outside,
        List.drop_append_of_le_length bound]
      rfl

/-- A parse that waits for more bytes goes on where it stopped; a finished one
leaves them alone. -/
theorem parseText_append (receiveTime : Int) (c : HttpContext) (content more : List Byte) :
    parseText receiveTime c (content ++ more) =
      match parseText receiveTime c content with
      | .error fault => .error fault
      | .ok parsed =>
          if parsed.ok && !parsed.context.gotAll then
            parseText receiveTime parsed.context (parsed.rest ++ more)
          else .ok (parsed.extend more) := by
  have headers : ∀ (r : HttpRequest) (content : List Byte),
      Except.ok (parseHeaders r (content ++ more)) =
        if (parseHeaders r content).ok && !(parseHeaders r content).context.gotAll then
          parseText receiveTime (parseHeaders r content).context
            ((parseHeaders r content).rest ++ more)
        else .ok ((parseHeaders r content).extend more) := by
    intro r content
    rcases parseHeaders_ok r content with ⟨ok, state | state⟩
    · rw [parseHeaders_append]
      simp [ok, gotAll, state, parseText]
    · rw [parseHeaders_append]
      simp [gotAll, state]
  rcases c with ⟨state, r⟩
  cases state with
  | kExpectBody => rfl
  | kGotAll => rfl
  | kExpectHeaders => exact headers r content
  | kExpectRequestLine =>
      cases found : lineEnd content with
      | none => simp [parseText, found, gotAll]
      | some offset =>
          have bound := lineEnd_bound found
          simp only [parseText, found, lineEnd_append more found]
          rw [List.take_append_of_le_length (by omega), List.drop_append_of_le_length bound]
          cases processed : processRequestLine r (content.take offset) with
          | error fault => rfl
          | ok result =>
              rcases result with ⟨ok, after⟩
              cases ok with
              | false => rfl
              | true => exact headers _ _

/-! ## The time of the receive -/

def timeless (c : HttpContext) : HttpContext := { c with request := c.request.timeless }

def TextParsed.timeless (parsed : TextParsed) : TextParsed :=
  { parsed with context := parsed.context.timeless }

theorem parseHeaders_timeless (r : HttpRequest) (content : List Byte) :
    parseHeaders r.timeless content = (parseHeaders r content).timeless := by
  induction r, content using parseHeaders.induct with
  | case1 r content missing =>
      rw [parseHeaders_none r missing, parseHeaders_none _ missing]
      rfl
  | case2 r content offset found line colon inside ih =>
      rw [parseHeaders_some r found, parseHeaders_some _ found, if_pos inside, if_pos inside]
      exact ih
  | case3 r content offset found line colon outside =>
      rw [parseHeaders_some r found, parseHeaders_some _ found, if_neg outside, if_neg outside]
      rfl

theorem processRequestLine_timeless (r : HttpRequest) (line : List Byte) :
    processRequestLine r.timeless line =
      (processRequestLine r line).map fun (ok, after) => (ok, after.timeless) := by
  by_cases unset : r.method = .kInvalid
  · have unsetToo : r.timeless.method = .kInvalid := unset
    simp only [processRequestLine, HttpRequest.setMethod, require_ok unset, require_ok unsetToo,
      bind, Except.bind, pure, Except.pure]
    repeat' split
    all_goals rfl
  · have set : ¬r.timeless.method = .kInvalid := unset
    simp only [processRequestLine, HttpRequest.setMethod, require_error unset,
      require_error set]
    split <;> rfl

/-- When the bytes arrived makes no other difference. -/
theorem parseText_timeless (receiveTime : Int) (c : HttpContext) (content : List Byte) :
    parseText 0 c.timeless content =
      (parseText receiveTime c content).map TextParsed.timeless := by
  rcases c with ⟨state, r⟩
  cases state with
  | kExpectBody => rfl
  | kGotAll => rfl
  | kExpectHeaders =>
      simp only [parseText, timeless, parseHeaders_timeless]
      rfl
  | kExpectRequestLine =>
      cases found : lineEnd content with
      | none =>
          simp only [parseText, timeless, found]
          rfl
      | some offset =>
          simp only [parseText, timeless, found, processRequestLine_timeless]
          cases processRequestLine r (content.take offset) with
          | error fault => rfl
          | ok result =>
              rcases result with ⟨ok, after⟩
              cases ok with
              | false => rfl
              | true =>
                  have same := parseHeaders_timeless
                    { after with receiveTime := receiveTime } (content.drop (offset + 2))
                  exact congrArg Except.ok same

end Msmuduo.HttpContext
