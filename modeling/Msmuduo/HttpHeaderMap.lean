import Msmuduo.CString
import Msmuduo.HttpHeaderEnd
import Msmuduo.StringMap

/-!
# The header section

Lines with a colon followed by an empty line are read exactly: the header map
holds their names and values, a later line replacing an earlier one of the same
name, and nothing behind the empty line is consumed. The name of a line ends at
its first colon, and the value is the text behind it between the blanks.
-/

namespace Msmuduo.HttpContext

open Msmuduo.Buffer Msmuduo.Window HttpRequest RequestText StringMap

set_option autoImplicit false

/-- The value is the text without the `isspace` characters at its two ends. -/
structure Trimmed (content value : List Byte) : Prop where
  split : ∃ leading trailing, content = leading ++ value ++ trailing ∧
    (∀ byte ∈ leading, isspace byte = true) ∧ ∀ byte ∈ trailing, isspace byte = true
  first : ∀ byte ∈ value.head?, isspace byte = false
  last : ∀ byte ∈ value.getLast?, isspace byte = false

/-- A header line is a name without a colon, a colon, and a text around the value. -/
def ReadsAs (line : List Byte) (entry : List Byte × List Byte) : Prop :=
  ∃ content, line = entry.1 ++ 58 :: content ∧ 58 ∉ entry.1 ∧ Trimmed content entry.2

def trim (content : List Byte) : List Byte := (content.dropWhile isspace).rdropWhile isspace

/-- The name and the value of a line with a colon. -/
def headerEntry (line : List Byte) : List Byte × List Byte :=
  (line.takeWhile (· ≠ 58), trim ((line.dropWhile (· ≠ 58)).drop 1))

/-! ## One line -/

theorem trim_trimmed (content : List Byte) : Trimmed content (trim content) where
  split := ⟨content.takeWhile isspace, (content.dropWhile isspace).rtakeWhile isspace,
    (CString.trim_frame isspace content).symm, fun _ => List.mem_takeWhile_imp,
    fun _ => List.mem_rtakeWhile_imp⟩
  first := fun _ => CString.trim_head
  last := fun _ => CString.trim_getLast

theorem take_idxOf (values : List Byte) (value : Byte) :
    values.take (values.idxOf value) = values.takeWhile (· ≠ value) := by
  induction values with
  | nil => rfl
  | cons first rest ih =>
      by_cases here : first = value
      · simp [here]
      · simp [here, ih]

theorem drop_idxOf (values : List Byte) (value : Byte) :
    values.drop (values.idxOf value) = values.dropWhile (· ≠ value) := by
  induction values with
  | nil => rfl
  | cons first rest ih =>
      by_cases here : first = value
      · simp [here]
      · simp [here, ih]

/-- `addHeader` at the first colon. -/
theorem addHeader_idxOf (r : HttpRequest) (line : List Byte) :
    r.addHeader line (line.idxOf 58) =
      { r with headers := assign (headerEntry line).1 (headerEntry line).2 r.headers } := by
  have name : window line 0 (line.idxOf 58) = (headerEntry line).1 := by
    rw [window, List.drop_zero, take_idxOf]
    rfl
  have value : ((line.drop (line.idxOf 58 + 1)).dropWhile isspace).rdropWhile isspace =
      (headerEntry line).2 := by
    rw [← List.drop_drop, drop_idxOf]
    rfl
  unfold addHeader
  rw [name, value]

/-- A sequence is cut at the first place of a value. -/
theorem split_at_first {values : List Byte} {value : Byte} (member : value ∈ values) :
    values = values.takeWhile (· ≠ value) ++ value :: (values.dropWhile (· ≠ value)).drop 1 := by
  have inside : values.idxOf value < values.length := List.idxOf_lt_length_of_mem member
  have behind : values.dropWhile (· ≠ value) =
      value :: (values.dropWhile (· ≠ value)).drop 1 := by
    rw [← drop_idxOf, List.drop_drop, List.drop_eq_getElem_cons inside, List.getElem_idxOf]
  rw [← behind, List.takeWhile_append_dropWhile]

theorem not_mem_takeWhile (values : List Byte) (value : Byte) :
    value ∉ values.takeWhile (· ≠ value) := by
  intro member
  have passed := List.mem_takeWhile_imp member
  simp at passed

theorem headerEntry_reads {line : List Byte} (colon : 58 ∈ line) :
    ReadsAs line (headerEntry line) := by
  refine ⟨(line.dropWhile (· ≠ 58)).drop 1, ?_, not_mem_takeWhile line 58, trim_trimmed _⟩
  exact split_at_first colon

/-! ## The header section -/

theorem foldl_addHeader (headerLines : List (List Byte)) (r : HttpRequest) :
    headerLines.foldl (fun r line => r.addHeader line (line.idxOf 58)) r =
      { r with headers := assignAll (headerLines.map headerEntry) r.headers } := by
  induction headerLines generalizing r with
  | nil => rfl
  | cons line headerLines ih =>
      rw [List.foldl_cons, ih, addHeader_idxOf]
      rfl

/-- The headers stay in key order, so that they are the content of a `std::map`. -/
theorem foldl_addHeader_ordered (headerLines : List (List Byte)) {r : HttpRequest}
    (ordered : Ordered r.headers) :
    Ordered (headerLines.foldl (fun r line => r.addHeader line (line.idxOf 58)) r).headers := by
  rw [foldl_addHeader]
  exact assignAll_ordered _ ordered

/-- From `kExpectHeaders` with an empty header map, for all header lines and all
bytes `rest` behind the empty line. -/
theorem parseRequest_headers (r : HttpRequest) (headerLines : List (List Byte))
    (rest : List Byte) (buf : Buffer) (receiveTime : Int) (empty : r.headers = [])
    (wellFormed : ∀ line ∈ headerLines, 58 ∈ line ∧ ¬kCRLF <:+: line)
    (represents : Represents buf (headerBytes headerLines ++ rest)) :
    ∃ next, parseRequest ⟨.kExpectHeaders, r⟩ buf receiveTime =
        .ok ⟨true, ⟨.kGotAll,
          { r with headers := assignAll (headerLines.map headerEntry) [] }⟩, next⟩ ∧
      next.content = rest ∧
      (∀ line ∈ headerLines, ReadsAs line (headerEntry line)) ∧
      ∀ name, (assignAll (headerLines.map headerEntry) []).lookup name =
        (headerLines.map headerEntry).reverse.lookup name := by
  have parsed := parseHeaders_wellFormed headerLines r wellFormed rest
  rw [foldl_addHeader, empty] at parsed
  rcases parseRequest_text ⟨.kExpectHeaders, r⟩ represents receiveTime with
    ⟨fault, faulted, -⟩ | ⟨other, next, parse, called, after⟩
  · cases faulted
  · have same : other = _ := (Except.ok.inj parse).symm.trans parsed
    rw [same] at called after
    refine ⟨next, called, after.content, ?_, ?_⟩
    · intro line member
      exact headerEntry_reads (wellFormed line member).1
    · intro name
      rw [lookup_assignAll]
      exact Option.or_none

set_option maxRecDepth 20000 in
/-- Empty values, a value with a colon, and a header that is replaced. -/
theorem four_headers_parsed :
    ∃ buf next,
      (Buffer.new 64).append (text "Host: a:80\r\nUser-Agent:\r\nX: \t \r\nX: b \r\n\r\nrest") =
        .ok buf ∧
      parseRequest ⟨.kExpectHeaders, HttpRequest.new⟩ buf 1 = .ok ⟨true, ⟨.kGotAll,
        { HttpRequest.new with
          headers := [(text "Host", text "a:80"), (text "User-Agent", []),
            (text "X", text "b")] }⟩, next⟩ ∧
      next.content = text "rest" := by
  let headerLines : List (List Byte) :=
    [text "Host: a:80", text "User-Agent:", text "X: \t ", text "X: b "]
  have bytes : text "Host: a:80\r\nUser-Agent:\r\nX: \t \r\nX: b \r\n\r\nrest" =
      headerBytes headerLines ++ text "rest" := by decide
  rcases append_represents (new_represents 64) (headerBytes headerLines ++ text "rest") with
    ⟨buf, appended, represents⟩
  rcases parseRequest_headers HttpRequest.new headerLines (text "rest") buf 1 rfl (by decide)
    represents with ⟨next, called, left, -⟩
  refine ⟨buf, next, ?_, ?_, left⟩
  · rw [bytes]
    exact appended
  · have map : assignAll (headerLines.map headerEntry) [] =
        [(text "Host", text "a:80"), (text "User-Agent", []), (text "X", text "b")] := by decide
    rw [called, map]

end Msmuduo.HttpContext
