import Msmuduo.HttpParse

/-!
# Well-formed requests

`RequestText` is a request as a peer writes it: a request line, header lines
that each hold a colon, and an empty line. The parser takes exactly the bytes of
the first request out of a text, and it waits on every proper beginning of one.
-/

namespace Msmuduo.HttpContext

open Msmuduo.Machine Msmuduo.Window Msmuduo.Buffer HttpRequest

set_option autoImplicit false

structure RequestText where
  method : Method
  target : List Byte
  version : Version
  headerLines : List (List Byte)
  deriving DecidableEq, Repr

def methodWord : Method → List Byte
  | .kInvalid => []
  | .kGet => text "GET"
  | .kPost => text "POST"
  | .kHead => text "HEAD"
  | .kPut => text "PUT"
  | .kDelete => text "DELETE"

/-- The last byte of the request line. -/
def versionDigit : Version → Byte
  | .kHttp11 => 49
  | .kUnkown | .kHttp10 => 48

namespace RequestText

def requestLine (t : RequestText) : List Byte :=
  methodWord t.method ++ [32] ++ t.target ++ [32] ++ (text "HTTP/1." ++ [versionDigit t.version])

/-- The header lines with the empty line behind them. -/
def headerBytes (headerLines : List (List Byte)) : List Byte :=
  headerLines.flatMap (· ++ kCRLF) ++ kCRLF

def bytes (t : RequestText) : List Byte :=
  t.requestLine ++ kCRLF ++ headerBytes t.headerLines

structure WellFormed (t : RequestText) : Prop where
  method : t.method ≠ .kInvalid
  version : t.version ≠ .kUnkown
  target : 32 ∉ t.target
  requestLine : ¬kCRLF <:+: t.requestLine
  headerLines : ∀ line ∈ t.headerLines, 58 ∈ line ∧ ¬kCRLF <:+: line

/-- The request the parser builds. The path ends at the first question mark. -/
def request (t : RequestText) : HttpRequest :=
  t.headerLines.foldl (fun r line => r.addHeader line (line.idxOf 58))
    { HttpRequest.new with
      method := t.method
      version := t.version
      path := t.target.take (t.target.idxOf 63)
      query := t.target.drop (t.target.idxOf 63) }

end RequestText

open RequestText

theorem find_split (front middle back : List Byte) {values : List Byte} {start stop : Nat}
    (value : Byte) (split : values = front ++ middle ++ back) (startEq : start = front.length)
    (stopEq : stop = start + middle.length) :
    find values start stop value = start + middle.idxOf value := by
  unfold find
  rw [window_split front middle back split startEq stopEq]

theorem find_whole (values : List Byte) (value : Byte) :
    find values 0 values.length value = values.idxOf value := by
  have whole := find_split [] values [] value (by simp : values = [] ++ values ++ []) rfl rfl
  simpa using whole

theorem methodOf_word {method : Method} (known : method ≠ .kInvalid) :
    methodOf (methodWord method) = method := by
  cases method with
  | kInvalid => exact absurd rfl known
  | _ => decide

theorem space_not_in_word (method : Method) : 32 ∉ methodWord method := by
  cases method <;> decide

/-- Where the parts of a request line lie. `start` is the index of the target. -/
structure Parts (t : RequestText) : Prop where
  space : find t.requestLine 0 t.requestLine.length 32 = (methodWord t.method).length
  method : window t.requestLine 0 (methodWord t.method).length = methodWord t.method
  secondSpace : find t.requestLine ((methodWord t.method).length + 1) t.requestLine.length 32 =
    (methodWord t.method).length + 1 + t.target.length
  question : find t.requestLine ((methodWord t.method).length + 1)
    ((methodWord t.method).length + 1 + t.target.length) 63 =
    (methodWord t.method).length + 1 + t.target.idxOf 63
  target : window t.requestLine ((methodWord t.method).length + 1)
    ((methodWord t.method).length + 1 + t.target.length) = t.target
  path : window t.requestLine ((methodWord t.method).length + 1)
    ((methodWord t.method).length + 1 + t.target.idxOf 63) = t.target.take (t.target.idxOf 63)
  query : window t.requestLine ((methodWord t.method).length + 1 + t.target.idxOf 63)
    ((methodWord t.method).length + 1 + t.target.length) = t.target.drop (t.target.idxOf 63)
  version : window t.requestLine ((methodWord t.method).length + 1 + t.target.length + 1)
    (t.requestLine.length - 1) = text "HTTP/1."
  length : t.requestLine.length = (methodWord t.method).length + 1 + t.target.length + 1 + 8
  last : t.requestLine.getLast? = some (versionDigit t.version)

theorem requestLine_parts {t : RequestText} (wellFormed : WellFormed t) : Parts t := by
  have suffix : (text "HTTP/1.").length = 7 := by decide
  have length : t.requestLine.length =
      (methodWord t.method).length + 1 + t.target.length + 1 + 8 := by
    simp only [requestLine, List.length_append, List.length_singleton, suffix]
  have inside : t.target.idxOf 63 ≤ t.target.length := List.idxOf_le_length
  have ending : t.requestLine = methodWord t.method ++ [32] ++ t.target ++ [32] ++
      text "HTTP/1." ++ [versionDigit t.version] := by
    simp [requestLine]
  let tail : List Byte := [32] ++ (text "HTTP/1." ++ [versionDigit t.version])
  have targetSplit : t.requestLine = methodWord t.method ++ [32] ++ t.target ++ tail := by
    simp [requestLine, tail]
  have parted : t.target.take (t.target.idxOf 63) ++ t.target.drop (t.target.idxOf 63) =
      t.target := List.take_append_drop _ _
  exact
    { space := by
        rw [find_whole, requestLine]
        simp [List.idxOf_append, space_not_in_word]
      method := by
        apply window_split [] (methodWord t.method) ([32] ++ t.target ++ tail)
        · simp [targetSplit]
        · rfl
        · simp
      secondSpace := by
        have later : (t.target ++ tail).idxOf 32 = t.target.length := by
          simp [tail, List.idxOf_append, wellFormed.target]
        rw [← later]
        apply find_split (methodWord t.method ++ [32]) (t.target ++ tail) []
        · simp [targetSplit]
        · simp
        · simp only [length, tail, List.length_append, List.length_singleton, suffix]
          omega
      question := find_split _ _ tail 63 targetSplit (by simp) rfl
      target := window_split _ _ tail targetSplit (by simp) rfl
      path := by
        apply window_split (methodWord t.method ++ [32]) (t.target.take (t.target.idxOf 63))
          (t.target.drop (t.target.idxOf 63) ++ tail)
        · rw [targetSplit, List.append_assoc _ (t.target.take _), ← List.append_assoc _ _ tail,
            parted]
          simp
        · simp
        · rw [List.length_take, Nat.min_eq_left inside]
      query := by
        apply window_split (methodWord t.method ++ [32] ++ t.target.take (t.target.idxOf 63))
          (t.target.drop (t.target.idxOf 63)) tail
        · rw [targetSplit, List.append_assoc _ (t.target.take _), parted]
        · simp only [List.length_append, List.length_singleton, List.length_take,
            Nat.min_eq_left inside]
        · rw [List.length_drop]
          omega
      version := by
        apply window_split (methodWord t.method ++ [32] ++ t.target ++ [32]) (text "HTTP/1.")
          [versionDigit t.version]
        · exact ending
        · simp only [List.length_append, List.length_singleton]
        · rw [length, suffix]
          omega
      length := length
      last := by
        rw [ending, List.getLast?_concat] }

/-- A request line of the grammar is accepted on a request that was reset. -/
theorem processRequestLine_wellFormed {t : RequestText} (wellFormed : WellFormed t)
    (version : Version) :
    processRequestLine { HttpRequest.new with version := version } t.requestLine =
      .ok (true, { HttpRequest.new with
        method := t.method
        version := t.version
        path := t.target.take (t.target.idxOf 63)
        query := t.target.drop (t.target.idxOf 63) }) := by
  have parts := requestLine_parts wellFormed
  have length := parts.length
  have inside : (methodWord t.method).length ≠ t.requestLine.length := by omega
  have insideToo : (methodWord t.method).length + 1 + t.target.length ≠ t.requestLine.length := by
    omega
  have eight : t.requestLine.length -
      ((methodWord t.method).length + 1 + t.target.length + 1) = 8 := by omega
  have unset : HttpRequest.new.method = .kInvalid := rfl
  have digit : t.version = .kHttp11 ∨ t.version = .kHttp10 := by
    cases version : t.version with
    | kUnkown => exact absurd version wellFormed.version
    | kHttp10 => exact Or.inr rfl
    | kHttp11 => exact Or.inl rfl
  simp only [processRequestLine, setMethod, parts.space, parts.method, parts.secondSpace,
    parts.question, parts.version, parts.path, parts.query, parts.target, if_pos inside,
    if_pos insideToo, eight, parts.last, require_ok unset, bind, Except.bind, pure, Except.pure,
    methodOf_word wellFormed.method]
  -- Without a question mark the query keeps the empty text it has after a reset.
  by_cases marked : t.target.idxOf 63 = t.target.length
  · rcases digit with version | version <;>
      simp [marked, version, versionDigit, wellFormed.method, HttpRequest.new]
  · rcases digit with version | version <;>
      simp [marked, version, versionDigit, wellFormed.method, HttpRequest.new]

/-- The header lines of the grammar are added one after another, up to the
empty line. -/
theorem parseHeaders_wellFormed (headerLines : List (List Byte)) (r : HttpRequest)
    (wellFormed : ∀ line ∈ headerLines, 58 ∈ line ∧ ¬kCRLF <:+: line) (rest : List Byte) :
    parseHeaders r (headerBytes headerLines ++ rest) =
      ⟨true, ⟨.kGotAll, headerLines.foldl (fun r line => r.addHeader line (line.idxOf 58)) r⟩,
        rest⟩ := by
  induction headerLines generalizing r with
  | nil =>
      have found : lineEnd (headerBytes [] ++ rest) = some 0 :=
        lineEnd_line (by decide : ¬kCRLF <:+: []) rest
      rw [parseHeaders_some r found]
      rfl
  | cons line headerLines ih =>
      rcases wellFormed line (by simp) with ⟨colon, clean⟩
      have split : headerBytes (line :: headerLines) ++ rest =
          line ++ kCRLF ++ (headerBytes headerLines ++ rest) := by
        simp [headerBytes]
      have found := lineEnd_line clean (headerBytes headerLines ++ rest)
      have present : line.idxOf 58 ≠ line.length := Nat.ne_of_lt (List.idxOf_lt_length_of_mem colon)
      rw [split, parseHeaders_some r found, take_line, drop_line, find_whole, if_pos present,
        ih _ fun other member => wellFormed other (by simp [member])]
      rfl

/-- The context after `reset`, which keeps the version of the last request. -/
def fresh (version : Version) : HttpContext :=
  ⟨.kExpectRequestLine, { HttpRequest.new with version := version }⟩

/-- The parser takes the bytes of the first request and leaves the rest. -/
theorem parseText_wellFormed {t : RequestText} (wellFormed : WellFormed t) (version : Version)
    (rest : List Byte) :
    parseText 0 (fresh version) (t.bytes ++ rest) =
      .ok ⟨true, ⟨.kGotAll, t.request⟩, rest⟩ := by
  have split : t.bytes ++ rest =
      t.requestLine ++ kCRLF ++ (headerBytes t.headerLines ++ rest) := by
    simp [bytes]
  have found := lineEnd_line wellFormed.requestLine (headerBytes t.headerLines ++ rest)
  rw [split]
  simp only [parseText, fresh, found]
  rw [take_line, drop_line, processRequestLine_wellFormed wellFormed version]
  exact congrArg Except.ok (parseHeaders_wellFormed _ _ wellFormed.headerLines rest)

/-- On a proper beginning of a request the parser waits for more. -/
theorem parseText_beginning {t : RequestText} (wellFormed : WellFormed t) (version : Version)
    {beginning missing : List Byte} (split : t.bytes = beginning ++ missing)
    (someMissing : missing ≠ []) :
    ∃ parsed, parseText 0 (fresh version) beginning = .ok parsed ∧
      (parsed.ok && !parsed.context.gotAll) = true := by
  have whole := parseText_wellFormed wellFormed version []
  rw [List.append_nil, split, parseText_append] at whole
  cases parse : parseText 0 (fresh version) beginning with
  | error fault =>
      rw [parse] at whole
      cases whole
  | ok parsed =>
      refine ⟨parsed, rfl, ?_⟩
      rw [parse] at whole
      dsimp only at whole
      split at whole
      · next waits => exact waits
      · have rest : parsed.rest ++ missing = [] := by
          have same := congrArg TextParsed.rest (Except.ok.inj whole)
          exact same
        exact absurd (List.append_eq_nil_iff.mp rest).2 someMissing

end Msmuduo.HttpContext
