import Msmuduo.HttpDispatch
import Msmuduo.HttpHeaderMap

/-!
# Reading a response back

`decode` reads a response by the grammar of HTTP/1.1: a status line with one
space on either side of the code, header lines, an empty line and a body framed
by `Content-Length` or by the end of the connection. `appendToBuffer` writes the
status message directly behind the code, so nothing it writes reads back as the
response it was given; with one space put there, everything does.
-/

namespace Msmuduo.HttpResponse

open Msmuduo.Buffer HttpContext HttpContext.RequestText HttpConnection StringMap

set_option autoImplicit false

/-! ## The decoder -/

def isDigit (byte : Byte) : Bool := decide (48 ≤ byte) && decide (byte ≤ 57)

/-- The number a text of decimal digits stands for. -/
def digitsOf (bytes : List Byte) : Option Nat :=
  if bytes ≠ [] ∧ bytes.all isDigit = true then
    some (Nat.ofDigitChars 10 (bytes.map fun byte => Char.ofNat byte.toNat) 0)
  else none

def afterSpace : List Byte → Option (List Byte)
  | [] => none
  | byte :: rest => if byte = 32 then some rest else none

/-- `"HTTP/1.1" SP code SP message`, with a code of three digits. -/
def decodeStatusLine (line : List Byte) : Option (Int × List Byte) := do
  if line.take 9 = text "HTTP/1.1 " ∧ ((line.drop 9).take 3).length = 3 then
    let code ← digitsOf ((line.drop 9).take 3)
    let message ← afterSpace (line.drop 12)
    return (.ofNat code, message)
  else none

def isBlank (byte : Byte) : Bool := byte == 32 || byte == 9

/-- A name, a colon and, behind blanks, a value. -/
def decodeField (line : List Byte) : Option (List Byte × List Byte) :=
  if 58 ∈ line then
    some (line.takeWhile (· ≠ 58), ((line.dropWhile (· ≠ 58)).drop 1).dropWhile isBlank)
  else none

/-- The header lines up to the empty line, and the bytes behind it. -/
def decodeFields (content : List Byte) : Option (List (List Byte × List Byte) × List Byte) :=
  match _found : lineEnd content with
  | none => none
  | some offset =>
      if content.take offset = [] then some ([], content.drop (offset + 2))
      else
        match decodeField (content.take offset), decodeFields (content.drop (offset + 2)) with
        | some field, some (fields, body) => some (field :: fields, body)
        | _, _ => none
termination_by content.length
decreasing_by
  have bound := lineEnd_bound _found
  rw [List.length_drop]
  omega

def framing : List (List Byte) := [text "Connection", text "Content-Length"]

/-- A body without `Content-Length` ends with the connection. -/
def bodyFramed (fields : List (List Byte × List Byte)) (close : Bool) (body : List Byte) : Bool :=
  match fields.lookup (text "Content-Length") with
  | none => close
  | some length => digitsOf length == some body.length

def decode (bytes : List Byte) : Option HttpResponse := do
  let offset ← lineEnd bytes
  let (code, message) ← decodeStatusLine (bytes.take offset)
  let (fields, body) ← decodeFields (bytes.drop (offset + 2))
  let close := fields.lookup (text "Connection") == some (text "close")
  if bodyFramed fields close body then
    return {
      headers := assignAll (fields.filter fun field => !framing.contains field.1) []
      statusCode := code
      statusMessage := message
      closeConnection := close
      body := body }
  else none

/-! ## What can be written -/

structure Writable (field : List Byte × List Byte) : Prop where
  name_plain : 13 ∉ field.1 ∧ 10 ∉ field.1 ∧ 58 ∉ field.1
  value_plain : 13 ∉ field.2 ∧ 10 ∉ field.2
  value_unblank : ∀ byte ∈ field.2.head?, isBlank byte = false

/-- A three-digit code, texts that do not break the lines, and a body that an
`int` can count. The headers are in key order, as those of every `std::map`. -/
structure Encodable (r : HttpResponse) : Prop where
  code : 100 ≤ r.statusCode ∧ r.statusCode ≤ 999
  message : 13 ∉ r.statusMessage ∧ 10 ∉ r.statusMessage
  headers : ∀ field ∈ r.headers, Writable field ∧ field.1 ∉ framing
  ordered : Ordered r.headers
  body : r.body.length < 2 ^ 31

/-! ## Numbers -/

/-- The byte of a decimal digit. -/
theorem digit_byte {number : Nat} {character : Char}
    (member : character ∈ Nat.toDigits 10 number) :
    isDigit (UInt8.ofNat character.toNat) = true ∧
      Char.ofNat (UInt8.ofNat character.toNat).toNat = character ∧
      UInt8.ofNat character.toNat ≠ 13 := by
  have digit := Nat.isDigit_of_mem_toDigits (by decide) (by decide) member
  simp only [Char.isDigit, Bool.and_eq_true, decide_eq_true_eq] at digit
  have lower : 48 ≤ character.toNat := digit.1
  have upper : character.toNat ≤ 57 := digit.2
  have same : (UInt8.ofNat character.toNat).toNat = character.toNat := by
    rw [UInt8.toNat_ofNat']
    omega
  refine ⟨?_, ?_, ?_⟩
  · simp only [isDigit, Bool.and_eq_true, decide_eq_true_eq, UInt8.le_iff_toNat_le, same]
    exact ⟨lower, upper⟩
  · rw [same, Char.ofNat_toNat]
  · intro carriage
    rw [carriage] at same
    have value : (13 : Byte).toNat = 13 := rfl
    omega

theorem decimal_ofNat (number : Nat) :
    decimal (.ofNat number) =
      (Nat.toDigits 10 number).map fun character => UInt8.ofNat character.toNat := by
  rw [decimal, text, String.toList_ofList]

theorem digitsOf_decimal (number : Nat) : digitsOf (decimal (.ofNat number)) = some number := by
  have digits : (decimal (.ofNat number)).all isDigit = true := by
    rw [decimal_ofNat, List.all_map, List.all_eq_true]
    intro character member
    exact (digit_byte member).1
  have nonempty : decimal (.ofNat number) ≠ [] := by
    rw [decimal_ofNat]
    simp [Nat.toDigits_ne_nil]
  have read : (decimal (.ofNat number)).map (fun byte => Char.ofNat byte.toNat) =
      Nat.toDigits 10 number := by
    rw [decimal_ofNat, List.map_map]
    refine Eq.trans (List.map_congr_left ?_) (List.map_id _)
    intro character member
    exact (digit_byte member).2.1
  rw [digitsOf, if_pos ⟨nonempty, digits⟩, read,
    Nat.ofDigitChars_toDigits (by decide) (by decide)]

theorem length_decimal_code {code : Nat} (lower : 100 ≤ code) (upper : code ≤ 999) :
    (decimal (.ofNat code)).length = 3 := by
  have atMost : (Nat.toDigits 10 code).length ≤ 3 := by
    rw [Nat.length_toDigits_le_iff (by decide) (by decide)]
    omega
  have atLeast : ¬(Nat.toDigits 10 code).length ≤ 2 := by
    rw [Nat.length_toDigits_le_iff (by decide) (by decide)]
    omega
  rw [decimal_ofNat, List.length_map]
  omega

/-! ## Lines -/

theorem clean_of_plain {line : List Byte} (plain : 13 ∉ line) : ¬kCRLF <:+: line := by
  intro occurs
  have member : (13 : Byte) ∈ kCRLF := by decide
  exact plain (occurs.subset member)

/-- What `appendToBuffer` writes before the status message. -/
def statusFront (r : HttpResponse) : List Byte := text "HTTP/1.1 " ++ decimal r.statusCode

/-- The header lines `appendToBuffer` writes. -/
def fields (r : HttpResponse) : List (List Byte × List Byte) :=
  (if r.closeConnection then [(text "Connection", text "close")]
    else [(text "Content-Length", decimal (toInt r.body.length)),
      (text "Connection", text "Keep-Alive")]) ++ r.headers

def fieldLine (field : List Byte × List Byte) : List Byte := field.1 ++ text ": " ++ field.2

/-- What `appendToBuffer` writes behind the status message. -/
def statusBack (r : HttpResponse) : List Byte :=
  kCRLF ++ (headerBytes (r.fields.map fieldLine) ++ r.body)

theorem flatten_fieldPieces (headers : StringMap) :
    (headers.flatMap fun (key, value) => [key, text ": ", value, text "\r\n"]).flatten =
      (headers.map fieldLine).flatMap (· ++ kCRLF) := by
  induction headers with
  | nil => rfl
  | cons entry headers ih =>
      have lineBreak : text "\r\n" = kCRLF := by decide
      rw [List.flatMap_cons, List.flatten_append, ih, List.map_cons, List.flatMap_cons]
      simp [fieldLine, lineBreak]

theorem responseBytes_eq (r : HttpResponse) :
    responseBytes r = r.statusFront ++ r.statusMessage ++ r.statusBack := by
  have lineBreak : text "\r\n" = kCRLF := by decide
  have closing : text "Connection: close\r\n" =
      fieldLine (text "Connection", text "close") ++ kCRLF := by decide
  have keeping : text "Connection: Keep-Alive\r\n" =
      fieldLine (text "Connection", text "Keep-Alive") ++ kCRLF := by decide
  have counting : text "Content-Length: " = text "Content-Length" ++ text ": " := by decide
  have entries := flatten_fieldPieces r.headers
  unfold responseBytes pieces statusFront statusBack headerBytes fields
  rw [List.flatten_append, List.flatten_append, List.flatten_append, entries, lineBreak, closing,
    keeping, counting]
  cases r.closeConnection with
  | true => simp
  | false => simp [fieldLine]

/-- A written header line is read back. -/
theorem decodeField_line {field : List Byte × List Byte} (writable : Writable field) :
    decodeField (fieldLine field) = some field := by
  rcases field with ⟨name, value⟩
  have colonless := writable.name_plain.2.2
  have line : fieldLine (name, value) = name ++ 58 :: 32 :: value := by
    have separator : text ": " = [58, 32] := by decide
    simp [fieldLine, separator]
  have place : (fieldLine (name, value)).idxOf 58 = name.length := by
    rw [line, List.idxOf_append, if_neg colonless]
    simp
  have nameRead : (fieldLine (name, value)).takeWhile (· ≠ 58) = name := by
    rw [← take_idxOf, place, line, List.take_left]
  have behind : (fieldLine (name, value)).dropWhile (· ≠ 58) = 58 :: 32 :: value := by
    rw [← drop_idxOf, place, line, List.drop_left]
  have valueRead : (32 :: value).dropWhile isBlank = value := by
    cases value with
    | nil => rfl
    | cons byte value =>
        have unblank : isBlank byte = false := writable.value_unblank byte rfl
        have space : isBlank 32 = true := rfl
        rw [List.dropWhile_cons_of_pos space, List.dropWhile_cons_of_neg (by simp [unblank])]
  rw [decodeField, if_pos (by simp [line]), nameRead, behind]
  exact congrArg (fun value => some (name, value)) valueRead

theorem fieldLine_plain {field : List Byte × List Byte} (writable : Writable field) :
    13 ∉ fieldLine field ∧ fieldLine field ≠ [] := by
  have separator : (13 : Byte) ∉ text ": " := by decide
  constructor
  · simp only [fieldLine, List.mem_append, not_or]
    exact ⟨⟨writable.name_plain.1, separator⟩, writable.value_plain.1⟩
  · intro empty
    have short := congrArg List.length empty
    have two : (text ": ").length = 2 := by decide
    simp only [fieldLine, List.length_append, two, List.length_nil] at short
    omega

theorem decodeFields_some {content : List Byte} {offset : Nat}
    (found : lineEnd content = some offset) :
    decodeFields content =
      if content.take offset = [] then some ([], content.drop (offset + 2))
      else
        match decodeField (content.take offset), decodeFields (content.drop (offset + 2)) with
        | some field, some (fields, body) => some (field :: fields, body)
        | _, _ => none := by
  rw [decodeFields]
  split
  · next missing => rw [missing] at found; cases found
  · next other same =>
    cases found.symm.trans same
    rfl

/-- The header lines are read back, and the body is what is left. -/
theorem decodeFields_lines {fields : List (List Byte × List Byte)}
    (writable : ∀ field ∈ fields, Writable field) (body : List Byte) :
    decodeFields (headerBytes (fields.map fieldLine) ++ body) = some (fields, body) := by
  induction fields with
  | nil =>
      have found : lineEnd (headerBytes [] ++ body) = some 0 :=
        lineEnd_line (clean_of_plain List.not_mem_nil) body
      rw [List.map_nil, decodeFields_some found]
      rfl
  | cons field fields ih =>
      have first := writable field (by simp)
      rcases fieldLine_plain first with ⟨plain, nonempty⟩
      have split : headerBytes ((field :: fields).map fieldLine) ++ body =
          fieldLine field ++ kCRLF ++ (headerBytes (fields.map fieldLine) ++ body) := by
        simp [headerBytes]
      have found := lineEnd_line (clean_of_plain plain)
        (headerBytes (fields.map fieldLine) ++ body)
      rw [split, decodeFields_some found, take_line, drop_line, if_neg nonempty,
        decodeField_line first, ih fun other member => writable other (by simp [member])]

/-! ## The whole response -/

theorem toInt_small {size : Nat} (fits : size < 2 ^ 31) : toInt size = .ofNat size := by
  unfold toInt sizeTModulus
  simp only [Int.bmod, Int.ofNat_eq_natCast]
  split
  · omega
  · omega

theorem decimal_writable (name : List Byte) (number : Nat)
    (plain : 13 ∉ name ∧ 10 ∉ name ∧ 58 ∉ name) :
    Writable (name, decimal (.ofNat number)) := by
  have digit : ∀ byte ∈ decimal (.ofNat number), isDigit byte = true := by
    rw [decimal_ofNat]
    intro byte member
    rcases List.mem_map.mp member with ⟨character, inside, rfl⟩
    exact (digit_byte inside).1
  constructor
  · exact plain
  · exact ⟨fun member => absurd (digit 13 member) (by decide),
      fun member => absurd (digit 10 member) (by decide)⟩
  · intro byte member
    have first := digit byte (List.mem_of_mem_head? member)
    simp only [isDigit, Bool.and_eq_true, decide_eq_true_eq, UInt8.le_iff_toNat_le] at first
    have lower : 48 ≤ byte.toNat := first.1
    have space : byte ≠ 32 := by
      intro same
      rw [same] at lower
      exact absurd lower (by decide)
    have tab : byte ≠ 9 := by
      intro same
      rw [same] at lower
      exact absurd lower (by decide)
    simp [isBlank, space, tab]

section

variable {r : HttpResponse}

theorem Encodable.fields_eq (encodable : Encodable r) :
    r.fields = (if r.closeConnection then [(text "Connection", text "close")]
      else [(text "Content-Length", decimal (.ofNat r.body.length)),
        (text "Connection", text "Keep-Alive")]) ++ r.headers := by
  rw [fields, toInt_small encodable.body]

theorem unblank_head {value : List Byte} (first : value.head?.any isBlank = false) :
    ∀ byte ∈ value.head?, isBlank byte = false := by
  intro byte member
  rw [Option.mem_def.mp member] at first
  exact first

theorem Encodable.writable (encodable : Encodable r) : ∀ field ∈ r.fields, Writable field := by
  have closing : Writable (text "Connection", text "close") :=
    ⟨by decide, by decide, unblank_head (by decide)⟩
  have keeping : Writable (text "Connection", text "Keep-Alive") :=
    ⟨by decide, by decide, unblank_head (by decide)⟩
  have counting := decimal_writable (text "Content-Length") r.body.length (by decide)
  rw [encodable.fields_eq]
  intro field member
  rcases List.mem_append.mp member with own | header
  · cases close : r.closeConnection with
    | true =>
        simp only [close, if_true, List.mem_singleton] at own
        rw [own]
        exact closing
    | false =>
        simp only [close, Bool.false_eq_true, if_false, List.mem_cons, List.not_mem_nil,
          or_false] at own
        rcases own with same | same
        · rw [same]
          exact counting
        · rw [same]
          exact keeping
  · exact (encodable.headers field header).1

theorem Encodable.lookup_framing (encodable : Encodable r) {name : List Byte}
    (member : name ∈ framing) : r.headers.lookup name = none := by
  rw [List.lookup_eq_none_iff]
  intro field header
  have other : name ≠ field.1 := fun same =>
    (encodable.headers field header).2 (same ▸ member)
  simpa using other

/-- What the decoder needs to know of the header lines. -/
theorem Encodable.fields_read (encodable : Encodable r) :
    (r.fields.lookup (text "Connection") == some (text "close")) = r.closeConnection ∧
      bodyFramed r.fields r.closeConnection r.body = true ∧
      (r.fields.filter fun field => !framing.contains field.1) = r.headers := by
  have uncounted := encodable.lookup_framing (by decide : text "Content-Length" ∈ framing)
  have kept : (r.headers.filter fun field => !framing.contains field.1) = r.headers := by
    apply List.filter_eq_self.mpr
    intro field header
    have other := (encodable.headers field header).2
    simpa using other
  have distinct : text "Connection" ≠ text "Content-Length" := by decide
  have closing : framing.contains (text "Connection") = true := by decide
  have counting : framing.contains (text "Content-Length") = true := by decide
  rw [encodable.fields_eq]
  cases close : r.closeConnection with
  | true =>
      rw [if_pos rfl, List.singleton_append]
      refine ⟨?_, ?_, ?_⟩
      · rw [lookup_entry, if_pos rfl, beq_self_eq_true]
      · rw [bodyFramed, lookup_entry, if_neg distinct.symm, uncounted]
      · rw [List.filter_cons_of_neg (by simpa using closing), kept]
  | false =>
      have open_ : text "Keep-Alive" ≠ text "close" := by decide
      rw [if_neg (by decide), List.cons_append, List.singleton_append]
      refine ⟨?_, ?_, ?_⟩
      · rw [lookup_entry, if_neg distinct, lookup_entry, if_pos rfl]
        simpa using open_
      · rw [bodyFramed, lookup_entry, if_pos rfl]
        simp only [digitsOf_decimal, beq_self_eq_true]
      · rw [List.filter_cons_of_neg (by simpa using counting),
          List.filter_cons_of_neg (by simpa using closing), kept]

theorem Encodable.code_eq (encodable : Encodable r) :
    ∃ code : Nat, r.statusCode = .ofNat code ∧ 100 ≤ code ∧ code ≤ 999 := by
  rcases encodable.code with ⟨lower, upper⟩
  refine ⟨r.statusCode.toNat, ?_, ?_, ?_⟩
  · exact (Int.toNat_of_nonneg (by omega)).symm
  · omega
  · omega

theorem decodeStatusLine_front (encodable : Encodable r) (tail : List Byte) :
    decodeStatusLine (r.statusFront ++ tail) =
      (afterSpace tail).map fun message => (r.statusCode, message) := by
  rcases encodable.code_eq with ⟨code, same, lower, upper⟩
  have nine : (text "HTTP/1.1 ").length = 9 := by decide
  have three := length_decimal_code lower upper
  have front : (r.statusFront ++ tail).take 9 = text "HTTP/1.1 " := by
    rw [statusFront, List.append_assoc, ← nine, List.take_left]
  have behind : (r.statusFront ++ tail).drop 9 = decimal (.ofNat code) ++ tail := by
    rw [statusFront, List.append_assoc, ← nine, List.drop_left, same]
  have digits : ((r.statusFront ++ tail).drop 9).take 3 = decimal (.ofNat code) := by
    rw [behind, ← three, List.take_left]
  have rest : (r.statusFront ++ tail).drop 12 = tail := by
    rw [show (12 : Nat) = 9 + 3 from rfl, ← List.drop_drop, behind, ← three, List.drop_left]
  rw [decodeStatusLine, digits, if_pos ⟨front, three⟩, rest, digitsOf_decimal, same]
  cases afterSpace tail with
  | none => rfl
  | some message => rfl

theorem statusFront_plain (encodable : Encodable r) : 13 ∉ r.statusFront := by
  rcases encodable.code_eq with ⟨code, same, -⟩
  have word : 13 ∉ text "HTTP/1.1 " := by decide
  have digits := (decimal_writable [] code (by simp)).value_plain.1
  rw [statusFront, same, List.mem_append, not_or]
  exact ⟨word, digits⟩

/-- What the decoder makes of the bytes, with any text in the place of the
status message. -/
theorem decode_status (encodable : Encodable r) {tail : List Byte} (plain : 13 ∉ tail) :
    decode (r.statusFront ++ tail ++ r.statusBack) =
      (afterSpace tail).map fun message => { r with statusMessage := message } := by
  have linePlain : 13 ∉ r.statusFront ++ tail := by
    rw [List.mem_append, not_or]
    exact ⟨statusFront_plain encodable, plain⟩
  have rest : r.statusFront ++ tail ++ r.statusBack =
      r.statusFront ++ tail ++ kCRLF ++ (headerBytes (r.fields.map fieldLine) ++ r.body) := by
    rw [statusBack, List.append_assoc _ kCRLF]
  have found := lineEnd_line (clean_of_plain linePlain)
    (headerBytes (r.fields.map fieldLine) ++ r.body)
  have lines := decodeFields_lines encodable.writable r.body
  rcases encodable.fields_read with ⟨close, framed, headers⟩
  rw [rest]
  simp only [decode, found, bind, Option.bind, take_line, drop_line,
    decodeStatusLine_front encodable, lines, close, framed, if_true, headers,
    assignAll_self encodable.ordered]
  cases afterSpace tail with
  | none => rfl
  | some message => rfl

theorem afterSpace_ne (message : List Byte) : afterSpace message ≠ some message := by
  intro same
  cases message with
  | nil => cases same
  | cons byte rest =>
      by_cases space : byte = 32
      · rw [afterSpace, if_pos space] at same
        have shorter := congrArg List.length (Option.some.inj same)
        rw [List.length_cons] at shorter
        omega
      · rw [afterSpace, if_neg space] at same
        cases same

/-- For every response that can be encoded and every buffer: the bytes that
`appendToBuffer` adds do not read back as the response. With a space behind the
status code they would, with the length of the body in `Content-Length` when the
connection is kept alive. -/
theorem encoded_never_decodes (r : HttpResponse) (encodable : Encodable r) {output : Buffer}
    {bytes : List Byte} (represents : Represents output bytes) :
    ∃ next front back, r.appendToBuffer output = .ok next ∧
      next.content = bytes ++ (front ++ back) ∧
      front = text "HTTP/1.1 " ++ decimal r.statusCode ∧
      decode (front ++ back) ≠ some r ∧
      decode (front ++ [32] ++ back) = some r := by
  rcases appendToBuffer_represents r represents with ⟨next, appended, after⟩
  have written : responseBytes r = r.statusFront ++ (r.statusMessage ++ r.statusBack) := by
    rw [responseBytes_eq, List.append_assoc]
  refine ⟨next, r.statusFront, r.statusMessage ++ r.statusBack, appended, ?_, rfl, ?_, ?_⟩
  · rw [after.content, written]
  · rw [← List.append_assoc, decode_status encodable encodable.message.1]
    intro same
    rcases Option.map_eq_some_iff.mp same with ⟨message, behind, whole⟩
    rw [← whole] at behind
    exact afterSpace_ne message behind
  · have plain : 13 ∉ 32 :: r.statusMessage := by
      rw [List.mem_cons, not_or]
      exact ⟨by decide, encodable.message.1⟩
    have spaced := decode_status encodable plain
    have split : r.statusFront ++ [32] ++ (r.statusMessage ++ r.statusBack) =
        r.statusFront ++ (32 :: r.statusMessage) ++ r.statusBack := by simp
    rw [split, spaced]
    rfl

end

def plainOk : HttpResponse where
  headers := [(text "Content-Type", text "text/plain")]
  statusCode := 200
  statusMessage := text "OK"
  closeConnection := false
  body := text "hello"

theorem plainOk_encodable : Encodable plainOk where
  code := by decide
  message := by decide
  headers := by
    intro field member
    have only : field = (text "Content-Type", text "text/plain") := by
      simpa [plainOk] using member
    rw [only]
    exact ⟨⟨by decide, by decide, unblank_head (by decide)⟩, by decide⟩
  ordered := by decide
  body := by decide

theorem plainOk_never_decodes :
    ∃ next front back, plainOk.appendToBuffer (Buffer.new 64) = .ok next ∧
      next.content = [] ++ (front ++ back) ∧
      front = text "HTTP/1.1 " ++ decimal plainOk.statusCode ∧
      decode (front ++ back) ≠ some plainOk ∧
      decode (front ++ [32] ++ back) = some plainOk :=
  encoded_never_decodes plainOk plainOk_encodable (new_represents 64)

/-- The status line is `HTTP/1.1 200OK`, in which the decoder finds no code. -/
theorem missing_space_not_decoded :
    ∃ next, plainOk.appendToBuffer (Buffer.new 64) = .ok next ∧
      next.content.take 14 = text "HTTP/1.1 200OK" ∧ decode next.content = none := by
  rcases appendToBuffer_represents plainOk (new_represents 64) with ⟨next, appended, after⟩
  have content : next.content = responseBytes plainOk := by
    rw [after.content, List.nil_append]
  refine ⟨next, appended, ?_, ?_⟩
  · rw [content]
    decide
  · rw [content, responseBytes_eq, decode_status plainOk_encodable (by decide)]
    rfl

end Msmuduo.HttpResponse
