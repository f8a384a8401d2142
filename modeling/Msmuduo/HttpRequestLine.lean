import Msmuduo.HttpHeaderMap
import Msmuduo.HttpRejection

/-!
# The language of request lines

`processRequestLine` finds its way through a line with three `std::find` and a
comparison of the last eight bytes. Cut at its first two spaces a line is read
part by part; from that follows which lines are accepted on a new request, and
what they set.
-/

namespace Msmuduo.HttpContext

open Msmuduo.Machine Msmuduo.Window HttpConnection HttpRequest

set_option autoImplicit false

/-- A method, a target without a space and a version, with one space between. -/
structure RequestLine (line : List Byte) (method : Method) (target : List Byte)
    (version : Version) : Prop where
  method_known : method ≠ .kInvalid
  target_plain : 32 ∉ target
  version_known : version ≠ .kUnkown
  split : line = methodWord method ++ [32] ++ target ++ [32] ++
    (text "HTTP/1." ++ [versionDigit version])

/-- The version named by the bytes behind the second space. -/
def versionOf (tail : List Byte) : Option Version :=
  if tail = text "HTTP/1.1" then some .kHttp11
  else if tail = text "HTTP/1.0" then some .kHttp10
  else none

/-- The target is split at its first question mark. -/
def setTarget (r : HttpRequest) (target : List Byte) : HttpRequest :=
  { r with
    path := target.takeWhile (· ≠ 63)
    query := if 63 ∈ target then target.dropWhile (· ≠ 63) else r.query }

/-! ## The parts of a line -/

theorem versionOf_word (tail : List Byte) (version : Version) :
    versionOf tail = some version ↔
      version ≠ .kUnkown ∧ tail = text "HTTP/1." ++ [versionDigit version] := by
  have newer : text "HTTP/1.1" = text "HTTP/1." ++ [49] := by decide
  have older : text "HTTP/1.0" = text "HTTP/1." ++ [48] := by decide
  unfold versionOf
  rw [newer, older]
  constructor
  · intro named
    split at named
    · next same =>
      cases named
      exact ⟨by simp, same⟩
    · split at named
      · next same =>
        cases named
        exact ⟨by simp, same⟩
      · cases named
  · rintro ⟨known, same⟩
    cases version with
    | kUnkown => exact absurd rfl known
    | kHttp10 => rw [same, versionDigit]; decide
    | kHttp11 => rw [same, versionDigit]; decide

/-- The test of the source on the bytes behind the second space. -/
theorem versionOf_eq (tail : List Byte) :
    versionOf tail =
      if tail.length = 8 ∧ tail.take 7 = text "HTTP/1." then
        match tail.getLast? with
        | some 49 => some .kHttp11
        | some 48 => some .kHttp10
        | _ => none
      else none := by
  have newer : text "HTTP/1.1" = text "HTTP/1." ++ [49] := by decide
  have older : text "HTTP/1.0" = text "HTTP/1." ++ [48] := by decide
  unfold versionOf
  by_cases prefixed : tail.length = 8 ∧ tail.take 7 = text "HTTP/1."
  · have one : (tail.drop 7).length = 1 := by
      rw [List.length_drop, prefixed.1]
    rcases List.length_eq_one_iff.mp one with ⟨digit, last⟩
    have split : tail = text "HTTP/1." ++ [digit] := by
      rw [← prefixed.2, ← last, List.take_append_drop]
    rw [if_pos prefixed, split, newer, older, List.getLast?_concat]
    by_cases one : digit = 49
    · simp [one]
    · by_cases zero : digit = 48
      · simp [zero]
      · simp [one, zero]
  · have notNewer : tail ≠ text "HTTP/1.1" := by
      intro same
      exact prefixed (by rw [same]; decide)
    have notOlder : tail ≠ text "HTTP/1.0" := by
      intro same
      exact prefixed (by rw [same]; decide)
    rw [if_neg notNewer, if_neg notOlder, if_neg prefixed]

theorem processRequestLine_one_space {r : HttpRequest} (unset : r.method = .kInvalid)
    {word rest : List Byte} (wordPlain : 32 ∉ word) (restPlain : 32 ∉ rest) :
    processRequestLine r (word ++ [32] ++ rest) =
      .ok (false, { r with method := methodOf word }) := by
  have space : find (word ++ [32] ++ rest) 0 (word ++ [32] ++ rest).length 32 = word.length := by
    rw [find_whole]
    simp [List.idxOf_append, wordPlain]
  have method : window (word ++ [32] ++ rest) 0 word.length = word := by
    apply window_split [] word ([32] ++ rest)
    · simp
    · rfl
    · simp
  have second : find (word ++ [32] ++ rest) (word.length + 1) (word ++ [32] ++ rest).length 32 =
      (word ++ [32] ++ rest).length := by
    rw [find_split (word ++ [32]) rest [] 32 (by simp) (by simp) (by simp; omega),
      List.idxOf_eq_length restPlain]
    simp
    omega
  have inside : word.length ≠ (word ++ [32] ++ rest).length := by
    simp
  simp only [processRequestLine, setMethod, space, method, second, if_pos inside,
    require_ok unset, bind, Except.bind, pure, Except.pure]
  split <;> simp

/-! ### A target between two spaces, and what is behind it -/

theorem window_before_mark (front target back : List Byte) (mark : Byte) :
    window (front ++ target ++ back) front.length (front.length + target.idxOf mark) =
      target.takeWhile (· ≠ mark) := by
  have marked : target.idxOf mark ≤ target.length := List.idxOf_le_length
  rw [← take_idxOf]
  apply window_split front (target.take (target.idxOf mark))
    (target.drop (target.idxOf mark) ++ back)
  · rw [← List.append_assoc, List.append_assoc front (target.take _), List.take_append_drop]
  · rfl
  · rw [List.length_take, Nat.min_eq_left marked]

theorem window_from_mark (front target back : List Byte) (mark : Byte) :
    window (front ++ target ++ back) (front.length + target.idxOf mark)
      (front.length + target.length) = target.dropWhile (· ≠ mark) := by
  have marked : target.idxOf mark ≤ target.length := List.idxOf_le_length
  rw [← drop_idxOf]
  apply window_split (front ++ target.take (target.idxOf mark))
    (target.drop (target.idxOf mark)) back
  · rw [List.append_assoc front (target.take _), List.take_append_drop]
  · rw [List.length_append, List.length_take, Nat.min_eq_left marked]
  · rw [List.length_drop]
    omega

/-- Without a question mark the path is the whole target and the query is left
alone. -/
theorem setTarget_eq (r : HttpRequest) (start : Nat) (target : List Byte) :
    (if start + target.idxOf 63 ≠ start + target.length then
      { r with path := target.takeWhile (· ≠ 63), query := target.dropWhile (· ≠ 63) }
    else { r with path := target }) = setTarget r target := by
  by_cases member : 63 ∈ target
  · have before := List.idxOf_lt_length_of_mem member
    rw [if_pos (by omega), setTarget, if_pos member]
  · have none : target.idxOf 63 = target.length := List.idxOf_eq_length member
    have all : target.takeWhile (· ≠ 63) = target := by
      rw [← take_idxOf, none, List.take_length]
    rw [if_neg (by omega), setTarget, if_neg member, all]

/-- All but the last of eight bytes at the end of a line. -/
theorem window_front_of_eight (front : List Byte) {tail : List Byte} (eight : tail.length = 8) :
    window (front ++ tail) front.length ((front ++ tail).length - 1) = tail.take 7 := by
  apply window_split front (tail.take 7) (tail.drop 7)
  · rw [List.append_assoc, List.take_append_drop]
  · rfl
  · rw [List.length_append, List.length_take, eight]
    omega

theorem processRequestLine_spaced {r : HttpRequest} (unset : r.method = .kInvalid)
    {word target : List Byte} (wordPlain : 32 ∉ word) (targetPlain : 32 ∉ target)
    (tail : List Byte) :
    processRequestLine r (word ++ [32] ++ target ++ [32] ++ tail) =
      if methodOf word = .kInvalid then .ok (false, { r with method := .kInvalid })
      else match versionOf tail with
        | some version =>
            .ok (true, { setTarget { r with method := methodOf word } target with
              version := version })
        | none => .ok (false, setTarget { r with method := methodOf word } target) := by
  generalize lineEq : word ++ [32] ++ target ++ [32] ++ tail = line
  have length : line.length = word.length + 1 + target.length + 1 + tail.length := by
    rw [← lineEq]
    simp only [List.length_append, List.length_singleton]
  have cut : word ++ [32] ++ target ++ ([32] ++ tail) = line := by
    rw [← List.append_assoc, lineEq]
  have start : (word ++ [32]).length = word.length + 1 := by simp
  have space : find line 0 line.length 32 = word.length := by
    rw [find_whole, ← lineEq]
    simp [List.idxOf_append, wordPlain]
  have method : window line 0 word.length = word := by
    apply window_split [] word ([32] ++ target ++ [32] ++ tail)
    · simp [← lineEq]
    · rfl
    · simp
  have second : find line (word.length + 1) line.length 32 =
      word.length + 1 + target.length := by
    rw [find_split (word ++ [32]) (target ++ [32] ++ tail) [] 32 (by simp [← lineEq]) (by simp)
      (by simp [length]; omega)]
    simp [List.idxOf_append, targetPlain]
  have question : find line (word.length + 1) (word.length + 1 + target.length) 63 =
      word.length + 1 + target.idxOf 63 := by
    apply find_split (word ++ [32]) target ([32] ++ tail)
    · simp [← lineEq]
    · simp
    · rfl
  have whole : window line (word.length + 1) (word.length + 1 + target.length) = target := by
    apply window_split (word ++ [32]) target ([32] ++ tail)
    · simp [← lineEq]
    · simp
    · rfl
  have path : window line (word.length + 1) (word.length + 1 + target.idxOf 63) =
      target.takeWhile (· ≠ 63) := by
    rw [← cut, ← start]
    exact window_before_mark (word ++ [32]) target ([32] ++ tail) 63
  have query : window line (word.length + 1 + target.idxOf 63)
      (word.length + 1 + target.length) = target.dropWhile (· ≠ 63) := by
    rw [← cut, ← start]
    exact window_from_mark (word ++ [32]) target ([32] ++ tail) 63
  have behind : line.length - (word.length + 1 + target.length + 1) = tail.length := by omega
  have inside : word.length ≠ line.length := by omega
  have insideToo : word.length + 1 + target.length ≠ line.length := by omega
  have targeted : (if word.length + 1 + target.idxOf 63 ≠ word.length + 1 + target.length then
        { r with
          method := methodOf word
          path := target.takeWhile (· ≠ 63)
          query := target.dropWhile (· ≠ 63) }
      else { r with method := methodOf word, path := target }) =
      setTarget { r with method := methodOf word } target :=
    setTarget_eq { r with method := methodOf word } (word.length + 1) target
  have tailTaken : tail.length = 8 → window line (word.length + 1 + target.length + 1)
      (line.length - 1) = tail.take 7 := by
    intro eight
    have front : (word ++ [32] ++ target ++ [32]).length =
        word.length + 1 + target.length + 1 := by
      simp only [List.length_append, List.length_singleton]
    rw [← lineEq, ← front]
    exact window_front_of_eight _ eight
  have lastTaken : tail.length = 8 → line.getLast? = tail.getLast? := by
    intro eight
    have nonempty : tail ≠ [] := List.ne_nil_of_length_pos (by omega)
    rw [← lineEq, List.getLast?_append_of_ne_nil _ nonempty]
  simp only [processRequestLine, setMethod, space, method, second, question, whole, path, query,
    behind, targeted, if_pos inside, if_pos insideToo, require_ok unset, bind, Except.bind, pure,
    Except.pure]
  by_cases unknown : methodOf word = .kInvalid
  · simp [unknown]
  · have known : (methodOf word != .kInvalid) = true := by simpa using unknown
    rw [if_pos known, if_neg unknown, versionOf_eq]
    by_cases eight : tail.length = 8
    · rw [tailTaken eight, lastTaken eight]
      by_cases prefixed : tail.take 7 = text "HTTP/1."
      · rw [if_pos ⟨eight, prefixed⟩, if_pos ⟨eight, prefixed⟩]
        cases last : tail.getLast? with
        | none => rfl
        | some digit =>
            by_cases newer : digit = 49
            · rw [newer]
              rfl
            · by_cases older : digit = 48
              · rw [older]
                rfl
              · simp [newer, older]
      · rw [if_neg fun both => prefixed both.2, if_neg fun both => prefixed both.2]
    · rw [if_neg fun both => eight both.1, if_neg fun both => eight both.1]

/-! ## Accepted lines -/

theorem methodOf_eq_iff (word : List Byte) {method : Method} (known : method ≠ .kInvalid) :
    methodOf word = method ↔ word = methodWord method := by
  constructor
  · intro named
    unfold methodOf at named
    split_ifs at named with get post head put delete
    · rw [get, ← named, methodWord]
    · rw [post, ← named, methodWord]
    · rw [head, ← named, methodWord]
    · rw [put, ← named, methodWord]
    · rw [delete, ← named, methodWord]
    · exact absurd named.symm known
  · intro same
    rw [same, methodOf_word known]

/-- A line of the language on a request without a method. -/
theorem RequestLine.accepted {line target : List Byte} {method : Method} {version : Version}
    (parts : RequestLine line method target version) {r : HttpRequest}
    (unset : r.method = .kInvalid) :
    processRequestLine r line =
      .ok (true, { setTarget { r with method := method } target with version := version }) := by
  have named : methodOf (methodWord method) = method := methodOf_word parts.method_known
  have digit := (versionOf_word _ version).mpr ⟨parts.version_known, rfl⟩
  rw [parts.split, processRequestLine_spaced unset (space_not_in_word method) parts.target_plain,
    named, if_neg parts.method_known, digit]

/-- What a call that returns did: it accepted a line of the language, or it
rejected the line and left the version alone. -/
theorem processRequestLine_cases {r after : HttpRequest} {line : List Byte} {ok : Bool}
    (ran : processRequestLine r line = .ok (ok, after)) :
    (ok = true ∧ ∃ method target version, RequestLine line method target version ∧
      after = { setTarget { r with method := method } target with version := version }) ∨
    (ok = false ∧ after.version = r.version) := by
  by_cases spaced : 32 ∈ line
  · have unset : r.method = .kInvalid := by
      by_contra set
      rw [processRequestLine_set spaced set] at ran
      cases ran
    have first := split_at_first spaced
    have wordPlain := not_mem_takeWhile line 32
    generalize line.takeWhile (· ≠ 32) = word at first wordPlain
    generalize (line.dropWhile (· ≠ 32)).drop 1 = rest at first
    subst first
    by_cases again : 32 ∈ rest
    · have second := split_at_first again
      have targetPlain := not_mem_takeWhile rest 32
      generalize rest.takeWhile (· ≠ 32) = target at second targetPlain
      generalize (rest.dropWhile (· ≠ 32)).drop 1 = tail at second
      subst second
      have split : word ++ 32 :: (target ++ 32 :: tail) =
          word ++ [32] ++ target ++ [32] ++ tail := by simp
      rw [split, processRequestLine_spaced unset wordPlain targetPlain] at ran
      split_ifs at ran with unknown
      · cases ran
        exact Or.inr ⟨rfl, rfl⟩
      · cases named : versionOf tail with
        | none =>
            rw [named] at ran
            cases ran
            exact Or.inr ⟨rfl, rfl⟩
        | some version =>
            rw [named] at ran
            cases ran
            rcases (versionOf_word tail version).mp named with ⟨known, digit⟩
            refine Or.inl ⟨rfl, methodOf word, target, version, ?_, rfl⟩
            refine ⟨unknown, targetPlain, known, ?_⟩
            rw [split, ← (methodOf_eq_iff word unknown).mp rfl, ← digit]
    · have split : word ++ 32 :: rest = word ++ [32] ++ rest := by simp
      rw [split, processRequestLine_one_space unset wordPlain again] at ran
      cases ran
      exact Or.inr ⟨rfl, rfl⟩
  · rw [processRequestLine_unspaced _ spaced] at ran
    cases ran
    exact Or.inr ⟨rfl, rfl⟩

theorem RequestLine.spaced {line target : List Byte} {method : Method} {version : Version}
    (parts : RequestLine line method target version) : 32 ∈ line := by
  rw [parts.split]
  simp

/-- A call that returns accepts the lines of the language and no others. -/
theorem processRequestLine_ok_iff {r after : HttpRequest} {line : List Byte} {ok : Bool}
    (ran : processRequestLine r line = .ok (ok, after)) :
    ok = true ↔ ∃ method target version, RequestLine line method target version := by
  constructor
  · intro accepted
    rcases processRequestLine_cases ran with
      ⟨-, method, target, version, parts, -⟩ | ⟨rejected, -⟩
    · exact ⟨method, target, version, parts⟩
    · rw [accepted] at rejected
      cases rejected
  · rintro ⟨method, target, version, parts⟩
    have unset : r.method = .kInvalid := by
      by_contra set
      rw [processRequestLine_set parts.spaced set] at ran
      cases ran
    have same := ran.symm.trans (parts.accepted unset)
    cases same
    rfl

theorem setTarget_new (method : Method) (target : List Byte) :
    setTarget { HttpRequest.new with method := method } target = { HttpRequest.new with
      method := method
      path := target.takeWhile (· ≠ 63)
      query := target.dropWhile (· ≠ 63) } := by
  unfold setTarget
  by_cases marked : 63 ∈ target
  · rw [if_pos marked]
  · have unmarked : target.dropWhile (· ≠ 63) = [] := by
      apply List.dropWhile_eq_nil_iff.mpr
      intro byte member
      have other : byte ≠ 63 := fun same => marked (same ▸ member)
      simpa using other
    rw [if_neg marked, unmarked]
    rfl

/-- For every line and a new request: the line is accepted exactly when it
belongs to the language, and then its parts determine the request. -/
theorem processRequestLine_accepts_iff (line : List Byte) :
    ∃ ok after, processRequestLine HttpRequest.new line = .ok (ok, after) ∧
      (ok = true ↔ ∃ method target version, RequestLine line method target version) ∧
      ∀ method target version, RequestLine line method target version →
        after = { HttpRequest.new with
          method := method
          version := version
          path := target.takeWhile (· ≠ 63)
          query := target.dropWhile (· ≠ 63) } ∧
        after.path ++ after.query = target := by
  have unset : HttpRequest.new.method = .kInvalid := rfl
  rcases processRequestLine_total unset line with ⟨ok, after, ran, -⟩
  refine ⟨ok, after, ran, processRequestLine_ok_iff ran, ?_⟩
  intro method target version parts
  have same := ran.symm.trans (parts.accepted unset)
  rw [setTarget_new] at same
  cases same
  exact ⟨rfl, List.takeWhile_append_dropWhile⟩

end Msmuduo.HttpContext
