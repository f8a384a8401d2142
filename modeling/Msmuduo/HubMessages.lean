import Msmuduo.Framing
import Msmuduo.HttpParse
import Msmuduo.Hub

/-!
# The messages of the hub

`parseMessage` depends on the readable bytes alone: it cuts a message off their
front, waits for more, or rejects them for good. So the callbacks of a client
depend on the bytes it receives and not on how they are divided into receives.
-/

namespace Msmuduo.Hub

open Msmuduo.Machine Msmuduo.Search Msmuduo.Window Msmuduo.Framing Msmuduo.Buffer
open Msmuduo.HttpContext (lineEnd lineEnd_bound lineEnd_append lineEnd_line take_line drop_line
  findCRLF_represents)

set_option autoImplicit false

structure Message where
  cmd : List Byte
  topic : List Byte
  content : List Byte
  deriving DecidableEq, Repr

/-- The front of the readable bytes, as `parseMessage` sees it. -/
def cutMessage (bytes : List Byte) : Cut Message Byte :=
  match lineEnd bytes with
  | none => .more
  | some offset =>
      let line := bytes.take offset
      let space := line.idxOf 32
      if space = offset then .bad
      else
        let behind := bytes.drop (offset + 2)
        if line.take space = text "pub" then
          match lineEnd behind with
          | none => .more
          | some length =>
              .item ⟨line.take space, line.drop (space + 1), behind.take length⟩
                (behind.drop (length + 2))
        else .item ⟨line.take space, line.drop (space + 1), []⟩ behind

/-! ## Cutting -/

section

variable {bytes : List Byte} {offset : Nat}

theorem cutMessage_waiting (missing : lineEnd bytes = none) : cutMessage bytes = .more := by
  simp [cutMessage, missing]

theorem cutMessage_unspaced (found : lineEnd bytes = some offset)
    (unspaced : (bytes.take offset).idxOf 32 = offset) : cutMessage bytes = .bad := by
  simp [cutMessage, found, unspaced]

theorem cutMessage_line (found : lineEnd bytes = some offset)
    (spaced : (bytes.take offset).idxOf 32 ≠ offset)
    (other : (bytes.take offset).take ((bytes.take offset).idxOf 32) ≠ text "pub") :
    cutMessage bytes =
      .item ⟨(bytes.take offset).take ((bytes.take offset).idxOf 32),
        (bytes.take offset).drop ((bytes.take offset).idxOf 32 + 1), []⟩
        (bytes.drop (offset + 2)) := by
  simp only [cutMessage, found]
  rw [if_neg spaced, if_neg other]

theorem cutMessage_pub (found : lineEnd bytes = some offset)
    (spaced : (bytes.take offset).idxOf 32 ≠ offset)
    (pub : (bytes.take offset).take ((bytes.take offset).idxOf 32) = text "pub") :
    cutMessage bytes =
      match lineEnd (bytes.drop (offset + 2)) with
      | none => .more
      | some length =>
          .item ⟨text "pub", (bytes.take offset).drop ((bytes.take offset).idxOf 32 + 1),
            (bytes.drop (offset + 2)).take length⟩
            ((bytes.drop (offset + 2)).drop (length + 2)) := by
  simp only [cutMessage, found]
  rw [if_neg spaced, if_pos pub]
  cases lineEnd (bytes.drop (offset + 2)) with
  | none => rfl
  | some length => rw [pub]

end

/-- What a cut decides, it decides by the first one or two lines. -/
theorem cutMessage_append (bytes later : List Byte) :
    (∀ item rest, cutMessage bytes = .item item rest →
      cutMessage (bytes ++ later) = .item item (rest ++ later)) ∧
    (cutMessage bytes = .bad → cutMessage (bytes ++ later) = .bad) := by
  cases found : lineEnd bytes with
  | none =>
      rw [cutMessage_waiting found]
      constructor
      · intro item rest cut
        cases cut
      · intro cut
        cases cut
  | some offset =>
      have bound := lineEnd_bound found
      have stillFound := lineEnd_append later found
      have sameLine : (bytes ++ later).take offset = bytes.take offset :=
        List.take_append_of_le_length (by omega)
      have sameRest : (bytes ++ later).drop (offset + 2) = bytes.drop (offset + 2) ++ later :=
        List.drop_append_of_le_length bound
      by_cases spaced : (bytes.take offset).idxOf 32 = offset
      · rw [cutMessage_unspaced found spaced]
        constructor
        · intro item rest cut
          cases cut
        · intro _
          apply cutMessage_unspaced stillFound
          rw [sameLine, spaced]
      · by_cases pub : (bytes.take offset).take ((bytes.take offset).idxOf 32) = text "pub"
        · have stillSpaced : ((bytes ++ later).take offset).idxOf 32 ≠ offset := by
            rwa [sameLine]
          have stillPub : ((bytes ++ later).take offset).take
              (((bytes ++ later).take offset).idxOf 32) = text "pub" := by
            rwa [sameLine]
          rw [cutMessage_pub found spaced pub, cutMessage_pub stillFound stillSpaced stillPub,
            sameLine, sameRest]
          cases second : lineEnd (bytes.drop (offset + 2)) with
          | none =>
              constructor
              · intro item rest cut
                cases cut
              · intro cut
                cases cut
          | some length =>
              have inside := lineEnd_bound second
              rw [lineEnd_append later second]
              constructor
              · intro item rest cut
                cases cut
                simp only
                rw [List.take_append_of_le_length (by omega),
                  List.drop_append_of_le_length inside]
              · intro cut
                cases cut
        · have stillSpaced : ((bytes ++ later).take offset).idxOf 32 ≠ offset := by
            rwa [sameLine]
          have stillOther : ((bytes ++ later).take offset).take
              (((bytes ++ later).take offset).idxOf 32) ≠ text "pub" := by
            rwa [sameLine]
          rw [cutMessage_line found spaced pub, cutMessage_line stillFound stillSpaced stillOther,
            sameLine, sameRest]
          constructor
          · intro item rest cut
            cases cut
            rfl
          · intro cut
            cases cut

theorem cutMessage_shorter {bytes rest : List Byte} {message : Message}
    (cut : cutMessage bytes = .item message rest) : rest.length < bytes.length := by
  cases found : lineEnd bytes with
  | none =>
      rw [cutMessage_waiting found] at cut
      cases cut
  | some offset =>
      have bound := lineEnd_bound found
      by_cases spaced : (bytes.take offset).idxOf 32 = offset
      · rw [cutMessage_unspaced found spaced] at cut
        cases cut
      · by_cases pub : (bytes.take offset).take ((bytes.take offset).idxOf 32) = text "pub"
        · rw [cutMessage_pub found spaced pub] at cut
          cases second : lineEnd (bytes.drop (offset + 2)) with
          | none =>
              rw [second] at cut
              cases cut
          | some length =>
              rw [second] at cut
              cases cut
              simp only [List.length_drop]
              omega
        · rw [cutMessage_line found spaced pub] at cut
          cases cut
          rw [List.length_drop]
          omega

/-- The codec as a decoder. -/
def codec : Decoder Message Byte where
  cut := cutMessage
  waits := rfl
  shorter := cutMessage_shorter
  item_stable := fun later cut => (cutMessage_append _ later).1 _ _ cut
  bad_stable := fun later cut => (cutMessage_append _ later).2 cut

/-! ## Parsing a buffer -/

section

variable {buf : Buffer} {bytes : List Byte}

theorem window_behind (represents : Represents buf bytes) (first last : Nat)
    (bound : last ≤ bytes.length) :
    window buf.buffer (buf.peek + first) (buf.peek + last) = (bytes.take last).drop first := by
  have whole := represents.window_peek last (by rw [represents.readable]; exact bound)
  rw [← whole]
  exact window_advance _ _ _ _

theorem window_peek_zero (represents : Represents buf bytes) (last : Nat)
    (bound : last ≤ bytes.length) :
    window buf.buffer buf.peek (buf.peek + last) = bytes.take last :=
  represents.window_peek last (by rw [represents.readable]; exact bound)

theorem window_end (represents : Represents buf bytes) :
    buf.peek + bytes.length = buf.beginWrite := by
  have ordered := represents.ordered
  have readable := represents.readable
  unfold readableBytes at readable
  unfold peek beginWrite
  omega

theorem findCRLFFrom_represents (represents : Represents buf bytes) (start : Nat)
    (bound : start ≤ bytes.length) :
    findCRLFFrom buf (buf.peek + start) =
      .ok ((lineEnd (bytes.drop start)).map (buf.peek + start + ·)) := by
  have finish := window_end represents
  have behind : window buf.buffer (buf.peek + start) (buf.peek + bytes.length) =
      bytes.drop start := by
    rw [window_behind represents start bytes.length (Nat.le_refl _), List.take_length]
  unfold findCRLFFrom
  rw [require_ok (by omega), require_ok (by omega)]
  simp only [bind, Except.bind, pure, Except.pure, ← finish, behind]
  congr 1
  unfold lineEnd
  have length : (bytes.drop start).length = bytes.length - start := List.length_drop
  dsimp only
  by_cases last : search kCRLF (bytes.drop start) = (bytes.drop start).length
  · rw [if_pos last, if_pos (by omega)]
    rfl
  · rw [if_neg last, if_neg (by omega)]
    rfl

/-- Bytes up to an offset are taken off the front. -/
theorem retrieveUntil_front (represents : Represents buf bytes) (offset : Nat)
    (bound : offset ≤ bytes.length) :
    ∃ next, inBuffer (buf.retrieveUntil (buf.peek + offset)) = .ok next ∧
      Represents next (bytes.drop offset) := by
  have finish := window_end represents
  obtain ⟨next, retrieved, after⟩ := retrieveUntil_represents represents offset (by omega)
  refine ⟨next, ?_, after⟩
  rw [retrieved]
  rfl

/-- What `parseMessage` returns for each cut of the readable bytes. -/
theorem parseMessage_cut (represents : Represents buf bytes) :
    ∃ parsed, parseMessage buf = .ok parsed ∧
      match cutMessage bytes with
      | .more => parsed.result = .kContinue ∧ parsed.buf = buf
      | .bad => parsed.result = .kError ∧ parsed.buf = buf
      | .item message rest =>
          parsed.result = .kSuccess ∧ parsed.cmd = message.cmd ∧ parsed.topic = message.topic ∧
            parsed.content = message.content ∧ Represents parsed.buf rest := by
  unfold parseMessage
  rw [findCRLF_represents represents]
  cases found : lineEnd bytes with
  | none =>
      rw [cutMessage_waiting found]
      exact ⟨_, rfl, rfl, rfl⟩
  | some offset =>
      have bound := lineEnd_bound found
      have line := window_peek_zero represents offset (by omega)
      have inside : (bytes.take offset).idxOf 32 ≤ offset := by
        have size : (bytes.take offset).idxOf 32 ≤ (bytes.take offset).length :=
          List.idxOf_le_length
        rw [List.length_take] at size
        omega
      simp only [Option.map_some, find, line]
      by_cases spaced : (bytes.take offset).idxOf 32 = offset
      · rw [cutMessage_unspaced found spaced, spaced]
        simp only [ne_eq, not_true_eq_false, if_false]
        exact ⟨_, rfl, rfl, rfl⟩
      · have apart : buf.peek + (bytes.take offset).idxOf 32 ≠ buf.peek + offset := by omega
        have cmd : window buf.buffer buf.peek (buf.peek + (bytes.take offset).idxOf 32) =
            (bytes.take offset).take ((bytes.take offset).idxOf 32) := by
          rw [window_peek_zero represents _ (by omega), List.take_take, Nat.min_eq_left inside]
        have topic : window buf.buffer (buf.peek + (bytes.take offset).idxOf 32 + 1)
            (buf.peek + offset) =
            (bytes.take offset).drop ((bytes.take offset).idxOf 32 + 1) := by
          rw [Nat.add_assoc]
          exact window_behind represents _ _ (by omega)
        rw [if_pos apart, cmd, topic]
        by_cases pub : (bytes.take offset).take ((bytes.take offset).idxOf 32) = text "pub"
        · rw [cutMessage_pub found spaced pub, if_pos pub, Nat.add_assoc,
            findCRLFFrom_represents represents (offset + 2) bound]
          cases second : lineEnd (bytes.drop (offset + 2)) with
          | none => exact ⟨_, rfl, rfl, rfl⟩
          | some length =>
              have ends := lineEnd_bound second
              rw [List.length_drop] at ends
              obtain ⟨next, retrieved, after⟩ :=
                retrieveUntil_front represents (offset + 2 + length + 2) (by omega)
              have content : window buf.buffer (buf.peek + (offset + 2))
                  (buf.peek + (offset + 2) + length) = (bytes.drop (offset + 2)).take length := by
                rw [Nat.add_assoc buf.peek, window_behind represents _ _ (by omega),
                  List.drop_take]
                congr 1
                omega
              have place : buf.peek + (offset + 2) + length + 2 =
                  buf.peek + (offset + 2 + length + 2) := by omega
              simp only [Option.map_some, bind, Except.bind, content, place, retrieved]
              refine ⟨_, rfl, rfl, pub, rfl, rfl, ?_⟩
              rw [List.drop_drop]
              exact after
        · obtain ⟨next, retrieved, after⟩ :=
            retrieveUntil_front represents (offset + 2) bound
          rw [cutMessage_line found spaced pub, if_neg pub, Nat.add_assoc, retrieved]
          exact ⟨_, rfl, rfl, rfl, rfl, rfl, after⟩

end

/-! ## Writing messages -/

namespace Message

/-- The bytes of a message. Only a publication has a second line. -/
def encode (message : Message) : List Byte :=
  if message.cmd = text "pub" then
    message.cmd ++ text " " ++ message.topic ++ kCRLF ++ message.content ++ kCRLF
  else message.cmd ++ text " " ++ message.topic ++ kCRLF

/-- The command is one word, and no line ends before its own end. -/
structure Clean (message : Message) : Prop where
  word : (32 : Byte) ∉ message.cmd
  line : ¬kCRLF <:+: message.cmd ++ text " " ++ message.topic
  content : if message.cmd = text "pub" then ¬kCRLF <:+: message.content
    else message.content = []

instance (message : Message) : Decidable message.Clean :=
  decidable_of_iff
    ((32 : Byte) ∉ message.cmd ∧ ¬kCRLF <:+: message.cmd ++ text " " ++ message.topic ∧
      if message.cmd = text "pub" then ¬kCRLF <:+: message.content else message.content = [])
    ⟨fun ⟨word, line, content⟩ => ⟨word, line, content⟩,
      fun clean => ⟨clean.word, clean.line, clean.content⟩⟩

theorem idxOf_word {message : Message} (clean : message.Clean) :
    (message.cmd ++ text " " ++ message.topic).idxOf 32 = message.cmd.length := by
  have behind : (text " " ++ message.topic).idxOf 32 = 0 := by
    change (32 :: message.topic).idxOf 32 = 0
    exact List.idxOf_cons_self
  rw [List.append_assoc, List.idxOf_append_of_notMem clean.word, behind, Nat.add_zero]

/-- A clean message is read back as it was written. -/
theorem cut_encode {message : Message} (clean : message.Clean) :
    codec.Reads encode message := by
  intro rest
  have spaced : (message.cmd ++ text " " ++ message.topic).idxOf 32 ≠
      (message.cmd ++ text " " ++ message.topic).length := by
    rw [idxOf_word clean]
    simp [text]
  have cmd : (message.cmd ++ text " " ++ message.topic).take
      ((message.cmd ++ text " " ++ message.topic).idxOf 32) = message.cmd := by
    rw [idxOf_word clean, List.append_assoc, List.take_left]
  have topic : (message.cmd ++ text " " ++ message.topic).drop
      ((message.cmd ++ text " " ++ message.topic).idxOf 32 + 1) = message.topic := by
    have size : message.cmd.length + 1 = (message.cmd ++ text " ").length := by simp [text]
    rw [idxOf_word clean, size, List.drop_left]
  change cutMessage (encode message ++ rest) = _
  by_cases pub : message.cmd = text "pub"
  · have content := clean.content
    rw [if_pos pub] at content
    have bytes : encode message ++ rest =
        message.cmd ++ text " " ++ message.topic ++ kCRLF ++
          (message.content ++ kCRLF ++ rest) := by
      simp only [encode, if_pos pub, List.append_assoc]
    rw [bytes, cutMessage_pub (lineEnd_line clean.line _) (by rw [take_line]; exact spaced)
      (by rw [take_line, cmd]; exact pub), drop_line, lineEnd_line content]
    simp only [take_line, drop_line]
    rw [topic, ← pub]
  · have content := clean.content
    rw [if_neg pub] at content
    have bytes : encode message ++ rest =
        message.cmd ++ text " " ++ message.topic ++ kCRLF ++ rest := by
      simp only [encode, if_neg pub]
    rw [bytes, cutMessage_line (lineEnd_line clean.line _) (by rw [take_line]; exact spaced)
      (by rw [take_line, cmd]; exact pub), take_line, drop_line, cmd, topic, ← content]

end Message

end Msmuduo.Hub
