import Msmuduo.FileUtil
import Msmuduo.LogStream

/-!
# The logger

A transcription of `Logging.cpp`. The constructor writes the head of the record
into the stream, the user streams the message, and the destructor streams the
trail, which ends with the newline, and hands the content of the buffer to
`g_output`. Every item that does not fit is left out, the newline too.

The text of the second comes from `localtime_s` and is given, as is the id of
the thread.
-/

namespace Msmuduo

open Msmuduo.Machine Msmuduo.BoundedText

set_option autoImplicit false

inductive LogLevel where
  | trace
  | debug
  | info
  | ok
  | warn
  | error
  | fatal
  deriving DecidableEq, Repr

/-- `LogLevelName[level]` -/
def LogLevel.name : LogLevel → List Byte
  | trace => text "[TRACE] "
  | debug => text "[DEBUG] "
  | info => text "[INFO ] "
  | ok => text "[OK   ] "
  | warn => text "[WARN ] "
  | error => text "[ERROR] "
  | fatal => text "[FATAL] "

inductive EchoColor where
  | red
  | green
  | yellow
  deriving DecidableEq, Repr

/-- The color the destructor changes to. -/
def LogLevel.color : LogLevel → Option EchoColor
  | ok => some .green
  | error | fatal => some .red
  | warn => some .yellow
  | trace | debug | info => none

/-- What a destructor does. -/
inductive Effect where
  | changeToColor (color : EchoColor)
  | output (msg : List Byte)
  | changeToOldColor
  | flush
  | abort
  deriving DecidableEq, Repr

inductive LogFault where
  | path (fault : CString.OutOfBounds)
  | stream (fault : Overrun)
  /-- `assert(us.length() == 9)` -/
  | usLength
  /-- `assert(strlen(str) == len_)` in the constructor of `T` -/
  | knownLength
  deriving DecidableEq, Repr

/-- What the constructor finds: the text of the second of `time_`, the
microseconds in it, and `tid()`. -/
structure Origin where
  t_time : { bytes : List Byte // bytes.length = 17 }
  microseconds : Fin 1000000
  tid : Int32

/-- Digits behind fillers, as many as the width asks for. -/
def padded (width : Nat) (filler : Byte) (digits : List Byte) : List Byte :=
  List.replicate (width - digits.length) filler ++ digits

/-- `Fmt us(".%06dZ ", microseconds)` -/
def us (microseconds : Nat) : List Byte :=
  text "." ++ padded 6 48 (decimal microseconds) ++ text "Z "

/-- `"%5d "` -/
def tidString (tid : Int32) : List Byte := padded 5 32 (decimal tid.toInt) ++ text " "

namespace LogStream

/-- `s << T(str, len)` -/
def appendT (s : LogStream) (str : List Byte) (len : Nat) : Except LogFault LogStream := do
  require (str.length = len) .knownLength
  return s.append str

def streamed (s : LogStream) (items : List Item) : Except LogFault LogStream :=
  (run insert s items).mapError .stream

end LogStream

structure Logger where
  stream : LogStream
  level : LogLevel
  line : Int32
  basename : List Byte

namespace Logger

def formatTime (s : LogStream) (origin : Origin) : Except LogFault LogStream := do
  require ((us origin.microseconds).length = 9) .usLength
  let s ← s.appendT origin.t_time 17
  s.appendT (us origin.microseconds) 9

def logToStream (s : LogStream) (origin : Origin) (level : LogLevel) :
    Except LogFault LogStream := do
  let s ← formatTime s origin
  let s ← s.appendT (tidString origin.tid) (tidString origin.tid).length
  s.appendT level.name 8

/-- `Logger(filename, line, level)` -/
def new (memory : { bytes : List Byte // bytes.length = kSmallBuffer }) (origin : Origin)
    (filename : List Byte) (line : Int32) (level : LogLevel) : Except LogFault Logger := do
  let basename ← (FileUtil.getFileNameFromPath (.ofString filename)).mapError .path
  let stream ← logToStream (LogStream.new memory) origin level
  return { stream := stream, level := level, line := line, basename := basename }

/-- `logger.stream() << ...` -/
def insertAll (logger : Logger) (items : List Item) : Except LogFault Logger := do
  let stream ← logger.stream.streamed items
  return { logger with stream := stream }

/-- The constructor with a function name, which is written behind the head. -/
def newIn (memory : { bytes : List Byte // bytes.length = kSmallBuffer }) (origin : Origin)
    (filename : List Byte) (line : Int32) (level : LogLevel) (func : Option CString) :
    Except LogFault Logger := do
  let logger ← new memory origin filename line level
  logger.insertAll [.cString func, .char 32]

/-- Either constructor. -/
def create (memory : { bytes : List Byte // bytes.length = kSmallBuffer }) (origin : Origin)
    (filename : List Byte) (line : Int32) (level : LogLevel) :
    Option (Option CString) → Except LogFault Logger
  | none => new memory origin filename line level
  | some func => newIn memory origin filename line level func

def dash : CString := ⟨text " - ", by decide⟩

def newline : Byte := 10

/-- What the destructor streams. -/
def trail (logger : Logger) : List Item :=
  [.cString (some dash), .string logger.basename, .char 58, .int32 logger.line, .char newline]

/-- What the destructor does with the content of the buffer. -/
def effects (level : LogLevel) (msg : List Byte) : List Effect :=
  level.color.toList.map .changeToColor ++ [.output msg] ++
    (if level.color.isSome then [.changeToOldColor] else []) ++
    (if level = .fatal then [.flush, .abort] else [])

/-- `~Logger` -/
def destroy (logger : Logger) : Except LogFault (List Effect) := do
  let logger ← logger.insertAll logger.trail
  return effects logger.level logger.stream.buffer.content

end Logger

/-- What is passed to `g_output`. -/
def Effect.msg : Effect → Option (List Byte)
  | output msg => some msg
  | changeToColor _ | changeToOldColor | flush | abort => none

/-- The record ends with the newline, by the length of the content when the
destructor begins and the length of the base name. Where the newline does not
fit, the last byte that does may still be one. -/
def EndsLine (content basename : List Byte) : Prop :=
  (content.length + 6 ≤ kSmallBuffer ∧
      content.length + basename.length + 4 ≠ kSmallBuffer ∧
      content.length + basename.length + 5 ≠ kSmallBuffer) ∨
    (content.length + 3 = kSmallBuffer ∧ (basename = [] ∨ 3 ≤ basename.length)) ∨
    (content.length + 1 = kSmallBuffer ∧ content.getLast? = some Logger.newline) ∨
    (basename.getLast? = some Logger.newline ∧
      (content.length + basename.length + 4 = kSmallBuffer ∨
        kSmallBuffer ≤ content.length + 3 ∧
          content.length + basename.length + 1 = kSmallBuffer))

instance (content basename : List Byte) : Decidable (EndsLine content basename) :=
  inferInstanceAs (Decidable (_ ∨ _))

/-! ### The trail -/

/-- The content of the stream behind one item and behind several. -/
abbrev added (content : List Byte) (item : Item) : List Byte :=
  fill Item.text Item.room kSmallBuffer content item

abbrev addedAll (content : List Byte) (items : List Item) : List Byte :=
  fillAll Item.text Item.room kSmallBuffer content items

theorem addedAll_one (content : List Byte) (item : Item) :
    addedAll content [item] = added content item := rfl

theorem addedAll_three (content : List Byte) (first second third : Item) :
    addedAll content [first, second, third] =
      added (added (added content first) second) third := rfl

theorem added_fits {content : List Byte} (item : Item)
    (fits : content.length + item.room ≤ kSmallBuffer) :
    added content item = content ++ item.text := fill_fits fits

theorem added_string {content v : List Byte} (fits : content.length + v.length < kSmallBuffer) :
    added content (.string v) = content ++ v := added_fits (.string v) fits

theorem added_full {content : List Byte} (item : Item)
    (full : ¬content.length + item.room ≤ kSmallBuffer) : added content item = content :=
  fill_full full

namespace Logger

/-- The content behind the separator and the base name, each if it fits. -/
def named (content basename : List Byte) : List Byte :=
  addedAll content [.cString (some dash), .string basename]

theorem fillAll_trail (logger : Logger) (content : List Byte) :
    addedAll content logger.trail =
      addedAll (named content logger.basename)
        [.char 58, .int32 logger.line, .char newline] := by
  have split : logger.trail = [.cString (some dash), .string logger.basename] ++
      [.char 58, .int32 logger.line, .char newline] := rfl
  rw [split]
  exact fillAll_append content _ _

/-- With three bytes free the colon and the newline are written, and the line
number does not take their place. -/
theorem ends_of_room {content : List Byte} (line : Int32)
    (free : content.length + 3 ≤ kSmallBuffer) :
    (addedAll content [.char 58, .int32 line, .char newline]).getLast? = some newline := by
  have colon : added content (.char 58) = content ++ [58] :=
    added_fits (.char 58) (Nat.le_of_succ_le free)
  have numbered : (added (content ++ [58]) (.int32 line)).length + 2 ≤ kSmallBuffer := by
    by_cases room : (content ++ [58]).length + 32 ≤ kSmallBuffer
    · have short : (Item.int32 line).text.length ≤ 21 :=
        LogStream.length_signed_le (le_trans (by decide) line.le_toInt)
          (lt_trans line.toInt_lt (by decide))
      rw [added_fits (.int32 line) room, List.length_append]
      omega
    · rw [added_full (.int32 line) room, List.length_append]
      exact free
  rw [addedAll_three, colon, added_fits (.char newline) numbered]
  exact List.getLast?_concat

/-- With less, the content stays, or grows by the colon. -/
theorem ends_of_full {content : List Byte} (line : Int32) (below : content.length < kSmallBuffer)
    (full : ¬content.length + 3 ≤ kSmallBuffer) :
    (addedAll content [.char 58, .int32 line, .char newline]).getLast? = some newline ↔
      content.length + 1 = kSmallBuffer ∧ content.getLast? = some newline := by
  have rest : ∀ longer : List Byte, longer.length + 1 = kSmallBuffer →
      added (added longer (.int32 line)) (.char newline) = longer := by
    intro longer last
    have number : ¬longer.length + (Item.int32 line).room ≤ kSmallBuffer := by
      change ¬longer.length + 32 ≤ kSmallBuffer
      omega
    have end_ : ¬longer.length + (Item.char newline).room ≤ kSmallBuffer := by
      change ¬longer.length + 2 ≤ kSmallBuffer
      omega
    rw [added_full _ number, added_full _ end_]
  rw [addedAll_three]
  by_cases colon : content.length + 2 ≤ kSmallBuffer
  · rw [added_fits (.char 58) colon]
    change (added (added (content ++ [58]) (.int32 line)) (.char newline)).getLast? = _ ↔ _
    rw [rest (content ++ [58]) (by rw [List.length_append, List.length_singleton]; omega),
      List.getLast?_concat]
    constructor
    · intro impossible
      exact absurd impossible (by decide)
    · rintro ⟨last, -⟩
      omega
  · rw [added_full (.char 58) colon, rest content (by omega)]
    constructor
    · intro ends
      exact ⟨by omega, ends⟩
    · rintro ⟨-, ends⟩
      exact ends

theorem named_eq (content basename : List Byte) :
    named content basename = added (added content (.cString (some dash))) (.string basename) := rfl

/-- What the colon and the newline find decides how the record ends. -/
theorem ends_named {content : List Byte} (line : Int32) (below : content.length < kSmallBuffer) :
    (addedAll content [.char 58, .int32 line, .char newline]).getLast? = some newline ↔
      content.length + 3 ≤ kSmallBuffer ∨
        content.length + 1 = kSmallBuffer ∧ content.getLast? = some newline := by
  by_cases free : content.length + 3 ≤ kSmallBuffer
  · exact iff_of_true (ends_of_room line free) (Or.inl free)
  · rw [ends_of_full line below free]
    exact ⟨Or.inr, fun ends => ends.resolve_left free⟩

theorem ends_trail (logger : Logger) {content : List Byte} (below : content.length < kSmallBuffer) :
    (addedAll content logger.trail).getLast? = some newline ↔
      EndsLine content logger.basename := by
  have dashText : (Item.cString (some dash)).text = [32, 45, 32] := by decide
  have room : (Item.cString (some dash)).room = 4 := by decide
  have nameRoom : (Item.string logger.basename).room = logger.basename.length + 1 := rfl
  have space : ∀ front : List Byte, (front ++ [32, 45, 32]).getLast? ≠ some newline := by
    intro front
    rw [List.getLast?_append_of_ne_nil front (by decide)]
    decide
  have namedBelow : (named content logger.basename).length < kSmallBuffer :=
    length_fillAll_lt below fun item _ => LogStream.length_text_lt_room item
  have zero : logger.basename = [] ↔ logger.basename.length = 0 := List.length_eq_zero_iff.symm
  rw [fillAll_trail, ends_named logger.line namedBelow, named_eq]
  unfold EndsLine
  by_cases dashFits : content.length + 4 ≤ kSmallBuffer
  · rw [added_fits (.cString (some dash)) (by rw [room]; exact dashFits), dashText]
    have length : (content ++ [32, 45, 32]).length = content.length + 3 := List.length_append
    by_cases nameFits : content.length + 3 + (logger.basename.length + 1) ≤ kSmallBuffer
    · rw [added_fits (.string logger.basename) (by rw [length, nameRoom]; exact nameFits)]
      change (content ++ [32, 45, 32] ++ logger.basename).length + 3 ≤ kSmallBuffer ∨
        (content ++ [32, 45, 32] ++ logger.basename).length + 1 = kSmallBuffer ∧
          (content ++ [32, 45, 32] ++ logger.basename).getLast? = some newline ↔ _
      rw [List.length_append, length]
      by_cases empty : logger.basename = []
      · have no := space content
        rw [empty, List.append_nil]
        grind
      · rw [List.getLast?_append_of_ne_nil _ empty]
        grind
    · rw [added_full (.string logger.basename) (by rw [length, nameRoom]; exact nameFits)]
      have no := space content
      rw [length]
      grind
  · rw [added_full (.cString (some dash)) (by rw [room]; exact dashFits)]
    by_cases nameFits : content.length + (logger.basename.length + 1) ≤ kSmallBuffer
    · rw [added_fits (.string logger.basename) (by rw [nameRoom]; exact nameFits)]
      change (content ++ logger.basename).length + 3 ≤ kSmallBuffer ∨
        (content ++ logger.basename).length + 1 = kSmallBuffer ∧
          (content ++ logger.basename).getLast? = some newline ↔ _
      rw [List.length_append]
      by_cases empty : logger.basename = []
      · rw [empty, List.append_nil]
        grind
      · rw [List.getLast?_append_of_ne_nil _ empty]
        grind
    · rw [added_full (.string logger.basename) (by rw [nameRoom]; exact nameFits)]
      grind

/-! ### The head and the message -/

theorem length_padded (width : Nat) (filler : Byte) (digits : List Byte) :
    (padded width filler digits).length = max width digits.length := by
  rw [padded, List.length_append, List.length_replicate]
  omega

theorem length_us (microseconds : Fin 1000000) : (us microseconds.val).length = 9 := by
  have digits : (decimal (.ofNat microseconds.val)).length ≤ 6 := by
    rw [decimal, text, String.toList_ofList, List.length_map,
      Nat.length_toDigits_le_iff (by decide) (by decide)]
    exact microseconds.isLt
  have dot : (text ".").length = 1 := by decide
  have zone : (text "Z ").length = 2 := by decide
  rw [us, List.length_append, List.length_append, length_padded, dot, zone]
  exact congrArg (fun length => 1 + length + 2) (max_eq_left digits)

theorem length_tidString_le (tid : Int32) : (tidString tid).length ≤ 22 := by
  have digits : (decimal tid.toInt).length ≤ 21 :=
    LogStream.length_signed_le (le_trans (by decide) tid.le_toInt)
      (lt_trans tid.toInt_lt (by decide))
  have blank : (text " ").length = 1 := by decide
  rw [tidString, List.length_append, length_padded, blank]
  omega

theorem length_name (level : LogLevel) : level.name.length = 8 := by
  cases level <;> decide

/-- What the constructor writes. -/
def head (origin : Origin) (level : LogLevel) : List Byte :=
  origin.t_time ++ us origin.microseconds ++ tidString origin.tid ++ level.name

theorem appendT_eq (s : LogStream) {str : List Byte} {len : Nat} (known : str.length = len)
    (fits : s.buffer.content.length + str.length < kSmallBuffer) :
    ∃ next, s.appendT str len = .ok next ∧
      next.buffer.content = s.buffer.content ++ str := by
  rcases LogStream.append_fills s str with ⟨next, appended, content⟩
  cases appended
  refine ⟨s.append str, ?_, ?_⟩
  · rw [LogStream.appendT, require_ok known]
    rfl
  · have room : s.buffer.content.length + (str.length + 1) ≤ kSmallBuffer := fits
    rw [content, if_pos room]

theorem logToStream_eq (s : LogStream) (origin : Origin) (level : LogLevel)
    (empty : s.buffer.content = []) :
    ∃ next, logToStream s origin level = .ok next ∧ next.buffer.content = head origin level := by
  have seconds := origin.t_time.property
  have micros := length_us origin.microseconds
  have id_ := length_tidString_le origin.tid
  have name := length_name level
  have size : kSmallBuffer = 4000 := rfl
  rcases appendT_eq s seconds (by rw [empty, List.length_nil]; omega) with ⟨s₁, ran₁, content₁⟩
  rw [empty, List.nil_append] at content₁
  rcases appendT_eq s₁ micros (by rw [content₁]; omega) with ⟨s₂, ran₂, content₂⟩
  rw [content₁] at content₂
  rcases appendT_eq s₂ (Eq.refl (tidString origin.tid).length)
    (by rw [content₂, List.length_append]; omega) with ⟨s₃, ran₃, content₃⟩
  rw [content₂] at content₃
  rcases appendT_eq s₃ name (by rw [content₃, List.length_append, List.length_append]; omega) with
    ⟨s₄, ran₄, content₄⟩
  rw [content₃] at content₄
  have time : formatTime s origin = .ok s₂ := by
    simp only [formatTime, require_ok micros, ran₁, ran₂, bind, Except.bind]
  refine ⟨s₄, ?_, content₄⟩
  simp only [logToStream, time, ran₃, ran₄, bind, Except.bind]

theorem length_head_lt (origin : Origin) (level : LogLevel) :
    (head origin level).length < kSmallBuffer := by
  have id_ := length_tidString_le origin.tid
  have size : kSmallBuffer = 4000 := rfl
  simp only [head, List.length_append, origin.t_time.property, length_us, length_name]
  omega

theorem new_eq (memory : { bytes : List Byte // bytes.length = kSmallBuffer }) (origin : Origin)
    (filename : List Byte) (line : Int32) (level : LogLevel) :
    ∃ logger, new memory origin filename line level = .ok logger ∧
      logger.stream.buffer.content = head origin level ∧ logger.level = level ∧
      FileUtil.getFileNameFromPath (.ofString filename) = .ok logger.basename := by
  have name := FileUtil.getFileNameFromPath_eq (.ofString filename)
  rcases logToStream_eq (LogStream.new memory) origin level (LogStream.content_new memory) with
    ⟨stream, ran, content⟩
  refine ⟨⟨stream, level, line, _⟩, ?_, content, rfl, name⟩
  unfold new
  rw [name, ran]
  rfl

theorem insertAll_eq (logger : Logger) (items : List Item) :
    ∃ next, logger.insertAll items = .ok next ∧
      next.stream.buffer.content = addedAll logger.stream.buffer.content items ∧
      next.level = logger.level ∧ next.line = logger.line ∧ next.basename = logger.basename := by
  rcases LogStream.run_content logger.stream items with ⟨stream, ran, content⟩
  refine ⟨{ logger with stream := stream }, ?_, content, rfl, rfl, rfl⟩
  unfold insertAll LogStream.streamed
  rw [ran]
  rfl

theorem addedAll_lt {content : List Byte} (items : List Item)
    (below : content.length < kSmallBuffer) : (addedAll content items).length < kSmallBuffer :=
  length_fillAll_lt below fun item _ => LogStream.length_text_lt_room item

/-- The logger of a record whose message has been streamed. -/
theorem created_eq (memory : { bytes : List Byte // bytes.length = kSmallBuffer })
    (origin : Origin) (filename : List Byte) (line : Int32) (level : LogLevel)
    (func : Option (Option CString)) (items : List Item) :
    ∃ logger, (do
        let logger ← create memory origin filename line level func
        logger.insertAll items) = .ok logger ∧
      logger.stream.buffer.content.length < kSmallBuffer ∧ logger.level = level ∧
      FileUtil.getFileNameFromPath (.ofString filename) = .ok logger.basename := by
  rcases new_eq memory origin filename line level with ⟨logger, made, content, levels, name⟩
  have below : logger.stream.buffer.content.length < kSmallBuffer := by
    rw [content]
    exact length_head_lt origin level
  cases func with
  | none =>
      rcases logger.insertAll_eq items with ⟨next, ran, added, level_, -, basename⟩
      refine ⟨next, ?_, ?_, level_.trans levels, basename ▸ name⟩
      · rw [create, made]
        exact ran
      · rw [added]
        exact addedAll_lt items below
  | some func =>
      rcases logger.insertAll_eq [.cString func, .char 32] with
        ⟨named, ranName, addedName, levelName, -, basenameName⟩
      rcases named.insertAll_eq items with ⟨next, ran, added, level_, -, basename⟩
      refine ⟨next, ?_, ?_, (level_.trans levelName).trans levels,
        (basename.trans basenameName) ▸ name⟩
      · rw [create, newIn, made]
        change (logger.insertAll _ >>= fun logger => logger.insertAll items) = _
        rw [ranName]
        exact ran
      · rw [added, addedName]
        exact addedAll_lt items (addedAll_lt _ below)

/-- A destructor passes exactly one text to `g_output`, the content and what
fits of the trail. -/
theorem destroy_eq (logger : Logger) :
    ∃ effects, logger.destroy = .ok effects ∧
      effects.filterMap Effect.msg = [addedAll logger.stream.buffer.content logger.trail] := by
  rcases logger.insertAll_eq logger.trail with ⟨next, ran, added, level, -, -⟩
  refine ⟨effects next.level next.stream.buffer.content, ?_, ?_⟩
  · unfold destroy
    rw [ran]
    rfl
  · rw [added]
    cases next.level <;> rfl

/-- A record ends with a newline exactly when `EndsLine` holds of the content in
the stream when its destructor begins. -/
theorem record_ends_line_iff (memory : { bytes : List Byte // bytes.length = kSmallBuffer })
    (origin : Origin) (filename : List Byte) (line : Int32) (level : LogLevel)
    (func : Option (Option CString)) (items : List Item) :
    ∃ logger effects msg,
      (do
        let logger ← create memory origin filename line level func
        logger.insertAll items) = .ok logger ∧
      logger.destroy = .ok effects ∧ effects.filterMap Effect.msg = [msg] ∧
      FileUtil.getFileNameFromPath (.ofString filename) = .ok logger.basename ∧
      (msg.getLast? = some newline ↔
        EndsLine logger.stream.buffer.content logger.basename) := by
  rcases created_eq memory origin filename line level func items with
    ⟨logger, ran, below, -, name⟩
  rcases logger.destroy_eq with ⟨effects, destroyed, output⟩
  exact ⟨logger, effects, _, ran, destroyed, output, name, ends_trail logger below⟩

/-- A record that leaves room for the whole trail but the line number ends with
a newline. -/
theorem endsLine_of_room {content basename : List Byte}
    (room : content.length + basename.length + 6 ≤ kSmallBuffer) : EndsLine content basename := by
  refine Or.inl ⟨?_, ?_, ?_⟩ <;> omega

def noon : Origin := ⟨⟨text "20160806 12:00:00", by decide⟩, 288000, 1234⟩

/-- A message of 3956 bytes fills the buffer up to four bytes, and the separator
takes three of them. -/
theorem full_record_unended :
    ∃ logger effects msg,
      (do
        let logger ← create ⟨List.replicate kSmallBuffer 0, List.length_replicate⟩ noon
          (text "main.cpp") 7 .info none
        logger.insertAll [.string (List.replicate 3956 120)]) = .ok logger ∧
      logger.destroy = .ok effects ∧ effects.filterMap Effect.msg = [msg] ∧
      msg.getLast? ≠ some newline := by
  rcases new_eq ⟨List.replicate kSmallBuffer 0, List.length_replicate⟩ noon (text "main.cpp") 7
    .info with ⟨logger, made, content, -, name⟩
  rcases logger.insertAll_eq [.string (List.replicate 3956 120)] with
    ⟨next, ran, added, -, -, basename⟩
  rcases next.destroy_eq with ⟨effects, destroyed, output⟩
  refine ⟨next, effects, _, ?_, destroyed, output, ?_⟩
  · rw [create, made]
    exact ran
  · have headLength : (head noon .info).length = 40 := by
      have id_ : (tidString noon.tid).length = 6 := by decide
      simp only [head, List.length_append, noon.t_time.property, length_us, length_name, id_]
    have size : kSmallBuffer = 4000 := rfl
    have room : (head noon .info).length + (List.replicate 3956 (120 : Byte)).length <
        kSmallBuffer := by
      rw [headLength, List.length_replicate, size]
      decide
    have length : next.stream.buffer.content.length = 3996 := by
      rw [added, content, addedAll_one, added_string room, List.length_append, headLength,
        List.length_replicate]
    have mainCpp : next.basename = text "main.cpp" := by
      have found : FileUtil.getFileNameFromPath (.ofString (text "main.cpp")) =
          .ok (text "main.cpp") := by decide
      rw [basename]
      exact Except.ok.inj (name.symm.trans found)
    have last : (text "main.cpp").getLast? ≠ some newline := by decide
    rw [ne_eq, ends_trail next (by rw [length, size]; decide), mainCpp]
    rintro (⟨far, -, -⟩ | ⟨three, -⟩ | ⟨one, -⟩ | ⟨ends, -⟩)
    · omega
    · omega
    · omega
    · exact last ends

end Logger

end Msmuduo
