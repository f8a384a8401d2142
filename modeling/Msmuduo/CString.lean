import Mathlib.Algebra.Order.Ring.Int
import Mathlib.Data.List.DropRight

/-!
# Strings in memory

A C string is a run of bytes in memory that ends in front of the first zero
byte, and code that works on it moves pointers. Here the memory is a list of
bytes and a pointer is an offset into it, which may lie outside; reading or
writing there is an error.

The lemmas say what the usual loops do to a string: finding its end, finding a
character, moving back to a character, passing over the bytes at its start,
erasing the bytes at its end.
-/

namespace Msmuduo.CString

set_option autoImplicit false

/-- An access outside the memory. -/
inductive OutOfBounds where
  | read (pointer : Int)
  | write (pointer : Int)
  deriving DecidableEq, Repr

def read (memory : List UInt8) (pointer : Int) : Except OutOfBounds UInt8 :=
  match pointer with
  | .ofNat index =>
      match memory[index]? with
      | some byte => .ok byte
      | none => .error (.read pointer)
  | .negSucc _ => .error (.read pointer)

def write (memory : List UInt8) (pointer : Int) (byte : UInt8) :
    Except OutOfBounds (List UInt8) :=
  match pointer with
  | .ofNat index =>
      if index < memory.length then .ok (memory.set index byte) else .error (.write pointer)
  | .negSucc _ => .error (.write pointer)

/-- The bytes from `first` on in front of `last`. -/
def range (memory : List UInt8) (first last : Int) : Except OutOfBounds (List UInt8) :=
  if 0 ≤ first ∧ last ≤ memory.length then .ok ((memory.take last.toNat).drop first.toNat)
  else .error (.read (if 0 ≤ first then last else first))

/-- The string that starts at an index. -/
def stringAt (memory : List UInt8) (start : Nat) : List UInt8 :=
  (memory.drop start).takeWhile (· != 0)

/-- `strlen`, which runs off the memory where no zero byte follows. -/
def strlen (memory : List UInt8) (start : Nat) : Except OutOfBounds Nat :=
  if 0 ∈ memory.drop start then .ok (stringAt memory start).length
  else .error (.read memory.length)

/-- `strchr`: the first occurrence of a character in the string. -/
def strchr (memory : List UInt8) (start : Nat) (character : UInt8) :
    Except OutOfBounds (Option Nat) :=
  if 0 ∈ memory.drop start then
    if character ∈ stringAt memory start then
      .ok (some (start + (stringAt memory start).idxOf character))
    else .ok none
  else .error (.read memory.length)

/-- Moves down over the bytes at the indices below `count` to one at which
`stop` holds, or in front of the memory. -/
def retreatFrom (stop : UInt8 → Bool) (memory : List UInt8) : Nat → Except OutOfBounds Int
  | 0 => .ok (-1)
  | count + 1 => do
      let byte ← read memory count
      if stop byte then .ok count else retreatFrom stop memory count

/-- `while (pointer >= memory && !stop(*pointer)) pointer--` -/
def retreat (stop : UInt8 → Bool) (memory : List UInt8) (pointer : Int) :
    Except OutOfBounds Int :=
  match pointer with
  | .ofNat index => retreatFrom stop memory (index + 1)
  | .negSucc below => .ok (.negSucc below)

/-- The string that starts at a pointer, as `std::string(pointer)` copies it. -/
def string (memory : List UInt8) (start : Nat) : Except OutOfBounds (List UInt8) :=
  if 0 ∈ memory.drop start then .ok (stringAt memory start) else .error (.read memory.length)

def advanceFrom (pass : UInt8 → Bool) (pointer : Nat) : List UInt8 → Except OutOfBounds Nat
  | [] => .error (.read pointer)
  | byte :: rest => if pass byte then advanceFrom pass (pointer + 1) rest else .ok pointer

/-- `while (pass(*pointer)) pointer++` -/
def advance (pass : UInt8 → Bool) (memory : List UInt8) (pointer : Nat) :
    Except OutOfBounds Nat := advanceFrom pass pointer (memory.drop pointer)

/-- `while (pass(*pointer)) { *pointer = 0; pointer--; }`, where `count` bytes
are below the pointer and at it. -/
def eraseBack (pass : UInt8 → Bool) (memory : List UInt8) :
    Nat → Except OutOfBounds (List UInt8 × Int)
  | 0 => .error (.read (-1))
  | count + 1 => do
      let byte ← read memory count
      if pass byte then eraseBack pass (memory.set count 0) count else return (memory, count)

/-- The string without what is passed over at its ends. -/
def trim (pass : UInt8 → Bool) (string : List UInt8) : List UInt8 :=
  (string.dropWhile pass).rdropWhile pass

end Msmuduo.CString

namespace Msmuduo

set_option autoImplicit false

/-- The string a `const char*` points to. -/
structure CString where
  bytes : List UInt8
  clean : 0 ∉ bytes
  deriving DecidableEq, Repr

namespace CString

/-- The string and its terminator. -/
def memory (string : CString) : List UInt8 := string.bytes ++ [0]

theorem zero_notMem_takeWhile (bytes : List UInt8) : 0 ∉ bytes.takeWhile (· != 0) := by
  intro member
  exact absurd (List.mem_takeWhile_imp member) (by decide)

/-- `c_str()` of a string, read up to the first zero byte. -/
def ofString (bytes : List UInt8) : CString where
  bytes := bytes.takeWhile (· != 0)
  clean := zero_notMem_takeWhile bytes

theorem read_ofNat {memory : List UInt8} {index : Nat} {byte : UInt8}
    (found : memory[index]? = some byte) : read memory index = .ok byte := by
  change (match memory[index]? with
    | some byte => Except.ok byte
    | none => .error (OutOfBounds.read index)) = _
  rw [found]

theorem takeWhile_append_cons {character : UInt8} {before : List UInt8}
    (first : character ∉ before) (after : List UInt8) :
    (before ++ character :: after).takeWhile (· != character) = before := by
  have others : ∀ byte ∈ before, (byte != character) = true := by
    intro byte member
    exact bne_iff_ne.mpr (ne_of_mem_of_not_mem member first)
  rw [List.takeWhile_append_of_pos others, List.takeWhile_cons_of_neg (by simp), List.append_nil]

theorem dropWhile_append_cons {character : UInt8} {before : List UInt8}
    (first : character ∉ before) (after : List UInt8) :
    (before ++ character :: after).dropWhile (· != character) = character :: after := by
  have others : ∀ byte ∈ before, (byte != character) = true := by
    intro byte member
    exact bne_iff_ne.mpr (ne_of_mem_of_not_mem member first)
  rw [List.dropWhile_append_of_pos others, List.dropWhile_cons_of_neg (by simp)]

theorem takeWhile_absent {character : UInt8} {string : List UInt8}
    (absent : character ∉ string) : string.takeWhile (· != character) = string := by
  apply List.takeWhile_eq_self_iff.mpr
  intro byte member
  exact bne_iff_ne.mpr (ne_of_mem_of_not_mem member absent)

theorem bytes_ofString {bytes : List UInt8} (clean : 0 ∉ bytes) : (ofString bytes).bytes = bytes :=
  takeWhile_absent clean

theorem stringAt_append (front : List UInt8) {string : List UInt8} (clean : 0 ∉ string)
    (back : List UInt8) :
    stringAt (front ++ string ++ 0 :: back) front.length = string := by
  rw [stringAt, List.append_assoc, List.drop_left]
  exact takeWhile_append_cons clean back

theorem zero_mem_drop (front string back : List UInt8) :
    (0 : UInt8) ∈ (front ++ string ++ 0 :: back).drop front.length := by
  rw [List.append_assoc, List.drop_left]
  simp

theorem strlen_append (front : List UInt8) {string : List UInt8} (clean : 0 ∉ string)
    (back : List UInt8) :
    strlen (front ++ string ++ 0 :: back) front.length = .ok string.length := by
  rw [strlen, if_pos (zero_mem_drop front string back), stringAt_append front clean]

theorem strlen_head {string : List UInt8} (clean : 0 ∉ string) (back : List UInt8) :
    strlen (string ++ 0 :: back) 0 = .ok string.length := strlen_append [] clean back

theorem strlen_memory (string : CString) : strlen string.memory 0 = .ok string.bytes.length :=
  strlen_head string.clean []

/-- The character a loop stops at is the last of those that remain when the
others are dropped at the end. -/
theorem retreatFrom_eq (stop : UInt8 → Bool) {memory : List UInt8} {count : Nat}
    (inside : count ≤ memory.length) :
    retreatFrom stop memory count =
      .ok (((memory.take count).rdropWhile (fun byte => !stop byte)).length - 1 : Int) := by
  induction count with
  | zero => rfl
  | succ count ih =>
      have here : count < memory.length := inside
      have found : memory[count]? = some memory[count] := List.getElem?_eq_getElem here
      have longer : memory.take (count + 1) = memory.take count ++ [memory[count]] := by
        rw [List.take_add_one, found]
        rfl
      unfold retreatFrom
      rw [read_ofNat found, longer, List.rdropWhile_concat]
      change (if stop memory[count] then _ else _) = _
      cases stopped : stop memory[count] with
      | false => exact ih (Nat.le_of_lt here)
      | true =>
          simp [Nat.min_eq_left inside]

theorem retreat_pred (stop : UInt8 → Bool) {memory : List UInt8} {count : Nat}
    (inside : count ≤ memory.length) :
    retreat stop memory (count - 1) =
      .ok (((memory.take count).rdropWhile (fun byte => !stop byte)).length - 1 : Int) := by
  cases count with
  | zero => rfl
  | succ count =>
      have index : ((count + 1 : Nat) - 1 : Int) = (count : Nat) := by omega
      rw [index]
      exact retreatFrom_eq stop inside

theorem write_append (front : List UInt8) (old : UInt8) (back : List UInt8) (byte : UInt8) :
    write (front ++ old :: back) front.length byte = .ok (front ++ byte :: back) := by
  change (if front.length < (front ++ old :: back).length then
    Except.ok ((front ++ old :: back).set front.length byte) else .error _) = _
  rw [if_pos (by simp), List.set_append_right _ _ (Nat.le_refl _), Nat.sub_self]
  rfl

/-- A zero byte written over a character cuts the string off there. -/
theorem write_inside (before : List UInt8) (old : UInt8) (after back : List UInt8)
    (byte : UInt8) :
    write (before ++ old :: after ++ back) before.length byte =
      .ok (before ++ byte :: (after ++ back)) := by
  rw [List.append_assoc]
  exact write_append before old (after ++ back) byte

theorem read_append (front : List UInt8) (byte : UInt8) (back : List UInt8) :
    read (front ++ byte :: back) front.length = .ok byte := read_ofNat (by simp)

theorem string_append (front : List UInt8) {string : List UInt8} (clean : 0 ∉ string)
    (back : List UInt8) :
    CString.string (front ++ string ++ 0 :: back) front.length = .ok string := by
  rw [CString.string, if_pos (zero_mem_drop front string back), stringAt_append front clean]

theorem strchr_some {before after : List UInt8} {character : UInt8}
    (clean : 0 ∉ before ++ character :: after) (first : character ∉ before)
    (back : List UInt8) :
    strchr (before ++ character :: after ++ 0 :: back) 0 character =
      .ok (some before.length) := by
  have string := stringAt_append [] clean back
  rw [List.nil_append, List.length_nil] at string
  have index : (before ++ character :: after).idxOf character = before.length := by
    rw [List.idxOf_append_of_notMem first, List.idxOf_cons_self]
    rfl
  rw [strchr, if_pos (by simp), string, if_pos (by simp), index, Nat.zero_add]

theorem strchr_none {string : List UInt8} {character : UInt8} (clean : 0 ∉ string)
    (absent : character ∉ string) (back : List UInt8) :
    strchr (string ++ 0 :: back) 0 character = .ok none := by
  have found := stringAt_append [] clean back
  rw [List.nil_append, List.length_nil] at found
  rw [strchr, if_pos (by simp), found, if_neg absent]

theorem advanceFrom_stop {pass : UInt8 → Bool} {run : List UInt8} {byte : UInt8}
    (passed : ∀ byte ∈ run, pass byte = true) (stopped : pass byte = false) (pointer : Nat)
    (back : List UInt8) :
    advanceFrom pass pointer (run ++ byte :: back) = .ok (pointer + run.length) := by
  induction run generalizing pointer with
  | nil =>
      rw [List.nil_append, advanceFrom, stopped]
      rfl
  | cons first run ih =>
      rw [List.cons_append, advanceFrom, if_pos (passed first (by simp)),
        ih (fun byte member => passed byte (by simp [member])), List.length_cons,
        Nat.add_right_comm]
      rfl

theorem advance_stop {pass : UInt8 → Bool} (front : List UInt8) {run : List UInt8} {byte : UInt8}
    (passed : ∀ byte ∈ run, pass byte = true) (stopped : pass byte = false)
    (back : List UInt8) :
    advance pass (front ++ run ++ byte :: back) front.length = .ok (front ++ run).length := by
  rw [advance, List.append_assoc, List.drop_left, advanceFrom_stop passed stopped,
    List.length_append]

theorem eraseBack_stop {pass : UInt8 → Bool} (front : List UInt8) {byte : UInt8}
    {run : List UInt8} (stopped : pass byte = false) (passed : ∀ byte ∈ run, pass byte = true)
    (back : List UInt8) :
    eraseBack pass (front ++ [byte] ++ run ++ back) (front ++ [byte] ++ run).length =
      .ok (front ++ [byte] ++ List.replicate run.length 0 ++ back, (front.length : Int)) := by
  induction run using List.reverseRecOn generalizing back with
  | nil =>
      have split : front ++ [byte] ++ [] ++ back = front ++ byte :: back := by simp
      rw [split, List.append_nil, List.length_append, List.length_singleton, eraseBack,
        read_append]
      change (if pass byte then _ else _) = _
      rw [stopped, List.length_nil, List.replicate_zero, List.append_nil, List.append_assoc]
      rfl
  | append_singleton run last ih =>
      have split : front ++ [byte] ++ (run ++ [last]) ++ back =
          front ++ [byte] ++ run ++ last :: back := by simp
      have length : (front ++ [byte] ++ (run ++ [last])).length =
          (front ++ [byte] ++ run).length + 1 := by
        rw [← List.append_assoc, List.length_append, List.length_singleton]
      rw [split, length, eraseBack, read_append]
      change (if pass last then _ else _) = _
      rw [if_pos (passed last (by simp)), List.set_append_right _ _ (Nat.le_refl _),
        Nat.sub_self, List.set_cons_zero, ih (fun byte member => passed byte (by simp [member])),
        List.length_append, List.length_singleton, List.replicate_succ', List.append_assoc,
        List.append_assoc, List.append_assoc, List.append_assoc, List.append_assoc]
      rfl

/-! ### Trimming -/

theorem trim_frame (pass : UInt8 → Bool) (string : List UInt8) :
    string.takeWhile pass ++ trim pass string ++ (string.dropWhile pass).rtakeWhile pass =
      string := by
  rw [trim, List.append_assoc, List.rdropWhile_append_rtakeWhile, List.takeWhile_append_dropWhile]

theorem length_trim_le (pass : UInt8 → Bool) (string : List UInt8) :
    (trim pass string).length ≤ string.length := by
  have whole := congrArg List.length (trim_frame pass string)
  rw [List.length_append, List.length_append] at whole
  omega

theorem trim_eq_nil {pass : UInt8 → Bool} {string : List UInt8} (empty : trim pass string = []) :
    ∀ byte ∈ string, pass byte = true := by
  intro byte member
  rw [← trim_frame pass string, empty, List.append_nil] at member
  rcases List.mem_append.mp member with front | back
  · exact List.mem_takeWhile_imp front
  · exact List.mem_rtakeWhile_imp back

/-- A trimmed string begins with no byte that is passed over. -/
theorem trim_head {pass : UInt8 → Bool} {string : List UInt8} {byte : UInt8}
    (member : byte ∈ (trim pass string).head?) : pass byte = false := by
  rcases List.rdropWhile_prefix pass (string.dropWhile pass) with ⟨trail, whole⟩
  have first : (string.dropWhile pass).head? = some byte := by
    rw [← whole, List.head?_append, ← trim, Option.mem_def.mp member]
    rfl
  have stopped := List.head?_dropWhile_not pass string
  rw [first] at stopped
  simpa using stopped

/-- Nor does it end with one. -/
theorem trim_getLast {pass : UInt8 → Bool} {string : List UInt8} {byte : UInt8}
    (member : byte ∈ (trim pass string).getLast?) : pass byte = false := by
  rcases List.getLast?_eq_some_iff.mp (Option.mem_def.mp member) with ⟨front, ends⟩
  have nonempty : trim pass string ≠ [] := by
    rw [ends]
    simp
  have stopped := List.rdropWhile_last_not pass (string.dropWhile pass) nonempty
  have last : (trim pass string).getLast nonempty = byte := by simp [ends]
  rw [← last]
  exact Bool.eq_false_iff.mpr stopped

theorem trim_first {pass : UInt8 → Bool} {string : List UInt8}
    (nonempty : trim pass string ≠ []) :
    ∃ first rest, trim pass string = first :: rest ∧ pass first = false := by
  cases trimmed : trim pass string with
  | nil => exact absurd trimmed nonempty
  | cons first rest => exact ⟨first, rest, rfl, trim_head (by rw [trimmed]; rfl)⟩

theorem trim_last {pass : UInt8 → Bool} {string : List UInt8}
    (nonempty : trim pass string ≠ []) :
    ∃ front last, trim pass string = front ++ [last] ∧ pass last = false := by
  refine ⟨_, _, (List.dropLast_append_getLast nonempty).symm, ?_⟩
  exact trim_getLast (List.getLast?_eq_some_getLast nonempty)

/-- A string that neither begins nor ends with a byte that is passed over. -/
theorem trim_self {pass : UInt8 → Bool} {string : List UInt8}
    (first : string.head?.any pass = false) (last : string.getLast?.any pass = false) :
    trim pass string = string := by
  have front : string.dropWhile pass = string := by
    cases string with
    | nil => rfl
    | cons byte rest => exact List.dropWhile_cons_of_neg (Bool.eq_false_iff.mp first)
  rw [trim, front, List.rdropWhile_eq_self_iff]
  intro nonempty
  rw [List.getLast?_eq_some_getLast nonempty] at last
  exact Bool.eq_false_iff.mp last

end CString

end Msmuduo
