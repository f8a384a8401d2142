import Msmuduo.AsyncLogging
import Msmuduo.BoundedText
import Msmuduo.CString
import Msmuduo.HttpServer
import Msmuduo.Numeral

/-!
# The log stream

A transcription of `LogStream.h` and `LogStream.cpp`. Strings go through
`FixedBuffer::append`. Numbers are written to `data_` directly, from `current()`
on, and the end of the buffer is moved afterwards; every such write is a `store`,
which is an error at or beyond the end of `data_`.

`convert` writes the digits from the last one on and reverses them. `zero` is
the middle of its table, which is indexed with the signed remainder.
-/

namespace Msmuduo

open Msmuduo.Machine Msmuduo.Window Msmuduo.Numeral Msmuduo.BoundedText

set_option autoImplicit false

def kSmallBuffer : Nat := 4000

/-- An access outside `data_`, by its offset. -/
inductive Overrun where
  | store (offset : Nat)
  | reverse (offset : Nat)
  | add (offset : Nat)
  deriving DecidableEq, Repr

namespace FixedBuffer

variable {size : Nat}

/-- `*p = byte` -/
def store (b : FixedBuffer size) (p : Nat) (byte : Byte) : Except Overrun (FixedBuffer size) :=
  if p < size then
    .ok { b with
      data := b.data.set p byte
      sized := by rw [List.length_set, b.sized] }
  else .error (.store p)

/-- `std::reverse(first, last)` -/
def reverse (b : FixedBuffer size) (first last : Nat) : Except Overrun (FixedBuffer size) :=
  if inside : first ≤ last ∧ last ≤ size then
    .ok { b with
      data := overwrite b.data first (window b.data first last).reverse
      sized := by
        have sized := b.sized
        rw [length_overwrite, sized]
        rw [List.length_reverse, length_window]
        omega }
  else .error (.reverse last)

/-- Writes bytes one after the other. -/
def storeAll (b : FixedBuffer size) (p : Nat) : List Byte → Except Overrun (FixedBuffer size)
  | [] => .ok b
  | byte :: rest => do
      let b ← b.store p byte
      b.storeAll (p + 1) rest

/-- `cur_ += len` -/
def add (b : FixedBuffer size) (len : Nat) : Except Overrun (FixedBuffer size) :=
  if inside : b.cur + len ≤ size then .ok { b with cur := b.cur + len, inside := inside }
  else .error (.add (b.cur + len))

end FixedBuffer

namespace LogStream

variable {size : Nat}

def digits : List Byte := text "9876543210123456789"

/-- `zero[lsd]`, where `zero` is `digits + 9`. -/
def zero (lsd : Int) : Byte := digits.getD (lsd + 9).toNat 0

def digitsHex : List Byte := text "0123456789ABCDEF"

/-- `digitsHex[lsd]` -/
def hex (lsd : Int) : Byte := digitsHex.getD lsd.toNat 0

def kMaxNumericSize : Nat := 32

/-- The loop of `convert` and `convertHex`, which returns the moved `p`. -/
def digitLoop (digit : Int → Byte) (base : Nat) (large : 1 < base) (b : FixedBuffer size)
    (p : Nat) (i : Int) : Except Overrun (FixedBuffer size × Nat) :=
  match b.store p (digit (i.tmod base)) with
  | .error fault => .error fault
  | .ok b =>
      if i.tdiv base ≠ 0 then digitLoop digit base large b (p + 1) (i.tdiv base)
      else .ok (b, p + 1)
termination_by i.natAbs
decreasing_by exact natAbs_tdiv_lt large ‹_›

/-- The end of `convert` and `convertHex`. -/
def finish (b : FixedBuffer size) (buf p : Nat) : Except Overrun (FixedBuffer size × Nat) := do
  let b ← b.store p 0
  let b ← b.reverse buf p
  return (b, p - buf)

/-- `convert<T>`; the value is in the range of `T`, in which `%` and `/` are
exact. -/
def convert (b : FixedBuffer size) (buf : Nat) (value : Int) :
    Except Overrun (FixedBuffer size × Nat) := do
  let (b, p) ← digitLoop zero 10 (by decide) b buf value
  if value < 0 then
    let b ← b.store p 45
    finish b buf (p + 1)
  else finish b buf p

def convertHex (b : FixedBuffer size) (buf : Nat) (value : Nat) :
    Except Overrun (FixedBuffer size × Nat) := do
  let (b, p) ← digitLoop hex 16 (by decide) b buf value
  finish b buf p

end LogStream

/-- `StringPiece`, whose length is an `int`. -/
structure StringPiece where
  bytes : List Byte
  fits : bytes.length < 2 ^ 31

/-- What `snprintf` makes of a floating point number, or of the argument of a
`Fmt`: a string that fits into 32 bytes with its terminator. -/
structure Formatted where
  bytes : List Byte
  fits : bytes.length < 32

/-- The right operand of a `<<`. -/
inductive Item where
  | bool (v : Bool)
  | char (v : Byte)
  | int16 (v : Int16)
  | uint16 (v : UInt16)
  | int32 (v : Int32)
  | uint32 (v : UInt32)
  | int64 (v : Int64)
  | uint64 (v : UInt64)
  | pointer (p : UInt64)
  | double (v : Formatted)
  | cString (str : Option CString)
  | string (v : List Byte)
  | stringPiece (v : StringPiece)
  | fmt (v : Formatted)

structure LogStream where
  buffer : FixedBuffer kSmallBuffer

namespace LogStream

def new (memory : { bytes : List Byte // bytes.length = kSmallBuffer }) : LogStream where
  buffer := FixedBuffer.new memory

def append (s : LogStream) (data : List Byte) : LogStream := { buffer := s.buffer.append data }

def formatInteger (s : LogStream) (v : Int) : Except Overrun LogStream := do
  if s.buffer.avail ≥ kMaxNumericSize then
    let (b, len) ← convert s.buffer s.buffer.cur v
    let b ← b.add len
    return { buffer := b }
  else return s

/-- `operator<<(const void*)` -/
def formatPointer (s : LogStream) (v : Nat) : Except Overrun LogStream := do
  if s.buffer.avail ≥ kMaxNumericSize then
    let buf := s.buffer.cur
    let b ← s.buffer.store buf 48
    let b ← b.store (buf + 1) 120
    let (b, len) ← convertHex b (buf + 2) v
    let b ← b.add (len + 2)
    return { buffer := b }
  else return s

/-- `operator<<(double)` -/
def formatDouble (s : LogStream) (v : Formatted) : Except Overrun LogStream := do
  if s.buffer.avail ≥ kMaxNumericSize then
    let b ← s.buffer.storeAll s.buffer.cur (v.bytes ++ [0])
    let b ← b.add v.bytes.length
    return { buffer := b }
  else return s

/-- `operator<<` -/
def insert (s : LogStream) : Item → Except Overrun LogStream
  | .bool v => .ok (s.append (text (if v then "1" else "0")))
  | .char v => .ok (s.append [v])
  | .int16 v => s.formatInteger v.toInt32.toInt
  | .uint16 v => s.formatInteger v.toUInt32.toNat
  | .int32 v => s.formatInteger v.toInt
  | .uint32 v => s.formatInteger v.toNat
  | .int64 v => s.formatInteger v.toInt
  | .uint64 v => s.formatInteger v.toNat
  | .pointer p => s.formatPointer p.toNat
  | .double v => s.formatDouble v
  | .cString none => .ok (s.append (text "(null)"))
  | .cString (some str) => .ok (s.append str.bytes)
  | .string v => .ok (s.append v)
  | .stringPiece v => .ok (s.append v.bytes)
  | .fmt v => .ok (s.append v.bytes)

end LogStream

namespace Item

/-- The hexadecimal digits in upper case. -/
def upperDigits (value : Nat) : List Byte :=
  (Nat.toDigits 16 value).map fun digit => UInt8.ofNat digit.toUpper.toNat

def hexadecimal (value : Nat) : List Byte := text "0x" ++ upperDigits value

/-- The text an item stands for. -/
def text : Item → List Byte
  | bool v => [if v then 49 else 48]
  | char v => [v]
  | int16 v => decimal v.toInt
  | uint16 v => decimal v.toNat
  | int32 v => decimal v.toInt
  | uint32 v => decimal v.toNat
  | int64 v => decimal v.toInt
  | uint64 v => decimal v.toNat
  | pointer p => hexadecimal p.toNat
  | double v => v.bytes
  | cString none => Msmuduo.text "(null)"
  | cString (some str) => str.bytes
  | string v => v
  | stringPiece v => v.bytes
  | fmt v => v.bytes

/-- Numbers and pointers, which need `kMaxNumericSize` bytes. -/
def isNumeric : Item → Bool
  | int16 _ | uint16 _ | int32 _ | uint32 _ | int64 _ | uint64 _ | pointer _ | double _ => true
  | bool _ | char _ | cString _ | string _ | stringPiece _ | fmt _ => false

/-- The room an item is given up without. -/
def room (item : Item) : Nat :=
  if item.isNumeric then LogStream.kMaxNumericSize else item.text.length + 1

end Item

/-! ### Writing to the buffer -/

namespace FixedBuffer

variable {size : Nat}

/-- The buffer with bytes written over those from an offset on. -/
def patch (b : FixedBuffer size) (p : Nat) (bytes : List Byte) (fits : p + bytes.length ≤ size) :
    FixedBuffer size :=
  { b with
    data := overwrite b.data p bytes
    sized := by rw [length_overwrite _ _ _ (by rw [b.sized]; exact fits), b.sized] }

theorem ext_data {first second : FixedBuffer size} (data : first.data = second.data)
    (cur : first.cur = second.cur) : first = second := by
  cases first
  cases second
  subst data cur
  rfl

theorem storeAll_eq {b : FixedBuffer size} {p : Nat} {bytes : List Byte}
    (fits : p + bytes.length ≤ size) : b.storeAll p bytes = .ok (b.patch p bytes fits) := by
  induction bytes generalizing b p with
  | nil =>
      refine congrArg Except.ok (ext_data ?_ rfl)
      change b.data = b.data.take p ++ [] ++ b.data.drop (p + 0)
      simp
  | cons byte bytes ih =>
      rw [List.length_cons] at fits
      have inside : p < size := by omega
      unfold storeAll store
      rw [if_pos inside]
      have rest := ih (b := { b with
        data := b.data.set p byte
        sized := by rw [List.length_set, b.sized] }) (p := p + 1) (by omega)
      refine rest.trans (congrArg Except.ok (ext_data ?_ rfl))
      exact overwrite_set b.data p byte bytes (by rw [b.sized]; exact inside)

theorem storeAll_append (b : FixedBuffer size) (p : Nat) (first second : List Byte) :
    b.storeAll p (first ++ second) = (do
      let b ← b.storeAll p first
      b.storeAll (p + first.length) second) := by
  induction first generalizing b p with
  | nil => rfl
  | cons byte first ih =>
      rw [List.cons_append, storeAll, storeAll, List.length_cons]
      cases stored : b.store p byte with
      | error fault => rfl
      | ok next =>
          have behind : p + (first.length + 1) = p + 1 + first.length := by omega
          rw [behind]
          exact ih next (p + 1)

theorem patch_congr (b : FixedBuffer size) (p : Nat) {first second : List Byte}
    (same : first = second) (fits : p + first.length ≤ size) :
    b.patch p first fits = b.patch p second (same ▸ fits) := by
  subst same
  rfl

/-- A byte written directly behind the written ones. -/
theorem store_patch (b : FixedBuffer size) (p : Nat) {bytes : List Byte} (byte : Byte)
    (fits : p + (bytes ++ [byte]).length ≤ size) (front : p + bytes.length ≤ size) :
    (b.patch p bytes front).store (p + bytes.length) byte =
      .ok (b.patch p (bytes ++ [byte]) fits) := by
  have both := storeAll_append b p bytes [byte]
  rw [storeAll_eq fits, storeAll_eq front] at both
  refine Eq.trans ?_ both.symm
  change _ = (patch b p bytes _).store (p + bytes.length) byte >>= fun b => Except.ok b
  exact (bind_pure _).symm

theorem patch_patch (b : FixedBuffer size) (p : Nat) (first second : List Byte)
    (fits : p + (first ++ second).length ≤ size) (front : p + first.length ≤ size)
    (back : p + first.length + second.length ≤ size) :
    (b.patch p first front).patch (p + first.length) second back =
      b.patch p (first ++ second) fits := by
  have both := storeAll_append b p first second
  rw [storeAll_eq fits, storeAll_eq front] at both
  have stored : (b.patch p first front).storeAll (p + first.length) second =
      .ok (b.patch p (first ++ second) fits) := both.symm
  rw [storeAll_eq back] at stored
  exact Except.ok.inj stored

theorem length_content (b : FixedBuffer size) : b.content.length = b.cur := by
  rw [content, List.length_take, b.sized, Nat.min_eq_left b.inside]

theorem reverse_patch (b : FixedBuffer size) (p : Nat) (bytes back : List Byte)
    (fits : p + (bytes ++ back).length ≤ size)
    (turned : p + (bytes.reverse ++ back).length ≤ size) :
    (b.patch p (bytes ++ back) fits).reverse p (p + bytes.length) =
      .ok (b.patch p (bytes.reverse ++ back) turned) := by
  have sized := b.sized
  rw [List.length_append] at fits
  have front : (b.data.take p).length = p := by
    rw [List.length_take]
    omega
  have split : overwrite b.data p (bytes ++ back) =
      b.data.take p ++ bytes ++ (back ++ b.data.drop (p + (bytes ++ back).length)) := by
    simp [overwrite]
  have read : window (overwrite b.data p (bytes ++ back)) p (p + bytes.length) = bytes :=
    window_split _ _ _ split front.symm rfl
  have written : overwrite (overwrite b.data p (bytes ++ back)) p bytes.reverse =
      overwrite b.data p (bytes.reverse ++ back) := by
    have reversed := overwrite_split (b.data.take p)
      (back ++ b.data.drop (p + (bytes ++ back).length)) (@List.length_reverse _ bytes)
    rw [← split, front] at reversed
    rw [reversed]
    simp [overwrite]
  unfold reverse
  rw [dif_pos ⟨Nat.le_add_right _ _, by omega⟩]
  refine congrArg Except.ok (ext_data ?_ rfl)
  change overwrite (overwrite b.data p (bytes ++ back)) p
    (window (overwrite b.data p (bytes ++ back)) p (p + bytes.length)).reverse = _
  rw [read, written]
  rfl

/-- Bytes written from `cur_` on become content when `cur_` is moved. -/
theorem add_patch (b : FixedBuffer size) (bytes back : List Byte)
    (fits : b.cur + (bytes ++ back).length ≤ size) :
    ∃ next, (b.patch b.cur (bytes ++ back) fits).add bytes.length = .ok next ∧
      next.content = b.content ++ bytes := by
  have inside : b.cur + bytes.length ≤ size := le_trans (by simp) fits
  have length : (b.data.take b.cur ++ bytes).length = b.cur + bytes.length := by
    have sized := b.sized
    rw [List.length_append, List.length_take, sized, Nat.min_eq_left b.inside]
  refine ⟨{ b.patch b.cur (bytes ++ back) fits with
    cur := b.cur + bytes.length, inside := inside }, dif_pos inside, ?_⟩
  change (b.data.take b.cur ++ (bytes ++ back) ++ b.data.drop _).take (b.cur + bytes.length) = _
  rw [← List.append_assoc (b.data.take b.cur), List.append_assoc (b.data.take b.cur ++ bytes),
    ← length, List.take_left]
  rfl

/-- `append` is the stores of a `memcpy`, none of them outside, and the moved
end. -/
theorem append_stores {b : FixedBuffer size} {bytes : List Byte} (fits : b.avail > bytes.length) :
    (do
      let b ← b.storeAll b.cur bytes
      b.add bytes.length) = .ok (b.append bytes) := by
  have room : b.cur + bytes.length ≤ size := by
    rw [avail] at fits
    omega
  rw [storeAll_eq room]
  refine (dif_pos room).trans (congrArg Except.ok ?_)
  unfold append
  rw [dif_pos fits]
  rfl

end FixedBuffer

/-! ### The texts of numbers -/

namespace LogStream

open FixedBuffer

variable {size : Nat}

def asByte (character : Char) : Byte := UInt8.ofNat character.toNat

theorem zero_eq (lsd : Int) (bounded : lsd.natAbs < 10) :
    zero lsd = asByte lsd.natAbs.digitChar := by
  have table : ∀ digit : Fin 10, zero (digit.val : Int) = asByte digit.val.digitChar ∧
      zero (-(digit.val : Int)) = asByte digit.val.digitChar := by decide
  rcases Int.natAbs_eq lsd with positive | negative
  · conv_lhs => rw [positive]
    exact (table ⟨lsd.natAbs, bounded⟩).1
  · conv_lhs => rw [negative]
    exact (table ⟨lsd.natAbs, bounded⟩).2

theorem hex_eq (lsd : Int) (bounded : lsd.natAbs < 16) (positive : 0 ≤ lsd) :
    hex lsd = asByte lsd.natAbs.digitChar.toUpper := by
  have table : ∀ digit : Fin 16,
      hex (digit.val : Int) = asByte digit.val.digitChar.toUpper := by decide
  have value : (lsd.natAbs : Int) = lsd := Int.natAbs_of_nonneg positive
  conv_lhs => rw [← value]
  exact table ⟨lsd.natAbs, bounded⟩

/-- The loop stores the digits one behind the other. -/
theorem digitLoop_eq (digit : Int → Byte) (base : Nat) (large : 1 < base) (b : FixedBuffer size)
    (p : Nat) (i : Int) :
    digitLoop digit base large b p i = (do
      let b ← b.storeAll p (leastFirst digit base large i)
      return (b, p + (leastFirst digit base large i).length)) := by
  unfold digitLoop
  by_cases more : i.tdiv base ≠ 0
  · rw [leastFirst_more large more, storeAll]
    cases stored : b.store p (digit (i.tmod base)) with
    | error fault => rfl
    | ok next =>
        have rest := digitLoop_eq digit base large next (p + 1) (i.tdiv base)
        dsimp only
        rw [if_pos more, rest, List.length_cons]
        have behind : p + ((leastFirst digit base large (i.tdiv base)).length + 1) =
            p + 1 + (leastFirst digit base large (i.tdiv base)).length := by omega
        rw [behind]
        rfl
  · rw [leastFirst_last large (not_not.mp more), storeAll]
    cases stored : b.store p (digit (i.tmod base)) with
    | error fault => rfl
    | ok next =>
        dsimp only
        rw [if_neg more]
        rfl
termination_by i.natAbs
decreasing_by exact natAbs_tdiv_lt large more

/-- The last digit comes first. -/
def signed (value : Int) : List Byte := if value < 0 then [45] else []

theorem decimal_reverse (value : Int) :
    (leastFirst zero 10 (by decide) value ++ signed value).reverse = decimal value := by
  have digits : (leastFirst zero 10 (by decide) value).reverse =
      (Nat.toDigits 10 value.natAbs).map asByte :=
    reverse_leastFirst (by decide) asByte value fun remainder bounded _ =>
      zero_eq remainder bounded
  rw [List.reverse_append, digits]
  cases value with
  | ofNat number =>
      rw [decimal, text, String.toList_ofList]
      rfl
  | negSucc number =>
      have minus : signed (.negSucc number) = [45] := if_pos (Int.negSucc_lt_zero number)
      rw [minus, decimal, text, text, String.toList_ofList, String.toList_ofList]
      rfl

theorem room_of_turned {buf : Nat} {bytes turned : List Byte} (reversed : bytes.reverse = turned)
    (fits : buf + (turned ++ [0]).length ≤ size) : buf + bytes.length ≤ size := by
  rw [← List.length_reverse, reversed]
  exact le_trans (by simp) fits

/-- The end of both conversions turns what was written around. -/
theorem finish_eq (b : FixedBuffer size) (buf : Nat) {bytes turned : List Byte}
    (reversed : bytes.reverse = turned) (written : buf + bytes.length ≤ size)
    (fits : buf + (turned ++ [0]).length ≤ size) :
    finish (b.patch buf bytes written) buf (buf + bytes.length) =
      .ok (b.patch buf (turned ++ [0]) fits, turned.length) := by
  subst reversed
  have room : buf + (bytes ++ [0]).length ≤ size := by simpa using fits
  unfold finish
  rw [store_patch b buf 0 room]
  change ((b.patch buf (bytes ++ [0]) room).reverse buf (buf + bytes.length) >>= fun b =>
    Except.ok (b, buf + bytes.length - buf)) = _
  rw [reverse_patch b buf bytes [0] room fits, Nat.add_sub_cancel_left, List.length_reverse]
  rfl

/-- `convert` leaves the decimal text and a terminator at `buf`. -/
theorem convert_eq (b : FixedBuffer size) (buf : Nat) (value : Int)
    (fits : buf + (decimal value ++ [0]).length ≤ size) :
    convert b buf value =
      .ok (b.patch buf (decimal value ++ [0]) fits, (decimal value).length) := by
  have turned := decimal_reverse value
  have room := room_of_turned turned fits
  have digitsRoom : buf + (leastFirst zero 10 (by decide) value).length ≤ size :=
    le_trans (by simp) room
  have ends := finish_eq b buf turned room fits
  unfold convert
  rw [digitLoop_eq, storeAll_eq digitsRoom]
  by_cases negative : value < 0
  · have one : signed value = [45] := if_pos negative
    simp only [one] at room ends
    refine Eq.trans ?_ ends
    change (if value < 0 then (b.patch buf (leastFirst zero 10 _ value) digitsRoom).store
      (buf + (leastFirst zero 10 _ value).length) 45 >>= fun b =>
        finish b buf (buf + (leastFirst zero 10 _ value).length + 1) else _) = _
    rw [if_pos negative, store_patch b buf 45 room, List.length_append]
    rfl
  · have none : signed value = [] := if_neg negative
    simp only [none, List.append_nil] at room ends
    exact Eq.trans (if_neg negative) ends

/-- `convertHex` leaves the digits in upper case and a terminator at `buf`. -/
theorem convertHex_eq (b : FixedBuffer size) (buf : Nat) (value : Nat)
    (fits : buf + (Item.upperDigits value ++ [0]).length ≤ size) :
    convertHex b buf value =
      .ok (b.patch buf (Item.upperDigits value ++ [0]) fits, (Item.upperDigits value).length) := by
  have turned : (leastFirst hex 16 (by decide) value).reverse = Item.upperDigits value :=
    reverse_leastFirst (by decide) (fun digit : Char => asByte digit.toUpper) value
      fun remainder bounded positive =>
        hex_eq remainder bounded (positive (Int.natCast_nonneg value))
  have room := room_of_turned turned fits
  unfold convertHex
  rw [digitLoop_eq, storeAll_eq room]
  exact finish_eq b buf turned room fits

theorem length_decimal_le {value : Int} (lower : -2 ^ 64 < value) (upper : value < 2 ^ 64) :
    (decimal value).length ≤ 21 := by
  have digits : (Nat.toDigits 10 value.natAbs).length ≤ 20 := by
    rw [Nat.length_toDigits_le_iff (by decide) (by decide)]
    omega
  have sign : (signed value).length ≤ 1 := by
    unfold signed
    split <;> simp
  have turned := congrArg List.length (decimal_reverse value)
  have count : (leastFirst zero 10 (by decide) value).length =
      (Nat.toDigits 10 value.natAbs).length := by
    rw [← List.length_reverse, reverse_leastFirst (by decide) asByte value
      fun remainder bounded _ => zero_eq remainder bounded, List.length_map]
  rw [List.length_reverse, List.length_append] at turned
  omega

theorem length_signed_le {value : Int} (lower : -2 ^ 63 ≤ value) (upper : value < 2 ^ 63) :
    (decimal value).length ≤ 21 :=
  length_decimal_le (by omega) (by omega)

theorem length_unsigned_le {value : Nat} (upper : value < 2 ^ 64) :
    (decimal value).length ≤ 21 :=
  length_decimal_le (by omega) (by omega)

theorem length_hexadecimal_lt {value : Nat} (upper : value < 2 ^ 64) :
    (Item.hexadecimal value).length < kMaxNumericSize := by
  have digits : (Nat.toDigits 16 value).length ≤ 16 := by
    rw [Nat.length_toDigits_le_iff (by decide) (by decide)]
    omega
  have front : (text "0x").length = 2 := by decide
  rw [Item.hexadecimal, Item.upperDigits, List.length_append, List.length_map, front,
    kMaxNumericSize]
  omega

/-- The texts of all numbers leave room for the terminator. -/
theorem length_numeric_lt (item : Item) (numeric : item.isNumeric = true) :
    item.text.length < kMaxNumericSize := by
  have short : ∀ length : Nat, length ≤ 21 → length < kMaxNumericSize := fun length bounded =>
    Nat.lt_of_le_of_lt bounded (by decide)
  cases item with
  | int16 v =>
      exact short _ (length_signed_le (le_trans (by decide) v.le_toInt)
        (lt_trans v.toInt_lt (by decide)))
  | int32 v =>
      exact short _ (length_signed_le (le_trans (by decide) v.le_toInt)
        (lt_trans v.toInt_lt (by decide)))
  | int64 v => exact short _ (length_signed_le v.le_toInt v.toInt_lt)
  | uint16 v => exact short _ (length_unsigned_le (lt_trans v.toNat_lt (by decide)))
  | uint32 v => exact short _ (length_unsigned_le (lt_trans v.toNat_lt (by decide)))
  | uint64 v => exact short _ (length_unsigned_le v.toNat_lt)
  | pointer p => exact length_hexadecimal_lt p.toNat_lt
  | double v => exact v.fits
  | bool _ | char _ | cString _ | string _ | stringPiece _ | fmt _ => cases numeric

/-- An item asks for more room than its text needs. -/
theorem length_text_lt_room (item : Item) : item.text.length < item.room := by
  unfold Item.room
  split
  · next numeric => exact length_numeric_lt item numeric
  · exact Nat.lt_succ_self _

/-! ### One item -/

/-- What an operation that needs some room leaves in the buffer. -/
def Fills (s : LogStream) (bytes : List Byte) (room : Nat) (result : Except Overrun LogStream) :
    Prop :=
  ∃ next, result = .ok next ∧ next.buffer.content =
    if s.buffer.content.length + room ≤ kSmallBuffer then s.buffer.content ++ bytes
    else s.buffer.content

theorem append_fills (s : LogStream) (data : List Byte) :
    Fills s data (data.length + 1) (.ok (s.append data)) := by
  refine ⟨_, rfl, ?_⟩
  have length := s.buffer.length_content
  split
  · next fits =>
    apply append_fits
    rw [avail]
    omega
  · next full =>
    refine congrArg content (append_overflows ?_)
    rw [avail]
    omega

/-- The operations that write from `current()` on, given what they write there. -/
theorem numeric_fills (s : LogStream) (bytes back : List Byte)
    (write : Except Overrun (FixedBuffer kSmallBuffer × Nat))
    (short : (bytes ++ back).length ≤ kMaxNumericSize)
    (written : ∀ fits : s.buffer.cur + (bytes ++ back).length ≤ kSmallBuffer,
      write = .ok (s.buffer.patch s.buffer.cur (bytes ++ back) fits, bytes.length)) :
    Fills s bytes kMaxNumericSize (
      if s.buffer.avail ≥ kMaxNumericSize then do
        let (b, len) ← write
        let b ← b.add len
        return { buffer := b }
      else return s) := by
  have length := s.buffer.length_content
  have inside := s.buffer.inside
  unfold Fills
  by_cases room : s.buffer.avail ≥ kMaxNumericSize
  · have fits : s.buffer.cur + (bytes ++ back).length ≤ kSmallBuffer := by
      rw [avail] at room
      omega
    rcases add_patch s.buffer bytes back fits with ⟨next, added, content⟩
    refine ⟨⟨next⟩, ?_, ?_⟩
    · rw [if_pos room, written fits]
      change ((s.buffer.patch s.buffer.cur (bytes ++ back) fits).add bytes.length >>= fun b =>
        Except.ok (LogStream.mk b)) = _
      rw [added]
      rfl
    · rw [if_pos (by rw [avail] at room; omega)]
      exact content
  · refine ⟨s, if_neg room, ?_⟩
    rw [if_neg (by rw [avail] at room; omega)]

theorem formatInteger_fills (s : LogStream) {v : Int}
    (short : (decimal v).length < kMaxNumericSize) :
    Fills s (decimal v) kMaxNumericSize (s.formatInteger v) :=
  numeric_fills s (decimal v) [0] (convert s.buffer s.buffer.cur v)
    (by rw [List.length_append]; exact short)
    fun fits => convert_eq s.buffer s.buffer.cur v fits

theorem formatDouble_fills (s : LogStream) (v : Formatted) :
    Fills s v.bytes kMaxNumericSize (s.formatDouble v) := by
  have short : (v.bytes ++ [0]).length ≤ kMaxNumericSize := by
    rw [List.length_append]
    exact v.fits
  have same : s.formatDouble v =
      if s.buffer.avail ≥ kMaxNumericSize then do
        let (b, len) ← (do
          let b ← s.buffer.storeAll s.buffer.cur (v.bytes ++ [0])
          return (b, v.bytes.length))
        let b ← b.add len
        return { buffer := b }
      else return s := by
    simp only [formatDouble, bind_assoc, pure_bind]
  rw [same]
  refine numeric_fills s v.bytes [0] _ short fun fits => ?_
  rw [storeAll_eq fits]
  rfl

theorem formatPointer_fills (s : LogStream) {v : Nat}
    (short : (Item.hexadecimal v).length < kMaxNumericSize) :
    Fills s (Item.hexadecimal v) kMaxNumericSize (s.formatPointer v) := by
  have front : (text "0x").length = 2 := by decide
  have length : (Item.hexadecimal v).length = (Item.upperDigits v).length + 2 := by
    rw [Item.hexadecimal, List.length_append, front, Nat.add_comm]
  have same : s.formatPointer v =
      if s.buffer.avail ≥ kMaxNumericSize then do
        let (b, len) ← (do
          let b ← s.buffer.storeAll s.buffer.cur (text "0x")
          let (b, len) ← convertHex b (s.buffer.cur + 2) v
          return (b, len + 2))
        let b ← b.add len
        return { buffer := b }
      else return s := by
    have bytes : text "0x" = [48, 120] := by decide
    simp only [formatPointer, bytes, storeAll, bind_assoc, pure_bind]
    rfl
  rw [same]
  refine numeric_fills s (Item.hexadecimal v) [0] _ (by rw [List.length_append]; exact short)
    fun fits => ?_
  have whole : Item.hexadecimal v ++ [0] = text "0x" ++ (Item.upperDigits v ++ [0]) :=
    List.append_assoc _ _ _
  have room : s.buffer.cur + (text "0x" ++ (Item.upperDigits v ++ [0])).length ≤ kSmallBuffer :=
    whole ▸ fits
  have frontRoom : s.buffer.cur + (text "0x").length ≤ kSmallBuffer := le_trans (by simp) room
  have backRoom : s.buffer.cur + (text "0x").length + (Item.upperDigits v ++ [0]).length ≤
      kSmallBuffer := by
    rw [List.length_append] at room
    omega
  have digits := convertHex_eq (s.buffer.patch s.buffer.cur (text "0x") frontRoom)
    (s.buffer.cur + (text "0x").length) v backRoom
  rw [patch_patch s.buffer s.buffer.cur _ _ room frontRoom backRoom, front] at digits
  rw [storeAll_eq frontRoom]
  change (convertHex (s.buffer.patch s.buffer.cur (text "0x") frontRoom) (s.buffer.cur + 2) v >>=
    fun result => Except.ok (result.1, result.2 + 2)) = _
  rw [digits, length, patch_congr s.buffer s.buffer.cur whole fits]
  rfl

/-- Every operation adds the text of the item as a whole, or nothing. -/
theorem insert_fills (s : LogStream) (item : Item) :
    Fills s item.text item.room (s.insert item) := by
  cases item with
  | bool v => cases v <;> exact append_fills s _
  | char v => exact append_fills s [v]
  | int16 v =>
      have same : s.insert (.int16 v) = s.formatInteger v.toInt :=
        congrArg s.formatInteger v.toInt_toInt32
      rw [same]
      exact s.formatInteger_fills (length_numeric_lt (.int16 v) rfl)
  | uint16 v =>
      have same : s.insert (.uint16 v) = s.formatInteger v.toNat :=
        congrArg (fun value : Nat => s.formatInteger value) v.toNat_toUInt32
      rw [same]
      exact s.formatInteger_fills (length_numeric_lt (.uint16 v) rfl)
  | int32 v => exact s.formatInteger_fills (length_numeric_lt (.int32 v) rfl)
  | uint32 v => exact s.formatInteger_fills (length_numeric_lt (.uint32 v) rfl)
  | int64 v => exact s.formatInteger_fills (length_numeric_lt (.int64 v) rfl)
  | uint64 v => exact s.formatInteger_fills (length_numeric_lt (.uint64 v) rfl)
  | pointer p => exact s.formatPointer_fills (length_numeric_lt (.pointer p) rfl)
  | double v => exact s.formatDouble_fills v
  | cString str =>
      cases str with
      | none => exact append_fills s (text "(null)")
      | some str => exact append_fills s str.bytes
  | string v => exact append_fills s v
  | stringPiece v => exact append_fills s v.bytes
  | fmt v => exact append_fills s v.bytes

/-! ### Sequences of items -/

/-- The stream is a text of bounded length: its content is what `fill` makes of
the items. -/
theorem insert_content (s : LogStream) (item : Item) :
    ∃ next, s.insert item = .ok next ∧
      next.buffer.content = fill Item.text Item.room kSmallBuffer s.buffer.content item :=
  s.insert_fills item

theorem run_content (s : LogStream) (items : List Item) :
    ∃ final, run insert s items = .ok final ∧
      final.buffer.content = fillAll Item.text Item.room kSmallBuffer s.buffer.content items := by
  induction items generalizing s with
  | nil => exact ⟨s, rfl, rfl⟩
  | cons item items ih =>
      rcases s.insert_content item with ⟨next, inserted, content⟩
      rcases ih next with ⟨final, rest, finalContent⟩
      refine ⟨final, ?_, ?_⟩
      · rw [run_cons_ok items inserted, rest]
      · rw [finalContent, content]
        rfl

theorem content_new (memory : { bytes : List Byte // bytes.length = kSmallBuffer }) :
    (new memory).buffer.content = [] := rfl

/-- For every sequence of items nothing is written outside `data_`, the length
stays below the size, and the content is the texts of some of the items in their
order. An item is absent only where fewer bytes are free than its text and one
more, or than `kMaxNumericSize` if it is a number. -/
theorem output_itemwise (memory : { bytes : List Byte // bytes.length = kSmallBuffer })
    (items : List Item) :
    ∃ s, run insert (new memory) items = .ok s ∧
      s.buffer.content.length ≤ kSmallBuffer - 1 ∧
      (∃ kept : List Item, kept.Sublist items ∧ s.buffer.content = kept.flatMap Item.text) ∧
      Itemwise Item.text
        (fun item => max (item.text.length + 1) (if item.isNumeric then kMaxNumericSize else 0))
        kSmallBuffer [] items s.buffer.content := by
  rcases run_content (new memory) items with ⟨s, ran, content⟩
  rw [content_new] at content
  have itemwise : Itemwise Item.text Item.room kSmallBuffer [] items s.buffer.content := by
    rw [content]
    exact itemwise_fillAll [] items
  refine ⟨s, ran, ?_, ?_, ?_⟩
  · have below : (fillAll Item.text Item.room kSmallBuffer [] items).length < kSmallBuffer :=
      length_fillAll_lt (by decide) fun item _ => length_text_lt_room item
    rw [content]
    exact Nat.le_pred_of_lt below
  · rcases itemwise.sublist with ⟨kept, part, keptContent⟩
    exact ⟨kept, part, keptContent⟩
  · apply itemwise.weaken
    intro item _
    unfold Item.room
    split
    · exact le_max_right _ _
    · exact le_max_left _ _

end LogStream

end Msmuduo
