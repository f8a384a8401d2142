import Mathlib.Algebra.Group.Nat.Defs
import Msmuduo.Machine
import Msmuduo.Search
import Msmuduo.Window

/-!
# The byte buffer

A transcription of `Buffer.h` and of the WIN branch of `Buffer::readFd`.
`buffer_` is the whole vector, the two indices delimit the readable bytes, and
a pointer into the vector is its index. Every `assert` of the source is a
`require`, named by the function it stands in.

The project builds for Win32 only, where `size_t`, `ULONG` and `DWORD` have 32
bits. Index arithmetic is over the natural numbers; the places where the source
converts between `size_t` and `int` carry the conversion.
-/

namespace Msmuduo

open Msmuduo.Machine Msmuduo.Search Msmuduo.Window

set_option autoImplicit false

abbrev Byte := UInt8

def sizeTModulus : Nat := 2 ^ 32

/-- `static_cast<int>` of a `size_t` or `DWORD`. -/
def toInt (size : Nat) : Int := Int.bmod size sizeTModulus

/-- The implicit conversion of an `int` to `size_t`. -/
def toSizeT (value : Int) : Nat := (value % sizeTModulus).toNat

theorem toSizeT_toInt (size : Nat) (fits : size < sizeTModulus) :
    toSizeT (toInt size) = size := by
  unfold toSizeT toInt
  rw [Int.bmod_emod, Int.emod_eq_of_lt (Int.natCast_nonneg _) (by exact_mod_cast fits),
    Int.toNat_natCast]

structure Buffer where
  buffer : List Byte
  readerIndex : Nat
  writerIndex : Nat
  deriving DecidableEq, Repr

namespace Buffer

def kCheapPrepend : Nat := 8

def kInitialSize : Nat := 1024

/-- The size of the stack buffer that `readFd` offers behind the vector. -/
def extrabufSize : Nat := 65536

/-- The assertions of `Buffer.h`. -/
inductive Assertion where
  | retrieveLength
  | retrieveUntilStart
  | retrieveUntilEnd
  | retrieveAsStringLength
  | ensureWritableBytes
  | hasWrittenLength
  | unwriteLength
  | prependLength
  | makeSpaceReader
  | makeSpaceReadable
  | peekInt64
  | peekInt32
  | peekInt16
  | peekInt8
  deriving DecidableEq, Repr

def new (initSize : Nat) : Buffer where
  buffer := List.replicate (kCheapPrepend + initSize) 0
  readerIndex := kCheapPrepend
  writerIndex := kCheapPrepend

def readableBytes (b : Buffer) : Nat := b.writerIndex - b.readerIndex

def writableBytes (b : Buffer) : Nat := b.buffer.length - b.writerIndex

def prependableBytes (b : Buffer) : Nat := b.readerIndex

def peek (b : Buffer) : Nat := b.readerIndex

def beginWrite (b : Buffer) : Nat := b.writerIndex

/-- The readable bytes, the ones at the indices from `readerIndex_` up to
`writerIndex_`. -/
def content (b : Buffer) : List Byte :=
  window b.buffer b.readerIndex b.writerIndex

def kCRLF : List Byte := [13, 10]

/-- The pointer to the first CRLF, or none. -/
def findCRLF (b : Buffer) : Option Nat :=
  let crlf := b.peek + search kCRLF (window b.buffer b.peek b.beginWrite)
  if crlf = b.beginWrite then none else some crlf

def retrieveAll (b : Buffer) : Buffer :=
  { b with readerIndex := kCheapPrepend, writerIndex := kCheapPrepend }

def retrieve (b : Buffer) (len : Nat) : Except Assertion Buffer := do
  require (len ≤ b.readableBytes) .retrieveLength
  if len < b.readableBytes then
    return { b with readerIndex := b.readerIndex + len }
  else
    return b.retrieveAll

def retrieveUntil (b : Buffer) (stop : Nat) : Except Assertion Buffer := do
  require (b.peek ≤ stop) .retrieveUntilStart
  require (stop ≤ b.beginWrite) .retrieveUntilEnd
  b.retrieve (stop - b.peek)

def retrieveAsString (b : Buffer) (len : Nat) :
    Except Assertion (List Byte × Buffer) := do
  require (len ≤ b.readableBytes) .retrieveAsStringLength
  let result := window b.buffer b.peek (b.peek + len)
  let rest ← b.retrieve len
  return (result, rest)

def retrieveAllAsString (b : Buffer) : Except Assertion (List Byte × Buffer) :=
  b.retrieveAsString b.readableBytes

/-- Grows the vector, or moves the readable bytes to the front when the room
before and behind them together is enough. -/
def makeSpace (b : Buffer) (len : Nat) : Except Assertion Buffer :=
  if b.writableBytes + b.prependableBytes < len + kCheapPrepend then
    return { b with buffer := resize b.buffer (b.writerIndex + len) 0 }
  else do
    require (kCheapPrepend < b.readerIndex) .makeSpaceReader
    let readable := b.readableBytes
    let moved : Buffer :=
      { buffer := copyForward b.buffer b.readerIndex kCheapPrepend
          (b.writerIndex - b.readerIndex)
        readerIndex := kCheapPrepend
        writerIndex := kCheapPrepend + readable }
    require (readable = moved.readableBytes) .makeSpaceReadable
    return moved

def ensureWritableBytes (b : Buffer) (len : Nat) : Except Assertion Buffer := do
  let ready ← (if b.writableBytes < len then b.makeSpace len else .ok b)
  require (len ≤ ready.writableBytes) .ensureWritableBytes
  return ready

def hasWritten (b : Buffer) (len : Nat) : Except Assertion Buffer := do
  require (len ≤ b.writableBytes) .hasWrittenLength
  return { b with writerIndex := b.writerIndex + len }

def unwrite (b : Buffer) (len : Nat) : Except Assertion Buffer := do
  require (len ≤ b.readableBytes) .unwriteLength
  return { b with writerIndex := b.writerIndex - len }

/-- The caller's own writes to the bytes at `beginWrite()`, before it reports
them with `hasWritten`. -/
def fill (b : Buffer) (data : List Byte) : Buffer :=
  { b with buffer := overwrite b.buffer b.beginWrite data }

def append (b : Buffer) (data : List Byte) : Except Assertion Buffer := do
  let ready ← b.ensureWritableBytes data.length
  (ready.fill data).hasWritten data.length

def prepend (b : Buffer) (data : List Byte) : Except Assertion Buffer := do
  require (data.length ≤ b.prependableBytes) .prependLength
  let start := b.readerIndex - data.length
  return { b with
    readerIndex := start
    buffer := overwrite b.buffer start data }

/-- A view of bytes whose length is an `int`. -/
structure StringPiece where
  start : Nat
  length : Int
  deriving DecidableEq, Repr

def toStringPiece (b : Buffer) : StringPiece :=
  ⟨b.peek, toInt b.readableBytes⟩

/-- `append(const StringPiece&)` on a piece that points into `source`. -/
def appendPiece (b source : Buffer) (piece : StringPiece) :
    Except Assertion Buffer :=
  b.append (window source.buffer piece.start (piece.start + toSizeT piece.length))

/-- The new contents are built in a fresh buffer, which then takes the place
of this one. -/
def shrink (b : Buffer) (reserve : Nat) : Except Assertion Buffer := do
  let other ← (new kInitialSize).ensureWritableBytes (b.readableBytes + reserve)
  other.appendPiece b b.toStringPiece

/-- What `WSARecv` reports: the bytes it received, or its error code. -/
inductive Receive where
  | received (data : List Byte)
  | failed (code : Int)
  deriving DecidableEq, Repr

structure ReadFd where
  buffer : Buffer
  retReadCnt : Int
  savedErrno : Option Int
  deriving DecidableEq, Repr

/-- The WIN branch of `readFd`. The kernel fills the writable bytes first and
`extrabuf` after them. `retReadCnt` starts at zero and is an `int`; the error
branch saves the code and leaves the count alone. -/
def readFd (b : Buffer) : Receive → Except Assertion ReadFd
  | .failed code => .ok ⟨b, 0, some code⟩
  | .received data =>
      let writable := b.writableBytes
      let recvBytes := data.length
      let filled := b.fill (data.take writable)
      if recvBytes ≤ writable then
        .ok ⟨{ filled with writerIndex := b.writerIndex + recvBytes },
          toInt recvBytes, none⟩
      else do
        let extrabuf := data.drop writable
        let spilled ← append { filled with writerIndex := filled.buffer.length }
          (extrabuf.take (recvBytes - writable))
        return ⟨spilled, toInt recvBytes, none⟩

end Buffer

end Msmuduo
