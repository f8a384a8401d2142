import Msmuduo.BufferDeque
import Msmuduo.Endiantool

/-!
# Integers in the buffer

`appendIntN`, `prependIntN`, `peekIntN` and `readIntN` of `Buffer.h`. An
integer is converted to network order and its bytes in memory are copied into
the buffer; reading copies bytes into an integer of the machine and converts
it back. Eight bits need no conversion.
-/

namespace Msmuduo.Buffer

open Msmuduo.Machine Msmuduo.Window Msmuduo.Endian Msmuduo.Endiantool

set_option autoImplicit false

def appendInt64 (machine : ByteOrder) (b : Buffer) (x : Int64) : Except Assertion Buffer :=
  b.append (machine.store 8 (hostToNetwork64 machine x.toUInt64).toNat)

def appendInt32 (machine : ByteOrder) (b : Buffer) (x : Int32) : Except Assertion Buffer :=
  b.append (machine.store 4 (hostToNetwork32 machine x.toUInt32).toNat)

def appendInt16 (machine : ByteOrder) (b : Buffer) (x : Int16) : Except Assertion Buffer :=
  b.append (machine.store 2 (hostToNetwork16 machine x.toUInt16).toNat)

def appendInt8 (b : Buffer) (x : Int8) : Except Assertion Buffer :=
  b.append [x.toUInt8]

/-- The `memcpy` from `peek()`. -/
def peekBytes (b : Buffer) (size : Nat) (assertion : Assertion) :
    Except Assertion (List Byte) := do
  require (size ≤ b.readableBytes) assertion
  return window b.buffer b.peek (b.peek + size)

def peekInt64 (machine : ByteOrder) (b : Buffer) : Except Assertion Int64 := do
  let be64 ← b.peekBytes 8 .peekInt64
  return (networkToHost64 machine (UInt64.ofNat (machine.load be64))).toInt64

def peekInt32 (machine : ByteOrder) (b : Buffer) : Except Assertion Int32 := do
  let be32 ← b.peekBytes 4 .peekInt32
  return (networkToHost32 machine (UInt32.ofNat (machine.load be32))).toInt32

def peekInt16 (machine : ByteOrder) (b : Buffer) : Except Assertion Int16 := do
  let be16 ← b.peekBytes 2 .peekInt16
  return (networkToHost16 machine (UInt16.ofNat (machine.load be16))).toInt16

def peekInt8 (b : Buffer) : Except Assertion Int8 := do
  let x ← b.peekBytes 1 .peekInt8
  return (x.headD 0).toInt8

def retrieveInt64 (b : Buffer) : Except Assertion Buffer := b.retrieve 8

def retrieveInt32 (b : Buffer) : Except Assertion Buffer := b.retrieve 4

def retrieveInt16 (b : Buffer) : Except Assertion Buffer := b.retrieve 2

def retrieveInt8 (b : Buffer) : Except Assertion Buffer := b.retrieve 1

def readInt64 (machine : ByteOrder) (b : Buffer) : Except Assertion (Int64 × Buffer) := do
  let result ← b.peekInt64 machine
  let b ← b.retrieveInt64
  return (result, b)

def readInt32 (machine : ByteOrder) (b : Buffer) : Except Assertion (Int32 × Buffer) := do
  let result ← b.peekInt32 machine
  let b ← b.retrieveInt32
  return (result, b)

def readInt16 (machine : ByteOrder) (b : Buffer) : Except Assertion (Int16 × Buffer) := do
  let result ← b.peekInt16 machine
  let b ← b.retrieveInt16
  return (result, b)

def readInt8 (b : Buffer) : Except Assertion (Int8 × Buffer) := do
  let result ← b.peekInt8
  let b ← b.retrieveInt8
  return (result, b)

def prependInt64 (machine : ByteOrder) (b : Buffer) (x : Int64) : Except Assertion Buffer :=
  b.prepend (machine.store 8 (hostToNetwork64 machine x.toUInt64).toNat)

def prependInt32 (machine : ByteOrder) (b : Buffer) (x : Int32) : Except Assertion Buffer :=
  b.prepend (machine.store 4 (hostToNetwork32 machine x.toUInt32).toNat)

def prependInt16 (machine : ByteOrder) (b : Buffer) (x : Int16) : Except Assertion Buffer :=
  b.prepend (machine.store 2 (hostToNetwork16 machine x.toUInt16).toNat)

def prependInt8 (b : Buffer) (x : Int8) : Except Assertion Buffer :=
  b.prepend [x.toUInt8]

/-! ### Integers of any width -/

inductive Width where
  | int8
  | int16
  | int32
  | int64
  deriving DecidableEq, Repr

namespace Width

def size : Width → Nat
  | int8 => 1
  | int16 => 2
  | int32 => 4
  | int64 => 8

end Width

inductive Integer where
  | int8 (x : Int8)
  | int16 (x : Int16)
  | int32 (x : Int32)
  | int64 (x : Int64)
  deriving DecidableEq

namespace Integer

def width : Integer → Width
  | int8 _ => .int8
  | int16 _ => .int16
  | int32 _ => .int32
  | int64 _ => .int64

/-- The bits of the integer, as a number. -/
def bits : Integer → Nat
  | int8 x => x.toUInt8.toNat
  | int16 x => x.toUInt16.toNat
  | int32 x => x.toUInt32.toNat
  | int64 x => x.toUInt64.toNat

/-- The big-endian representation. -/
def network (value : Integer) : List Byte := bigEndian value.width.size value.bits

end Integer

def appendInt (machine : ByteOrder) (b : Buffer) : Integer → Except Assertion Buffer
  | .int8 x => b.appendInt8 x
  | .int16 x => b.appendInt16 machine x
  | .int32 x => b.appendInt32 machine x
  | .int64 x => b.appendInt64 machine x

def prependInt (machine : ByteOrder) (b : Buffer) : Integer → Except Assertion Buffer
  | .int8 x => b.prependInt8 x
  | .int16 x => b.prependInt16 machine x
  | .int32 x => b.prependInt32 machine x
  | .int64 x => b.prependInt64 machine x

def peekInt (machine : ByteOrder) (b : Buffer) : Width → Except Assertion Integer
  | .int8 => .int8 <$> b.peekInt8
  | .int16 => .int16 <$> b.peekInt16 machine
  | .int32 => .int32 <$> b.peekInt32 machine
  | .int64 => .int64 <$> b.peekInt64 machine

def readInt (machine : ByteOrder) (b : Buffer) : Width → Except Assertion (Integer × Buffer)
  | .int8 => (fun (x, b) => (.int8 x, b)) <$> b.readInt8
  | .int16 => (fun (x, b) => (.int16 x, b)) <$> b.readInt16 machine
  | .int32 => (fun (x, b) => (.int32 x, b)) <$> b.readInt32 machine
  | .int64 => (fun (x, b) => (.int64 x, b)) <$> b.readInt64 machine

def appendInts (machine : ByteOrder) (b : Buffer) : List Integer → Except Assertion Buffer
  | [] => .ok b
  | value :: values => do
      let b ← b.appendInt machine value
      b.appendInts machine values

def readInts (machine : ByteOrder) (b : Buffer) :
    List Width → Except Assertion (List Integer × Buffer)
  | [] => .ok ([], b)
  | width :: widths => do
      let (value, b) ← b.readInt machine width
      let (values, b) ← b.readInts machine widths
      return (value :: values, b)

/-! ### What is stored and what is read -/

@[simp]
theorem Integer.length_network (value : Integer) : value.network.length = value.width.size :=
  length_bigEndian _ _

theorem appendInt_eq (machine : ByteOrder) (b : Buffer) (value : Integer) :
    b.appendInt machine value = b.append value.network := by
  cases value with
  | int8 x => simp [appendInt, appendInt8, Integer.network, Integer.width, Integer.bits,
      Width.size, bigEndian, littleEndian]
  | int16 x =>
      rw [appendInt, appendInt16, hostToNetwork16, store_htons]
      rfl
  | int32 x =>
      rw [appendInt, appendInt32, hostToNetwork32, store_htonl]
      rfl
  | int64 x =>
      rw [appendInt, appendInt64, hostToNetwork64, store_hton64]
      rfl

theorem prependInt_eq (machine : ByteOrder) (b : Buffer) (value : Integer) :
    b.prependInt machine value = b.prepend value.network := by
  cases value with
  | int8 x => simp [prependInt, prependInt8, Integer.network, Integer.width, Integer.bits,
      Width.size, bigEndian, littleEndian]
  | int16 x =>
      rw [prependInt, prependInt16, hostToNetwork16, store_htons]
      rfl
  | int32 x =>
      rw [prependInt, prependInt32, hostToNetwork32, store_htonl]
      rfl
  | int64 x =>
      rw [prependInt, prependInt64, hostToNetwork64, store_hton64]
      rfl

/-- What `peekIntN` makes of the bytes of an integer. -/
def Integer.received (machine : ByteOrder) : Integer → Integer
  | int64 x => int64 (ntoh64 machine (hton64 machine x.toUInt64)).toInt64
  | value => value

/-- The condition on an integer under which it is read as it was written. -/
def Integer.Symmetric (machine : ByteOrder) : Integer → Prop
  | int64 x => Endiantool.Symmetric machine x.toUInt64
  | _ => True

instance (machine : ByteOrder) (value : Integer) : Decidable (value.Symmetric machine) :=
  match value with
  | .int8 _ => isTrue trivial
  | .int16 _ => isTrue trivial
  | .int32 _ => isTrue trivial
  | .int64 x => inferInstanceAs (Decidable (Endiantool.Symmetric machine x.toUInt64))

theorem Integer.received_eq_iff (machine : ByteOrder) (value : Integer) :
    value.received machine = value ↔ value.Symmetric machine := by
  cases value with
  | int8 x => simp [received, Integer.Symmetric]
  | int16 x => simp [received, Integer.Symmetric]
  | int32 x => simp [received, Integer.Symmetric]
  | int64 x =>
      rw [Integer.Symmetric, ← ntoh64_hton64_iff, received]
      constructor
      · intro same
        exact congrArg Int64.toUInt64 (Integer.int64.inj same)
      · intro same
        rw [same]
        rfl

theorem peekBytes_front {b : Buffer} {data rest : List Byte} {assertion : Assertion}
    (represents : Represents b (data ++ rest)) :
    b.peekBytes data.length assertion = .ok data := by
  have room : data.length ≤ b.readableBytes := by
    rw [represents.readable, List.length_append]
    exact Nat.le_add_right _ _
  rw [peekBytes, require_ok room, represents.window_peek data.length room, List.take_left]
  rfl

theorem load_network64 (machine : ByteOrder) (x : UInt64) :
    UInt64.ofNat (machine.load (bigEndian 8 x.toNat)) = hton64 machine x := by
  rw [← store_hton64 machine x, machine.load_store 8 _ (UInt64.toNat_lt _), UInt64.ofNat_toNat]

theorem peekInt_front {b : Buffer} {rest : List Byte} (machine : ByteOrder) (value : Integer)
    (represents : Represents b (value.network ++ rest)) :
    b.peekInt machine value.width = .ok (value.received machine) := by
  have copied : ∀ assertion, b.peekBytes value.width.size assertion = .ok value.network := by
    intro assertion
    rw [← value.length_network]
    exact peekBytes_front represents
  cases value with
  | int8 x =>
      have byte : b.peekBytes 1 .peekInt8 = .ok [x.toUInt8] := by
        have one : (Integer.int8 x).width.size = 1 := rfl
        rw [← one, copied]
        simp [Integer.network, Integer.width, Integer.bits, Width.size, bigEndian, littleEndian]
      simp only [peekInt, peekInt8, Integer.width, byte]
      rfl
  | int16 x =>
      have bytes : b.peekBytes 2 .peekInt16 = .ok (bigEndian 2 x.toUInt16.toNat) := copied _
      have converted := ntohs_htons machine x.toUInt16
      rw [htons] at converted
      simp only [peekInt, peekInt16, Integer.width, bytes, bind, Except.bind, networkToHost16,
        converted]
      rfl
  | int32 x =>
      have bytes : b.peekBytes 4 .peekInt32 = .ok (bigEndian 4 x.toUInt32.toNat) := copied _
      have converted := ntohl_htonl machine x.toUInt32
      rw [htonl] at converted
      simp only [peekInt, peekInt32, Integer.width, bytes, bind, Except.bind, networkToHost32,
        converted]
      rfl
  | int64 x =>
      have bytes : b.peekBytes 8 .peekInt64 = .ok (bigEndian 8 x.toUInt64.toNat) := copied _
      simp only [peekInt, peekInt64, Integer.width, bytes, bind, Except.bind, networkToHost64,
        load_network64]
      rfl

theorem map_read {Value : Type} (make : Value → Integer) (peeked : Except Assertion Value)
    (retrieved : Except Assertion Buffer) :
    ((fun (x, b) => (make x, b)) <$> (do
      let result ← peeked
      let b ← retrieved
      return (result, b)) : Except Assertion (Integer × Buffer)) = (do
        let value ← make <$> peeked
        let b ← retrieved
        return (value, b)) := by
  cases peeked with
  | error => rfl
  | ok x =>
      cases retrieved with
      | error => rfl
      | ok b => rfl

/-- Every `readIntN` is a `peekIntN` and a `retrieve`. -/
theorem readInt_eq (machine : ByteOrder) (b : Buffer) (width : Width) :
    b.readInt machine width = (do
      let value ← b.peekInt machine width
      let b ← b.retrieve width.size
      return (value, b)) := by
  cases width with
  | int8 => exact map_read .int8 b.peekInt8 b.retrieveInt8
  | int16 => exact map_read .int16 (b.peekInt16 machine) b.retrieveInt16
  | int32 => exact map_read .int32 (b.peekInt32 machine) b.retrieveInt32
  | int64 => exact map_read .int64 (b.peekInt64 machine) b.retrieveInt64

theorem readInt_front {b : Buffer} {rest : List Byte} (machine : ByteOrder) (value : Integer)
    (represents : Represents b (value.network ++ rest)) :
    ∃ next, b.readInt machine value.width = .ok (value.received machine, next) ∧
      Represents next rest := by
  have room : value.width.size ≤ b.readableBytes := by
    rw [represents.readable, List.length_append, value.length_network]
    exact Nat.le_add_right _ _
  obtain ⟨next, retrieved, left⟩ := retrieve_represents represents value.width.size room
  rw [← value.length_network, List.drop_left] at left
  refine ⟨next, ?_, left⟩
  rw [readInt_eq, peekInt_front machine value represents, retrieved]
  rfl

/-! ### Lists of integers -/

theorem appendInts_represents {b : Buffer} {bytes : List Byte} (machine : ByteOrder)
    (values : List Integer) (represents : Represents b bytes) :
    ∃ filled, b.appendInts machine values = .ok filled ∧
      Represents filled (bytes ++ values.flatMap Integer.network) := by
  induction values generalizing b bytes with
  | nil =>
      refine ⟨b, rfl, ?_⟩
      rw [List.flatMap_nil, List.append_nil]
      exact represents
  | cons value values ih =>
      obtain ⟨next, appended, after⟩ := append_represents represents value.network
      obtain ⟨filled, ran, whole⟩ := ih after
      refine ⟨filled, ?_, ?_⟩
      · rw [appendInts, appendInt_eq, appended]
        exact ran
      · rw [List.flatMap_cons, ← List.append_assoc]
        exact whole

theorem readInts_front {b : Buffer} {rest : List Byte} (machine : ByteOrder)
    (values : List Integer)
    (represents : Represents b (values.flatMap Integer.network ++ rest)) :
    ∃ next, b.readInts machine (values.map Integer.width) =
        .ok (values.map (Integer.received machine), next) ∧ Represents next rest := by
  induction values generalizing b with
  | nil => exact ⟨b, rfl, represents⟩
  | cons value values ih =>
      rw [List.flatMap_cons, List.append_assoc] at represents
      obtain ⟨middle, first, left⟩ := readInt_front machine value represents
      obtain ⟨next, others, after⟩ := ih left
      refine ⟨next, ?_, after⟩
      simp only [List.map_cons, readInts, first, bind, Except.bind, others]
      rfl

theorem received_all_iff (machine : ByteOrder) (values : List Integer) :
    values.map (Integer.received machine) = values ↔
      ∀ value ∈ values, value.Symmetric machine := by
  induction values with
  | nil => simp
  | cons value values ih =>
      rw [List.map_cons, List.cons.injEq, ih, value.received_eq_iff, List.forall_mem_cons]

/-- Integers survive the buffer. Appended behind whatever it holds they stand
there in big-endian order; when what was in front has been consumed they are
read as they were written, and what was appended behind them is left. Prepended
to a buffer with room, each is what `peekIntN` finds. -/
structure RoundTrip (machine : ByteOrder) (b : Buffer) (values : List Integer) : Prop where
  appended : ∃ filled, b.appendInts machine values = .ok filled ∧
    filled.content = b.content ++ values.flatMap Integer.network ∧
    ∀ more, ∃ longer start rest, filled.append more = .ok longer ∧
      longer.retrieve b.readableBytes = .ok start ∧
      start.readInts machine (values.map Integer.width) = .ok (values, rest) ∧
      rest.content = more
  prepended : ∀ value ∈ values, ∀ other bytes, Represents other bytes →
    value.width.size ≤ other.prependableBytes →
    ∃ next, other.prependInt machine value = .ok next ∧
      next.content = value.network ++ bytes ∧
      next.peekInt machine value.width = .ok value

/-- What the buffer gives back, with the conversion the source makes. -/
theorem appended_received {b : Buffer} {bytes : List Byte} (machine : ByteOrder)
    (values : List Integer) (represents : Represents b bytes) :
    ∃ filled, b.appendInts machine values = .ok filled ∧
      filled.content = b.content ++ values.flatMap Integer.network ∧
      ∀ more, ∃ longer start rest, filled.append more = .ok longer ∧
        longer.retrieve b.readableBytes = .ok start ∧
        start.readInts machine (values.map Integer.width) =
          .ok (values.map (Integer.received machine), rest) ∧ rest.content = more := by
  obtain ⟨filled, ran, filledRepresents⟩ := appendInts_represents machine values represents
  refine ⟨filled, ran, ?_, ?_⟩
  · rw [filledRepresents.content, represents.content]
  · intro more
    obtain ⟨longer, appended, longerRepresents⟩ := append_represents filledRepresents more
    have room : bytes.length ≤ longer.readableBytes := by
      rw [longerRepresents.readable, List.append_assoc, List.length_append]
      exact Nat.le_add_right _ _
    obtain ⟨start, retrieved, startRepresents⟩ :=
      retrieve_represents longerRepresents bytes.length room
    rw [List.append_assoc, List.drop_left] at startRepresents
    obtain ⟨rest, read, left⟩ := readInts_front machine values startRepresents
    refine ⟨longer, start, rest, appended, ?_, read, left.content⟩
    rw [represents.readable]
    exact retrieved

theorem RoundTrip.symmetric {b : Buffer} {bytes : List Byte} {machine : ByteOrder}
    {values : List Integer} (roundTrip : RoundTrip machine b values)
    (represents : Represents b bytes) : ∀ value ∈ values, value.Symmetric machine := by
  obtain ⟨filled, ran, -, received⟩ := appended_received machine values represents
  obtain ⟨same, ranSame, -, reads⟩ := roundTrip.appended
  rw [ran] at ranSame
  cases ranSame
  obtain ⟨longer, start, rest, appended, retrieved, read, -⟩ := received []
  obtain ⟨longerSame, startSame, restSame, appendedSame, retrievedSame, readSame, -⟩ := reads []
  rw [appended] at appendedSame
  cases appendedSame
  rw [retrieved] at retrievedSame
  cases retrievedSame
  rw [read] at readSame
  rw [← received_all_iff]
  exact congrArg Prod.fst (Except.ok.inj readSame)

theorem round_trip_of_symmetric {b : Buffer} {bytes : List Byte} {machine : ByteOrder}
    {values : List Integer} (represents : Represents b bytes)
    (symmetric : ∀ value ∈ values, value.Symmetric machine) : RoundTrip machine b values := by
  obtain ⟨filled, ran, content, received⟩ := appended_received machine values represents
  constructor
  · refine ⟨filled, ran, content, ?_⟩
    rw [(received_all_iff machine values).mpr symmetric] at received
    exact received
  · intro value member other bytes otherRepresents room
    rw [← value.length_network] at room
    obtain ⟨next, prepended, after⟩ := prepend_represents otherRepresents value.network room
    refine ⟨next, ?_, after.content, ?_⟩
    · rw [prependInt_eq]
      exact prepended
    · rw [peekInt_front machine value after,
        (value.received_eq_iff machine).mpr (symmetric value member)]

/-- Integers of 8, 16 and 32 bits survive every buffer. Those of 64 bits do
when `ntoh64` has nothing to undo. -/
theorem integers_round_trip_iff {b : Buffer} {bytes : List Byte} (machine : ByteOrder)
    (values : List Integer) (represents : Represents b bytes) :
    RoundTrip machine b values ↔ ∀ value ∈ values, value.Symmetric machine := by
  constructor
  · intro roundTrip
    exact roundTrip.symmetric represents
  · intro symmetric
    exact round_trip_of_symmetric represents symmetric

theorem small_integers_round_trip :
    Represents (new kInitialSize) [] ∧ RoundTrip .little (new kInitialSize)
      [.int8 (-1), .int16 (-2), .int32 (-3), .int64 (-1), .int64 0x0102030404030201] := by
  constructor
  · exact new_represents kInitialSize
  · apply (integers_round_trip_iff .little _ (new_represents kInitialSize)).mpr
    decide

/-- A 64 bit one is not read back, on either machine. -/
theorem int64_one_lost :
    ¬RoundTrip .little (new kInitialSize) [.int64 1] ∧
      ¬RoundTrip .big (new kInitialSize) [.int64 1] := by
  constructor
  · intro roundTrip
    have symmetric := roundTrip.symmetric (new_represents kInitialSize) (.int64 1) (by simp)
    revert symmetric
    decide
  · intro roundTrip
    have symmetric := roundTrip.symmetric (new_represents kInitialSize) (.int64 1) (by simp)
    revert symmetric
    decide

end Msmuduo.Buffer
