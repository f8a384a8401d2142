import Mathlib.Algebra.Group.Nat.Defs
import Mathlib.Algebra.Order.Ring.Nat
import Mathlib.Data.List.Basic
import Mathlib.Tactic.Ring

/-!
# Numbers as bytes

A number of a fixed size as its bytes, least significant first, and the number
bytes stand for. A machine stores a number in one of two byte orders; loading
what was stored gives the number back.
-/

namespace Msmuduo.Endian

set_option autoImplicit false

def littleEndian : Nat → Nat → List UInt8
  | 0, _ => []
  | size + 1, value => UInt8.ofNat value :: littleEndian size (value / 256)

def bigEndian (size value : Nat) : List UInt8 := (littleEndian size value).reverse

def ofLittleEndian : List UInt8 → Nat
  | [] => 0
  | byte :: rest => byte.toNat + 256 * ofLittleEndian rest

@[simp]
theorem length_littleEndian (size value : Nat) : (littleEndian size value).length = size := by
  induction size generalizing value with
  | zero => rfl
  | succ size ih => rw [littleEndian, List.length_cons, ih]

@[simp]
theorem length_bigEndian (size value : Nat) : (bigEndian size value).length = size := by
  rw [bigEndian, List.length_reverse, length_littleEndian]

theorem ofLittleEndian_lt (bytes : List UInt8) :
    ofLittleEndian bytes < 256 ^ bytes.length := by
  induction bytes with
  | nil => exact Nat.one_pos
  | cons byte rest ih =>
      have small : byte.toNat < 256 := byte.toNat_lt
      rw [ofLittleEndian, List.length_cons, Nat.pow_succ]
      omega

theorem ofLittleEndian_littleEndian (size value : Nat) (fits : value < 256 ^ size) :
    ofLittleEndian (littleEndian size value) = value := by
  induction size generalizing value with
  | zero =>
      rw [Nat.pow_zero, Nat.lt_one_iff] at fits
      rw [fits]
      rfl
  | succ size ih =>
      have smaller : value / 256 < 256 ^ size := by
        apply Nat.div_lt_of_lt_mul
        rw [Nat.pow_succ, Nat.mul_comm] at fits
        exact fits
      rw [littleEndian, ofLittleEndian, ih _ smaller]
      rw [UInt8.toNat_ofNat']
      exact Nat.mod_add_div value 256

theorem littleEndian_ofLittleEndian (bytes : List UInt8) :
    littleEndian bytes.length (ofLittleEndian bytes) = bytes := by
  induction bytes with
  | nil => rfl
  | cons byte rest ih =>
      have small : byte.toNat < 256 := byte.toNat_lt
      have first : UInt8.ofNat (byte.toNat + 256 * ofLittleEndian rest) = byte := by
        apply UInt8.toNat_inj.mp
        rw [UInt8.toNat_ofNat']
        omega
      have later : (byte.toNat + 256 * ofLittleEndian rest) / 256 = ofLittleEndian rest := by
        omega
      rw [List.length_cons, ofLittleEndian, littleEndian, first, later, ih]

/-- The bytes of a number that is put together from two smaller ones. -/
theorem littleEndian_add (first second low high : Nat) (fits : low < 256 ^ first) :
    littleEndian (first + second) (low + 256 ^ first * high) =
      littleEndian first low ++ littleEndian second high := by
  induction first generalizing low with
  | zero =>
      rw [Nat.pow_zero, Nat.lt_one_iff] at fits
      simp [fits, littleEndian]
  | succ first ih =>
      have smaller : low / 256 < 256 ^ first := by
        apply Nat.div_lt_of_lt_mul
        rw [Nat.pow_succ, Nat.mul_comm] at fits
        exact fits
      have split : low + 256 ^ (first + 1) * high = low + 256 * (256 ^ first * high) := by
        rw [Nat.pow_succ]
        ring
      have byte : UInt8.ofNat (low + 256 * (256 ^ first * high)) = UInt8.ofNat low := by
        apply UInt8.toNat_inj.mp
        rw [UInt8.toNat_ofNat', UInt8.toNat_ofNat']
        omega
      have rest : (low + 256 * (256 ^ first * high)) / 256 = low / 256 + 256 ^ first * high := by
        omega
      rw [Nat.succ_add, littleEndian, littleEndian, split, byte, rest, ih _ smaller]
      rfl

/-! ### The order of bytes in memory -/

inductive ByteOrder where
  | little
  | big
  deriving DecidableEq, Repr

namespace ByteOrder

def store (order : ByteOrder) (size value : Nat) : List UInt8 :=
  match order with
  | .little => littleEndian size value
  | .big => bigEndian size value

def load (order : ByteOrder) (bytes : List UInt8) : Nat :=
  match order with
  | .little => ofLittleEndian bytes
  | .big => ofLittleEndian bytes.reverse

theorem load_lt (order : ByteOrder) (bytes : List UInt8) :
    order.load bytes < 256 ^ bytes.length := by
  cases order with
  | little => exact ofLittleEndian_lt bytes
  | big =>
      have bound := ofLittleEndian_lt bytes.reverse
      rw [List.length_reverse] at bound
      exact bound

theorem load_store (order : ByteOrder) (size value : Nat) (fits : value < 256 ^ size) :
    order.load (order.store size value) = value := by
  cases order with
  | little => exact ofLittleEndian_littleEndian size value fits
  | big =>
      rw [load, store, bigEndian, List.reverse_reverse]
      exact ofLittleEndian_littleEndian size value fits

theorem store_load (order : ByteOrder) (bytes : List UInt8) :
    order.store bytes.length (order.load bytes) = bytes := by
  cases order with
  | little => exact littleEndian_ofLittleEndian bytes
  | big =>
      have reversed := littleEndian_ofLittleEndian bytes.reverse
      rw [List.length_reverse] at reversed
      rw [store, load, bigEndian, reversed, List.reverse_reverse]

end ByteOrder

end Msmuduo.Endian
