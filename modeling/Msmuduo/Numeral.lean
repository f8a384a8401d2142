import Mathlib.Algebra.Order.Ring.Int
import Mathlib.Data.List.Basic

/-!
# Numerals from the least digit on

The usual loop that prints a number takes its last digit off with a remainder
and goes on with the quotient, so the digits come out in reverse. Remainder and
quotient are truncated, so the remainders of a negative number are not positive;
the digit is looked up with the signed remainder.
-/

namespace Msmuduo.Numeral

set_option autoImplicit false

universe u

variable {Cell : Type u}

theorem natAbs_tdiv_lt {base : Nat} (large : 1 < base) {value : Int}
    (more : value.tdiv base ≠ 0) : (value.tdiv base).natAbs < value.natAbs := by
  rw [Int.natAbs_tdiv, Int.natAbs_natCast]
  apply Nat.div_lt_self _ large
  apply Int.natAbs_pos.mpr
  rintro rfl
  exact more (Int.zero_tdiv _)

/-- The digits of a number in the order the loop produces them. -/
def leastFirst (digit : Int → Cell) (base : Nat) (large : 1 < base) (value : Int) : List Cell :=
  if value.tdiv base ≠ 0 then
    digit (value.tmod base) :: leastFirst digit base large (value.tdiv base)
  else [digit (value.tmod base)]
termination_by value.natAbs
decreasing_by exact natAbs_tdiv_lt large ‹_›

theorem leastFirst_more {digit : Int → Cell} {base : Nat} (large : 1 < base) {value : Int}
    (more : value.tdiv base ≠ 0) :
    leastFirst digit base large value =
      digit (value.tmod base) :: leastFirst digit base large (value.tdiv base) := by
  rw [leastFirst, if_pos more]

theorem leastFirst_last {digit : Int → Cell} {base : Nat} (large : 1 < base) {value : Int}
    (done : value.tdiv base = 0) :
    leastFirst digit base large value = [digit (value.tmod base)] := by
  rw [leastFirst, if_neg (not_not.mpr done)]

theorem toDigits_tdiv {base : Nat} (large : 1 < base) {value : Int}
    (more : value.tdiv base ≠ 0) :
    Nat.toDigits base value.natAbs =
      Nat.toDigits base (value.tdiv base).natAbs ++ [(value.tmod base).natAbs.digitChar] := by
  have quotient : (value.tdiv base).natAbs = value.natAbs / base := by
    rw [Int.natAbs_tdiv, Int.natAbs_natCast]
    rfl
  have notSmall : ¬value.natAbs < base := by
    intro small
    rw [Nat.div_eq_of_lt small] at quotient
    exact more (Int.natAbs_eq_zero.mp quotient)
  rw [Nat.toDigits_eq_if large, if_neg notSmall, quotient, Int.natAbs_tmod, Int.natAbs_natCast]

theorem toDigits_tmod {base : Nat} {value : Int} (large : 1 < base)
    (done : value.tdiv base = 0) :
    Nat.toDigits base value.natAbs = [(value.tmod base).natAbs.digitChar] := by
  have quotient : value.natAbs / base = 0 := by
    have absolute := congrArg Int.natAbs done
    rwa [Int.natAbs_tdiv, Int.natAbs_natCast] at absolute
  have small := (Nat.div_eq_zero_iff_lt (Nat.zero_lt_of_lt large)).mp quotient
  rw [Nat.toDigits_of_lt_base small, Int.natAbs_tmod, Int.natAbs_natCast, Nat.mod_eq_of_lt small]

/-- Reversed, they are the digits of the absolute value, whatever the sign. -/
theorem reverse_leastFirst {digit : Int → Cell} {base : Nat} (large : 1 < base)
    (cell : Char → Cell) (value : Int)
    (table : ∀ remainder : Int, remainder.natAbs < base → (0 ≤ value → 0 ≤ remainder) →
      digit remainder = cell remainder.natAbs.digitChar) :
    (leastFirst digit base large value).reverse =
      (Nat.toDigits base value.natAbs).map cell := by
  have remainder : digit (value.tmod base) = cell (value.tmod base).natAbs.digitChar := by
    apply table
    · rw [Int.natAbs_tmod, Int.natAbs_natCast]
      exact Nat.mod_lt _ (Nat.zero_lt_of_lt large)
    · exact Int.tmod_nonneg base
  by_cases done : value.tdiv base = 0
  · rw [leastFirst_last large done, toDigits_tmod large done, remainder]
    rfl
  · have rest := reverse_leastFirst large cell (value.tdiv base) fun other bounded positive =>
      table other bounded fun notNegative =>
        positive (Int.tdiv_nonneg notNegative (Int.natCast_nonneg base))
    rw [leastFirst_more large done, toDigits_tdiv large done, List.reverse_cons, rest, remainder,
      List.map_append]
    rfl
termination_by value.natAbs
decreasing_by exact natAbs_tdiv_lt large done

end Msmuduo.Numeral
