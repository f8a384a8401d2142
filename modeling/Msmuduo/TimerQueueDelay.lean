import Msmuduo.TimerQueue

/-!
# The delay of the alarm

`howMuchTimeFromNow` is the delay of the Linux alarm as a `timespec`,
`resetTimerWin` hands a number of milliseconds to `CreateTimerQueueTimer`. Both
start from the same difference of two `int64_t`. The Windows path casts it to a
`DWORD` before it divides, so its delay is right below 2^32 microseconds and
wraps from there on.
-/

namespace Msmuduo.Timers

set_option autoImplicit false

/-- `Timestamp::kMicroSecondsPerSecond`, in the `int64_t` it is converted to. -/
def kMicroSecondsPerSecond : Int64 := 1000 * 1000

/-- `microseconds` in `howMuchTimeFromNow` and `resetTimerWin`. -/
def microsecondsFromNow (expiration now : Int64) : Int64 :=
  let microseconds := expiration - now
  if microseconds < 100 then 100 else microseconds

/-- `time_t` has 64 bits and `long` has 32. -/
structure Timespec where
  tv_sec : Int64
  tv_nsec : Int32
  deriving DecidableEq, Repr

def howMuchTimeFromNow (when_ now : Int64) : Timespec :=
  let microseconds := microsecondsFromNow when_ now
  { tv_sec := microseconds / kMicroSecondsPerSecond
    tv_nsec := (microseconds % kMicroSecondsPerSecond * 1000).toInt32 }

/-- `(DWORD)` of an `int64_t`. -/
def dword (value : Int64) : UInt32 := value.toUInt64.toUInt32

/-- `dueTime` in `resetTimerWin`, the argument of `CreateTimerQueueTimer`. -/
def dueTime (expiration now : Int64) : UInt32 :=
  dword (microsecondsFromNow expiration now) / 1000

/-- The delay in microseconds that a `timespec` stands for. -/
def Timespec.delay (ts : Timespec) : Int := ts.tv_sec.toInt * 10 ^ 6 + ts.tv_nsec.toInt / 1000

/-- The difference of the two times is an `int64_t`. -/
def InRange (expiration now : Int64) : Prop :=
  -2 ^ 63 ≤ expiration.toInt - now.toInt ∧ expiration.toInt - now.toInt < 2 ^ 63

instance (expiration now : Int64) : Decidable (InRange expiration now) :=
  inferInstanceAs (Decidable (_ ∧ _))

theorem toInt_microsecondsFromNow {expiration now : Int64} (inRange : InRange expiration now) :
    (microsecondsFromNow expiration now).toInt = max (expiration.toInt - now.toInt) 100 := by
  have difference : (expiration - now).toInt = expiration.toInt - now.toInt := by
    rw [Int64.toInt_sub]
    exact Int.bmod_eq_of_le (by have := inRange.1; omega) (by have := inRange.2; omega)
  have hundred : (100 : Int64).toInt = 100 := by decide
  unfold microsecondsFromNow
  dsimp only
  split
  · next soon =>
    rw [Int64.lt_iff_toInt_lt, difference, hundred] at soon
    rw [hundred, max_eq_right soon.le]
  · next later =>
    rw [Int64.lt_iff_toInt_lt, difference, hundred] at later
    rw [difference, max_eq_left (not_lt.mp later)]

/-- Nothing is lost in the `timespec`. -/
theorem delay_howMuchTimeFromNow {when_ now : Int64} (inRange : InRange when_ now) :
    (howMuchTimeFromNow when_ now).delay = max (when_.toInt - now.toInt) 100 := by
  have million : kMicroSecondsPerSecond.toInt = 10 ^ 6 := by decide
  have thousand : (1000 : Int64).toInt = 1000 := by decide
  have notMinusOne : kMicroSecondsPerSecond ≠ -1 := by decide
  have value := toInt_microsecondsFromNow inRange
  have positive : 0 ≤ (microsecondsFromNow when_ now).toInt := by
    rw [value]
    exact le_trans (by decide) (le_max_right _ _)
  rw [← value]
  have seconds : (howMuchTimeFromNow when_ now).tv_sec.toInt =
      (microsecondsFromNow when_ now).toInt / 10 ^ 6 := by
    change (microsecondsFromNow when_ now / kMicroSecondsPerSecond).toInt = _
    rw [Int64.toInt_div_of_ne_right _ _ notMinusOne, million, Int.tdiv_eq_ediv_of_nonneg positive]
  have nanoseconds : (howMuchTimeFromNow when_ now).tv_nsec.toInt =
      (microsecondsFromNow when_ now).toInt % 10 ^ 6 * 1000 := by
    change (microsecondsFromNow when_ now % kMicroSecondsPerSecond * 1000).toInt32.toInt = _
    rw [Int64.toInt_toInt32, Int64.toInt_mul, Int64.toInt_mod, million, thousand,
      Int.tmod_eq_emod_of_nonneg positive]
    -- The product stays below 10^9, which both types hold.
    have lower := Int.emod_nonneg (microsecondsFromNow when_ now).toInt
      (show (10 ^ 6 : Int) ≠ 0 by decide)
    have upper := Int.emod_lt_of_pos (microsecondsFromNow when_ now).toInt
      (show (0 : Int) < 10 ^ 6 by decide)
    have wide : ((microsecondsFromNow when_ now).toInt % 10 ^ 6 * 1000).bmod (2 ^ 64) =
        (microsecondsFromNow when_ now).toInt % 10 ^ 6 * 1000 :=
      Int.bmod_eq_of_le (by omega) (by omega)
    rw [wide]
    exact Int.bmod_eq_of_le (by omega) (by omega)
  rw [Timespec.delay, seconds, nanoseconds]
  omega

theorem toNat_dueTime {expiration now : Int64} (inRange : InRange expiration now) :
    (dueTime expiration now).toNat =
      (max (expiration.toInt - now.toInt) 100).toNat % 2 ^ 32 / 1000 := by
  have value := toInt_microsecondsFromNow inRange
  have notNegative : 0 ≤ microsecondsFromNow expiration now := by
    rw [Int64.le_iff_toInt_le, value]
    exact le_trans (by decide) (le_max_right _ _)
  have cast : (microsecondsFromNow expiration now).toUInt64.toNat =
      (max (expiration.toInt - now.toInt) 100).toNat := by
    rw [Int64.toNat_toUInt64_of_le notNegative, Int64.toNatClampNeg, value]
  rw [dueTime, dword, UInt32.toNat_div, UInt64.toNat_toUInt32, cast]
  rfl

/-- The delay of the alarm in the model of the queue is `dueTime`. -/
theorem resetTimerWin_dueTime (q : TimerQueue) {expiration now : Int64}
    (inRange : InRange expiration now) :
    (q.resetTimerWin expiration.toInt now.toInt).alarm =
      some (now.toInt + 1000 * ((dueTime expiration now).toNat : Int)) := by
  rw [toNat_dueTime inRange]
  rfl

/-- Below 2^32 a cast before the division changes nothing, and from there on it
loses at least 2^32 / 1000. -/
theorem cast_div_eq_iff (microseconds : Nat) :
    microseconds % 2 ^ 32 / 1000 = microseconds / 1000 ↔ microseconds < 2 ^ 32 := by
  constructor
  · intro same
    omega
  · intro near
    rw [Nat.mod_eq_of_lt near]

/-- The Windows delay is the Linux delay in whole milliseconds exactly for the
timers that expire within 2^32 microseconds. -/
theorem dueTime_eq_delay_iff (expiration now : Int64) (inRange : InRange expiration now) :
    ((dueTime expiration now).toNat : Int) = (howMuchTimeFromNow expiration now).delay / 1000 ↔
      expiration.toInt - now.toInt < 2 ^ 32 := by
  rw [toNat_dueTime inRange, delay_howMuchTimeFromNow inRange]
  have natural : max (expiration.toInt - now.toInt) 100 =
      ((max (expiration.toInt - now.toInt) 100).toNat : Int) :=
    (Int.toNat_of_nonneg (le_trans (by decide) (le_max_right _ _))).symm
  calc (((max (expiration.toInt - now.toInt) 100).toNat % 2 ^ 32 / 1000 : Nat) : Int) =
        max (expiration.toInt - now.toInt) 100 / 1000
      ↔ (max (expiration.toInt - now.toInt) 100).toNat % 2 ^ 32 / 1000 =
          (max (expiration.toInt - now.toInt) 100).toNat / 1000 := by omega
    _ ↔ (max (expiration.toInt - now.toInt) 100).toNat < 2 ^ 32 := cast_div_eq_iff _
    _ ↔ expiration.toInt - now.toInt < 2 ^ 32 := by omega

theorem one_hour_agrees :
    InRange 1470472812288000 1470469212288000 ∧
      (((dueTime 1470472812288000 1470469212288000).toNat : Int) =
          (howMuchTimeFromNow 1470472812288000 1470469212288000).delay / 1000 ↔
        (1470472812288000 : Int64).toInt - (1470469212288000 : Int64).toInt < 2 ^ 32) :=
  ⟨by decide, dueTime_eq_delay_iff _ _ (by decide)⟩

/-- A timer two hours ahead is due after about 48 minutes. -/
theorem two_hours_wrap :
    InRange 1470476412288000 1470469212288000 ∧
      (1470476412288000 : Int64).toInt - (1470469212288000 : Int64).toInt < 2 ^ 32 * 1000 ∧
      (howMuchTimeFromNow 1470476412288000 1470469212288000).delay / 1000 = 7200000 ∧
      (dueTime 1470476412288000 1470469212288000).toNat = 2905032 := by
  decide

end Msmuduo.Timers
