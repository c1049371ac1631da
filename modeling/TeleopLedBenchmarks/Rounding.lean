import Mathlib.Data.Int.Log
import Mathlib.Data.Rat.Floor
import Mathlib.Tactic.Linarith
import Mathlib.Tactic.NormNum
import Mathlib.Algebra.Order.Archimedean.Basic

namespace TeleopLedBenchmarks
set_option autoImplicit true

/-- The integer next to `x`, the even one of two that are as near. -/
def roundEven (x : ℚ) : ℤ :=
  if x - ⌊x⌋ < 1 / 2 then ⌊x⌋
  else if 1 / 2 < x - ⌊x⌋ then ⌊x⌋ + 1
  else if 2 ∣ ⌊x⌋ then ⌊x⌋ else ⌊x⌋ + 1

/-- The distance of two neighbours with `p` binary digits at `x`. -/
def ulp (p : Nat) (x : ℚ) : ℚ := 2 ^ (Int.log 2 |x| + 1 - p)

/-- `x` with `p` binary digits and an exponent without bounds, rounded to nearest, ties to
even. -/
def roundTo (p : Nat) (x : ℚ) : ℚ := roundEven (x / ulp p x) * ulp p x

theorem roundEven_intCast (n : ℤ) : roundEven n = n := by
  rw [roundEven, Int.floor_intCast, sub_self, if_pos (by norm_num)]

theorem abs_roundEven_sub_le (x : ℚ) : |(roundEven x : ℚ) - x| ≤ 1 / 2 := by
  have hl := Int.floor_le x
  have hr := Int.lt_floor_add_one x
  rw [abs_le, roundEven]
  split
  · constructor <;> linarith
  · split
    · push_cast
      constructor <;> linarith
    · split
      · constructor <;> linarith
      · push_cast
        constructor <;> linarith

theorem ulp_pos (p : Nat) (x : ℚ) : 0 < ulp p x := zpow_pos two_pos _

theorem ulp_le (p : Nat) (h : x ≠ 0) : ulp p x ≤ 2 * (|x| / 2 ^ p) := by
  have hlog : (2 : ℚ) ^ Int.log 2 |x| ≤ |x| := Int.zpow_log_le_self one_lt_two (abs_pos.2 h)
  rw [ulp, zpow_sub₀ two_ne_zero, zpow_add_one₀ two_ne_zero, zpow_natCast, mul_comm,
    mul_div_assoc]
  gcongr

/-- Rounding to `p` digits is exact up to the factor `1 ± 2⁻ᵖ`. -/
theorem abs_roundTo_sub_le (p : Nat) (x : ℚ) : |roundTo p x - x| ≤ |x| / 2 ^ p := by
  obtain rfl | h := eq_or_ne x 0
  · rw [roundTo, zero_div, ← Int.cast_zero, roundEven_intCast]
    norm_num
  · have hu := ulp_pos p x
    calc |roundTo p x - x|
        = |(roundEven (x / ulp p x) - x / ulp p x) * ulp p x| := by
          rw [sub_mul, div_mul_cancel₀ _ hu.ne', roundTo]
      _ = |(roundEven (x / ulp p x) : ℚ) - x / ulp p x| * ulp p x := by
          rw [abs_mul, abs_of_pos hu]
      _ ≤ 1 / 2 * ulp p x := by
          gcongr
          exact abs_roundEven_sub_le _
      _ ≤ |x| / 2 ^ p := by linarith [ulp_le p h]

theorem roundTo_nonneg (p : Nat) (h : 0 ≤ x) : 0 ≤ roundTo p x := by
  have herr := (abs_le.1 (abs_roundTo_sub_le p x)).1
  have hle : x / 2 ^ p ≤ x := div_le_self h (one_le_pow₀ one_le_two)
  rw [abs_of_nonneg h] at herr
  linarith

theorem roundTo_le (p : Nat) (h : 0 ≤ x) : roundTo p x ≤ x * (1 + 1 / 2 ^ p) := by
  have herr := (abs_le.1 (abs_roundTo_sub_le p x)).2
  rw [abs_of_nonneg h] at herr
  rw [mul_add, mul_one, mul_one_div]
  linarith

theorem le_roundTo (p : Nat) (h : 0 ≤ x) : x * (1 - 1 / 2 ^ p) ≤ roundTo p x := by
  have herr := (abs_le.1 (abs_roundTo_sub_le p x)).1
  rw [abs_of_nonneg h] at herr
  rw [mul_sub, mul_one, mul_one_div]
  linarith

end TeleopLedBenchmarks
