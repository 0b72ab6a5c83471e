import Mathlib.Analysis.SpecialFunctions.Log.Base
import Mathlib.NumberTheory.Real.GoldenRatio

/-! Growth by the golden ratio, and the logarithm that it bounds. -/

namespace Golden

open Real

/-- Two heights that differ by one at most. -/
theorem pow_succ_le {a b : Nat} (hab : a ≤ b + 1) (hba : b ≤ a + 1) :
    goldenRatio ^ (max a b + 1) ≤ goldenRatio ^ a + goldenRatio ^ b := by
  have hsucc (n : Nat) : goldenRatio ^ (n + 2) = goldenRatio ^ (n + 1) + goldenRatio ^ n := by
    rw [pow_add, goldenRatio_sq]
    ring
  obtain hlt | rfl | hgt := Nat.lt_trichotomy a b
  · obtain rfl : b = a + 1 := by omega
    rw [Nat.max_eq_right (by omega), hsucc]
    exact le_of_eq (add_comm _ _)
  · rw [Nat.max_self, pow_succ]
    have hpos : 0 < goldenRatio ^ a := pow_pos goldenRatio_pos a
    have htwo := goldenRatio_lt_two
    nlinarith
  · obtain rfl : a = b + 1 := by omega
    rw [Nat.max_eq_left (by omega), hsucc]

theorem ratio_le : (809 / 500 : ℝ) ≤ goldenRatio := by
  have hsqrt : (2.236 : ℝ) ≤ √5 := by
    apply Real.le_sqrt_of_sq_le
    norm_num
  rw [goldenRatio]
  linarith

/-- The powers are taken in two steps, 2881 being 67 times 43. -/
theorem two_pow_le : (2 : ℝ) ^ 2000 ≤ goldenRatio ^ 2881 := by
  have hstep : (100360001124566 : ℝ) ≤ goldenRatio ^ 67 := by
    calc (100360001124566 : ℝ) ≤ (809 / 500) ^ 67 := by norm_num
      _ ≤ goldenRatio ^ 67 := pow_le_pow_left₀ (by norm_num) ratio_le 67
  calc (2 : ℝ) ^ 2000 = (2 ^ 125) ^ 16 := by rw [← pow_mul]
    _ ≤ 100360001124566 ^ 43 := by norm_num
    _ ≤ (goldenRatio ^ 67) ^ 43 := pow_le_pow_left₀ (by norm_num) hstep 43
    _ = goldenRatio ^ 2881 := by rw [← pow_mul]

theorem logb_ratio : 2000 / 2881 ≤ logb 2 goldenRatio := by
  have hlog : logb 2 (2 ^ 2000) ≤ logb 2 (goldenRatio ^ 2881) :=
    (logb_le_logb (by norm_num) (by positivity) (pow_pos goldenRatio_pos 2881)).mpr two_pow_le
  rw [logb_pow, logb_pow, logb_self_eq_one (by norm_num)] at hlog
  push_cast at hlog
  linarith

/-- What grows by the golden ratio with a height keeps the height below a logarithm. -/
theorem le_logb {h n : Nat} (hn : goldenRatio ^ h ≤ n + 1) :
    (h : ℝ) ≤ 1.4405 * logb 2 (n + 2) := by
  have hpos : (0 : ℝ) < goldenRatio ^ h := pow_pos goldenRatio_pos h
  have hlog : logb 2 (goldenRatio ^ h) ≤ logb 2 (n + 2) :=
    (logb_le_logb (by norm_num) hpos (by positivity)).mpr (by linarith)
  rw [logb_pow] at hlog
  have hheight : (h : ℝ) * (2000 / 2881) ≤ h * logb 2 goldenRatio :=
    mul_le_mul_of_nonneg_left logb_ratio (Nat.cast_nonneg h)
  linarith

theorem one_le (n : Nat) : (1 : ℝ) ≤ 1.4405 * logb 2 (n + 2) := by
  have hn : (0 : ℝ) ≤ n := Nat.cast_nonneg n
  have htwo : logb 2 2 ≤ logb 2 (n + 2) :=
    (logb_le_logb (by norm_num) (by norm_num) (by positivity)).mpr (by linarith)
  rw [logb_self_eq_one (by norm_num)] at htwo
  linarith

end Golden
