import Mathlib.Data.Rat.Floor
import Mathlib.Tactic.FieldSimp
import Mathlib.Tactic.Linarith
import Mathlib.Tactic.Ring

/-! Rounding rational numbers to integers, halves away from zero, and cutting their fractions. -/

namespace Rounding

/-- Apply a rounding of nonnegative numbers to both signs. -/
def odd (f : ℚ → Int) (q : ℚ) : Int := if q < 0 then -f (-q) else f q

def nearest (q : ℚ) : Int := odd (fun q => ⌊q + 1 / 2⌋) q

def cut (q : ℚ) : Int := odd (fun q => ⌊q⌋) q

theorem odd_intCast {f : ℚ → Int} (hf : ∀ n : Int, f n = n) (n : Int) : odd f n = n := by
  have hneg := hf (-n)
  push_cast at hneg
  rw [odd, hf, hneg]
  split_ifs
  · exact neg_neg n
  · rfl

@[simp] theorem nearest_intCast (n : Int) : nearest n = n := by
  apply odd_intCast
  intro n
  rw [Int.floor_intCast_add]
  norm_num

@[simp] theorem cut_intCast (n : Int) : cut n = n := odd_intCast Int.floor_intCast n

theorem cut_div {a : Int} {b : Nat} (ha : 0 ≤ a) : cut ((a : ℚ) / b) = a / b := by
  have hnonneg : ¬ ((a : ℚ) / b < 0) := by
    rw [not_lt]
    positivity
  rw [cut, odd, if_neg hnonneg]
  exact Rat.floor_intCast_div_natCast a b

theorem nearest_div {a : Int} {b : Nat} (ha : 0 ≤ a) (hb : 0 < b) :
    nearest ((a : ℚ) / b) = (2 * a + b) / (2 * b : Nat) := by
  have hnonneg : ¬ ((a : ℚ) / b < 0) := by
    rw [not_lt]
    positivity
  have hsum : (a : ℚ) / b + 1 / 2 = ((2 * a + b : Int) : ℚ) / ((2 * b : Nat) : ℚ) := by
    push_cast
    field_simp
  rw [nearest, odd, if_neg hnonneg, hsum]
  exact Rat.floor_intCast_div_natCast _ _

theorem nearest_nonneg {q : ℚ} (hq : 0 ≤ q) : 0 ≤ nearest q := by
  rw [nearest, odd, if_neg (not_lt.mpr hq)]
  exact Int.floor_nonneg.mpr (by linarith)

/-- Neither moves a nonnegative number by a whole. -/
theorem cut_le {q : ℚ} (hq : 0 ≤ q) : (cut q : ℚ) ≤ q := by
  rw [cut, odd, if_neg (not_lt.mpr hq)]
  exact Int.floor_le q

theorem nearest_le {q : ℚ} (hq : 0 ≤ q) : (nearest q : ℚ) ≤ q + 1 / 2 := by
  rw [nearest, odd, if_neg (not_lt.mpr hq)]
  exact Int.floor_le (q + 1 / 2)

end Rounding
