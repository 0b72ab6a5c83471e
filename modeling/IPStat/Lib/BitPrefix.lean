import Mathlib.Data.Nat.Bits
import Mathlib.Data.Nat.Bitwise
import Mathlib.Tactic.SplitIfs

/-! Bytes in a row, read as bits from the highest bit of the first byte on. -/

namespace BitPrefix

def bit (bytes : Nat → UInt8) (i : Nat) : Bool := (bytes (i / 8)).toNat.testBit (7 - i % 8)

/-- The first `n` bits are the same. -/
def Same (n : Nat) (a b : Nat → UInt8) : Prop := ∀ i < n, bit a i = bit b i

/-- The highest `r` bits of a byte, for `r` from 1 to 7. -/
def top (r : Nat) : UInt8 := 255 <<< UInt8.ofNat (8 - r)

section
variable {a b : Nat → UInt8} {x y : UInt8} {n r : Nat}

theorem testBit_top (hr : 0 < r) (hr' : r < 8) {k : Nat} (hk : k < 8) :
    (top r).toNat.testBit k = decide (8 - r ≤ k) := by
  have hall : ∀ r < 8, 0 < r → ∀ k < 8, (top r).toNat.testBit k = decide (8 - r ≤ k) := by decide
  exact hall r hr' hr k hk

theorem testBit_of_le (x : UInt8) {k : Nat} (hk : 8 ≤ k) : x.toNat.testBit k = false := by
  apply Nat.testBit_lt_two_pow
  exact Nat.lt_of_lt_of_le x.toNat_lt (Nat.pow_le_pow_right (by decide) hk)

theorem byte_ext (h : ∀ k < 8, x.toNat.testBit k = y.toNat.testBit k) : x = y := by
  rw [← UInt8.toNat_inj]
  apply Nat.eq_of_testBit_eq
  intro k
  by_cases hk : k < 8
  · exact h k hk
  · rw [testBit_of_le x (by omega), testBit_of_le y (by omega)]

theorem byte_eq_iff : x = y ↔ ∀ k < 8, x.toNat.testBit (7 - k) = y.toNat.testBit (7 - k) := by
  constructor
  · intro h k _
    rw [h]
  · intro h
    apply byte_ext
    intro k hk
    have hbit := h (7 - k) (by omega)
    rwa [show 7 - (7 - k) = k by omega] at hbit

/-- What a mask keeps of two bytes is equal when their highest bits are. -/
theorem masked_eq_iff (hr : 0 < r) (hr' : r < 8) : x &&& top r = y &&& top r ↔
    ∀ k < r, x.toNat.testBit (7 - k) = y.toNat.testBit (7 - k) := by
  have hbit (z : UInt8) {k : Nat} (hk : k < 8) :
      (z &&& top r).toNat.testBit k = (z.toNat.testBit k && decide (8 - r ≤ k)) := by
    rw [UInt8.toNat_and, Nat.testBit_and, testBit_top hr hr' hk]
  constructor
  · intro h k hk
    have hsame : (x &&& top r).toNat.testBit (7 - k) = (y &&& top r).toNat.testBit (7 - k) := by
      rw [h]
    rw [hbit x (by omega), hbit y (by omega)] at hsame
    simpa [show 8 - r ≤ 7 - k by omega] using hsame
  · intro h
    apply byte_ext
    intro k hk
    rw [hbit x hk, hbit y hk]
    by_cases hkept : 8 - r ≤ k
    · have hsame := h (7 - k) (by omega)
      rw [show 7 - (7 - k) = k by omega] at hsame
      rw [hsame]
    · simp [hkept]

/-- Whole bytes and the boundary byte under its mask decide whether the first bits are the same. -/
theorem same_iff (n : Nat) (a b : Nat → UInt8) : Same n a b ↔
    (∀ j < n / 8, a j = b j) ∧
      (n % 8 = 0 ∨ a (n / 8) &&& top (n % 8) = b (n / 8) &&& top (n % 8)) := by
  have hplace (bytes : Nat → UInt8) (j k : Nat) (hk : k < 8) :
      bit bytes (8 * j + k) = (bytes j).toNat.testBit (7 - k) := by
    rw [bit, show (8 * j + k) / 8 = j by omega, show (8 * j + k) % 8 = k by omega]
  constructor
  · intro h
    constructor
    · intro j hj
      rw [byte_eq_iff]
      intro k hk
      rw [← hplace a j k hk, ← hplace b j k hk]
      exact h _ (by omega)
    · by_cases hzero : n % 8 = 0
      · exact .inl hzero
      · refine .inr ((masked_eq_iff (by omega) (by omega)).mpr ?_)
        intro k hk
        rw [← hplace a (n / 8) k (by omega), ← hplace b (n / 8) k (by omega)]
        exact h _ (by omega)
  · intro h i hi
    obtain ⟨hwhole, hlast⟩ := h
    have hi8 : 8 * (i / 8) + i % 8 = i := by omega
    rw [← hi8, hplace a _ _ (by omega), hplace b _ _ (by omega)]
    by_cases hin : i / 8 < n / 8
    · rw [hwhole _ hin]
    · have hbyte : i / 8 = n / 8 := by omega
      obtain hzero | hmasked := hlast
      · omega
      · rw [hbyte]
        exact (masked_eq_iff (by omega) (by omega)).mp hmasked (i % 8) (by omega)

end

end BitPrefix
