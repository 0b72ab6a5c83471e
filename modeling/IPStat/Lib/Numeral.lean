import Mathlib.Data.List.TakeWhile
import Mathlib.Data.Nat.Digits.Lemmas
import Mathlib.Tactic.NormNum

namespace Numeral

/-- The byte of a decimal digit. -/
def digit (d : Fin 10) : UInt8 := UInt8.ofNat (48 + d.val)

def isDigit (b : UInt8) : Bool := 48 ≤ b ∧ b ≤ 57

/-- A numeral as text. -/
def text (ds : List (Fin 10)) : List UInt8 := ds.map digit

def value (ds : List (Fin 10)) : Nat := ds.foldl (fun n d => 10 * n + d.val) 0

/-- The numeral of a number. -/
def ofNat (n : Nat) : List (Fin 10) :=
  if n = 0 then [0] else (Nat.digits 10 n).reverse.map (Fin.ofNat 10)

def zeros (k : Nat) : List (Fin 10) := List.replicate k 0

/-- The digits a text begins with, read as a number. -/
def digits (s : List UInt8) : Nat :=
  (s.takeWhile isDigit).foldl (fun n b => 10 * n + (b.toNat - 48)) 0

/-- Blanks, a sign and digits at the head of a text, read as a number. -/
def leading (s : List UInt8) : Int :=
  let s := s.dropWhile fun b => b = 32 ∨ 9 ≤ b ∧ b ≤ 13
  if s.head? = some 45 then -(digits s.tail : Int)
  else if s.head? = some 43 then digits s.tail
  else digits s

theorem digit_toNat (d : Fin 10) : (digit d).toNat = 48 + d.val := by
  have hd : 48 + d.val < 256 := by omega
  simpa [digit] using Nat.mod_eq_of_lt hd

theorem isDigit_digit (d : Fin 10) : isDigit (digit d) = true := by
  have hd := digit_toNat d
  simp only [isDigit, decide_eq_true_eq, UInt8.le_iff_toNat_le, hd]
  constructor
  · simp
  · change 48 + d.val ≤ 57
    omega

/-- No byte outside the digits stands in a numeral. -/
theorem ne_of_mem_text {ds : List (Fin 10)} {b sep : UInt8} (hsep : isDigit sep = false)
    (hb : b ∈ text ds) : b ≠ sep := by
  obtain ⟨d, -, rfl⟩ := List.mem_map.mp hb
  rintro rfl
  rw [isDigit_digit] at hsep
  cases hsep

theorem digits_text (ds : List (Fin 10)) (rest : List UInt8)
    (hrest : ∀ b ∈ rest.head?, isDigit b = false) : digits (text ds ++ rest) = value ds := by
  have hstop : rest.takeWhile isDigit = [] := by
    cases rest with
    | nil => rfl
    | cons b rest => simp [hrest b (by simp)]
  have hall : ∀ b ∈ text ds, isDigit b = true := by
    intro b hb
    obtain ⟨d, -, rfl⟩ := List.mem_map.mp hb
    exact isDigit_digit d
  have htake : (text ds ++ rest).takeWhile isDigit = text ds := by
    rw [List.takeWhile_append_of_pos hall, hstop, List.append_nil]
  rw [digits, htake, text, List.foldl_map, value]
  simp [digit_toNat]

/-- A text that is a numeral reads as its value. -/
theorem leading_text (ds : List (Fin 10)) : leading (text ds) = value ds := by
  have hdigit : ∀ b ∈ (text ds).head?, isDigit b = true := by
    intro b hb
    obtain ⟨d, -, rfl⟩ := List.mem_map.mp (List.mem_of_mem_head? hb)
    exact isDigit_digit d
  have hblank : (text ds).dropWhile (fun b => b = 32 ∨ 9 ≤ b ∧ b ≤ 13) = text ds := by
    cases hds : text ds with
    | nil => rfl
    | cons b s =>
      have hb := hdigit b (by simp [hds])
      rw [List.dropWhile_cons_of_neg]
      simp only [isDigit, decide_eq_true_eq, UInt8.le_iff_toNat_le, UInt8.reduceToNat] at hb
      simp only [decide_eq_true_eq, ← UInt8.toNat_inj, UInt8.le_iff_toNat_le, UInt8.reduceToNat]
      omega
  have hsign (b : UInt8) (hb : isDigit b = false) : (text ds).head? ≠ some b := by
    intro hhead
    rw [hdigit b hhead] at hb
    cases hb
  have hread := digits_text ds [] (by simp)
  rw [List.append_nil] at hread
  simp only [leading, hblank]
  rw [if_neg (hsign 45 (by decide)), if_neg (hsign 43 (by decide)), hread]

/-- A minus sign before a numeral. -/
theorem leading_neg (ds : List (Fin 10)) : leading (45 :: text ds) = -(value ds : Int) := by
  have hread := digits_text ds [] (by simp)
  rw [List.append_nil] at hread
  simp only [leading]
  rw [List.dropWhile_cons_of_neg (by decide), List.head?_cons, if_pos rfl, List.tail_cons, hread]

theorem value_ofNat (n : Nat) : value (ofNat n) = n := by
  have hdigits {l : List Nat} (hl : ∀ d ∈ l, d < 10) :
      value (l.reverse.map (Fin.ofNat 10)) = Nat.ofDigits 10 l := by
    induction l with
    | nil => rfl
    | cons d l ih =>
      have hd : d % 10 = d := Nat.mod_eq_of_lt (hl d List.mem_cons_self)
      have hrest := ih fun e he => hl e (List.mem_cons_of_mem d he)
      rw [value] at hrest ⊢
      rw [List.reverse_cons, List.map_append, List.foldl_append, hrest, Nat.ofDigits_cons]
      show 10 * Nat.ofDigits 10 l + d % 10 = _
      omega
  rw [ofNat]
  split_ifs with hzero
  · rw [hzero]
    rfl
  · rw [hdigits fun d hd => Nat.digits_lt_base (by decide) hd, Nat.ofDigits_digits]

/-- A numeral that is cut has become no greater. -/
theorem value_take_le (ds : List (Fin 10)) (n : Nat) : value (ds.take n) ≤ value ds := by
  have hmono (l : List (Fin 10)) (start : Nat) :
      start ≤ l.foldl (fun n d => 10 * n + d.val) start := by
    induction l generalizing start with
    | nil => exact Nat.le_refl start
    | cons d l ih =>
      have hnext := ih (10 * start + d.val)
      rw [List.foldl_cons]
      omega
  have hsplit : value ds = (ds.drop n).foldl (fun n d => 10 * n + d.val) (value (ds.take n)) := by
    rw [value, value, ← List.foldl_append, List.take_append_drop]
  rw [hsplit]
  exact hmono (ds.drop n) (value (ds.take n))

theorem length_ofNat_le_iff {n k : Nat} (hk : 0 < k) : (ofNat n).length ≤ k ↔ n < 10 ^ k := by
  unfold ofNat
  split_ifs with hzero
  · have hpos : 0 < 10 ^ k := Nat.pow_pos (by decide)
    rw [hzero]
    exact iff_of_true hk hpos
  · rw [List.length_map, List.length_reverse]
    exact Nat.digits_length_le_iff (by decide) n

theorem length_ofNat_le {n k : Nat} (hk : 0 < k) (hn : n < 10 ^ k) : (ofNat n).length ≤ k :=
  (length_ofNat_le_iff hk).mpr hn

end Numeral
