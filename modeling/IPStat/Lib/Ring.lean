import Mathlib.Data.Nat.Init
import Mathlib.Logic.Function.Basic
import Mathlib.Tactic.SplitIfs

namespace Ring

variable {α : Type*}

/-- The cells from `head` up to `tail`, counted modulo `size`, hold `q`; one cell stays free. -/
structure Holds (size head tail : Nat) (mem : Nat → α) (q : List α) : Prop where
  room : q.length < size
  head_lt : head < size
  tail_eq : tail = (head + q.length) % size
  cells : ∀ i (h : i < q.length), mem ((head + i) % size) = q[i]

variable {size head tail : Nat} {mem : Nat → α} {q : List α} {a : α}

theorem mod_of_lt_twice {n m : Nat} (h : n < 2 * m) :
    n % m = if n < m then n else n - m := by
  by_cases hlt : n < m
  · rw [if_pos hlt, Nat.mod_eq_of_lt hlt]
  · have hsub := Nat.mod_eq_sub_mod (Nat.le_of_not_lt hlt)
    rw [if_neg hlt, hsub, Nat.mod_eq_of_lt (by omega)]

theorem holds_nil (h : head < size) : Holds size head head mem [] where
  room := by simpa using Nat.zero_lt_of_lt h
  head_lt := h
  tail_eq := by simp [Nat.mod_eq_of_lt h]
  cells := by simp

theorem Holds.tail_split (h : Holds size head tail mem q) :
    tail = if head + q.length < size then head + q.length else head + q.length - size := by
  have hr := h.room
  have hh := h.head_lt
  rw [h.tail_eq, mod_of_lt_twice (by omega)]

theorem Holds.empty_iff (h : Holds size head tail mem q) : head = tail ↔ q = [] := by
  have ht := h.tail_split
  have hr := h.room
  have hh := h.head_lt
  rw [← List.length_eq_zero_iff]
  split_ifs at ht <;> omega

/-- The entry count that a reader computes from the two indices. -/
theorem Holds.length_eq (h : Holds size head tail mem q) :
    (tail + size - head) % size = q.length := by
  have ht := h.tail_split
  have hr := h.room
  have hh := h.head_lt
  rw [mod_of_lt_twice (by split_ifs at ht <;> omega)]
  split_ifs at ht ⊢ <;> omega

theorem Holds.pop (h : Holds size head tail mem (a :: q)) :
    mem head = a ∧ Holds size ((head + 1) % size) tail mem q := by
  have hh := h.head_lt
  have hr := h.room
  rw [List.length_cons] at hr
  constructor
  · have h0 := h.cells 0 (by simp)
    rwa [Nat.add_zero, Nat.mod_eq_of_lt hh] at h0
  · refine ⟨by omega, Nat.mod_lt _ (by omega), ?_, fun i hi => ?_⟩
    · rw [h.tail_eq, List.length_cons, Nat.mod_add_mod]
      congr 1
      omega
    · have hc := h.cells (i + 1) (by simpa using hi)
      rw [Nat.mod_add_mod, show head + 1 + i = head + (i + 1) by omega, hc]
      rfl

/-- Distinct positions of a ring that is not full are distinct cells. -/
theorem Holds.cell_ne (h : Holds size head tail mem q) {i : Nat} (hi : i < q.length) :
    (head + i) % size ≠ tail := by
  have ht := h.tail_split
  have hr := h.room
  have hh := h.head_lt
  rw [mod_of_lt_twice (by omega)]
  split_ifs at ht ⊢ <;> omega

theorem Holds.push (h : Holds size head tail mem q) (hr : q.length + 1 < size) :
    Holds size head ((tail + 1) % size) (Function.update mem tail a) (q ++ [a]) := by
  refine ⟨by simpa using hr, h.head_lt, ?_, fun i hi => ?_⟩
  · rw [h.tail_eq, Nat.mod_add_mod, List.length_append, List.length_singleton, Nat.add_assoc]
  · by_cases hl : i < q.length
    · rw [Function.update_of_ne (h.cell_ne hl), h.cells i hl, List.getElem_append_left hl]
    · have he : i = q.length := by
        rw [List.length_append, List.length_singleton] at hi
        omega
      subst he
      rw [← h.tail_eq, Function.update_self]
      simp

end Ring
