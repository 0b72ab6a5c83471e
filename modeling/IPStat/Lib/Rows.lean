import Mathlib.Data.List.Basic
import Mathlib.Data.List.Nodup

namespace Rows

/-- A row of a table: the columns that it is found by, and a counter. -/
structure Row (κ : Type) where
  key : κ
  value : Nat
  deriving DecidableEq, Repr

variable {κ : Type}

def keys (rows : List (Row κ)) : List κ := rows.map Row.key

def total : List (Row κ) → Nat
  | [] => 0
  | r :: rows => r.value + total rows

/-- What the rows hold whose keys are of a kind. -/
def sumOf (p : κ → Prop) [DecidablePred p] : List (Row κ) → Nat
  | [] => 0
  | r :: rows => (if p r.key then r.value else 0) + sumOf p rows

section
variable [DecidableEq κ]

def count (k : κ) (rows : List (Row κ)) : Nat := rows.countP (·.key = k)

/-- Rewrite the counter of every row with a key. -/
def update (k : κ) (f : Nat → Nat) (rows : List (Row κ)) : List (Row κ) :=
  rows.map fun r => if r.key = k then ⟨r.key, f r.value⟩ else r

end

section
variable {rows : List (Row κ)} {k : κ} {n : Nat}

theorem total_concat (r : Row κ) : total (rows ++ [r]) = total rows + r.value := by
  induction rows with
  | nil => simp [total]
  | cons a rows ih =>
    rw [List.cons_append, total, total, ih]
    omega

section
variable (p : κ → Prop) [DecidablePred p]

@[simp] theorem sumOf_append (rows rows' : List (Row κ)) :
    sumOf p (rows ++ rows') = sumOf p rows + sumOf p rows' := by
  induction rows with
  | nil => simp [sumOf]
  | cons r rows ih =>
    rw [List.cons_append, sumOf, sumOf, ih]
    omega

/-- Rows that hold nothing can be left out. -/
theorem sumOf_filter {q : Row κ → Bool} (h : ∀ r ∈ rows, q r = false → r.value = 0) :
    sumOf p (rows.filter q) = sumOf p rows := by
  induction rows with
  | nil => rfl
  | cons r rows ih =>
    have hrest := ih fun r' hr' => h r' (List.mem_cons_of_mem r hr')
    cases hq : q r with
    | true => rw [List.filter_cons_of_pos hq, sumOf, sumOf, hrest]
    | false =>
      have hzero := h r List.mem_cons_self hq
      rw [List.filter_cons_of_neg (by simp [hq]), sumOf, hrest, hzero, ite_self, Nat.zero_add]

theorem sumOf_zero (h : ∀ r ∈ rows, r.value = 0) : sumOf p rows = 0 := by
  induction rows with
  | nil => rfl
  | cons r rows ih =>
    rw [sumOf, h r List.mem_cons_self, ite_self, ih fun q hq => h q (List.mem_cons_of_mem r hq)]

end

/-- A row with a key that the table has not keeps its keys unique. -/
theorem nodup_concat (h : (keys rows).Nodup) (hk : k ∉ keys rows) :
    (keys (rows ++ [⟨k, n⟩])).Nodup := by
  have hkeys : keys (rows ++ [⟨k, n⟩]) = keys rows ++ [k] := List.map_append
  rw [hkeys, List.nodup_append_comm]
  exact List.nodup_cons.mpr ⟨hk, h⟩

variable [DecidableEq κ] {f : Nat → Nat}

theorem keys_update : keys (update k f rows) = keys rows := by
  unfold keys update
  rw [List.map_map]
  apply List.map_congr_left
  intro r hr
  change (if r.key = k then (⟨r.key, f r.value⟩ : Row κ) else r).key = r.key
  split_ifs <;> rfl

theorem update_absent (h : k ∉ keys rows) : update k f rows = rows := by
  unfold update
  nth_rewrite 2 [← List.map_id rows]
  apply List.map_congr_left
  intro r hr
  have hne : r.key ≠ k := by
    intro heq
    exact h (heq ▸ List.mem_map_of_mem hr)
  rw [if_neg hne]
  rfl

/-- Unique keys are counted once. -/
theorem count_of_nodup (h : (keys rows).Nodup) (k : κ) :
    count k rows = if k ∈ keys rows then 1 else 0 := by
  have hcount : count k rows = (keys rows).count k := by
    rw [count, keys, List.count, List.countP_map]
    apply List.countP_congr
    intro row _
    simp
  rw [hcount]
  split_ifs with hmem
  · exact List.count_eq_one_of_mem h hmem
  · exact List.count_eq_zero_of_not_mem hmem

/-- On unique keys an increment goes to its own key, once. -/
theorem sumOf_update (p : κ → Prop) [DecidablePred p] (h : (keys rows).Nodup) (hk : k ∈ keys rows)
    (hf : ∀ r ∈ rows, r.key = k → f r.value = r.value + n) :
    sumOf p (update k f rows) = sumOf p rows + if p k then n else 0 := by
  induction rows with
  | nil => cases hk
  | cons r rows ih =>
    obtain ⟨hr, hrest⟩ := List.nodup_cons.mp h
    have hcons : update k f (r :: rows) =
        (if r.key = k then ⟨r.key, f r.value⟩ else r) :: update k f rows := rfl
    rw [hcons]
    by_cases hrk : r.key = k
    · have habsent : k ∉ keys rows := hrk ▸ hr
      have hvalue := hf r List.mem_cons_self hrk
      rw [if_pos hrk, update_absent habsent, sumOf, sumOf]
      simp only [hvalue, hrk]
      split_ifs <;> omega
    · have hmem : k ∈ keys rows := List.mem_of_ne_of_mem (Ne.symm hrk) hk
      rw [if_neg hrk, sumOf, sumOf, ih hrest hmem fun q hq => hf q (List.mem_cons_of_mem r hq)]
      omega

/-- On unique keys an increment is added once. -/
theorem total_update (h : (keys rows).Nodup) (hk : k ∈ keys rows)
    (hf : ∀ r ∈ rows, r.key = k → f r.value = r.value + n) :
    total (update k f rows) = total rows + n := by
  induction rows with
  | nil => cases hk
  | cons r rows ih =>
    obtain ⟨hr, hrest⟩ := List.nodup_cons.mp h
    have hcons : update k f (r :: rows) =
        (if r.key = k then ⟨r.key, f r.value⟩ else r) :: update k f rows := rfl
    rw [hcons]
    by_cases hrk : r.key = k
    · have habsent : k ∉ keys rows := hrk ▸ hr
      have hvalue := hf r List.mem_cons_self hrk
      rw [if_pos hrk, update_absent habsent, total, total]
      change f r.value + total rows = r.value + total rows + n
      omega
    · have hmem : k ∈ keys rows := by
        apply List.mem_of_ne_of_mem _ hk
        exact Ne.symm hrk
      have hsum := ih hrest hmem fun q hq => hf q (List.mem_cons_of_mem r hq)
      rw [if_neg hrk, total, total, hsum]
      omega

end

end Rows
