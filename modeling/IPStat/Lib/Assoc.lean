import Mathlib.Data.List.Basic
import Mathlib.Data.List.Pairwise
import Mathlib.Tactic.SplitIfs

namespace Assoc

variable {κ ν : Type*}

/-- A three-way comparator that orders its keys strictly and totally. -/
structure StrictTotal (compare : κ → κ → Int) : Prop where
  zero_iff : ∀ a b, compare a b = 0 ↔ a = b
  neg_iff : ∀ a b, compare a b < 0 ↔ 0 < compare b a
  trans : ∀ a b c, compare a b < 0 → compare b c < 0 → compare a c < 0

/-- The value that the last write of a key in a sequence leaves. -/
def lastValue [DecidableEq κ] (k : κ) : List (κ × ν) → Option ν
  | [] => none
  | p :: kvs => (lastValue k kvs).or (if p.1 = k then some p.2 else none)

/-- For each write of a sequence, whether its key is new. -/
def newKeys [DecidableEq κ] : List κ → List (κ × ν) → List Bool
  | _, [] => []
  | seen, p :: kvs => decide (p.1 ∉ seen) :: newKeys (p.1 :: seen) kvs

section
variable (compare : κ → κ → Int)

/-- Strictly increasing keys. -/
def Sorted (l : List (κ × ν)) : Prop := l.Pairwise fun p q => compare p.1 q.1 < 0

def insert (key : κ) (value : ν) : List (κ × ν) → List (κ × ν)
  | [] => [(key, value)]
  | (k, v) :: l =>
    if compare key k = 0 then (k, value) :: l
    else if compare key k < 0 then (key, value) :: (k, v) :: l
    else (k, v) :: insert key value l

def lookup (key : κ) : List (κ × ν) → Option ν
  | [] => none
  | (k, v) :: l => if compare key k = 0 then some v else lookup key l

end

section
variable {compare : κ → κ → Int} {key : κ} {value : ν} {l l₁ l₂ : List (κ × ν)}

/-- Keys below the new one are passed. -/
theorem insert_append_right (h : ∀ p ∈ l₁, 0 < compare key p.1) :
    insert compare key value (l₁ ++ l₂) = l₁ ++ insert compare key value l₂ := by
  induction l₁ with
  | nil => rfl
  | cons p l₁ ih =>
    have hp := h p List.mem_cons_self
    have hne : compare key p.1 ≠ 0 := by omega
    have hlt : ¬ compare key p.1 < 0 := by omega
    rw [List.cons_append, insert, if_neg hne, if_neg hlt,
      ih fun q hq => h q (List.mem_cons_of_mem p hq), List.cons_append]

/-- A key above the new one ends the search for its place. -/
theorem insert_append_left {k : κ} {v : ν} (h : compare key k < 0) :
    insert compare key value (l₁ ++ (k, v) :: l₂) =
      insert compare key value l₁ ++ (k, v) :: l₂ := by
  induction l₁ with
  | nil =>
    have hne : compare key k ≠ 0 := by omega
    simp [insert, hne, h]
  | cons p l₁ ih =>
    rw [List.cons_append, insert, insert]
    split_ifs
    · rfl
    · rfl
    · rw [ih]
      rfl

theorem lookup_append_right (h : ∀ p ∈ l₁, compare key p.1 ≠ 0) :
    lookup compare key (l₁ ++ l₂) = lookup compare key l₂ := by
  induction l₁ with
  | nil => rfl
  | cons p l₁ ih =>
    rw [List.cons_append, lookup, if_neg (h p List.mem_cons_self),
      ih fun q hq => h q (List.mem_cons_of_mem p hq)]

theorem lookup_append_left (h : ∀ p ∈ l₂, compare key p.1 ≠ 0) :
    lookup compare key (l₁ ++ l₂) = lookup compare key l₁ := by
  induction l₁ with
  | nil =>
    have hnil : lookup compare key (l₂ ++ []) = none := lookup_append_right h
    rw [List.append_nil] at hnil
    exact hnil
  | cons p l₁ ih =>
    rw [List.cons_append, lookup, lookup, ih]

/-- What an insertion leaves is the new pair or was there before. -/
theorem mem_insert_key {p : κ × ν} (h : p ∈ insert compare key value l) :
    compare key p.1 = 0 ∨ p.1 = key ∨ p ∈ l := by
  induction l with
  | nil => exact .inr (.inl (congrArg Prod.fst (List.mem_singleton.mp h)))
  | cons q l ih =>
    rw [insert] at h
    split_ifs at h with h0 hlt
    · rcases List.mem_cons.mp h with rfl | hm
      · exact .inl h0
      · exact .inr (.inr (List.mem_cons_of_mem q hm))
    · rcases List.mem_cons.mp h with rfl | hm
      · exact .inr (.inl rfl)
      · exact .inr (.inr hm)
    · rcases List.mem_cons.mp h with rfl | hm
      · exact .inr (.inr List.mem_cons_self)
      · rcases ih hm with h0' | hk | hold
        · exact .inl h0'
        · exact .inr (.inl hk)
        · exact .inr (.inr (List.mem_cons_of_mem q hold))

variable (hc : StrictTotal compare)
include hc

theorem StrictTotal.refl (a : κ) : compare a a = 0 := (hc.zero_iff a a).mpr rfl

theorem StrictTotal.pos_trans {a b c : κ} (hab : 0 < compare a b) (hbc : 0 < compare b c) :
    0 < compare a c := by
  have hcb := (hc.neg_iff c b).mpr hbc
  have hba := (hc.neg_iff b a).mpr hab
  exact (hc.neg_iff c a).mp (hc.trans c b a hcb hba)

/-- A key below an entry is below all that follow it. -/
theorem Sorted.above {k : κ} {v : ν} (hs : Sorted compare (l₁ ++ (k, v) :: l₂))
    (h : compare key k < 0) : ∀ p ∈ (k, v) :: l₂, compare key p.1 < 0 := by
  obtain ⟨-, hright, -⟩ := List.pairwise_append.mp hs
  obtain ⟨hk, -⟩ := List.pairwise_cons.mp hright
  intro p hp
  rcases List.mem_cons.mp hp with rfl | hp
  · exact h
  · exact hc.trans _ _ _ h (hk p hp)

/-- A key that is not below an entry is above all that precede it. -/
theorem Sorted.below {k : κ} {v : ν} (hs : Sorted compare (l₁ ++ (k, v) :: l₂))
    (h : 0 ≤ compare key k) : ∀ p ∈ l₁, 0 < compare key p.1 := by
  obtain ⟨-, -, hcross⟩ := List.pairwise_append.mp hs
  intro p hp
  have hkp : 0 < compare k p.1 := (hc.neg_iff p.1 k).mp (hcross p hp (k, v) List.mem_cons_self)
  by_cases h0 : compare key k = 0
  · rwa [(hc.zero_iff key k).mp h0]
  · have hpos : 0 < compare key k := by omega
    exact hc.pos_trans hpos hkp

/-- So the key is not found on the other side of the entry. -/
theorem Sorted.ne_above {k : κ} {v : ν} (hs : Sorted compare (l₁ ++ (k, v) :: l₂))
    (h : compare key k < 0) : ∀ p ∈ (k, v) :: l₂, compare key p.1 ≠ 0 := by
  intro p hp
  have hlt := Sorted.above hc hs h p hp
  omega

theorem Sorted.ne_below {k : κ} {v : ν} (hs : Sorted compare (l₁ ++ (k, v) :: l₂))
    (h : 0 ≤ compare key k) : ∀ p ∈ l₁, compare key p.1 ≠ 0 := by
  intro p hp
  have hlt := Sorted.below hc hs h p hp
  omega

theorem Sorted.insert (hs : Sorted compare l) : Sorted compare (insert compare key value l) := by
  induction l with
  | nil => exact List.pairwise_singleton _ _
  | cons p l ih =>
    obtain ⟨hp, hl⟩ := List.pairwise_cons.mp hs
    rw [Assoc.insert]
    split_ifs with h0 hlt
    · exact List.pairwise_cons.mpr ⟨hp, hl⟩
    · apply List.pairwise_cons.mpr
      refine ⟨?_, hs⟩
      intro q hq
      rcases List.mem_cons.mp hq with rfl | hq
      · exact hlt
      · exact hc.trans _ _ _ hlt (hp q hq)
    · have hpk : compare p.1 key < 0 := by
        have hpos : 0 < compare key p.1 := by omega
        exact (hc.neg_iff p.1 key).mpr hpos
      apply List.pairwise_cons.mpr
      refine ⟨?_, ih hl⟩
      intro q hq
      rcases mem_insert_key hq with hq | hq | hq
      · rwa [← (hc.zero_iff key q.1).mp hq]
      · rwa [hq]
      · exact hp q hq

theorem lookup_insert_self (hs : Sorted compare l) :
    lookup compare key (insert compare key value l) = some value := by
  induction l with
  | nil => rw [insert, lookup, if_pos (hc.refl key)]
  | cons p l ih =>
    rw [insert]
    split_ifs with h0 hlt
    · rw [lookup, if_pos h0]
    · rw [lookup, if_pos (hc.refl key)]
    · rw [lookup, if_neg h0, ih (List.pairwise_cons.mp hs).2]

theorem lookup_insert_of_ne {k : κ} (hne : k ≠ key) :
    lookup compare k (insert compare key value l) = lookup compare k l := by
  have hk : compare k key ≠ 0 := fun h => hne ((hc.zero_iff k key).mp h)
  induction l with
  | nil => exact if_neg hk
  | cons p l ih =>
    rw [insert]
    split_ifs with h0 hlt
    · have hkp : compare k p.1 ≠ 0 := by
        rw [← (hc.zero_iff key p.1).mp h0]
        exact hk
      rw [lookup, lookup, if_neg hkp, if_neg hkp]
    · rw [lookup, if_neg hk]
    · rw [lookup, lookup, ih]

/-- A sorted list holds exactly the pairs that a lookup finds. -/
theorem mem_iff_lookup (hs : Sorted compare l) (k : κ) (v : ν) :
    (k, v) ∈ l ↔ lookup compare k l = some v := by
  induction l with
  | nil => simp [lookup]
  | cons p l ih =>
    obtain ⟨hp, hl⟩ := List.pairwise_cons.mp hs
    rw [lookup]
    split_ifs with h0
    · have hk := (hc.zero_iff k p.1).mp h0
      constructor
      · intro hm
        rcases List.mem_cons.mp hm with he | hm
        · rw [← he]
        · have hlt := hp (k, v) hm
          rw [← hk, hc.refl k] at hlt
          exact absurd hlt (Int.lt_irrefl 0)
      · intro he
        cases he
        rw [hk]
        exact List.mem_cons_self
    · rw [← ih hl, List.mem_cons]
      have hne : (k, v) ≠ p := by
        rintro rfl
        exact h0 (hc.refl k)
      simp [hne]

end

end Assoc
