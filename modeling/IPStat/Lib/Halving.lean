import Mathlib.Data.List.Sort

/-! Merge sort that cuts a list at half its length, rounded down. With an order it comes to the
sort of the library; without one it still only permutes. -/

namespace Halving

variable {α : Type*} {le : α → α → Bool}

def sort (le : α → α → Bool) (l : List α) : List α :=
  if l.length < 2 then l
  else (sort le (l.take (l.length / 2))).merge (sort le (l.drop (l.length / 2))) le
termination_by l.length
decreasing_by
  all_goals
    simp only [List.length_take, List.length_drop]
    omega

theorem sort_short {l : List α} (hl : l.length < 2) : sort le l = l := by
  rw [sort, if_pos hl]

theorem sort_halves {l : List α} (hl : 2 ≤ l.length) : sort le l =
    (sort le (l.take (l.length / 2))).merge (sort le (l.drop (l.length / 2))) le := by
  rw [sort, if_neg (by omega)]

theorem sort_perm (le : α → α → Bool) (l : List α) : (sort le l).Perm l := by
  induction hn : l.length using Nat.strong_induction_on generalizing l with
  | _ n ih =>
    subst hn
    by_cases hl : l.length < 2
    · rw [sort_short hl]
    · rw [sort_halves (by omega)]
      have hfront := ih _ (by simp only [List.length_take]; omega) (l.take (l.length / 2)) rfl
      have hback := ih _ (by simp only [List.length_drop]; omega) (l.drop (l.length / 2)) rfl
      have hboth := (List.merge_perm_append le).trans (hfront.append hback)
      rwa [List.take_append_drop] at hboth

/-- Two elements that precede each other are one, when they carry their positions. -/
theorem zipIdxLE_antisymm {i : Nat} {l : List α} {a b : α × Nat} (ha : a ∈ l.zipIdx i)
    (hb : b ∈ l.zipIdx i) (hab : List.zipIdxLE le a b) (hba : List.zipIdxLE le b a) : a = b := by
  have hindex : a.2 = b.2 := by
    simp only [List.zipIdxLE] at hab hba
    cases hleft : le a.1 b.1 <;> cases hright : le b.1 a.1 <;> simp [hleft, hright] at hab hba
    omega
  have hma := List.mem_zipIdx ha
  have hmb := List.mem_zipIdx hb
  refine Prod.ext ?_ hindex
  rw [hma.2.2, hmb.2.2]
  simp only [hindex]

/-- The sort is stable from whatever number the positions are counted. -/
theorem mergeSort_zipIdx (i : Nat) (l : List α) :
    ((l.zipIdx i).mergeSort (List.zipIdxLE le)).map Prod.fst = l.mergeSort le := by
  have hshift : l.zipIdx i = l.zipIdx.map fun a => (a.1, a.2 + i) := by
    rw [List.zipIdx_eq_map_add]
    simp [Nat.add_comm]
  have hle (a b : α × Nat) :
      List.zipIdxLE le a b = List.zipIdxLE le (a.1, a.2 + i) (b.1, b.2 + i) := by
    simp [List.zipIdxLE]
  have hsorted : l.mergeSort le = (l.zipIdx.mergeSort (List.zipIdxLE le)).map Prod.fst :=
    List.mergeSort_zipIdx.symm
  rw [hshift, ← List.map_mergeSort (fun a _ b _ => hle a b), List.map_map, hsorted]
  apply List.map_congr_left
  intro a _
  rfl

/-- Two sorted halves merge into the sorted whole. -/
theorem merge_mergeSort (htrans : ∀ a b c, le a b → le b c → le a c)
    (htotal : ∀ a b, le a b || le b a) (xs ys : List α) :
    (xs.mergeSort le).merge (ys.mergeSort le) le = (xs ++ ys).mergeSort le := by
  -- with the positions attached the sorted list is unique
  have htrans' := List.zipIdxLE_trans htrans
  have htotal' := List.zipIdxLE_total htotal
  have hsplit : (xs ++ ys).zipIdx = xs.zipIdx ++ ys.zipIdx xs.length := by
    rw [List.zipIdx_append, Nat.zero_add]
  rw [← mergeSort_zipIdx 0 xs, ← mergeSort_zipIdx xs.length ys,
    ← mergeSort_zipIdx 0 (xs ++ ys), ← List.merge_stable]
  · congr 1
    have hperm : ((xs.zipIdx.mergeSort (List.zipIdxLE le)).merge
        ((ys.zipIdx xs.length).mergeSort (List.zipIdxLE le)) (List.zipIdxLE le)).Perm
        ((xs ++ ys).zipIdx.mergeSort (List.zipIdxLE le)) := by
      rw [hsplit]
      exact ((List.merge_perm_append _).trans
        ((List.mergeSort_perm _ _).append (List.mergeSort_perm _ _))).trans
        (List.mergeSort_perm _ _).symm
    refine @List.Perm.eq_of_pairwise _ (fun a b => List.zipIdxLE le a b) _ _ ?_ ?_ ?_ hperm
    · intro a b ha hb
      rw [hperm.mem_iff, List.mem_mergeSort] at ha
      rw [List.mem_mergeSort] at hb
      exact zipIdxLE_antisymm ha hb
    · apply List.pairwise_merge htrans' htotal'
      · exact List.pairwise_mergeSort htrans' htotal' _
      · exact List.pairwise_mergeSort htrans' htotal' _
    · exact List.pairwise_mergeSort htrans' htotal' _
  · intro x y hx hy
    have hmx := List.mem_zipIdx (List.mem_mergeSort.mp hx)
    have hmy := List.mem_zipIdx (List.mem_mergeSort.mp hy)
    omega

/-- With an order, where the list is cut makes no difference. -/
theorem sort_eq_mergeSort (htrans : ∀ a b c, le a b → le b c → le a c)
    (htotal : ∀ a b, le a b || le b a) (l : List α) : sort le l = l.mergeSort le := by
  induction hn : l.length using Nat.strong_induction_on generalizing l with
  | _ n ih =>
    subst hn
    by_cases hl : l.length < 2
    · rw [sort_short hl]
      match l, hl with
      | [], _ => simp
      | [_], _ => simp
    · rw [sort_halves (by omega),
        ih _ (by simp only [List.length_take]; omega) (l.take (l.length / 2)) rfl,
        ih _ (by simp only [List.length_drop]; omega) (l.drop (l.length / 2)) rfl,
        merge_mergeSort htrans htotal, List.take_append_drop]

/-- Sorting by a key is sorting the keys. -/
theorem map_sort {β : Type*} {r : β → β → Bool} (f : α → β) (l : List α) :
    (sort (fun a b => r (f a) (f b)) l).map f = sort r (l.map f) := by
  induction hn : l.length using Nat.strong_induction_on generalizing l with
  | _ n ih =>
    subst hn
    by_cases hl : l.length < 2
    · rw [sort_short hl, sort_short (by rwa [List.length_map])]
    · have hmap : 2 ≤ (l.map f).length := by
        rw [List.length_map]
        omega
      rw [sort_halves hmap, sort_halves (by omega),
        List.map_merge (s := r) (fun _ _ _ _ => Eq.refl _),
        ih _ (by simp only [List.length_take]; omega) (l.take (l.length / 2)) rfl,
        ih _ (by simp only [List.length_drop]; omega) (l.drop (l.length / 2)) rfl,
        List.map_take, List.map_drop, List.length_map]

end Halving
