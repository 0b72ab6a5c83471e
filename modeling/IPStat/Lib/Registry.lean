import Mathlib.Data.List.Perm.Basic

namespace Registry

section
variable {α κ : Type*} [DecidableEq κ] {key : α → κ} {x : α} {k : κ} {l : List α}

/-- The first entry under the key is taken out, if there is one. -/
def remove (key : α → κ) (k : κ) (l : List α) : List α := l.eraseP fun x => key x = k

@[simp] theorem remove_cons_self (h : key x = k) (l : List α) : remove key k (x :: l) = l := by
  simp [remove, h]

@[simp] theorem remove_cons_of_ne (h : key x ≠ k) (l : List α) :
    remove key k (x :: l) = x :: remove key k l := by
  simp [remove, h]

theorem count_remove_of_ne [DecidableEq α] (h : key x ≠ k) :
    (remove key k l).count x = l.count x := by
  induction l with
  | nil => rfl
  | cons y l ih =>
    by_cases hy : key y = k
    · have hne : y ≠ x := by
        intro heq
        apply h
        rw [← heq, hy]
      rw [remove_cons_self hy, List.count_cons_of_ne hne]
    · rw [remove_cons_of_ne hy, List.count_cons, List.count_cons, ih]

/-- An entry that only another key was removed for is still there: the list is not what it was. -/
theorem not_perm_remove [DecidableEq α] (h : key x ≠ k) :
    ¬ (remove key k (x :: l)).Perm l := by
  intro hperm
  have hcount : (remove key k (x :: l)).count x = l.count x := hperm.count_eq x
  rw [count_remove_of_ne h, List.count_cons_self] at hcount
  omega

theorem erase_concat [DecidableEq α] (l : List α) (x : α) : ((l ++ [x]).erase x).Perm l := by
  have hperm : (l ++ [x]).Perm (x :: l) := List.perm_append_comm
  have herase := hperm.erase x
  rwa [List.erase_cons_head] at herase

end

end Registry
