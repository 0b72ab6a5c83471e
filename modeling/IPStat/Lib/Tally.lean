import Mathlib.Algebra.BigOperators.Group.List.Basic
import Mathlib.Data.List.Basic
import Mathlib.Tactic.Abel

namespace Tally

variable {α M : Type*}

/-- The sum of `f` over a list. -/
def tally [Add M] [Zero M] (f : α → M) (l : List α) : M := (l.map f).sum

variable [AddCommMonoid M] {f g : α → M} {l : List α} {a : α} {p : α → Bool}

@[simp] theorem tally_nil : tally f [] = 0 := rfl

@[simp] theorem tally_cons (a : α) (l : List α) : tally f (a :: l) = f a + tally f l := by
  simp [tally]

@[simp] theorem tally_append (l l' : List α) : tally f (l ++ l') = tally f l + tally f l' := by
  simp [tally]

theorem tally_zero (h : ∀ a ∈ l, f a = 0) : tally f l = 0 := by
  induction l with
  | nil => rfl
  | cons a l ih =>
    rw [tally_cons, h a List.mem_cons_self, ih fun b hb => h b (List.mem_cons_of_mem a hb),
      add_zero]

/-- The first match leaves the list with its share. -/
theorem tally_eraseP (h : l.find? p = some a) : tally f l = f a + tally f (l.eraseP p) := by
  induction l with
  | nil => cases h
  | cons c l ih =>
    cases hp : p c with
    | true =>
      have hc : c = a := by simpa [hp] using h
      rw [List.eraseP_cons_of_pos hp, tally_cons, hc]
    | false =>
      rw [List.find?_cons_of_neg (by simp [hp])] at h
      rw [List.eraseP_cons_of_neg (by simp [hp]), tally_cons, tally_cons, ih h, add_left_comm]

/-- Rewriting the first match exchanges its share. -/
theorem tally_replace (e : α → α) (h : l.find? p = some a) :
    tally f (l.replaceF fun c => if p c then some (e c) else none) + f a =
      tally f l + f (e a) := by
  induction l with
  | nil => cases h
  | cons c l ih =>
    cases hp : p c with
    | true =>
      have hc : c = a := by simpa [hp] using h
      subst hc
      rw [List.replaceF, if_pos hp]
      simp only [tally_cons]
      abel
    | false =>
      rw [List.find?_cons_of_neg (by simp [hp])] at h
      have hne : ¬ (p c = true) := by simp [hp]
      rw [List.replaceF, if_neg hne]
      simp only [tally_cons]
      rw [add_assoc, ih h, add_assoc]

/-- An element after the rewrite was there before it, or is the rewritten first match. -/
theorem mem_replace {b : α} {e : α → α}
    (h : b ∈ l.replaceF fun c => if p c then some (e c) else none) :
    b ∈ l ∨ ∃ a, l.find? p = some a ∧ b = e a := by
  induction l with
  | nil => exact .inl h
  | cons c l ih =>
    cases hp : p c with
    | true =>
      rw [List.replaceF, if_pos hp] at h
      rcases List.mem_cons.mp h with rfl | hm
      · exact .inr ⟨c, List.find?_cons_of_pos hp, rfl⟩
      · exact .inl (List.mem_cons_of_mem c hm)
    | false =>
      have hne : ¬ (p c = true) := by simp [hp]
      rw [List.replaceF, if_neg hne] at h
      rcases List.mem_cons.mp h with rfl | hm
      · exact .inl List.mem_cons_self
      · rcases ih hm with hold | ⟨a, hf, he⟩
        · exact .inl (List.mem_cons_of_mem c hold)
        · exact .inr ⟨a, by rw [List.find?_cons_of_neg hne, hf], he⟩

/-- Writing one place exchanges its share. -/
theorem tally_set {i : ℕ} (b : α) (h : l[i]? = some a) :
    tally f (l.set i b) + f a = tally f l + f b := by
  induction l generalizing i with
  | nil => cases h
  | cons c l ih =>
    cases i with
    | zero =>
      cases h
      rw [List.set_cons_zero, tally_cons, tally_cons]
      abel
    | succ i =>
      have hrest := ih (i := i) h
      rw [List.set_cons_succ, tally_cons, tally_cons, add_assoc, hrest, add_assoc]

theorem tally_modify {i : ℕ} (e : α → α) (h : l[i]? = some a) :
    tally f (l.modify i e) + f a = tally f l + f (e a) := by
  have hset : l.modify i e = l.set i (e a) := by
    apply List.ext_getElem?
    intro j
    obtain ⟨hi, -⟩ := List.getElem?_eq_some_iff.mp h
    by_cases hij : i = j
    · subst hij
      rw [List.getElem?_modify_eq, List.getElem?_set_self hi, h]
      rfl
    · rw [List.getElem?_modify_ne _ _ hij, List.getElem?_set_ne hij]
  rw [hset]
  exact tally_set (e a) h

/-- Erasing one place takes its share. -/
theorem tally_eraseIdx {i : ℕ} (h : l[i]? = some a) :
    tally f l = f a + tally f (l.eraseIdx i) := by
  induction l generalizing i with
  | nil => cases h
  | cons c l ih =>
    cases i with
    | zero =>
      cases h
      rw [List.eraseIdx_cons_zero, tally_cons]
    | succ i =>
      have hrest := ih (i := i) h
      rw [List.eraseIdx_cons_succ, tally_cons, tally_cons, hrest, add_left_comm]

end Tally
