import Mathlib.Algebra.Order.BigOperators.Group.List
import Mathlib.Algebra.Order.Group.Nat
import Mathlib.Logic.Relation

namespace Boundary

variable {α : Type*}

/-- Some symbols move over the boundary between two neighbouring texts. -/
inductive Slide : List (List α) → List (List α) → Prop where
  | move (pre : List (List α)) (a m b : List α) (post : List (List α)) :
      Slide (pre ++ (a ++ m) :: b :: post) (pre ++ a :: (m ++ b) :: post)

/-- Two rows of texts that differ by such moves, in either direction. -/
def Recut : List (List α) → List (List α) → Prop := Relation.EqvGen Slide

variable {xs ys zs : List (List α)}

theorem Slide.flatten (h : Slide xs ys) : xs.flatten = ys.flatten := by
  cases h with
  | move pre a m b post => simp

theorem Slide.cons (x : List α) (h : Slide xs ys) : Slide (x :: xs) (x :: ys) := by
  cases h with
  | move pre a m b post => exact .move (x :: pre) a m b post

theorem Recut.flatten (h : Recut xs ys) : xs.flatten = ys.flatten := by
  induction h with
  | rel _ _ h => exact h.flatten
  | refl _ => rfl
  | symm _ _ _ ih => exact ih.symm
  | trans _ _ _ _ _ ih ih' => exact ih.trans ih'

theorem Recut.cons (x : List α) (h : Recut xs ys) : Recut (x :: xs) (x :: ys) := by
  induction h with
  | rel _ _ h => exact .rel _ _ (h.cons x)
  | refl _ => exact .refl _
  | symm _ _ _ ih => exact .symm _ _ ih
  | trans _ _ _ _ _ ih ih' => exact .trans _ _ _ ih ih'

/-- Every row can be moved into its first text. -/
theorem recut_first (x : List α) (xs : List (List α)) :
    Recut (x :: xs) ((x ++ xs.flatten) :: List.replicate xs.length []) := by
  induction xs generalizing x with
  | nil =>
    simp only [List.flatten_nil, List.append_nil, List.length_nil, List.replicate_zero]
    exact .refl _
  | cons y xs ih =>
    have hgather := (ih y).cons x
    have hmove := Slide.move [] x (y ++ xs.flatten) [] (List.replicate xs.length [])
    rw [List.append_nil, List.nil_append, List.nil_append] at hmove
    rw [List.flatten_cons, List.length_cons, List.replicate_succ]
    exact .trans _ _ _ hgather (.symm _ _ (.rel _ _ hmove))

/-- Two rows of as many texts read alike when joined exactly when one is a recut of the
other. -/
theorem flatten_eq_iff (hl : xs.length = ys.length) : xs.flatten = ys.flatten ↔ Recut xs ys := by
  refine ⟨fun h => ?_, Recut.flatten⟩
  cases xs with
  | nil =>
    rw [List.length_nil] at hl
    rw [List.length_eq_zero_iff.mp hl.symm]
    exact .refl _
  | cons x xs =>
    cases ys with
    | nil => cases hl
    | cons y ys =>
      have hx := recut_first x xs
      have hy := recut_first y ys
      rw [List.flatten_cons, List.flatten_cons] at h
      rw [List.length_cons, List.length_cons, Nat.add_right_cancel_iff] at hl
      rw [h, hl] at hx
      exact .trans _ _ _ hx (.symm _ _ hy)

section
variable {κ : Type*} {cols : List κ} {f g : κ → List α}

/-- Texts of the same widths that read alike when joined are the same texts. -/
theorem eq_of_widths (h : (cols.map f).flatten = (cols.map g).flatten)
    (hw : ∀ c ∈ cols, (f c).length = (g c).length) : ∀ c ∈ cols, f c = g c := by
  induction cols with
  | nil => simp
  | cons c cols ih =>
    rw [List.map_cons, List.map_cons, List.flatten_cons, List.flatten_cons] at h
    obtain ⟨hc, hrest⟩ := List.append_inj h (hw c List.mem_cons_self)
    have hcols := ih hrest fun d hd => hw d (List.mem_cons_of_mem c hd)
    intro d hd
    obtain rfl | hd := List.mem_cons.mp hd
    · exact hc
    · exact hcols d hd

theorem flatten_shorter {c : κ} (hc : c ∈ cols)
    (hw : ∀ d ∈ cols, d ≠ c → (f d).length = (g d).length) (hlt : (f c).length < (g c).length) :
    (cols.map f).flatten ≠ (cols.map g).flatten := by
  have hle : ∀ d ∈ cols, (f d).length ≤ (g d).length := by
    intro d hd
    by_cases hdc : d = c
    · rw [hdc]
      exact le_of_lt hlt
    · exact le_of_eq (hw d hd hdc)
  have hsum := List.sum_lt_sum (fun d => (f d).length) (fun d => (g d).length) hle ⟨c, hc, hlt⟩
  intro h
  have hlength := congrArg List.length h
  rw [List.length_flatten, List.length_flatten, List.map_map, List.map_map] at hlength
  exact absurd hlength (ne_of_lt hsum)

/-- It is enough that all widths but one are the same: the joined text gives the last one. -/
theorem eq_of_widths_but {c : κ} (h : (cols.map f).flatten = (cols.map g).flatten)
    (hw : ∀ d ∈ cols, d ≠ c → (f d).length = (g d).length) : ∀ d ∈ cols, f d = g d := by
  apply eq_of_widths h
  intro d hd
  by_cases hdc : d = c
  · subst hdc
    obtain hlt | heq | hgt := lt_trichotomy (f d).length (g d).length
    · exact absurd h (flatten_shorter hd hw hlt)
    · exact heq
    · exact absurd h.symm (flatten_shorter hd (fun e he hne => (hw e he hne).symm) hgt)
  · exact hw d hd hdc

end

end Boundary
