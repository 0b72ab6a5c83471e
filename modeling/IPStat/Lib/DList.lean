import Mathlib.Data.List.Nodup
import Mathlib.Logic.Function.Basic
import Mathlib.Tactic.SplitIfs

namespace DList

variable {κ : Type*}

/-- The links along a stretch of a doubly linked list that stands between `p` and `n`. -/
def Seg (prev next : κ → Option κ) (p : Option κ) : List κ → Option κ → Prop
  | [], _ => True
  | x :: xs, n => prev x = p ∧ next x = xs.head?.or n ∧ Seg prev next (some x) xs n

/-- From `head` to `tail` the links are those of a list without repetition. -/
structure Links (prev next : κ → Option κ) (head tail : Option κ) (hs : List κ) : Prop where
  nodup : hs.Nodup
  head : head = hs.head?
  tail : tail = hs.getLast?
  seg : Seg prev next none hs none

/-- Write a link of the node that a pointer points at, if it points at one. -/
def relink [DecidableEq κ] (links : κ → Option κ) (q : Option κ) (v : Option κ) :
    κ → Option κ :=
  match q with
  | none => links
  | some y => Function.update links y v

section
variable {prev next prev' next' : κ → Option κ} {p n p' n' head tail : Option κ}
  {l r hs : List κ} {x y z : κ}

theorem seg_append : Seg prev next p (l ++ r) n ↔
    Seg prev next p l (r.head?.or n) ∧ Seg prev next (l.getLast?.or p) r n := by
  induction l generalizing p with
  | nil => simp [Seg]
  | cons x l ih =>
    have hlast : (x :: l).getLast?.or p = l.getLast?.or (some x) := by
      rw [List.getLast?_cons]
      cases l.getLast? <;> rfl
    have hhead : (l ++ r).head?.or n = l.head?.or (r.head?.or n) := by
      rw [List.head?_append, Option.or_assoc]
    rw [List.cons_append, Seg, Seg, ih, hlast, hhead, and_assoc, and_assoc]

/-- Only the links of the stretch matter. -/
theorem Seg.congr (h : Seg prev next p l n) (hprev : ∀ x ∈ l, prev' x = prev x)
    (hnext : ∀ x ∈ l, next' x = next x) : Seg prev' next' p l n := by
  induction l generalizing p with
  | nil => trivial
  | cons x l ih =>
    obtain ⟨hp, hn, hrest⟩ := h
    refine ⟨(hprev x List.mem_cons_self).trans hp, (hnext x List.mem_cons_self).trans hn, ?_⟩
    exact ih hrest (fun y hy => hprev y (List.mem_cons_of_mem x hy))
      fun y hy => hnext y (List.mem_cons_of_mem x hy)

section
variable [DecidableEq κ]

/-- The last node of a stretch is given another successor. -/
theorem Seg.relink_next (h : Seg prev next p l n) (hnodup : l.Nodup) (n' : Option κ) :
    Seg prev (relink next l.getLast? n') p l n' := by
  rcases List.eq_nil_or_concat' l with rfl | ⟨l, y, rfl⟩
  · trivial
  · rw [List.nodup_append] at hnodup
    obtain ⟨hl, hy⟩ := seg_append.mp h
    have hne : ∀ x ∈ l, x ≠ y := fun x hx => hnodup.2.2 x hx y List.mem_cons_self
    rw [List.getLast?_concat, relink]
    refine seg_append.mpr ⟨hl.congr (fun _ _ => rfl) ?_, hy.1, by simp, trivial⟩
    intro x hx
    exact Function.update_of_ne (hne x hx) n' next

/-- The first node of a stretch is given another predecessor. -/
theorem Seg.relink_prev (h : Seg prev next p l n) (hnodup : l.Nodup) (p' : Option κ) :
    Seg (relink prev l.head? p') next p' l n := by
  cases l with
  | nil => trivial
  | cons z l =>
    obtain ⟨-, hn, hrest⟩ := h
    rw [List.head?_cons, relink]
    refine ⟨Function.update_self z p' prev, hn, hrest.congr ?_ fun _ _ => rfl⟩
    intro x hx
    have hxz : x ≠ z := by
      rintro rfl
      exact (List.nodup_cons.mp hnodup).1 hx
    exact Function.update_of_ne hxz p' prev

theorem relink_of_not_mem {links : κ → Option κ} {v : Option κ} {q : Option κ}
    (h : ∀ y ∈ q, y ≠ x) : relink links q v x = links x := by
  cases q with
  | none => rfl
  | some y => exact Function.update_of_ne (h y rfl).symm v links

/-- A node with no successor, whose predecessor is the tail, is linked behind it. -/
theorem Links.append (h : Links prev next head tail hs) (hx : x ∉ hs) (hprev : prev x = tail)
    (hnext : next x = none) :
    Links prev (relink next tail (some x)) (head.or (some x)) (some x) (hs ++ [x]) := by
  have htail : tail = hs.getLast? := h.tail
  refine ⟨?_, ?_, by simp, ?_⟩
  · rw [List.nodup_append]
    refine ⟨h.nodup, List.nodup_singleton x, ?_⟩
    rintro a ha b hb rfl
    exact hx (List.mem_singleton.mp hb ▸ ha)
  · rw [h.head, List.head?_append, List.head?_singleton]
  · rw [seg_append, List.head?_singleton, Option.some_or, Option.or_none, ← htail]
    refine ⟨?_, hprev, ?_, trivial⟩
    · rw [htail]
      exact h.seg.relink_next h.nodup _
    · rw [relink_of_not_mem, hnext]
      · rfl
      · rintro y hy rfl
        exact hx (List.mem_of_getLast? (htail ▸ hy))

/-- A node is taken out by joining its neighbours; the ends move if it was one of them. -/
theorem Links.unlink (h : Links prev next head tail hs) (hx : x ∈ hs) :
    Links (relink prev (next x) (prev x)) (relink next (prev x) (next x))
      (if prev x = none then next x else head) (if next x = none then prev x else tail)
      (hs.erase x) := by
  obtain ⟨l, r, rfl⟩ := List.append_of_mem hx
  have hnodup := h.nodup
  rw [List.nodup_append, List.nodup_cons] at hnodup
  obtain ⟨hl, ⟨hxr, hr⟩, hlr⟩ := hnodup
  have hxl : x ∉ l := fun hm => hlr x hm x List.mem_cons_self rfl
  have hdisj : ∀ a ∈ l, ∀ b ∈ r, a ≠ b := fun a ha b hb => hlr a ha b (List.mem_cons_of_mem x hb)
  have herase : (l ++ x :: r).erase x = l ++ r := by
    rw [List.erase_append_right _ hxl, List.erase_cons_head]
  obtain ⟨hsegl, hprev, hnext, hsegr⟩ := seg_append.mp h.seg
  rw [Option.or_none] at hprev hnext
  have hlast : ∀ y ∈ l.getLast?, ∀ b ∈ r, y ≠ b := fun y hy => hdisj y (List.mem_of_getLast? hy)
  have hhead : ∀ z ∈ r.head?, ∀ a ∈ l, z ≠ a :=
    fun z hz a ha => (hdisj a ha z (List.mem_of_mem_head? hz)).symm
  rw [herase, hprev, hnext]
  refine ⟨?_, ?_, ?_, seg_append.mpr ⟨?_, ?_⟩⟩
  · rw [List.nodup_append]
    exact ⟨hl, hr, hdisj⟩
  · rw [h.head]
    cases l <;> simp
  · rw [h.tail]
    rcases List.eq_nil_or_concat' r with rfl | ⟨r, z, rfl⟩
    · simp
    · simp [List.getLast?_cons]
  · rw [Option.or_none]
    refine (hsegl.relink_next hl r.head?).congr ?_ fun _ _ => rfl
    intro a ha
    exact relink_of_not_mem fun z hz => hhead z hz a ha
  · rw [Option.or_none]
    apply (hsegr.relink_prev hr l.getLast?).congr (fun _ _ => rfl)
    intro b hb
    exact relink_of_not_mem fun y hy => hlast y hy b hb

end

theorem Links.congr (h : Links prev next head tail hs) (hprev : ∀ x ∈ hs, prev' x = prev x)
    (hnext : ∀ x ∈ hs, next' x = next x) : Links prev' next' head tail hs :=
  ⟨h.nodup, h.head, h.tail, h.seg.congr hprev hnext⟩

theorem Links.tail_mem (h : Links prev next head tail hs) (hx : tail = some x) : x ∈ hs := by
  rw [h.tail] at hx
  exact List.mem_of_getLast? hx

theorem Links.head_mem (h : Links prev next head tail hs) (hx : head = some x) : x ∈ hs := by
  rw [h.head] at hx
  exact List.mem_of_mem_head? hx

/-- The successor of a node is another node of the list. -/
theorem Links.next_mem (h : Links prev next head tail hs) (hx : x ∈ hs) (hy : next x = some y) :
    y ∈ hs ∧ y ≠ x := by
  obtain ⟨l, r, rfl⟩ := List.append_of_mem hx
  obtain ⟨-, -, hnext, -⟩ := seg_append.mp h.seg
  rw [Option.or_none, hy] at hnext
  have hmem : y ∈ r := List.mem_of_mem_head? hnext.symm
  have hnodup := (List.nodup_append.mp h.nodup).2.1
  refine ⟨by simp [hmem], ?_⟩
  rintro rfl
  exact (List.nodup_cons.mp hnodup).1 hmem

/-- So is its predecessor. -/
theorem Links.prev_mem (h : Links prev next head tail hs) (hx : x ∈ hs) (hy : prev x = some y) :
    y ∈ hs := by
  obtain ⟨l, r, rfl⟩ := List.append_of_mem hx
  obtain ⟨-, hprev, -⟩ := seg_append.mp h.seg
  rw [Option.or_none, hy] at hprev
  have hmem : y ∈ l := List.mem_of_getLast? hprev.symm
  simp [hmem]

end

end DList
