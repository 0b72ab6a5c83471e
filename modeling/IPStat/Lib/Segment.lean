import IPStat.Lib.Heap
import Mathlib.Data.List.Nodup
import Mathlib.Data.List.Range
import Mathlib.Data.List.Perm.Subperm
import Mathlib.Logic.Function.Basic

/-! Lists linked on a heap. A segment carries the address and the datum of each of its blocks;
a transformation says what became of one list, and that nothing else was touched. -/

namespace Heap

section
variable {α δ : Type*}

/-- Overwrite a block; `none` is the write to one that is not held. -/
def write (h : List (Block α)) (p : Nat) (a : α) : Option (List (Block α)) :=
  (read h p).map fun _ => h.set p (.live a)

/-- Change some fields of a block. -/
def modify (h : List (Block α)) (p : Nat) (f : α → α) : Option (List (Block α)) :=
  (read h p).map fun a => h.set p (.live (f a))

/-- A block never given out before. -/
def alloc (h : List (Block α)) (a : α) : List (Block α) × Nat :=
  (h ++ [.live a], h.length)

variable {h h' h'' : List (Block α)} {p q : Nat} {a b : α}

theorem lt_of_read (hr : read h p = some a) : p < h.length := by
  obtain ⟨hlt, -⟩ := List.getElem?_eq_some_iff.mp (read_eq_some.mp hr)
  exact hlt

theorem write_of_read (hr : read h p = some a) (b : α) :
    write h p b = some (h.set p (.live b)) := by
  rw [write, hr, Option.map_some]

theorem free_of_read (hr : read h p = some a) : free h p = some (h.set p .freed) := by
  rw [free, hr, Option.map_some]

theorem read_set_self (hr : read h p = some a) (b : α) : read (h.set p (.live b)) p = some b := by
  have hlt := lt_of_read hr
  apply read_eq_some.mpr
  simp [hlt]

theorem read_set_freed (hr : read h p = some a) : read (h.set p .freed) p = none := by
  have hlt := lt_of_read hr
  simp [read, hlt]

theorem read_set_of_ne (c : Block α) (hne : q ≠ p) : read (h.set p c) q = read h q := by
  rw [read, read, List.getElem?_set_ne (Ne.symm hne)]

theorem modify_spec (hr : read h p = some a) (f : α → α) :
    ∃ h', modify h p f = some h' ∧ read h' p = some (f a) ∧ ∀ q, q ≠ p → read h' q = read h q :=
  ⟨h.set p (.live (f a)), by rw [modify, hr, Option.map_some], read_set_self hr _,
    fun _ hq => read_set_of_ne _ hq⟩

theorem read_length (h : List (Block α)) : read h h.length = none := by
  simp [read]

theorem read_append_self (h : List (Block α)) (a : α) :
    read (h ++ [.live a]) h.length = some a := by
  apply read_eq_some.mpr
  simp

theorem write_append (h : List (Block α)) (a b : α) :
    write (h ++ [.live a]) h.length b = some (h ++ [.live b]) := by
  rw [write_of_read (read_append_self h a) b, List.set_append_right _ _ (Nat.le_refl h.length),
    Nat.sub_self, List.set_cons_zero]

theorem read_append_of_ne (h : List (Block α)) (a : α) (hne : q ≠ h.length) :
    read (h ++ [.live a]) q = read h q := by
  rcases Nat.lt_or_ge q h.length with hlt | hge
  · rw [read, read, List.getElem?_append_left hlt]
  · have hold : h[q]? = none := List.getElem?_eq_none hge
    have hnew : (h ++ [Block.live a])[q]? = none := by
      apply List.getElem?_eq_none
      simp
      omega
    rw [read, read, hold, hnew]

variable {mk : δ → Option Nat → α} {s t : Option Nat} {xs ys : List (Nat × δ)}

/-- The places of a list. -/
def places (xs : List (Nat × δ)) : List Nat := xs.map Prod.fst

@[simp] theorem places_nil : places ([] : List (Nat × δ)) = [] := rfl

@[simp] theorem places_cons (x : Nat × δ) (xs : List (Nat × δ)) :
    places (x :: xs) = x.1 :: places xs := rfl

@[simp] theorem places_append (xs ys : List (Nat × δ)) :
    places (xs ++ ys) = places xs ++ places ys := List.map_append

/-- From `s` on, the blocks hold these data and name one another, and the last one names `t`. -/
def Segment (mk : δ → Option Nat → α) (h : List (Block α)) :
    Option Nat → List (Nat × δ) → Option Nat → Prop
  | s, [], t => s = t
  | s, x :: xs, t => s = some x.1 ∧ ∃ n, read h x.1 = some (mk x.2 n) ∧ Segment mk h n xs t

@[simp] theorem segment_nil : Segment mk h s [] t ↔ s = t := Iff.rfl

theorem segment_cons {x : Nat × δ} :
    Segment mk h s (x :: xs) t ↔
      s = some x.1 ∧ ∃ n, read h x.1 = some (mk x.2 n) ∧ Segment mk h n xs t := Iff.rfl

theorem segment_append :
    Segment mk h s (xs ++ ys) t ↔ ∃ m, Segment mk h s xs m ∧ Segment mk h m ys t := by
  induction xs generalizing s with
  | nil => simp
  | cons x xs ih =>
    rw [List.cons_append, segment_cons]
    constructor
    · intro hc
      obtain ⟨hs, n, hx, hrest⟩ := hc
      obtain ⟨m, hxs, hys⟩ := ih.mp hrest
      exact ⟨m, ⟨hs, n, hx, hxs⟩, hys⟩
    · intro hm
      obtain ⟨m, hxs, hys⟩ := hm
      obtain ⟨hs, n, hx, hrest⟩ := hxs
      exact ⟨hs, n, hx, ih.mpr ⟨m, hrest, hys⟩⟩

/-- A segment is read from its own blocks alone. -/
theorem Segment.frame (hseg : Segment mk h s xs t)
    (hsame : ∀ x ∈ places xs, read h' x = read h x) : Segment mk h' s xs t := by
  induction xs generalizing s with
  | nil => exact hseg
  | cons x xs ih =>
    obtain ⟨hs, n, hx, hrest⟩ := hseg
    refine ⟨hs, n, ?_, ?_⟩
    · rw [hsame x.1 List.mem_cons_self, hx]
    · apply ih hrest
      intro y hy
      exact hsame y (List.mem_cons_of_mem x.1 hy)

theorem Segment.set_other (hseg : Segment mk h s xs t) {p : Nat} (hp : p ∉ places xs)
    (c : Block α) : Segment mk (h.set p c) s xs t := by
  apply hseg.frame
  intro x hx
  apply read_set_of_ne
  intro hxp
  exact hp (hxp ▸ hx)

/-- Let the last block of a segment name another one. -/
theorem Segment.relink {x : Nat × δ} (hseg : Segment mk h s (xs ++ [x]) t) (hx : x.1 ∉ places xs)
    (t' : Option Nat) : Segment mk (h.set x.1 (.live (mk x.2 t'))) s (xs ++ [x]) t' := by
  obtain ⟨m, hxs, rfl, n, hread, -⟩ := segment_append.mp hseg
  apply segment_append.mpr
  exact ⟨some x.1, hxs.set_other hx _, Eq.refl _, t', read_set_self hread _, Eq.refl _⟩

/-- Link one segment behind another. -/
theorem Segment.join {x : Nat × δ} {m q : Option Nat} (hfront : Segment mk h s (xs ++ [x]) m)
    (hback : Segment mk h q ys t) (hxs : x.1 ∉ places xs) (hys : x.1 ∉ places ys) :
    Segment mk (h.set x.1 (.live (mk x.2 q))) s (xs ++ [x] ++ ys) t := by
  apply segment_append.mpr
  exact ⟨q, hfront.relink hxs q, hback.set_other hys _⟩

theorem Segment.isSome (hseg : Segment mk h s xs t) : ∀ x ∈ places xs, (read h x).isSome := by
  induction xs generalizing s with
  | nil => simp
  | cons y xs ih =>
    obtain ⟨-, n, hy, hrest⟩ := hseg
    intro x hx
    rcases List.mem_cons.mp hx with rfl | hx
    · rw [hy]
      rfl
    · exact ih hrest x hx

theorem Segment.length_notMem (hseg : Segment mk h s xs t) : h.length ∉ places xs := by
  intro hmem
  have hheld := hseg.isSome h.length hmem
  rw [read_length] at hheld
  cases hheld

/-- A list is not touched by the next allocation. -/
theorem Segment.append_heap (hseg : Segment mk h s xs t) (a : α) :
    Segment mk (h ++ [.live a]) s xs t := by
  apply hseg.frame
  intro x hx
  apply read_append_of_ne
  intro hlast
  exact hseg.length_notMem (hlast ▸ hx)

/-- What a list is, is determined by where it starts. -/
theorem Segment.unique (hmk : Function.Injective2 mk) (hxs : Segment mk h s xs none)
    (hys : Segment mk h s ys none) : xs = ys := by
  induction xs generalizing s ys with
  | nil =>
    obtain rfl : s = none := hxs
    match ys, hys with
    | [], _ => rfl
    | _ :: _, hys => cases hys.1
  | cons x xs ih =>
    obtain ⟨rfl, n, hx, hrest⟩ := hxs
    match ys, hys with
    | [], hys => cases hys
    | y :: ys, hys =>
      obtain ⟨hplace, m, hy, htail⟩ := hys
      have hxy : x.1 = y.1 := Option.some.inj hplace
      rw [← hxy, hx] at hy
      obtain ⟨hdata, rfl⟩ := hmk (Option.some.inj hy)
      rw [ih hrest htail, Prod.ext hxy hdata]

/-- No block comes twice in a list that ends. -/
theorem Segment.nodup (hmk : Function.Injective2 mk) (hseg : Segment mk h s xs none) :
    (places xs).Nodup := by
  induction xs generalizing s with
  | nil => exact List.nodup_nil
  | cons x xs ih =>
    obtain ⟨-, n, hx, hrest⟩ := id hseg
    apply List.nodup_cons.mpr
    refine ⟨?_, ih hrest⟩
    intro hmem
    -- from a second time at `x` on, the list would be the whole list again
    obtain ⟨y, hy, hyx⟩ := List.mem_map.mp hmem
    obtain ⟨front, back, rfl⟩ := List.append_of_mem hy
    obtain ⟨m, -, hback⟩ := segment_append.mp hrest
    have hm : m = some x.1 := by rw [hback.1, hyx]
    have hagain : Segment mk h (some x.1) (x :: (front ++ y :: back)) none := ⟨rfl, n, hx, hrest⟩
    rw [hm] at hback
    have hlen := congrArg List.length (hagain.unique hmk hback)
    simp only [List.length_cons, List.length_append] at hlen
    omega

/-- A list is cut in two by the link of one of its blocks. -/
theorem Segment.cut (hmk : Function.Injective2 mk) {x : Nat × δ}
    (hseg : Segment mk h s (xs ++ [x] ++ ys) none) (q : Option Nat) :
    ∃ n, read h x.1 = some (mk x.2 n) ∧
      Segment mk (h.set x.1 (.live (mk x.2 q))) s (xs ++ [x]) q ∧
      Segment mk (h.set x.1 (.live (mk x.2 q))) n ys none := by
  have hnodup := hseg.nodup hmk
  simp only [places_append, places_cons, places_nil, List.nodup_append] at hnodup
  have hfront : x.1 ∉ places xs := by
    intro hmem
    exact hnodup.1.2.2 x.1 hmem x.1 List.mem_cons_self (Eq.refl _)
  have hback : x.1 ∉ places ys := by
    intro hmem
    exact hnodup.2.2 x.1 (by simp) x.1 hmem (Eq.refl _)
  obtain ⟨m, hupto, hafter⟩ := segment_append.mp hseg
  obtain ⟨-, -, -, n, hread, hn⟩ := segment_append.mp hupto
  obtain rfl : n = m := hn
  exact ⟨n, hread, hupto.relink hfront q, hafter.set_other hback _⟩

/-- There are no more held places than blocks. -/
theorem length_le_of_nodup {ps : List Nat} (hnodup : ps.Nodup)
    (hheld : ∀ x ∈ ps, (read h x).isSome) : ps.length ≤ h.length := by
  have hsub : ps ⊆ List.range h.length := by
    intro x hx
    obtain ⟨a, ha⟩ := Option.isSome_iff_exists.mp (hheld x hx)
    exact List.mem_range.mpr (lt_of_read ha)
  have hle := (hnodup.subperm hsub).length_le
  rwa [List.length_range] at hle

theorem Segment.length_le (hmk : Function.Injective2 mk) (hseg : Segment mk h s xs none) :
    xs.length ≤ h.length := by
  have hle := length_le_of_nodup (hseg.nodup hmk) hseg.isSome
  rwa [places, List.length_map] at hle

/-- The list at `s` was `xs` and now is the one at `t`, that is `ys`: what came in was not held
before, what went out is not held any more, and every other block is as it was. -/
structure Transforms (mk : δ → Option Nat → α) (h h' : List (Block α)) (xs : List (Nat × δ))
    (t : Option Nat) (ys : List (Nat × δ)) : Prop where
  list : Segment mk h' t ys none
  other : ∀ x, x ∉ places xs → x ∉ places ys → read h' x = read h x
  fresh : ∀ x ∈ places ys, x ∉ places xs → read h x = none
  dropped : ∀ x ∈ places xs, x ∉ places ys → read h' x = none

theorem Transforms.refl (hseg : Segment mk h s xs none) : Transforms mk h h xs s xs where
  list := hseg
  other _ _ _ := Eq.refl _
  fresh _ hin hout := absurd hin hout
  dropped _ hin hout := absurd hin hout

/-- A held block that is not of the list is not touched. -/
theorem Transforms.read_of_notMem (ht : Transforms mk h h' xs t ys) {x : Nat}
    (hx : x ∉ places xs) (hheld : (read h x).isSome) : read h' x = read h x ∧ x ∉ places ys := by
  have hout : x ∉ places ys := by
    intro hin
    rw [ht.fresh x hin hx] at hheld
    cases hheld
  exact ⟨ht.other x hx hout, hout⟩

/-- A transformation that keeps the places keeps the contents of all other blocks. -/
theorem Transforms.of_perm (hlist : Segment mk h' t ys none)
    (hperm : ∀ x, x ∈ places ys ↔ x ∈ places xs)
    (hother : ∀ x, x ∉ places xs → read h' x = read h x) : Transforms mk h h' xs t ys where
  list := hlist
  other x hx _ := hother x hx
  fresh x hin hout := absurd ((hperm x).mp hin) hout
  dropped x hin hout := absurd ((hperm x).mpr hin) hout

end

end Heap
