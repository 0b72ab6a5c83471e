import Mathlib.Data.List.Basic
import Mathlib.Tactic.SplitIfs

namespace Quoted

/-- Where the reader of a statement stands: outside the literals, inside one, behind a quote
that closes it unless it is doubled, or behind a backslash. -/
inductive Mode where
  | outside
  | inside
  | quote
  | slash
  deriving DecidableEq, Repr

/-- What a backslash and a byte stand for in a literal. -/
def unescape (b : UInt8) : List UInt8 :=
  if b = 48 then [0]
  else if b = 98 then [8]
  else if b = 110 then [10]
  else if b = 114 then [13]
  else if b = 116 then [9]
  else if b = 90 then [26]
  else if b = 37 ∨ b = 95 then [92, b]
  else [b]

def onHead (s : List UInt8) (pieces : List (List UInt8)) : List (List UInt8) :=
  pieces.modifyHead (s ++ ·)

/-- The pieces of a statement: plain text and the values of its single-quoted literals in turn.
There is no reading of a literal that is not closed. -/
def pieces : Mode → List UInt8 → Option (List (List UInt8))
  | .outside, [] => some [[]]
  | .outside, b :: bs =>
    if b = 39 then (pieces .inside bs).map ([] :: ·) else (pieces .outside bs).map (onHead [b])
  | .inside, [] => none
  | .inside, b :: bs =>
    if b = 39 then pieces .quote bs
    else if b = 92 then pieces .slash bs
    else (pieces .inside bs).map (onHead [b])
  | .quote, [] => some [[], []]
  | .quote, b :: bs =>
    if b = 39 then (pieces .inside bs).map (onHead [39])
    else (pieces .outside bs).map fun ps => [] :: onHead [b] ps
  | .slash, [] => none
  | .slash, b :: bs => (pieces .inside bs).map (onHead (unescape b))

/-- No quote, and no backslash except before the two bytes that keep theirs. -/
def Verbatim (s : List UInt8) : Prop :=
  39 ∉ s ∧ ∀ t u, s = t ++ 92 :: u → u.head? = some 37 ∨ u.head? = some 95

section
variable {s t pre post : List UInt8} {b c : UInt8} {p : List UInt8} {ps : List (List UInt8)}

@[simp] theorem onHead_cons (s p : List UInt8) (ps : List (List UInt8)) :
    onHead s (p :: ps) = (s ++ p) :: ps := rfl

theorem onHead_nil_left (ps : List (List UInt8)) : onHead [] ps = ps := by
  cases ps <;> rfl

theorem onHead_onHead (s t : List UInt8) (ps : List (List UInt8)) :
    onHead s (onHead t ps) = onHead (s ++ t) ps := by
  cases ps with
  | nil => rfl
  | cons p ps => simp

theorem verbatim_nil : Verbatim [] := by
  refine ⟨by simp, ?_⟩
  intro t u h
  cases t <;> cases h

theorem verbatim_cons (hb : b ≠ 39) (hslash : b ≠ 92) : Verbatim (b :: s) ↔ Verbatim s := by
  constructor
  · rintro ⟨hquote, hfollow⟩
    refine ⟨fun hm => hquote (List.mem_cons_of_mem b hm), ?_⟩
    intro t u heq
    exact hfollow (b :: t) u (by rw [heq, List.cons_append])
  · rintro ⟨hquote, hfollow⟩
    refine ⟨by simp [hquote, hb.symm], ?_⟩
    intro t u heq
    cases t with
    | nil =>
      cases heq
      exact absurd rfl hslash
    | cons a t =>
      cases heq
      exact hfollow t u rfl

theorem verbatim_slash (hc : c = 37 ∨ c = 95) : Verbatim (92 :: c :: s) ↔ Verbatim s := by
  have hne : c ≠ 39 ∧ c ≠ 92 := by
    rcases hc with rfl | rfl <;> decide
  refine Iff.trans ?_ (verbatim_cons hne.1 hne.2)
  constructor
  · rintro ⟨hquote, hfollow⟩
    refine ⟨fun hm => hquote (List.mem_cons_of_mem 92 hm), ?_⟩
    intro t u heq
    exact hfollow (92 :: t) u (by rw [heq, List.cons_append])
  · rintro ⟨hquote, hfollow⟩
    refine ⟨by simpa using hquote, ?_⟩
    intro t u heq
    cases t with
    | nil =>
      cases heq
      rcases hc with rfl | rfl <;> simp
    | cons a t =>
      rw [List.cons_append, List.cons.injEq] at heq
      exact hfollow t u heq.2

theorem pieces_outside (hpre : 39 ∉ pre) (s : List UInt8) :
    pieces .outside (pre ++ s) = (pieces .outside s).map (onHead pre) := by
  induction pre with
  | nil =>
    have hid : onHead [] = id := funext onHead_nil_left
    simp [hid]
  | cons b pre ih =>
    rw [List.mem_cons, not_or] at hpre
    have hb : b ≠ 39 := Ne.symm hpre.1
    simp only [List.cons_append, pieces, if_neg hb, ih hpre.2, Option.map_map]
    congr 1
    funext ps
    exact onHead_onHead [b] pre ps

theorem pieces_plain (hs : 39 ∉ s) : pieces .outside s = some [s] := by
  have h := pieces_outside hs []
  rw [List.append_nil] at h
  simp [h, pieces]

theorem pieces_closed (hpost : 39 ∉ post) : pieces .quote post = some [[], post] := by
  cases post with
  | nil => rfl
  | cons b post =>
    rw [List.mem_cons, not_or] at hpost
    simp [pieces, if_neg (Ne.symm hpost.1), pieces_plain hpost.2]

theorem unescape_kept (hc : c = 37 ∨ c = 95) : unescape c = [92, c] := by
  rcases hc with rfl | rfl <;> decide

/-- A verbatim text is read as itself. -/
theorem pieces_verbatim (hs : Verbatim s) (hpost : 39 ∉ post) :
    pieces .inside (s ++ 39 :: post) = some [s, post] := by
  induction hn : s.length using Nat.strongRecOn generalizing s with
  | ind n ih =>
    cases s with
    | nil => simp [pieces, pieces_closed hpost]
    | cons b s =>
      have hquote : b ≠ 39 := by
        rintro rfl
        exact hs.1 List.mem_cons_self
      by_cases hslash : b = 92
      · subst hslash
        have hfollow := hs.2 [] s rfl
        cases s with
        | nil => simp at hfollow
        | cons c s =>
          have hc : c = 37 ∨ c = 95 := by simpa using hfollow
          have hrest := ih s.length (by simp at hn; omega) ((verbatim_slash hc).mp hs) rfl
          simp [pieces, hrest, unescape_kept hc]
      · have hrest := ih s.length (by simp at hn; omega)
          ((verbatim_cons hquote hslash).mp hs) rfl
        simp [pieces, hquote, hslash, hrest]

/-- The bytes of all pieces together. -/
def total (ps : List (List UInt8)) : Nat := ps.flatten.length

@[simp] theorem total_nil : total [] = 0 := rfl

@[simp] theorem total_cons (p : List UInt8) (ps : List (List UInt8)) :
    total (p :: ps) = p.length + total ps := by
  simp [total]

theorem total_onHead_le (s : List UInt8) (ps : List (List UInt8)) :
    total (onHead s ps) ≤ s.length + total ps := by
  cases ps with
  | nil => simp [onHead, total]
  | cons p ps => simp [Nat.add_assoc]

theorem length_unescape_le (b : UInt8) : (unescape b).length ≤ 2 := by
  unfold unescape
  split_ifs <;> simp

/-- What is read is no longer than what stands there, and inside a literal its end is not read. -/
theorem total_le (m : Mode) (s : List UInt8) {ps : List (List UInt8)} (h : pieces m s = some ps) :
    match m with
    | .outside => total ps ≤ s.length
    | .inside => total ps + 1 ≤ s.length
    | .quote => total ps ≤ s.length
    | .slash => total ps ≤ s.length := by
  induction s generalizing m ps with
  | nil =>
    cases m <;> simp only [pieces] at h
    · cases h
      simp [total]
    · cases h
    · cases h
      simp [total]
    · cases h
  | cons b s ih =>
    have hone (ps : List (List UInt8)) : total (onHead [b] ps) ≤ 1 + total ps :=
      total_onHead_le [b] ps
    cases m with
    | outside =>
      simp only [pieces] at h
      split_ifs at h with hb
      · obtain ⟨qs, hq, rfl⟩ := Option.map_eq_some_iff.mp h
        have hle := ih .inside hq
        simp only [total_cons, List.length_cons, List.length_nil] at hle ⊢
        omega
      · obtain ⟨qs, hq, rfl⟩ := Option.map_eq_some_iff.mp h
        have hle := ih .outside hq
        have := hone qs
        simp only [List.length_cons] at hle ⊢
        omega
    | inside =>
      simp only [pieces] at h
      split_ifs at h with hb hslash
      · have hle := ih .quote h
        simp only [List.length_cons] at hle ⊢
        omega
      · have hle := ih .slash h
        simp only [List.length_cons] at hle ⊢
        omega
      · obtain ⟨qs, hq, rfl⟩ := Option.map_eq_some_iff.mp h
        have hle := ih .inside hq
        have := hone qs
        simp only [List.length_cons] at hle ⊢
        omega
    | quote =>
      simp only [pieces] at h
      split_ifs at h with hb
      · obtain ⟨qs, hq, rfl⟩ := Option.map_eq_some_iff.mp h
        have hle := ih .inside hq
        have := total_onHead_le [39] qs
        simp only [List.length_cons, List.length_nil] at hle this ⊢
        omega
      · obtain ⟨qs, hq, rfl⟩ := Option.map_eq_some_iff.mp h
        have hle := ih .outside hq
        have := hone qs
        simp only [total_cons, List.length_cons, List.length_nil] at hle ⊢
        omega
    | slash =>
      simp only [pieces] at h
      obtain ⟨qs, hq, rfl⟩ := Option.map_eq_some_iff.mp h
      have hle := ih .inside hq
      have := total_onHead_le (unescape b) qs
      have := length_unescape_le b
      simp only [List.length_cons] at hle ⊢
      omega

/-- A literal and what stands behind it, once the first bytes of the literal are known. -/
theorem map_onHead_eq_pair {read : Option (List (List UInt8))}
    (h : read.map (onHead t) = some [s, post]) : ∃ u, read = some [u, post] ∧ t ++ u = s := by
  obtain ⟨ps, rfl, heq⟩ := Option.map_eq_some_iff.mp h
  cases ps with
  | nil => cases heq
  | cons p qs =>
    rw [onHead_cons, List.cons.injEq] at heq
    exact ⟨p, by rw [heq.2], heq.1⟩

/-- Nothing is read inside a literal that is as long as the text left there. -/
theorem pieces_ne_of_long (hlong : s.length ≤ t.length + post.length) :
    pieces .inside s ≠ some [t, post] := by
  intro h
  have hle := total_le .inside s h
  simp only [total_cons, total_nil] at hle
  omega

/-- Only a verbatim text is read as itself: any other escape, and any quote, costs a byte. -/
theorem verbatim_of_pieces (h : pieces .inside (s ++ 39 :: post) = some [s, post]) :
    Verbatim s := by
  induction hn : s.length using Nat.strongRecOn generalizing s with
  | ind n ih =>
    cases s with
    | nil => exact verbatim_nil
    | cons b s =>
      have hshort : s.length < n := by
        rw [← hn]
        simp
      by_cases hquote : b = 39
      · -- the literal ends here, or the quote is doubled
        subst hquote
        exfalso
        cases s with
        | nil =>
          simp only [List.cons_append, List.nil_append, pieces, if_true] at h
          obtain ⟨u, hq, hu⟩ := map_onHead_eq_pair h
          exact pieces_ne_of_long (by omega) hq
        | cons c s =>
          simp only [List.cons_append, pieces, if_true] at h
          split_ifs at h
          · obtain ⟨u, hq, hu⟩ := map_onHead_eq_pair h
            have hlen := congrArg List.length hu
            refine pieces_ne_of_long ?_ hq
            simp only [List.length_append, List.length_cons, List.length_nil] at hlen ⊢
            omega
          · obtain ⟨qs, -, heq⟩ := Option.map_eq_some_iff.mp h
            cases heq
      by_cases hslash : b = 92
      · subst hslash
        cases s with
        | nil =>
          simp only [List.cons_append, List.nil_append, pieces] at h
          obtain ⟨u, hq, hu⟩ := map_onHead_eq_pair h
          exact absurd hu (by simp [unescape])
        | cons c s =>
          simp only [List.cons_append, pieces, if_neg hquote, if_true] at h
          obtain ⟨u, hq, hu⟩ := map_onHead_eq_pair h
          by_cases hc : c = 37 ∨ c = 95
          · rw [unescape_kept hc] at hu
            have hus : u = s := by simpa using hu
            rw [hus] at hq
            refine (verbatim_slash hc).mpr (ih s.length ?_ hq rfl)
            simp only [List.length_cons] at hshort
            omega
          · -- one byte stands for two
            have hone : (unescape c).length = 1 := by
              unfold unescape
              split_ifs <;> rfl
            have hlen := congrArg List.length hu
            exfalso
            refine pieces_ne_of_long ?_ hq
            simp only [List.length_append, List.length_cons] at hlen ⊢
            omega
      · simp only [List.cons_append, pieces, if_neg hquote, if_neg hslash] at h
        obtain ⟨u, hq, hu⟩ := map_onHead_eq_pair h
        have hus : u = s := by simpa using hu
        rw [hus] at hq
        exact (verbatim_cons hquote hslash).mpr (ih s.length hshort hq rfl)

/-- A statement that puts a text between two quotes holds it as one literal exactly when the
text is verbatim. -/
theorem pieces_quoted_iff (hpre : 39 ∉ pre) (hpost : 39 ∉ post) :
    pieces .outside (pre ++ 39 :: (s ++ 39 :: post)) = some [pre, s, post] ↔ Verbatim s := by
  have hread : pieces .outside (pre ++ 39 :: (s ++ 39 :: post)) =
      (pieces .inside (s ++ 39 :: post)).map (pre :: ·) := by
    rw [pieces_outside hpre]
    simp [pieces, Option.map_map, Function.comp_def]
  rw [hread]
  constructor
  · intro h
    obtain ⟨ps, hps, heq⟩ := Option.map_eq_some_iff.mp h
    rw [List.cons.injEq] at heq
    exact verbatim_of_pieces (heq.2 ▸ hps)
  · intro hs
    rw [pieces_verbatim hs hpost, Option.map_some]

end

end Quoted
