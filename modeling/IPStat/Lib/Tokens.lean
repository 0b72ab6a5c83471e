import Mathlib.Data.List.Basic
import Mathlib.Data.List.TakeWhile
import Mathlib.Tactic.SplitIfs

/-! The tokens of a list: its maximal runs without a separator. -/

namespace Tokens

variable {α : Type*} {p : α → Bool}

/-- The parts between separators that are not empty. -/
def tokens (p : α → Bool) (s : List α) : List (List α) := (s.splitOnP p).filter (· ≠ [])

/-- No separator stands at place `k`, which is not behind the end. -/
def Inside (p : α → Bool) (s : List α) (k : Nat) : Prop := ∃ a, s[k]? = some a ∧ p a = false

/-- The places from `i` to `j` are a maximal run without a separator. -/
structure IsRun (p : α → Bool) (s : List α) (i j : Nat) : Prop where
  nonempty : i < j
  inside : ∀ k, i ≤ k → k < j → Inside p s k
  start : ∀ k, k + 1 = i → ¬ Inside p s k
  stop : ¬ Inside p s j

/-- What stands from place `i` to place `j`. -/
def slice (s : List α) (i j : Nat) : List α := (s.drop i).take (j - i)

/-- The maximal runs of a list in order, with the tokens that stand on them. -/
structure Runs (p : α → Bool) (s : List α) (runs : List (Nat × Nat)) : Prop where
  sorted : runs.Pairwise fun run next => run.2 < next.1
  mem_iff : ∀ i j, (i, j) ∈ runs ↔ IsRun p s i j
  tokens_eq : tokens p s = runs.map fun run => slice s run.1 run.2

/-- The run of a list without a separator. -/
def firstRun (tok : List α) : List (Nat × Nat) := if tok = [] then [] else [(0, tok.length)]

section
variable {s tok rest : List α} {d : α}

@[simp] theorem tokens_nil (p : α → Bool) : tokens p ([] : List α) = [] := by simp [tokens]

theorem tokens_of_forall (h : ∀ a ∈ s, p a = false) : tokens p s = if s = [] then [] else [s] := by
  rw [tokens, List.splitOnP_eq_singleton h]
  split_ifs with hs
  · simp [hs]
  · simp [hs]

theorem tokens_append (h : ∀ a ∈ tok, p a = false) (hd : p d = true) (rest : List α) :
    tokens p (tok ++ d :: rest) = (if tok = [] then [] else [tok]) ++ tokens p rest := by
  rw [tokens, List.splitOnP_append_cons_of_forall_mem h d hd]
  split_ifs with htok
  · simp [htok, tokens]
  · simp [htok, tokens]

/-- A list goes up to its first separator, or has none. -/
theorem eq_append_or (p : α → Bool) (s : List α) : (∀ a ∈ s, p a = false) ∨
    ∃ tok d rest, s = tok ++ d :: rest ∧ (∀ a ∈ tok, p a = false) ∧ p d = true := by
  cases hrest : s.dropWhile fun a => !p a with
  | nil =>
    left
    simpa [List.dropWhile_eq_nil_iff] using hrest
  | cons d rest =>
    right
    have hd := List.head_dropWhile_not (fun a => !p a) (l := s) (by simp [hrest])
    simp only [hrest, List.head_cons, Bool.not_eq_false'] at hd
    refine ⟨s.takeWhile fun a => !p a, d, rest, ?_, ?_, hd⟩
    · rw [← hrest, List.takeWhile_append_dropWhile]
    · intro a ha
      simpa using List.mem_takeWhile_imp ha

/-- Induction from separator to separator. -/
theorem splitting {motive : List α → Prop} (p : α → Bool)
    (last : ∀ s, (∀ a ∈ s, p a = false) → motive s)
    (sep : ∀ tok d rest, (∀ a ∈ tok, p a = false) → p d = true → motive rest →
      motive (tok ++ d :: rest)) (s : List α) : motive s := by
  obtain hall | ⟨tok, d, rest, hs, htok, hd⟩ := eq_append_or p s
  · exact last s hall
  · have hlen : rest.length < s.length := by
      rw [hs, List.length_append, List.length_cons]
      omega
    rw [hs]
    exact sep tok d rest htok hd (splitting p last sep rest)
termination_by s.length

theorem tokens_eq_nil_iff : tokens p s = [] ↔ ∀ a ∈ s, p a = true := by
  induction s using splitting p with
  | last s hs =>
    rw [tokens_of_forall hs]
    cases s with
    | nil => simp
    | cons a s => simp [hs a List.mem_cons_self]
  | sep tok d rest htok hd ih =>
    rw [tokens_append htok hd, List.append_eq_nil_iff, ih]
    cases tok with
    | nil => simp [hd]
    | cons a tok => simp [htok a List.mem_cons_self]

theorem inside_append (h : ∀ a ∈ tok, p a = false) (hd : p d = true) (k : Nat) :
    Inside p (tok ++ d :: rest) k ↔
      k < tok.length ∨ tok.length < k ∧ Inside p rest (k - (tok.length + 1)) := by
  rw [Inside, Inside]
  obtain hlt | rfl | hgt := Nat.lt_trichotomy k tok.length
  · rw [List.getElem?_append_left hlt, List.getElem?_eq_getElem hlt]
    simp [hlt, h]
  · simp [hd]
  · obtain ⟨j, rfl⟩ : ∃ j, k = tok.length + 1 + j := ⟨k - (tok.length + 1), by omega⟩
    rw [List.getElem?_append_right (by omega), show tok.length + 1 + j - tok.length = j + 1 by omega,
      List.getElem?_cons_succ, Nat.add_sub_cancel_left]
    constructor
    · intro ha
      exact .inr ⟨hgt, ha⟩
    · intro ha
      obtain hlt | ⟨-, ha⟩ := ha
      · omega
      · exact ha

theorem inside_of_forall (h : ∀ a ∈ s, p a = false) (k : Nat) : Inside p s k ↔ k < s.length := by
  rw [Inside]
  constructor
  · intro hin
    obtain ⟨a, ha, -⟩ := hin
    exact (List.getElem?_eq_some_iff.mp ha).1
  · intro hk
    exact ⟨s[k], List.getElem?_eq_getElem hk, h _ (List.getElem_mem hk)⟩

theorem isRun_of_forall (h : ∀ a ∈ s, p a = false) (i j : Nat) :
    IsRun p s i j ↔ s ≠ [] ∧ i = 0 ∧ j = s.length := by
  have hpos : s ≠ [] ↔ 0 < s.length := List.length_pos_iff.symm
  constructor
  · intro hrun
    obtain ⟨hne, hin, hstart, hstop⟩ := hrun
    have hi := hin i (Nat.le_refl i) hne
    have hlast := hin (j - 1) (by omega) (by omega)
    rw [inside_of_forall h] at hi hlast hstop
    have hzero : i = 0 := by
      by_contra hi0
      apply hstart (i - 1) (by omega)
      rw [inside_of_forall h]
      omega
    rw [hpos]
    omega
  · intro hrun
    obtain ⟨hne, rfl, rfl⟩ := hrun
    refine ⟨hpos.mp hne, ?_, fun k hk => by omega, ?_⟩
    · intro k _ hk
      exact (inside_of_forall h k).mpr hk
    · rw [inside_of_forall h]
      omega

theorem not_inside_sep (h : ∀ a ∈ tok, p a = false) (hd : p d = true) :
    ¬ Inside p (tok ++ d :: rest) tok.length := by
  rw [inside_append h hd]
  omega

theorem inside_behind (h : ∀ a ∈ tok, p a = false) (hd : p d = true) (k : Nat) :
    Inside p (tok ++ d :: rest) (tok.length + 1 + k) ↔ Inside p rest k := by
  rw [inside_append h hd, Nat.add_sub_cancel_left]
  constructor
  · intro hk
    obtain hlt | ⟨-, hk⟩ := hk
    · omega
    · exact hk
  · intro hk
    exact .inr ⟨by omega, hk⟩

/-- A run behind the first separator is one of the rest. -/
theorem isRun_behind (h : ∀ a ∈ tok, p a = false) (hd : p d = true) (i j : Nat) :
    IsRun p (tok ++ d :: rest) (tok.length + 1 + i) (tok.length + 1 + j) ↔ IsRun p rest i j := by
  constructor
  · intro hrun
    obtain ⟨hne, hin, hstart, hstop⟩ := hrun
    refine ⟨by omega, ?_, ?_, ?_⟩
    · intro k hk hk'
      exact (inside_behind h hd k).mp (hin _ (by omega) (by omega))
    · intro k hk
      rw [← inside_behind h hd]
      exact hstart _ (by omega)
    · rwa [← inside_behind h hd]
  · intro hrun
    obtain ⟨hne, hin, hstart, hstop⟩ := hrun
    refine ⟨by omega, ?_, ?_, ?_⟩
    · intro k hk hk'
      obtain ⟨k, rfl⟩ : ∃ k', k = tok.length + 1 + k' := ⟨k - (tok.length + 1), by omega⟩
      exact (inside_behind h hd k).mpr (hin k (by omega) (by omega))
    · intro k hk
      cases i with
      | zero =>
        obtain rfl : k = tok.length := by omega
        exact not_inside_sep h hd
      | succ i =>
        obtain rfl : k = tok.length + 1 + i := by omega
        rw [inside_behind h hd]
        exact hstart i rfl
    · rwa [inside_behind h hd]

/-- The only run that starts before the first separator is the one up to it. -/
theorem isRun_before (h : ∀ a ∈ tok, p a = false) (hd : p d = true) {i : Nat}
    (hi : i ≤ tok.length) (j : Nat) :
    IsRun p (tok ++ d :: rest) i j ↔ tok ≠ [] ∧ i = 0 ∧ j = tok.length := by
  have hpos : tok ≠ [] ↔ 0 < tok.length := List.length_pos_iff.symm
  have hbefore (k : Nat) (hk : k < tok.length) : Inside p (tok ++ d :: rest) k :=
    (inside_append h hd k).mpr (.inl hk)
  have hsep : ¬ Inside p (tok ++ d :: rest) tok.length := not_inside_sep h hd
  constructor
  · intro hrun
    obtain ⟨hne, hin, hstart, hstop⟩ := hrun
    have hj : j = tok.length := by
      obtain hlt | rfl | hgt := Nat.lt_trichotomy j tok.length
      · exact absurd (hbefore j hlt) hstop
      · rfl
      · exact absurd (hin tok.length hi hgt) hsep
    have hi0 : i = 0 := by
      by_contra hi0
      exact hstart (i - 1) (by omega) (hbefore (i - 1) (by omega))
    rw [hpos]
    omega
  · intro hrun
    obtain ⟨htok, rfl, rfl⟩ := hrun
    exact ⟨hpos.mp htok, fun k _ hk => hbefore k hk, fun k hk => by omega, hsep⟩

theorem slice_append (tok rest : List α) (d : α) (i j : Nat) :
    slice (tok ++ d :: rest) (tok.length + 1 + i) (tok.length + 1 + j) = slice rest i j := by
  have hdrop : (tok ++ d :: rest).drop (tok.length + 1 + i) = rest.drop i := by
    have hlen : (tok ++ [d]).length = tok.length + 1 := by simp
    rw [← List.drop_drop, List.append_cons, List.drop_left' hlen]
  rw [slice, slice, hdrop, Nat.add_sub_add_left]

theorem mem_firstRun {i j : Nat} :
    (i, j) ∈ firstRun tok ↔ tok ≠ [] ∧ i = 0 ∧ j = tok.length := by
  rw [firstRun]
  split_ifs with hnil
  · simp [hnil]
  · simp [hnil]

theorem firstRun_pairwise (tok : List α) :
    (firstRun tok).Pairwise fun run next => run.2 < next.1 := by
  rw [firstRun]
  split_ifs
  · exact List.Pairwise.nil
  · exact List.pairwise_singleton _ _

theorem firstRun_map (tok rest : List α) :
    (firstRun tok).map (fun run => slice (tok ++ rest) run.1 run.2) =
      if tok = [] then [] else [tok] := by
  rw [firstRun]
  split_ifs
  · rfl
  · simp [slice]

theorem Runs.of_forall (h : ∀ a ∈ s, p a = false) : Runs p s (firstRun s) where
  sorted := firstRun_pairwise s
  mem_iff i j := by rw [mem_firstRun, isRun_of_forall h]
  tokens_eq := by
    have hmap := firstRun_map s []
    rw [List.append_nil] at hmap
    rw [tokens_of_forall h, hmap]

/-- The runs of a list are the one before its first separator, and those behind it. -/
theorem Runs.append {runs : List (Nat × Nat)} (h : ∀ a ∈ tok, p a = false) (hd : p d = true)
    (hr : Runs p rest runs) : Runs p (tok ++ d :: rest)
      (firstRun tok ++ runs.map fun run => (tok.length + 1 + run.1, tok.length + 1 + run.2)) where
  sorted := by
    rw [List.pairwise_append, List.pairwise_map]
    refine ⟨firstRun_pairwise tok, hr.sorted.imp fun hlt => Nat.add_lt_add_left hlt _, ?_⟩
    intro run hrun next hnext
    obtain ⟨-, -, hstop⟩ := mem_firstRun.mp hrun
    obtain ⟨q, -, rfl⟩ := List.mem_map.mp hnext
    show run.2 < tok.length + 1 + q.1
    omega
  mem_iff i j := by
    rw [List.mem_append, mem_firstRun, List.mem_map]
    by_cases hi : i ≤ tok.length
    · rw [isRun_before h hd hi, or_iff_left]
      intro hmem
      obtain ⟨q, -, hq⟩ := hmem
      have hplace := congrArg Prod.fst hq
      change tok.length + 1 + q.1 = i at hplace
      omega
    · constructor
      · intro hmem
        obtain ⟨-, hi0, -⟩ | ⟨q, hq, heq⟩ := hmem
        · omega
        · cases heq
          exact (isRun_behind h hd q.1 q.2).mpr ((hr.mem_iff q.1 q.2).mp hq)
      · intro hrun
        have hlt := hrun.nonempty
        obtain ⟨i, rfl⟩ : ∃ k, i = tok.length + 1 + k := ⟨i - (tok.length + 1), by omega⟩
        obtain ⟨j, rfl⟩ : ∃ k, j = tok.length + 1 + k := ⟨j - (tok.length + 1), by omega⟩
        right
        exact ⟨(i, j), (hr.mem_iff i j).mpr ((isRun_behind h hd i j).mp hrun), rfl⟩
  tokens_eq := by
    rw [tokens_append h hd, hr.tokens_eq, List.map_append, firstRun_map, List.map_map]
    congr 1
    apply List.map_congr_left
    intro run _
    exact (slice_append tok rest d run.1 run.2).symm

/-- Every list has its runs. -/
theorem exists_runs (p : α → Bool) (s : List α) : ∃ runs, Runs p s runs := by
  induction s using splitting p with
  | last s hs => exact ⟨firstRun s, Runs.of_forall hs⟩
  | sep tok d rest htok hd ih =>
    obtain ⟨runs, hruns⟩ := ih
    exact ⟨_, hruns.append htok hd⟩

theorem tokens_cut (htok : ∀ a ∈ tok, p a = false) (n : Nat) :
    tokens p (tok.take n) = [] ∨ tok ≠ [] ∧ 0 < n ∧ tokens p (tok.take n) = [tok.take n] := by
  rw [tokens_of_forall fun a ha => htok a (List.mem_of_mem_take ha)]
  split_ifs with hnil
  · exact .inl rfl
  · refine .inr ⟨?_, ?_, rfl⟩
    · intro h
      simp [h] at hnil
    · exact Nat.pos_of_ne_zero fun h => hnil (by rw [h, List.take_zero])

/-- The tokens of a list that is cut: those before the cut, and what is left of the one it goes
through. -/
theorem tokens_take (p : α → Bool) (s : List α) (n : Nat) : ∃ k last,
    tokens p (s.take n) = (tokens p s).take k ++ last ∧
      (last = [] ∨ ∃ tok j, (tokens p s)[k]? = some tok ∧ 0 < j ∧ last = [tok.take j]) := by
  induction s using splitting p generalizing n with
  | last s hs =>
    refine ⟨0, tokens p (s.take n), by simp, ?_⟩
    obtain hnil | ⟨hne, hn, hone⟩ := tokens_cut hs n
    · exact .inl hnil
    · right
      refine ⟨s, n, ?_, hn, hone⟩
      rw [tokens_of_forall hs, if_neg hne]
      rfl
  | sep tok d rest htok hd ih =>
    by_cases hn : n ≤ tok.length
    · refine ⟨0, tokens p (tok.take n), ?_, ?_⟩
      · rw [List.take_append_of_le_length hn, List.take_zero, List.nil_append]
      · obtain hnil | ⟨hne, hpos, hone⟩ := tokens_cut htok n
        · exact .inl hnil
        · right
          refine ⟨tok, n, ?_, hpos, hone⟩
          rw [tokens_append htok hd, if_neg hne]
          rfl
    · obtain ⟨m, rfl⟩ : ∃ m, n = tok.length + (m + 1) := ⟨n - tok.length - 1, by omega⟩
      obtain ⟨k, last, htake, hlast⟩ := ih m
      rw [List.take_length_add_append, List.take_succ_cons, tokens_append htok hd,
        tokens_append htok hd, htake]
      by_cases hnil : tok = []
      · rw [if_pos hnil]
        exact ⟨k, last, rfl, hlast⟩
      · rw [if_neg hnil]
        refine ⟨k + 1, last, ?_, ?_⟩
        · rfl
        · exact hlast

end

end Tokens
