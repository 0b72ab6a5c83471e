import IPStat.Lib.Tally
import Mathlib.Data.List.Induction

namespace Chain

variable {α β γ : Type*}

/-- Positions and elements visited by a scan that acts on every match and ends at the first
match that stops it. The test may be undefined; numbering starts at `i`. -/
def visited (test : α → Option Bool) (stop : α → Bool) : Nat → List α → Option (List (Nat × α))
  | _, [] => some []
  | i, a :: as =>
    match test a with
    | none => none
    | some false => visited test stop (i + 1) as
    | some true =>
      if stop a then some [(i, a)] else (visited test stop (i + 1) as).map ((i, a) :: ·)

/-- Apply `f` at the listed positions. -/
def applyAt (f : α → α) (ps : List Nat) : Nat → List α → List α
  | _, [] => []
  | i, a :: as => (if i ∈ ps then f a else a) :: applyAt f ps (i + 1) as

section
variable {test : α → Option Bool} {stop : α → Bool}

@[simp] theorem visited_nil (i : Nat) : visited test stop i [] = some [] := rfl

theorem visited_undefined {a : α} (i : Nat) (as : List α) (h : test a = none) :
    visited test stop i (a :: as) = none := by
  simp [visited, h]

theorem visited_skip {a : α} (i : Nat) (as : List α) (h : test a = some false) :
    visited test stop i (a :: as) = visited test stop (i + 1) as := by
  simp [visited, h]

theorem visited_stop {a : α} (i : Nat) (as : List α) (h : test a = some true)
    (hs : stop a = true) : visited test stop i (a :: as) = some [(i, a)] := by
  simp [visited, h, hs]

theorem visited_go {a : α} (i : Nat) (as : List α) (h : test a = some true)
    (hs : stop a = false) : visited test stop i (a :: as) =
      (visited test stop (i + 1) as).map ((i, a) :: ·) := by
  simp [visited, h, hs]

/-- What a visited pair is: a position of the list, its element, and a passed test. -/
theorem visited_get {i : Nat} {l : List α} {ps : List (Nat × α)}
    (h : visited test stop i l = some ps) :
    ∀ q ∈ ps, i ≤ q.1 ∧ l[q.1 - i]? = some q.2 ∧ test q.2 = some true := by
  induction l generalizing i ps with
  | nil => simp at h; simp [h]
  | cons a as ih =>
    have tail (qs : List (Nat × α)) (hq : visited test stop (i + 1) as = some qs)
        (q : Nat × α) (hm : q ∈ qs) :
        i ≤ q.1 ∧ (a :: as)[q.1 - i]? = some q.2 ∧ test q.2 = some true := by
      obtain ⟨hge, hget, ht⟩ := ih hq q hm
      have he : q.1 - i = (q.1 - (i + 1)) + 1 := by omega
      exact ⟨by omega, by rw [he, List.getElem?_cons_succ]; exact hget, ht⟩
    rcases ht : test a with _ | _ | _
    · simp [visited_undefined i as ht] at h
    · exact tail ps (by rwa [visited_skip i as ht] at h)
    · cases hs : stop a with
      | true =>
        rw [visited_stop i as ht hs] at h
        cases h
        intro q hq
        rw [List.mem_singleton.mp hq]
        exact ⟨Nat.le_refl _, by simp, ht⟩
      | false =>
        rw [visited_go i as ht hs, Option.map_eq_some_iff] at h
        obtain ⟨qs, hq, rfl⟩ := h
        intro q hm
        rcases List.mem_cons.mp hm with rfl | hm
        · exact ⟨Nat.le_refl _, by simp, ht⟩
        · exact tail qs hq q hm

/-- The tail of a scan is numbered after its head. -/
theorem visited_later {i : Nat} {l : List α} {ps : List (Nat × α)}
    (h : visited test stop (i + 1) l = some ps) : ∀ p ∈ ps.map Prod.fst, i < p := by
  intro p hp
  obtain ⟨q, hq, rfl⟩ := List.mem_map.mp hp
  exact (visited_get h q hq).1

/-- A scan that always stops visits the first match only. -/
theorem visited_find (p : α → Bool) (i : Nat) (l : List α) :
    visited (fun a => some (p a)) (fun _ => true) i l =
      some (((l.zipIdx i).find? fun q => p q.1).toList.map fun q => (q.2, q.1)) := by
  induction l generalizing i with
  | nil => rfl
  | cons a as ih =>
    cases hp : p a with
    | true =>
      rw [visited_stop i as (congrArg some hp) rfl]
      simp [hp]
    | false =>
      rw [visited_skip i as (congrArg some hp), ih]
      simp [hp]

end

section
variable (f : α → α)

theorem applyAt_before (p i : Nat) (ps : List Nat) (l : List α) (h : p < i) :
    applyAt f (p :: ps) i l = applyAt f ps i l := by
  induction l generalizing i with
  | nil => rfl
  | cons a as ih =>
    have hne : i ≠ p := by omega
    simp [applyAt, ih (i + 1) (by omega), hne]

@[simp] theorem applyAt_nil (i : Nat) (l : List α) : applyAt f [] i l = l := by
  induction l generalizing i with
  | nil => rfl
  | cons a as ih => simp [applyAt, ih]

theorem applyAt_hit (i : Nat) (a : α) (ps : List Nat) (as : List α) :
    applyAt f (i :: ps) i (a :: as) = f a :: applyAt f ps (i + 1) as := by
  simp [applyAt, applyAt_before f i (i + 1) ps as (Nat.lt_succ_self i)]

theorem applyAt_miss (i : Nat) (a : α) (ps : List Nat) (as : List α) (h : ∀ p ∈ ps, i < p) :
    applyAt f ps i (a :: as) = a :: applyAt f ps (i + 1) as := by
  have hn : i ∉ ps := fun hm => Nat.lt_irrefl i (h i hm)
  simp [applyAt, hn]

/-- What stands at a place after a rewrite. -/
theorem getElem?_applyAt (ps : List Nat) (i : Nat) (l : List α) (j : Nat) :
    (applyAt f ps i l)[j]? = l[j]?.map fun a => if i + j ∈ ps then f a else a := by
  induction l generalizing i j with
  | nil => rfl
  | cons a as ih =>
    rw [applyAt]
    cases j with
    | zero => rfl
    | succ j =>
      rw [List.getElem?_cons_succ, List.getElem?_cons_succ, ih, Nat.add_right_comm, Nat.add_assoc]

end

/-- A rewrite that adds `g` to an element adds the visited share of `g` to the sum. -/
theorem visited_gain {M : Type*} [AddCommMonoid M] {test : α → Option Bool} {stop : α → Bool}
    {f g : α → M} {e : α → α} (he : ∀ a, f (e a) = f a + g a) {i : Nat} {l : List α}
    {ps : List (Nat × α)} (h : visited test stop i l = some ps) :
    Tally.tally f (applyAt e (ps.map Prod.fst) i l) =
      Tally.tally f l + Tally.tally g (ps.map Prod.snd) := by
  induction l generalizing i ps with
  | nil =>
    cases h
    simp [applyAt]
  | cons a as ih =>
    rcases ht : test a with _ | _ | _
    · simp [visited_undefined i as ht] at h
    · rw [visited_skip i as ht] at h
      rw [applyAt_miss e i a _ as (visited_later h), Tally.tally_cons, Tally.tally_cons, ih h,
        add_assoc]
    · cases hs : stop a with
      | true =>
        rw [visited_stop i as ht hs] at h
        cases h
        simp only [List.map_cons, List.map_nil, applyAt_hit, applyAt_nil, Tally.tally_cons,
          Tally.tally_nil, he]
        abel
      | false =>
        rw [visited_go i as ht hs, Option.map_eq_some_iff] at h
        obtain ⟨qs, hq, rfl⟩ := h
        simp only [List.map_cons, applyAt_hit, Tally.tally_cons, he, ih hq]
        abel

/-- A fold whose step forgets the past is decided by the last element. -/
theorem foldl_last (act : β → α → β) (val : β → γ) (obs : α → γ)
    (h : ∀ b a, val (act b a) = obs a) (as : List α) (b : β) :
    val (as.foldl act b) = (as.getLast?.map obs).getD (val b) := by
  induction as using List.reverseRecOn with
  | nil => rfl
  | append_singleton as a _ => simp [List.foldl_append, h]

/-- The first match of a narrower test is the first match of the wider one exactly when
that one passes the extra test. -/
theorem find?_narrow (p s : α → Bool) (l : List α) (q : α) (h : l.find? p = some q) :
    l.find? (fun a => p a && s a) = some q ↔ s q = true := by
  constructor
  · intro hf
    have hq := List.find?_some hf
    simp only [Bool.and_eq_true] at hq
    exact hq.2
  · intro hs
    induction l with
    | nil => simp at h
    | cons a as ih =>
      cases hp : p a with
      | true =>
        have ha : a = q := by simpa [hp] using h
        subst ha
        simp [hp, hs]
      | false =>
        simp only [List.find?_cons, hp] at h ⊢
        simpa using ih h

end Chain
