import Mathlib.Data.List.Basic

namespace Regex

variable {α : Type*}

/-- One element of a pattern: a single symbol, or a captured run of at least one. -/
inductive Item (α : Type*) where
  | one (p : α → Bool)
  | plus (p : α → Bool)

/-- The nonempty prefixes on which `p` holds, longest first, with what follows each. -/
def spans (p : α → Bool) : List α → List (List α × List α)
  | [] => []
  | a :: as => if p a then (spans p as).map (fun q => (a :: q.1, q.2)) ++ [([a], as)] else []

/-- All matches of a pattern at the start of a text: the captures and the rest. -/
def found : List (Item α) → List α → List (List (List α) × List α)
  | [], s => [([], s)]
  | .one _ :: _, [] => []
  | .one p :: items, a :: as => if p a then found items as else []
  | .plus p :: items, s =>
    (spans p s).flatMap fun q => (found items q.2).map fun m => (q.1 :: m.1, m.2)

/-- The match that leaves least, the first of these where several do. -/
def longest {β : Type*} : List (β × List α) → Option (β × List α)
  | [] => none
  | m :: ms =>
    match longest ms with
    | none => some m
    | some m' => if m.2.length ≤ m'.2.length then some m else some m'

/-- The captures of the leftmost longest match. -/
def search (items : List (Item α)) : List α → Option (List (List α))
  | [] => (longest (found items [])).map Prod.fst
  | a :: as =>
    match longest (found items (a :: as)) with
    | some m => some m.1
    | none => search items as

variable {p q : α → Bool} {items : List (Item α)}

theorem spans_cons {a : α} {as : List α} (h : p a = true) :
    spans p (a :: as) = (spans p as).map (fun q => (a :: q.1, q.2)) ++ [([a], as)] := by
  rw [spans, if_pos h]

theorem spans_stop {a : α} (as : List α) (h : p a = false) : spans p (a :: as) = [] := by
  simp [spans, h]

theorem found_one {a : α} (as : List α) (h : p a = true) :
    found (.one p :: items) (a :: as) = found items as := by
  simp [found, h]

theorem found_one_miss {a : α} (as : List α) (h : p a = false) :
    found (.one p :: items) (a :: as) = [] := by
  simp [found, h]

theorem found_plus_miss {a : α} (as : List α) (h : p a = false) :
    found (.plus p :: items) (a :: as) = [] := by
  simp [found, spans_stop as h]

/-- The spans of a run that ends before `s`: the run itself, then its shorter prefixes. -/
theorem spans_run {d s : List α} (hd : ∀ a ∈ d, p a = true) (hne : d ≠ [])
    (hs : ∀ a ∈ s.head?, p a = false) :
    ∃ short, spans p (d ++ s) = (d, s) :: short ∧
      ∀ m ∈ short, ∃ d'', d'' ≠ [] ∧ d = m.1 ++ d'' ∧ m.2 = d'' ++ s := by
  induction d with
  | nil => exact absurd rfl hne
  | cons a d ih =>
    have ha : p a = true := hd a List.mem_cons_self
    rw [List.cons_append, spans_cons ha]
    cases d with
    | nil =>
      have hstop : spans p s = [] := by
        cases s with
        | nil => rfl
        | cons b s => exact spans_stop s (hs b rfl)
      exact ⟨[], by simp [hstop], by simp⟩
    | cons b d =>
      obtain ⟨short, he, hshort⟩ := ih (fun c hc => hd c (List.mem_cons_of_mem a hc)) (by simp)
      refine ⟨short.map (fun q => (a :: q.1, q.2)) ++ [([a], b :: d ++ s)], ?_, ?_⟩
      · rw [he, List.map_cons, List.cons_append]
      · intro m hm
        rcases List.mem_append.mp hm with hm | hm
        · obtain ⟨m', hm', rfl⟩ := List.mem_map.mp hm
          obtain ⟨d'', hne'', he', hr⟩ := hshort m' hm'
          exact ⟨d'', hne'', by rw [he']; rfl, hr⟩
        · rw [List.mem_singleton.mp hm]
          exact ⟨b :: d, by simp, rfl, rfl⟩

/-- A run takes all of its symbols when the rest of the pattern fits after none of its
shorter prefixes. -/
theorem found_plus {d s : List α} (hd : ∀ a ∈ d, p a = true) (hne : d ≠ [])
    (hs : ∀ a ∈ s.head?, p a = false)
    (hshort : ∀ d' d'', d = d' ++ d'' → d'' ≠ [] → found items (d'' ++ s) = []) :
    found (.plus p :: items) (d ++ s) = (found items s).map fun m => (d :: m.1, m.2) := by
  obtain ⟨short, he, hm⟩ := spans_run hd hne hs
  have hnone : short.flatMap (fun q => (found items q.2).map fun m => (q.1 :: m.1, m.2)) = [] := by
    apply List.flatMap_eq_nil_iff.mpr
    intro m hmem
    obtain ⟨d'', hne'', hsplit, hr⟩ := hm m hmem
    rw [hr, hshort m.1 d'' hsplit hne'']
    rfl
  rw [found, he, List.flatMap_cons, hnone, List.append_nil]

/-- A run before a symbol that is none of its own takes all of its symbols. -/
theorem found_plus_one {d s : List α} (hd : ∀ a ∈ d, p a = true) (hne : d ≠ [])
    (hs : ∀ a ∈ s.head?, p a = false) (hpq : ∀ a, p a = true → q a = false) :
    found (.plus p :: .one q :: items) (d ++ s) =
      (found (.one q :: items) s).map fun m => (d :: m.1, m.2) := by
  apply found_plus hd hne hs
  intro d' d'' he hne''
  obtain ⟨b, d3, rfl⟩ := List.exists_cons_of_ne_nil hne''
  have hb : p b = true := hd b (by rw [he]; simp)
  exact found_one_miss _ (hpq b hb)

theorem longest_whole {β : Type*} (b : β) (ms : List (β × List α)) :
    longest ((b, []) :: ms) = some (b, []) := by
  rw [longest]
  cases longest ms with
  | none => rfl
  | some m => simp

/-- A run that is the whole text is found whole. -/
theorem longest_run {d : List α} (hd : ∀ a ∈ d, p a = true) (hne : d ≠ []) :
    longest (found [.plus p] d) = some ([d], []) := by
  obtain ⟨short, he, -⟩ := spans_run (s := []) hd hne (by simp)
  rw [List.append_nil] at he
  rw [found, he, List.flatMap_cons]
  exact longest_whole [d] _

theorem search_hit {s : List α} {m : List (List α) × List α}
    (h : longest (found items s) = some m) : search items s = some m.1 := by
  cases s with
  | nil => simp [search, h]
  | cons a as => simp [search, h]

theorem search_miss {a : α} {as : List α} (h : found items (a :: as) = []) :
    search items (a :: as) = search items as := by
  simp [search, h, longest]

/-- A pattern that begins with an absent symbol is not found. -/
theorem search_absent {s : List α} (h : ∀ a ∈ s, p a = false) :
    search (.one p :: items) s = none := by
  induction s with
  | nil => simp [search, found, longest]
  | cons a as ih =>
    rw [search_miss (found_one_miss as (h a List.mem_cons_self))]
    exact ih fun b hb => h b (List.mem_cons_of_mem a hb)

end Regex
