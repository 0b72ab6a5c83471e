import IPStat.Lib.Run

namespace Reread

variable {κ σ ε ρ : Type*}

/-- A pass visits what it has listed while rows are deleted under it. -/
inductive Event (κ ε : Type*) where
  | delete (k : κ)
  | visit (e : ε)

/-- A pass, and the rows that are still there. -/
structure Live (κ σ : Type*) where
  pass : σ
  rows : κ → Bool

/-- A row read again by its key: whether the store connects and answers, and what the row says
if it is there. -/
structure Query (ρ : Type*) where
  opened : Bool
  answered : Bool
  record : ρ

/-- The answer: `none` when the query fails, `some none` when the row is gone. -/
def Query.row (q : Query ρ) (there : Bool) : Option (Option ρ) :=
  if q.answered then some (if there then some q.record else none) else none

/-- The key of a row that is read again where it is wanted. -/
def Query.keys (q : Query ρ) (wanted : Bool) (k : κ) : List κ :=
  if wanted && q.opened && q.answered then [k] else []

/-- An answer without a row. -/
def readsNull (opened : Bool) (row : Option (Option ρ)) : Prop := opened = true ∧ row = some none

theorem Query.keys_found_iff (q : Query ρ) (wanted : Bool) (k : κ) (rows : κ → Bool) :
    (∀ i ∈ q.keys wanted k, rows i = true) ↔
      (wanted = true → ¬ readsNull q.opened (q.row (rows k))) := by
  obtain ⟨opened, answered, record⟩ := q
  rw [keys, readsNull, row]
  cases wanted with
  | false => simp
  | true =>
    cases opened with
    | false => simp
    | true =>
      cases answered with
      | false => simp
      | true => cases h : rows k <;> simp [h]

section
variable [DecidableEq κ] (visit : σ → (κ → Bool) → ε → Option σ)

def step (s : Live κ σ) : Event κ ε → Option (Live κ σ)
  | .delete k => some { s with rows := fun i => if i = k then false else s.rows i }
  | .visit e => (visit s.pass s.rows e).map fun pass => { s with pass := pass }

end

/-- The keys that a visit reads again still have their rows. -/
def Found (reread : σ → ε → List κ) (s : Live κ σ) : Event κ ε → Prop
  | .delete _ => True
  | .visit e => ∀ k ∈ reread s.pass e, s.rows k = true

/-- Where a visit fails exactly on a row that is gone, a pass returns exactly when every row that
it reads again is still there, whatever is deleted between the visits. -/
theorem exec_returns_iff [DecidableEq κ] {visit : σ → (κ → Bool) → ε → Option σ}
    {reread : σ → ε → List κ}
    (hvisit : ∀ pass rows e, (∃ pass', visit pass rows e = some pass') ↔
      ∀ k ∈ reread pass e, rows k = true) (s : Live κ σ) (es : List (Event κ ε)) :
    (∃ u, Run.exec (step visit) s es = some u) ↔
      Run.Guarded (step visit) (Found reread) s es := by
  apply Run.exec_returns_iff
  intro s e
  cases e with
  | delete k => exact iff_of_true ⟨_, rfl⟩ trivial
  | visit e =>
    rw [Found, ← hvisit s.pass s.rows e]
    rw [step, ← Option.isSome_iff_exists, ← Option.isSome_iff_exists, Option.isSome_map]

end Reread
