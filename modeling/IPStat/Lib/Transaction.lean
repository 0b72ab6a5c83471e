import Mathlib.Data.List.Basic
import Mathlib.Data.List.Range

namespace Transaction

variable {σ τ : Type*}

/-- The statements of a script up to the first that the store refuses, and whether it took them
all; `answers k` is what it says to the statement in place `k`. -/
def exec : List (σ → σ) → (Nat → Bool) → σ → σ × Bool
  | [], _, s => (s, true)
  | q :: qs, answers, s =>
    if answers 0 then exec qs (fun k => answers (k + 1)) (q s) else (s, false)

/-- The store takes the first `n` statements. -/
def accepted (n : Nat) (answers : Nat → Bool) : Bool := (List.range n).all answers

/-- What a script does that is taken as a whole. -/
def whole (script : List (σ → σ)) (s : σ) : σ := script.foldl (fun s q => q s) s

/-- A script in a transaction: `rollback` is what is left of it when a statement is refused. -/
def attempt (rollback : σ → σ → σ) (script : List (σ → σ)) (answers : Nat → Bool) (s : σ) :
    σ × Bool :=
  match exec script answers s with
  | (s', true) => (s', true)
  | (s', false) => (rollback s s', false)

variable {script script' : List (σ → σ)} {answers : Nat → Bool} {s : σ} {rollback : σ → σ → σ}

theorem accepted_succ (n : Nat) (answers : Nat → Bool) :
    accepted (n + 1) answers = (answers 0 && accepted n fun k => answers (k + 1)) := by
  simp [accepted, List.range_succ_eq_map, List.all_map, Function.comp_def]

theorem accepted_concat (n : Nat) (answers : Nat → Bool) :
    accepted (n + 1) answers = (accepted n answers && answers n) := by
  simp [accepted, List.range_succ]

theorem exec_snd (script : List (σ → σ)) (answers : Nat → Bool) (s : σ) :
    (exec script answers s).2 = accepted script.length answers := by
  induction script generalizing answers s with
  | nil => rfl
  | cons q qs ih =>
    rw [exec, List.length_cons, accepted_succ]
    cases answers 0 with
    | true => exact ih _ _
    | false => rfl

theorem exec_of_accepted (h : accepted script.length answers = true) :
    exec script answers s = (whole script s, true) := by
  induction script generalizing answers s with
  | nil => rfl
  | cons q qs ih =>
    rw [List.length_cons, accepted_succ, Bool.and_eq_true] at h
    rw [exec, if_pos h.1, ih h.2]
    rfl

/-- What no statement touches stays. -/
theorem exec_untouched (p : σ → τ) (h : ∀ q ∈ script, ∀ s, p (q s) = p s) :
    p (exec script answers s).1 = p s := by
  induction script generalizing answers s with
  | nil => rfl
  | cons q qs ih =>
    rw [exec]
    split
    · rw [ih fun q' hq' => h q' (List.mem_cons_of_mem q hq')]
      exact h q List.mem_cons_self s
    · rfl

theorem exec_append (script script' : List (σ → σ)) (answers : Nat → Bool) (s : σ) :
    exec (script ++ script') answers s =
      if accepted script.length answers then
        exec script' (fun k => answers (k + script.length)) (whole script s)
      else exec script answers s := by
  induction script generalizing answers s with
  | nil => rfl
  | cons q qs ih =>
    rw [List.cons_append, exec, exec, List.length_cons, accepted_succ]
    cases answers 0 with
    | true =>
      simp only [if_true, Bool.true_and, ih]
      have hshift : (fun k => answers (k + qs.length + 1)) =
          fun k => answers (k + (qs.length + 1)) := rfl
      rw [hshift]
      rfl
    | false => rfl

theorem attempt_snd (rollback : σ → σ → σ) (script : List (σ → σ)) (answers : Nat → Bool)
    (s : σ) : (attempt rollback script answers s).2 = accepted script.length answers := by
  rw [← exec_snd script answers s, attempt]
  rcases exec script answers s with ⟨s', ok⟩
  cases ok <;> rfl

theorem attempt_of_accepted (h : accepted script.length answers = true) :
    attempt rollback script answers s = (whole script s, true) := by
  rw [attempt, exec_of_accepted h]

theorem attempt_of_refused (h : accepted script.length answers = false) :
    attempt rollback script answers s = (rollback s (exec script answers s).1, false) := by
  rw [← exec_snd script answers s] at h
  rw [attempt]
  rcases hexec : exec script answers s with ⟨s', ok⟩
  rw [hexec] at h
  cases h
  rfl

end Transaction
