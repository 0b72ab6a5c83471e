import Mathlib.Data.List.Basic
import Mathlib.Tactic.SplitIfs

/-! Conditional writes of one field of a row, made one after the other. -/

namespace Overwrite

structure Write (ρ β : Type*) where
  cond : ρ → Bool
  value : β

section
variable {ρ β : Type*} (set : β → ρ → ρ)

def Write.apply (row : ρ) (w : Write ρ β) : ρ := if w.cond row then set w.value row else row

def run (ws : List (Write ρ β)) (row : ρ) : ρ := ws.foldl (Write.apply set) row

/-- No condition reads the field, and the last write of it stands. -/
structure Blind (ws : List (Write ρ β)) : Prop where
  cond : ∀ w ∈ ws, ∀ v row, w.cond (set v row) = w.cond row
  overwrites : ∀ v v' row, set v (set v' row) = set v row

/-- All the writes whose conditions a row meets write the same. -/
def Agree (ws : List (Write ρ β)) (row : ρ) (v : β) : Prop :=
  ∀ w ∈ ws, w.cond row = true → w.value = v

end

section
variable {ρ β : Type*} {set : β → ρ → ρ} {w : Write ρ β} {ws : List (Write ρ β)} {row : ρ} {v : β}

theorem Blind.of_cons (h : Blind set (w :: ws)) : Blind set ws :=
  ⟨fun w' hw => h.cond w' (List.mem_cons_of_mem w hw), h.overwrites⟩

theorem Blind.take (h : Blind set ws) (k : Nat) : Blind set (ws.take k) :=
  ⟨fun w hw => h.cond w (List.mem_of_mem_take hw), h.overwrites⟩

theorem Agree.of_cons (h : Agree (w :: ws) row v) : Agree ws row v :=
  fun w' hw => h w' (List.mem_cons_of_mem w hw)

theorem Agree.take (h : Agree ws row v) (k : Nat) : Agree (ws.take k) row v :=
  fun w hw => h w (List.mem_of_mem_take hw)

theorem Blind.any_set (h : Blind set ws) (v : β) (row : ρ) :
    (ws.any fun w => w.cond (set v row)) = ws.any fun w => w.cond row := by
  rw [Bool.eq_iff_iff, List.any_eq_true, List.any_eq_true]
  apply exists_congr
  intro w
  constructor
  · intro hw
    rw [← h.cond w hw.1 v row]
    exact hw
  · intro hw
    rw [h.cond w hw.1 v row]
    exact hw

/-- A row that the writes agree on gets what they write, if it meets any of their conditions. -/
theorem run_eq (hb : Blind set ws) (ha : Agree ws row v) :
    run set ws row = if (ws.any fun w => w.cond row) then set v row else row := by
  induction ws generalizing row with
  | nil => rfl
  | cons w ws ih =>
    change run set ws (Write.apply set row w) = _
    rw [Write.apply, List.any_cons]
    cases hw : w.cond row with
    | false => exact ih hb.of_cons ha.of_cons
    | true =>
      rw [ha w List.mem_cons_self hw]
      have hset : Agree ws (set v row) v := by
        intro w' hw' hcond
        rw [hb.cond w' (List.mem_cons_of_mem w hw')] at hcond
        exact ha w' (List.mem_cons_of_mem w hw') hcond
      have hrest := ih hb.of_cons hset
      rw [hb.overwrites, ite_self] at hrest
      exact hrest

/-- Once they are made, making them again changes nothing. -/
theorem run_run (hb : Blind set ws) (ha : Agree ws row v) :
    run set ws (run set ws row) = run set ws row := by
  have hrun := run_eq hb ha
  cases hany : ws.any fun w => w.cond row with
  | false =>
    rw [hany] at hrun
    rw [hrun]
    exact hrun
  | true =>
    rw [hany] at hrun
    have hset : Agree ws (set v row) v := by
      intro w hw hcond
      rw [hb.cond w hw] at hcond
      exact ha w hw hcond
    have hagain := run_eq hb hset
    rw [hb.any_set, hany, hb.overwrites] at hagain
    rw [hrun]
    exact hagain

theorem any_take (p : Write ρ β → Bool) {k : Nat} (hk : k ≤ ws.length) :
    (ws.take k).any p = decide (ws.findIdx p < k) := by
  induction ws generalizing k with
  | nil =>
    cases hk' : k with
    | zero => rfl
    | succ k => simp [hk'] at hk
  | cons w ws ih =>
    cases k with
    | zero => simp
    | succ k =>
      rw [List.take_succ_cons, List.any_cons, List.findIdx_cons]
      cases hp : p w with
      | true => simp
      | false =>
        rw [Bool.false_or, ih (Nat.le_of_succ_le_succ hk)]
        simp

/-- On the way a row changes at most once, from what it was to what it ends as. -/
theorem run_take (hb : Blind set ws) (ha : Agree ws row v) :
    ∃ n, ∀ k ≤ ws.length, run set (ws.take k) row = if k < n then row else run set ws row := by
  refine ⟨ws.findIdx (fun w => w.cond row) + 1, fun k hk => ?_⟩
  rw [run_eq (hb.take k) (ha.take k), any_take _ hk, run_eq hb ha]
  by_cases hfirst : ws.findIdx (fun w => w.cond row) < k
  · have hsome : ∃ w ∈ ws, w.cond row = true :=
      List.findIdx_lt_length.mp (Nat.lt_of_lt_of_le hfirst hk)
    have hany : (ws.any fun w => w.cond row) = true := List.any_eq_true.mpr hsome
    have hlast : ¬ k < ws.findIdx (fun w => w.cond row) + 1 := by omega
    simp only [hfirst, hany, hlast, decide_true, if_true, if_false]
  · have hbefore : k < ws.findIdx (fun w => w.cond row) + 1 := by omega
    simp only [hfirst, hbefore, decide_false, Bool.false_eq_true, if_true, if_false]

end

end Overwrite
