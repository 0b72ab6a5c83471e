import Mathlib.Init
import Mathlib.Tactic.SplitIfs

namespace Run

variable {σ τ ε : Type*}

section
variable (step : σ → ε → Option σ)

/-- Run a partial machine over its events. -/
def exec : σ → List ε → Option σ
  | s, [] => some s
  | s, e :: es => (step s e).bind fun s' => exec s' es

/-- What holds in every state that a run comes to. -/
def Always (inv : σ → Prop) : σ → List ε → Prop
  | s, [] => inv s
  | s, e :: es => inv s ∧ ∀ s', step s e = some s' → Always inv s' es

/-- Every event of a run finds its guard in the state before it. -/
def Guarded (guard : σ → ε → Prop) : σ → List ε → Prop
  | _, [] => True
  | s, e :: es => guard s e ∧ ∀ s', step s e = some s' → Guarded guard s' es

end

section
variable {step : σ → ε → Option σ} {guard guard' : σ → ε → Prop} {inv : σ → Prop}

@[simp] theorem exec_nil (s : σ) : exec step s [] = some s := rfl

instance [∀ s e, Decidable (guard s e)] : ∀ s es, Decidable (Guarded step guard s es)
  | _, [] => isTrue trivial
  | s, e :: es =>
    match h : step s e with
    | none => decidable_of_iff (guard s e) (by simp [Guarded, h])
    | some s' =>
      have := instDecidableGuarded s' es
      decidable_of_iff (guard s e ∧ Guarded step guard s' es) (by simp [Guarded, h])

theorem exec_cons {s s' : σ} (e : ε) (es : List ε) (h : step s e = some s') :
    exec step s (e :: es) = exec step s' es := by
  simp [exec, h]

theorem exec_cons_some {s u : σ} {e : ε} {es : List ε} (h : exec step s (e :: es) = some u) :
    ∃ s', step s e = some s' ∧ exec step s' es = some u :=
  Option.bind_eq_some_iff.mp h

theorem exec_map {δ : Type*} (f : δ → ε) (s : σ) (ds : List δ) :
    exec step s (ds.map f) = exec (fun s d => step s (f d)) s ds := by
  induction ds generalizing s with
  | nil => rfl
  | cons d ds ih =>
    change (step s (f d)).bind (fun s' => exec step s' (ds.map f)) = _
    simp only [ih]
    rfl

theorem exec_concat_some {s u : σ} {e : ε} {es : List ε}
    (h : exec step s (es ++ [e]) = some u) : ∃ t, exec step s es = some t ∧ step t e = some u := by
  induction es generalizing s with
  | nil =>
    obtain ⟨s', hs, hu⟩ := exec_cons_some h
    cases hu
    exact ⟨s, rfl, hs⟩
  | cons a es ih =>
    obtain ⟨s', hs, hu⟩ := exec_cons_some h
    obtain ⟨t, ht, he⟩ := ih hu
    exact ⟨t, by rw [exec_cons a es hs, ht], he⟩

theorem Guarded.and {s : σ} {es : List ε} (h : Guarded step guard s es)
    (h' : Guarded step guard' s es) : Guarded step (fun s e => guard s e ∧ guard' s e) s es := by
  induction es generalizing s with
  | nil => trivial
  | cons e es ih => exact ⟨⟨h.1, h'.1⟩, fun s' hs => ih (h.2 s' hs) (h'.2 s' hs)⟩

theorem Guarded.imp {s : σ} {es : List ε} (himp : ∀ s e, guard s e → guard' s e)
    (h : Guarded step guard s es) : Guarded step guard' s es := by
  induction es generalizing s with
  | nil => trivial
  | cons e es ih => exact ⟨himp s e h.1, fun s' hs => ih (h.2 s' hs)⟩

theorem guarded_of_forall {es : List ε} (h : ∀ e ∈ es, ∀ s, guard s e) (s : σ) :
    Guarded step guard s es := by
  induction es generalizing s with
  | nil => trivial
  | cons e es ih =>
    exact ⟨h e List.mem_cons_self s, fun s' _ => ih (fun e he => h e (List.mem_cons_of_mem _ he)) s'⟩

/-- Steps that always return make a run that returns. -/
theorem exec_returns {es : List ε} (h : ∀ e ∈ es, ∀ s, ∃ s', step s e = some s') (s : σ) :
    ∃ s', exec step s es = some s' := by
  induction es generalizing s with
  | nil => exact ⟨s, rfl⟩
  | cons e es ih =>
    obtain ⟨s', hs⟩ := h e List.mem_cons_self s
    rw [exec_cons e es hs]
    exact ih (fun f hf => h f (List.mem_cons_of_mem e hf)) s'

/-- Where the guard of a step says whether it returns, a run returns exactly when it is guarded. -/
theorem exec_returns_iff (hstep : ∀ s e, (∃ s', step s e = some s') ↔ guard s e) {s : σ}
    {es : List ε} : (∃ u, exec step s es = some u) ↔ Guarded step guard s es := by
  induction es generalizing s with
  | nil => exact iff_of_true ⟨s, rfl⟩ trivial
  | cons e es ih =>
    constructor
    · rintro ⟨u, h⟩
      obtain ⟨s', hs, hu⟩ := exec_cons_some h
      refine ⟨(hstep s e).mp ⟨s', hs⟩, fun t ht => ?_⟩
      rw [hs] at ht
      cases ht
      exact ih.mp ⟨u, hu⟩
    · intro h
      obtain ⟨s', hs⟩ := (hstep s e).mpr h.1
      rw [exec_cons e es hs]
      exact ih.mpr (h.2 s' hs)

/-- What one guarded step preserves, a guarded run preserves. -/
theorem exec_invariant
    (hstep : ∀ s e s', inv s → guard s e → step s e = some s' → inv s')
    {s u : σ} {es : List ε} (hi : inv s) (hg : Guarded step guard s es)
    (h : exec step s es = some u) : inv u := by
  induction es generalizing s with
  | nil =>
    cases h
    exact hi
  | cons e es ih =>
    obtain ⟨s', hs, hu⟩ := exec_cons_some h
    exact ih (hstep s e s' hi hg.1 hs) (hg.2 s' hs) hu

theorem Always.imp {inv' : σ → Prop} {s : σ} {es : List ε} (himp : ∀ s, inv s → inv' s)
    (h : Always step inv s es) : Always step inv' s es := by
  induction es generalizing s with
  | nil => exact himp s h
  | cons e es ih => exact ⟨himp s h.1, fun s' hs => ih (h.2 s' hs)⟩

theorem Always.guarded {s : σ} {es : List ε} (h : Always step inv s es)
    (himp : ∀ s e, inv s → guard s e) : Guarded step guard s es := by
  induction es generalizing s with
  | nil => trivial
  | cons e es ih => exact ⟨himp s e h.1, fun s' hs => ih (h.2 s' hs)⟩

/-- A guarded run keeps the invariant throughout. -/
theorem always_of_invariant
    (hstep : ∀ s e s', inv s → guard s e → step s e = some s' → inv s')
    {s : σ} {es : List ε} (hi : inv s) (hg : Guarded step guard s es) :
    Always step inv s es := by
  induction es generalizing s with
  | nil => exact hi
  | cons e es ih => exact ⟨hi, fun s' hs => ih (hstep s e s' hi hg.1 hs) (hg.2 s' hs)⟩

/-- Where a guarded step returns and keeps the invariant, so does a guarded run. -/
theorem exec_returns_always
    (hstep : ∀ s e, inv s → guard s e → ∃ s', step s e = some s' ∧ inv s')
    {s : σ} {es : List ε} (hi : inv s) (hg : Guarded step guard s es) :
    (∃ u, exec step s es = some u) ∧ Always step inv s es := by
  induction es generalizing s with
  | nil => exact ⟨⟨s, rfl⟩, hi⟩
  | cons e es ih =>
    obtain ⟨s', hs, hi'⟩ := hstep s e hi hg.1
    obtain ⟨⟨u, hu⟩, halways⟩ := ih hi' (hg.2 s' hs)
    refine ⟨⟨u, by rw [exec_cons e es hs, hu]⟩, hi, fun t ht => ?_⟩
    rw [hs] at ht
    cases ht
    exact halways

/-- A machine that keeps up with a total one under a guard, and stops where that fails, gets through
a run exactly when it is guarded. -/
theorem exec_follows {R : σ → τ → Prop} {next : τ → ε → τ} {room : σ → ε → Prop}
    (hstep : ∀ s t e, R s t → guard s e → ∃ s', step s e = some s' ∧ R s' (next t e))
    (hstop : ∀ s t e, R s t → room s e → ¬ guard s e → step s e = none)
    {s : σ} {t : τ} {es : List ε} (hr : R s t) (hroom : Guarded step room s es) :
    (Guarded step guard s es → ∃ u, exec step s es = some u ∧ R u (es.foldl next t)) ∧
      ∀ u, exec step s es = some u → Guarded step guard s es := by
  induction es generalizing s t with
  | nil => exact ⟨fun _ => ⟨s, rfl, hr⟩, fun _ _ => trivial⟩
  | cons e es ih =>
    constructor
    · intro hg
      obtain ⟨s', hs, hr'⟩ := hstep s t e hr hg.1
      rw [exec_cons e es hs]
      exact (ih hr' (hroom.2 s' hs)).1 (hg.2 s' hs)
    · intro u hu
      obtain ⟨s', hs, hu⟩ := exec_cons_some hu
      have hg : guard s e := by
        apply Classical.byContradiction
        intro hno
        rw [hstop s t e hr hroom.1 hno] at hs
        cases hs
      obtain ⟨w, hw, hr'⟩ := hstep s t e hr hg
      rw [hs] at hw
      cases hw
      refine ⟨hg, fun v hv => ?_⟩
      rw [hs] at hv
      cases hv
      exact (ih hr' (hroom.2 s' hs)).2 u hu

/-- Where the guard of a step is all that its end state can break, a run keeps the property
throughout exactly when it is guarded. -/
theorem always_iff_guarded {good : σ → Prop}
    (hstep : ∀ s e s', inv s → good s → step s e = some s' → inv s' ∧ (good s' ↔ guard s e))
    {s u : σ} {es : List ε} (hi : inv s) (hgood : good s) (h : exec step s es = some u) :
    Always step good s es ↔ Guarded step guard s es := by
  induction es generalizing s with
  | nil => exact iff_of_true hgood trivial
  | cons e es ih =>
    obtain ⟨s', hs, hu⟩ := exec_cons_some h
    obtain ⟨hi', hiff⟩ := hstep s e s' hi hgood hs
    constructor
    · intro halways
      have hrest := halways.2 s' hs
      have hgood' : good s' := by
        cases es with
        | nil => exact hrest
        | cons f fs => exact hrest.1
      refine ⟨hiff.mp hgood', fun t ht => ?_⟩
      rw [hs] at ht
      cases ht
      exact (ih hi' hgood' hu).mp hrest
    · intro hguarded
      have hgood' := hiff.mpr hguarded.1
      refine ⟨hgood, fun t ht => ?_⟩
      rw [hs] at ht
      cases ht
      exact (ih hi' hgood' hu).mpr (hguarded.2 s' hs)

end

/-- Go on from a state unless the answer before it was to stop. -/
def goOn (p : σ × Bool) (next : σ → σ × Bool) : σ × Bool := if p.2 then p else next p.1

/-- Run a machine over its events until it answers `true`. -/
def untilStop (step : σ → ε → σ × Bool) : σ → List ε → σ × Bool
  | s, [] => (s, false)
  | s, e :: es => goOn (step s e) fun s => untilStop step s es

theorem goOn_assoc (p : σ × Bool) (next next' : σ → σ × Bool) :
    goOn (goOn p next) next' = goOn p fun s => goOn (next s) next' := by
  unfold goOn
  split_ifs with hp hn <;> simp_all

theorem goOn_stop (p : σ × Bool) : (goOn p fun s => (s, false)) = p := by
  rcases p with ⟨s, stop⟩
  cases stop <;> rfl

theorem untilStop_append (step : σ → ε → σ × Bool) (s : σ) (es es' : List ε) :
    untilStop step s (es ++ es') = goOn (untilStop step s es) fun s => untilStop step s es' := by
  induction es generalizing s with
  | nil => rfl
  | cons e es ih =>
    rw [List.cons_append, untilStop, untilStop, goOn_assoc]
    simp only [ih]

end Run
