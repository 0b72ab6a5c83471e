import IPStat.Lib.Run

/-! Unbounded sums kept beside the counters of a machine, to compare them with. -/

namespace Meter

variable {σ ε α : Type*}

/-- A machine with its books: `book` says what an event does to the exact sums. -/
def step (machine : σ → ε → Option σ) (book : σ → ε → (α → Nat) → α → Nat)
    (s : σ × (α → Nat)) (e : ε) : Option (σ × (α → Nat)) :=
  (machine s.1 e).map fun t => (t, book s.1 e s.2)

/-- Every counter shows its sum. -/
def Exact (count : σ → α → Nat) (s : σ × (α → Nat)) : Prop := ∀ a, count s.1 a = s.2 a

section
variable {machine : σ → ε → Option σ} {book : σ → ε → (α → Nat) → α → Nat}
  {count : σ → α → Nat} {guard : σ → ε → Prop}

theorem step_some {s s' : σ × (α → Nat)} {e : ε} (h : step machine book s e = some s') :
    machine s.1 e = some s'.1 ∧ s'.2 = book s.1 e s.2 := by
  obtain ⟨t, ht, hs⟩ := Option.map_eq_some_iff.mp h
  subst hs
  exact ⟨ht, rfl⟩

/-- The books change nothing about the machine. -/
theorem guarded_step {s : σ} {es : List ε} (h : Run.Guarded machine guard s es) (n : α → Nat) :
    Run.Guarded (step machine book) (fun s e => guard s.1 e) (s, n) es := by
  induction es generalizing s n with
  | nil => trivial
  | cons e es ih =>
    refine ⟨h.1, ?_⟩
    intro t hs
    exact ih (h.2 t.1 (step_some hs).1) t.2

/-- Where a guarded step counts as its book says, a guarded run that starts exact stays exact. -/
theorem always_exact (inv : σ → Prop)
    (hstep : ∀ s e s', inv s → guard s e → machine s e = some s' →
      inv s' ∧ ∀ a, count s' a = book s e (count s) a)
    {s : σ} {n : α → Nat} {es : List ε} (hi : inv s) (hn : Exact count (s, n))
    (hg : Run.Guarded machine guard s es) :
    Run.Always (step machine book) (Exact count) (s, n) es := by
  have hboth : Run.Always (step machine book) (fun s => inv s.1 ∧ Exact count s) (s, n) es := by
    apply Run.always_of_invariant _ ⟨hi, hn⟩ (guarded_step hg n)
    intro s e s' hinv hguard hs
    obtain ⟨his, hexact⟩ := hinv
    obtain ⟨hmachine, hbook⟩ := step_some hs
    obtain ⟨hi', hcount⟩ := hstep s.1 e s'.1 his hguard hmachine
    have hsums : count s.1 = s.2 := funext hexact
    refine ⟨hi', fun a => ?_⟩
    rw [hcount, hbook, hsums]
  exact hboth.imp fun _ h => h.2

end

/-- A word of 32 bits shows a sum that it has room for. -/
theorem toNat_add {a b : UInt32} (h : a.toNat + b.toNat < 4294967296) :
    (a + b).toNat = a.toNat + b.toNat := by
  rw [UInt32.toNat_add]
  exact Nat.mod_eq_of_lt h

end Meter
