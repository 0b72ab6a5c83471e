import Mathlib.Data.List.Basic

/-! A finite heap. An address is the place of a block, and a block that was released stays
released. -/

namespace Heap

inductive Block (α : Type*) where
  | live (a : α)
  | freed
  deriving DecidableEq, Repr

def Block.isLive {α : Type*} : Block α → Bool
  | .live _ => true
  | .freed => false

section
variable {α : Type*} {h h' : List (Block α)} {p q : Nat} {a : α}

/-- Read a block; `none` is the read of one that was released, or was never given out. -/
def read (h : List (Block α)) (p : Nat) : Option α :=
  match h[p]? with
  | some (.live a) => some a
  | _ => none

/-- Release a block; `none` is the release of one that is not held. -/
def free (h : List (Block α)) (p : Nat) : Option (List (Block α)) :=
  (read h p).map fun _ => h.set p .freed

def liveCount (h : List (Block α)) : Nat := h.countP Block.isLive

/-- From `p` on, each block of the list names the next, and the last one none. -/
def Linked (next : α → Option Nat) (h : List (Block α)) : Option Nat → List Nat → Prop
  | p, [] => p = none
  | p, x :: xs => p = some x ∧ ∃ a, read h x = some a ∧ Linked next h (next a) xs

/-- The blocks at these places were held and are released, and no other block has changed. -/
def Released (h h' : List (Block α)) (ps : List Nat) : Prop :=
  (∀ p ∈ ps, (read h p).isSome ∧ h'[p]? = some .freed) ∧ ∀ p, p ∉ ps → h'[p]? = h[p]?

theorem read_eq_some : read h p = some a ↔ h[p]? = some (.live a) := by
  rw [read]
  constructor
  · intro hr
    split at hr
    · next b hb =>
      cases hr
      exact hb
    · cases hr
  · intro hb
    rw [hb]

theorem free_eq_some (hf : free h p = some h') :
    (∃ a, read h p = some a) ∧ h' = h.set p .freed := by
  obtain ⟨a, hr, rfl⟩ := Option.map_eq_some_iff.mp hf
  exact ⟨⟨a, hr⟩, rfl⟩

/-- A block that was released is not read again. -/
theorem read_free_self (hf : free h p = some h') : read h' p = none := by
  obtain ⟨⟨a, hr⟩, rfl⟩ := free_eq_some hf
  have hlt : p < h.length := by
    obtain ⟨hlt, -⟩ := List.getElem?_eq_some_iff.mp (read_eq_some.mp hr)
    exact hlt
  simp [read, hlt]

theorem liveCount_free (hf : free h p = some h') : liveCount h' < liveCount h := by
  obtain ⟨⟨a, hr⟩, rfl⟩ := free_eq_some hf
  obtain ⟨hlt, hget⟩ := List.getElem?_eq_some_iff.mp (read_eq_some.mp hr)
  have hsome : (h[p]).isLive = true := by rw [hget]; rfl
  have hpos : 0 < h.countP Block.isLive :=
    List.countP_pos_iff.mpr ⟨h[p], List.getElem_mem hlt, hsome⟩
  rw [liveCount, liveCount, List.countP_set hlt, hsome]
  simp only [Block.isLive, if_true, Bool.false_eq_true, if_false]
  omega

@[simp] theorem linked_nil (next : α → Option Nat) (h : List (Block α)) (p : Option Nat) :
    Linked next h p [] ↔ p = none := Iff.rfl

end

end Heap
