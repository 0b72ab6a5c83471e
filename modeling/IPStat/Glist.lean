import IPStat.Lib.Heap

namespace IPStat

/-- A cell of a GList; its address is its place on the heap, and `none` is NULL. -/
structure GListCell (δ : Type) where
  data : δ
  next : Option Nat
  deriving DecidableEq, Repr

section
variable {δ : Type}

/-- The loop of g_list_free. Its condition and its first statement read the same cell. -/
def gListFreeLoop (h : List (Heap.Block (GListCell δ))) (list : Nat) :
    Option (List (Heap.Block (GListCell δ))) :=
  match Heap.read h list with
  | none => none
  | some cell =>
    match cell.next with
    | none => some h
    | some tek =>
      match _ : Heap.free h tek with
      | none => none
      | some h' => gListFreeLoop h' tek
termination_by Heap.liveCount h
decreasing_by exact Heap.liveCount_free ‹_›

def gListFree (h : List (Heap.Block (GListCell δ))) (list : Option Nat) :
    Option (List (Heap.Block (GListCell δ))) :=
  match list with
  | none => some h
  | some list => gListFreeLoop h list

/-- The list is released: each of its cells once, and nothing else. -/
def ReleasesList (h : List (Heap.Block (GListCell δ))) (list : Option Nat) (cells : List Nat) :
    Prop :=
  ∃ h', gListFree h list = some h' ∧ Heap.Released h h' cells

variable {h : List (Heap.Block (GListCell δ))}

/-- A single cell stays where it is. -/
theorem gListFree_single {x : Nat} (hl : Heap.Linked GListCell.next h (some x) [x]) :
    gListFree h (some x) = some h := by
  obtain ⟨-, cell, hread, hnext⟩ := hl
  have hend : cell.next = none := hnext
  rw [gListFree, gListFreeLoop, hread]
  simp [hend]

/-- With a second cell, that one is released and then read. -/
theorem gListFree_more {x y : Nat} {cells : List Nat}
    (hl : Heap.Linked GListCell.next h (some x) (x :: y :: cells)) :
    gListFree h (some x) = none := by
  obtain ⟨-, cell, hread, hnext, next, hy, -⟩ := hl
  rw [gListFree, gListFreeLoop, hread]
  simp only [hnext]
  split
  · rfl
  · next h' hfree =>
    rw [gListFreeLoop, Heap.read_free_self hfree]

/-- g_list_free does what it is for with the empty list only. -/
theorem g_list_free_iff (h : List (Heap.Block (GListCell δ))) (list : Option Nat)
    (cells : List Nat) (hl : Heap.Linked GListCell.next h list cells) :
    ReleasesList h list cells ↔ cells = [] := by
  rw [ReleasesList]
  match cells, hl with
  | [], hl =>
    have hnull : list = none := hl
    rw [hnull]
    refine iff_of_true ⟨h, rfl, by simp, ?_⟩ rfl
    intro p _
    rfl
  | [x], hl =>
    obtain rfl : list = some x := hl.1
    apply iff_of_false _ (List.cons_ne_nil x [])
    intro hfreed
    obtain ⟨h', hrun, hreleased⟩ := hfreed
    rw [gListFree_single hl] at hrun
    cases hrun
    obtain ⟨hsome, hx⟩ := hreleased.1 x List.mem_cons_self
    simp [Heap.read, hx] at hsome
  | x :: y :: cells, hl =>
    obtain rfl : list = some x := hl.1
    apply iff_of_false _ (List.cons_ne_nil x (y :: cells))
    intro hfreed
    obtain ⟨h', hrun, -⟩ := hfreed
    rw [gListFree_more hl] at hrun
    cases hrun

end

theorem g_list_free_null : ReleasesList ([.live ⟨7, none⟩] : List (Heap.Block (GListCell Nat)))
    none [] ↔ ([] : List Nat) = [] :=
  g_list_free_iff [.live ⟨7, none⟩] none [] rfl

/-- One cell is never released; of two, the second is read after it was. -/
theorem g_list_free_leaks_and_faults :
    gListFree ([.live ⟨7, none⟩] : List (Heap.Block (GListCell Nat))) (some 0) =
        some [.live ⟨7, none⟩] ∧
      gListFree ([.live ⟨7, some 1⟩, .live ⟨8, none⟩] : List (Heap.Block (GListCell Nat)))
        (some 0) = none ∧
      ¬ ReleasesList ([.live ⟨7, some 1⟩, .live ⟨8, none⟩] : List (Heap.Block (GListCell Nat)))
        (some 0) [0, 1] := by
  have hlinked : Heap.Linked GListCell.next
      ([.live ⟨7, some 1⟩, .live ⟨8, none⟩] : List (Heap.Block (GListCell Nat))) (some 0) [0, 1] :=
    ⟨rfl, ⟨7, some 1⟩, rfl, rfl, ⟨8, none⟩, rfl, rfl⟩
  have hfault := gListFree_more hlinked
  refine ⟨gListFree_single ⟨rfl, ⟨7, none⟩, rfl, rfl⟩, hfault, ?_⟩
  intro hfreed
  obtain ⟨h', hrun, -⟩ := hfreed
  rw [hfault] at hrun
  cases hrun

end IPStat
