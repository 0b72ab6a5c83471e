import IPStat.Aggregate.FiniteMap
import IPStat.Aggregate.Height
import IPStat.Lib.Segment

/-! gtree.c on the heap. `none` is a fault or a call that does not return: a walk is given one
call for each block there is. -/

namespace IPStat

/-- ITree_Node as a block of the heap; its address is its place, and `none` is NULL. -/
structure ITreeCell (κ ν : Type) where
  balance : Int
  key : κ
  value : ν
  left : Option Nat
  right : Option Nat
  deriving DecidableEq, Repr

abbrev ITreeHeap (κ ν : Type) := List (Heap.Block (ITreeCell κ ν))

section
variable {κ ν : Type}

/-- i_tree_node_new; `alloc` is the outcome of its malloc, and all the fields are written. -/
def nodeNewAt (h : ITreeHeap κ ν) (alloc : Bool) (key : κ) (value : ν) :
    ITreeHeap κ ν × Option Nat :=
  if alloc then
    let (h, node) := Heap.alloc h ⟨0, key, value, none, none⟩
    (h, some node)
  else (h, none)

def rotateLeftAt (h : ITreeHeap κ ν) (node : Nat) : Option (ITreeHeap κ ν × Nat) := do
  let cell ← Heap.read h node
  match cell.right with
  | none => none
  | some right =>
    let rightCell ← Heap.read h right
    let h ← Heap.modify h node fun c => { c with right := rightCell.left }
    let h ← Heap.modify h right fun c => { c with left := some node }
    let aBal := cell.balance
    let bBal := rightCell.balance
    let h ← Heap.modify h right fun c => { c with balance :=
      if bBal ≤ 0 then (if 1 ≤ aBal then bBal - 1 else aBal + bBal - 2)
      else (if aBal ≤ bBal then aBal - 2 else bBal - 1) }
    let h ← Heap.modify h node fun c => { c with balance :=
      if bBal ≤ 0 then aBal - 1 else aBal - bBal - 1 }
    some (h, right)

def rotateRightAt (h : ITreeHeap κ ν) (node : Nat) : Option (ITreeHeap κ ν × Nat) := do
  let cell ← Heap.read h node
  match cell.left with
  | none => none
  | some left =>
    let leftCell ← Heap.read h left
    let h ← Heap.modify h node fun c => { c with left := leftCell.right }
    let h ← Heap.modify h left fun c => { c with right := some node }
    let aBal := cell.balance
    let bBal := leftCell.balance
    let h ← Heap.modify h left fun c => { c with balance :=
      if bBal ≤ 0 then (if aBal < bBal then bBal + 1 else aBal + 2)
      else (if aBal ≤ -1 then bBal + 1 else aBal + bBal + 2) }
    let h ← Heap.modify h node fun c => { c with balance :=
      if bBal ≤ 0 then aBal - bBal + 1 else aBal + 1 }
    some (h, left)

/-- i_tree_node_balance. -/
def nodeBalanceAt (h : ITreeHeap κ ν) (node : Nat) : Option (ITreeHeap κ ν × Nat) := do
  let cell ← Heap.read h node
  if cell.balance < -1 then
    match cell.left with
    | none => none
    | some left =>
      let leftCell ← Heap.read h left
      if 0 < leftCell.balance then
        let (h, left) ← rotateLeftAt h left
        let h ← Heap.modify h node fun c => { c with left := some left }
        rotateRightAt h node
      else rotateRightAt h node
  else if 1 < cell.balance then
    match cell.right with
    | none => none
    | some right =>
      let rightCell ← Heap.read h right
      if rightCell.balance < 0 then
        let (h, right) ← rotateRightAt h right
        let h ← Heap.modify h node fun c => { c with right := some right }
        rotateLeftAt h node
      else rotateLeftAt h node
  else some (h, node)

/-- The end of i_tree_node_insert. -/
def settleAt (h : ITreeHeap κ ν) (node : Nat) (inserted : Bool) :
    Option (ITreeHeap κ ν × Option Nat × Bool) := do
  let cell ← Heap.read h node
  if inserted ∧ (cell.balance < -1 ∨ 1 < cell.balance) then
    let (h, node) ← nodeBalanceAt h node
    some (h, some node, inserted)
  else some (h, some node, inserted)

def nodeInsertAt (compare : κ → κ → Int) (alloc : Bool) (key : κ) (value : ν) :
    Nat → ITreeHeap κ ν → Option Nat → Option (ITreeHeap κ ν × Option Nat × Bool)
  | _, h, none =>
    let (h, node) := nodeNewAt h alloc key value
    some (h, node, true)
  | 0, _, some _ => none
  | fuel + 1, h, some node => do
    let cell ← Heap.read h node
    let cmp := compare key cell.key
    if cmp = 0 then
      let h ← Heap.modify h node fun c => { c with value := value }
      some (h, some node, false)
    else if cmp < 0 then
      match cell.left with
      | some left =>
        let old ← Heap.read h left
        let (h, left, inserted) ← nodeInsertAt compare alloc key value fuel h (some left)
        let h ← Heap.modify h node fun c => { c with left := left }
        match left with
        | none => none
        | some left =>
          let new ← Heap.read h left
          let h ← Heap.modify h node fun c => { c with balance :=
            if old.balance ≠ new.balance ∧ new.balance ≠ 0 then c.balance - 1 else c.balance }
          settleAt h node inserted
      | none =>
        let (h, left) := nodeNewAt h alloc key value
        let h ← Heap.modify h node fun c => { c with left := left }
        let h ← Heap.modify h node fun c => { c with balance := c.balance - 1 }
        settleAt h node true
    else
      match cell.right with
      | some right =>
        let old ← Heap.read h right
        let (h, right, inserted) ← nodeInsertAt compare alloc key value fuel h (some right)
        let h ← Heap.modify h node fun c => { c with right := right }
        match right with
        | none => none
        | some right =>
          let new ← Heap.read h right
          let h ← Heap.modify h node fun c => { c with balance :=
            if old.balance ≠ new.balance ∧ new.balance ≠ 0 then c.balance + 1 else c.balance }
          settleAt h node inserted
      | none =>
        let (h, right) := nodeNewAt h alloc key value
        let h ← Heap.modify h node fun c => { c with right := right }
        let h ← Heap.modify h node fun c => { c with balance := c.balance + 1 }
        settleAt h node true

def nodeLookupAt (compare : κ → κ → Int) (key : κ) (h : ITreeHeap κ ν) :
    Nat → Option Nat → Option (Option ν)
  | _, none => some none
  | 0, some _ => none
  | fuel + 1, some node => do
    let cell ← Heap.read h node
    let cmp := compare key cell.key
    if cmp = 0 then some (some cell.value)
    else if cmp < 0 then nodeLookupAt compare key h fuel cell.left
    else nodeLookupAt compare key h fuel cell.right

/-- i_tree_node_destroy; `node->left` is read after the right subtree is gone. -/
def nodeDestroyAt : Nat → ITreeHeap κ ν → Option Nat → Option (ITreeHeap κ ν)
  | _, h, none => some h
  | 0, _, some _ => none
  | fuel + 1, h, some node => do
    let cell ← Heap.read h node
    let h ← nodeDestroyAt fuel h cell.right
    let cell ← Heap.read h node
    let h ← nodeDestroyAt fuel h cell.left
    Heap.free h node

/-- i_tree_node_in_order with its callback; `true` is an answer that is not zero. -/
def nodeInOrderAt {σ : Type} (f : σ → κ × ν → σ × Bool) (h : ITreeHeap κ ν) :
    Nat → Option Nat → σ → Option (σ × Bool)
  | _, none, s => some (s, false)
  | 0, some _, _ => none
  | fuel + 1, some node, s => do
    let cell ← Heap.read h node
    let (s, stop) ← nodeInOrderAt f h fuel cell.left s
    if stop then some (s, true)
    else
      let (s, stop) := f s (cell.key, cell.value)
      if stop then some (s, true) else nodeInOrderAt f h fuel cell.right s

/-- The addresses of a tree whose keys carry them. -/
def ITreeNode.places (t : ITreeNode (Nat × κ) ν) : List Nat := t.inOrder.map fun e => e.1.1

/-- The nodes of the tree lie at the addresses its keys carry, from `p` on. -/
def NodesAt (h : ITreeHeap κ ν) : Option Nat → ITreeNode (Nat × κ) ν → Prop
  | p, .null => p = none
  | p, .node b k v l r => p = some k.1 ∧
      ∃ left right, Heap.read h k.1 = some ⟨b, k.2, v, left, right⟩ ∧
        NodesAt h left l ∧ NodesAt h right r

end

namespace ITreeNode

variable {κ ν : Type} {h h' : ITreeHeap κ ν} {p : Option Nat} {t t' l r : ITreeNode (Nat × κ) ν}
  {b : Int} {k : Nat × κ} {v : ν}

@[simp] theorem places_null : (null : ITreeNode (Nat × κ) ν).places = [] := rfl

@[simp] theorem places_node : (node b k v l r).places = l.places ++ k.1 :: r.places := by
  simp [places, inOrder]

theorem nodup_node : (node b k v l r).places.Nodup ↔
    l.places.Nodup ∧ r.places.Nodup ∧ k.1 ∉ l.places ∧ k.1 ∉ r.places ∧
      ∀ x ∈ l.places, x ∉ r.places := by
  rw [places_node, List.nodup_append, List.nodup_cons]
  constructor
  · intro hnodup
    obtain ⟨hl, ⟨hkr, hr⟩, hapart⟩ := hnodup
    refine ⟨hl, hr, ?_, hkr, ?_⟩
    · intro hk
      exact hapart k.1 hk k.1 List.mem_cons_self rfl
    · intro x hx hx'
      exact hapart x hx x (List.mem_cons_of_mem _ hx') rfl
  · intro hnodup
    obtain ⟨hl, hr, hkl, hkr, hapart⟩ := hnodup
    refine ⟨hl, ⟨hkr, hr⟩, ?_⟩
    intro x hx y hy hxy
    rcases List.mem_cons.mp hy with hyk | hyr
    · exact hkl (by rwa [← hyk, ← hxy])
    · exact hapart x hx (hxy ▸ hyr)

end ITreeNode

section
open ITreeNode

variable {κ ν : Type} {h h' : ITreeHeap κ ν} {p : Option Nat} {t t' l r : ITreeNode (Nat × κ) ν}
  {b : Int} {k : Nat × κ} {v : ν}

/-- A tree is read from its own nodes alone. -/
theorem NodesAt.frame (hn : NodesAt h p t)
    (hsame : ∀ x ∈ t.places, Heap.read h' x = Heap.read h x) : NodesAt h' p t := by
  induction t generalizing p with
  | null => exact hn
  | node b k v l r ihl ihr =>
    obtain ⟨hp, left, right, hk, hl, hr⟩ := hn
    simp only [places_node, List.mem_append, List.mem_cons] at hsame
    refine ⟨hp, left, right, ?_, ihl hl ?_, ihr hr ?_⟩
    · rw [hsame k.1 (Or.inr (Or.inl rfl)), hk]
    · intro x hx
      exact hsame x (Or.inl hx)
    · intro x hx
      exact hsame x (Or.inr (Or.inr hx))

theorem NodesAt.isSome (hn : NodesAt h p t) : ∀ x ∈ t.places, (Heap.read h x).isSome := by
  induction t generalizing p with
  | null => simp
  | node b k v l r ihl ihr =>
    obtain ⟨-, left, right, hk, hl, hr⟩ := hn
    intro x hx
    simp only [places_node, List.mem_append, List.mem_cons] at hx
    rcases hx with hx | rfl | hx
    · exact ihl hl x hx
    · rw [hk]
      rfl
    · exact ihr hr x hx

/-- A tree with no node twice. -/
structure TreeAt (h : ITreeHeap κ ν) (p : Option Nat) (t : ITreeNode (Nat × κ) ν) : Prop where
  nodes : NodesAt h p t
  nodup : t.places.Nodup

/-- From the tree at its address to the one at `p`, with no other block written. -/
structure TurnsInto (h h' : ITreeHeap κ ν) (t : ITreeNode (Nat × κ) ν) (p : Option Nat)
    (t' : ITreeNode (Nat × κ) ν) : Prop where
  nodes : NodesAt h' p t'
  other : ∀ x, x ∉ t.places → x ∉ t'.places → Heap.read h' x = Heap.read h x

theorem rotateLeftAt_spec {q : Nat} (ht : TreeAt h (some q) t) (hrot : t.rotateLeft = some t') :
    ∃ h' q', rotateLeftAt h q = some (h', q') ∧ TurnsInto h h' t (some q') t' := by
  match t, ht, hrot with
  | .node aBal k v left (.node bBal rk rv rl rr), ht, hrot =>
    obtain ⟨hq, pl, pr, hk, hleft, hpr, prl, prr, hrk, hrl, hrr⟩ := ht.nodes
    obtain rfl : q = k.1 := Option.some.inj hq
    subst hpr
    have hnodup := ht.nodup
    rw [nodup_node, nodup_node] at hnodup
    simp only [places_node, List.mem_append, List.mem_cons, not_or] at hnodup
    obtain ⟨-, ⟨-, -, hrkl, hrkr, -⟩, hkleft, ⟨hkl, hne, hkr⟩, hapart⟩ := hnodup
    have hrkleft : rk.1 ∉ left.places := fun hmem => (hapart rk.1 hmem).2.1 rfl
    obtain ⟨h₁, hm₁, hk₁, ho₁⟩ := Heap.modify_spec hk fun c => { c with right := prl }
    have hrk₁ := (ho₁ rk.1 (Ne.symm hne)).trans hrk
    obtain ⟨h₂, hm₂, hrk₂, ho₂⟩ := Heap.modify_spec hrk₁ fun c => { c with left := some k.1 }
    obtain ⟨h₃, hm₃, hrk₃, ho₃⟩ := Heap.modify_spec hrk₂ fun c => { c with balance :=
      if bBal ≤ 0 then (if 1 ≤ aBal then bBal - 1 else aBal + bBal - 2)
      else (if aBal ≤ bBal then aBal - 2 else bBal - 1) }
    have hk₃ := ((ho₃ k.1 hne).trans (ho₂ k.1 hne)).trans hk₁
    obtain ⟨h₄, hm₄, hk₄, ho₄⟩ := Heap.modify_spec hk₃ fun c => { c with balance :=
      if bBal ≤ 0 then aBal - 1 else aBal - bBal - 1 }
    have hrk₄ := (ho₄ rk.1 (Ne.symm hne)).trans hrk₃
    have hother (x : Nat) (hxk : x ≠ k.1) (hxr : x ≠ rk.1) :
        Heap.read h₄ x = Heap.read h x := by
      rw [ho₄ x hxk, ho₃ x hxr, ho₂ x hxr, ho₁ x hxk]
    have hsub {s : ITreeNode (Nat × κ) ν} {ps : Option Nat} (hs : NodesAt h ps s)
        (hks : k.1 ∉ s.places) (hrs : rk.1 ∉ s.places) : NodesAt h₄ ps s := by
      apply hs.frame
      intro x hx
      apply hother
      · intro hxk
        exact hks (hxk ▸ hx)
      · intro hxr
        exact hrs (hxr ▸ hx)
    refine ⟨h₄, rk.1, ?_, ?_, ?_⟩
    · simp only [rotateLeftAt, hk, hrk, hm₁, hm₂, hm₃, hm₄, Option.bind_eq_bind, Option.bind_some]
    · simp only [rotateLeft] at hrot
      have hl := hsub hleft hkleft hrkleft
      have hm := hsub hrl hkl hrkl
      have hr := hsub hrr hkr hrkr
      by_cases hb : bBal ≤ 0
      · rw [if_pos hb] at hrot
        cases hrot
        simp only [hb, if_true] at hk₄ hrk₄
        exact ⟨rfl, _, _, hrk₄, ⟨rfl, _, _, hk₄, hl, hm⟩, hr⟩
      · rw [if_neg hb] at hrot
        cases hrot
        simp only [hb, if_false] at hk₄ hrk₄
        exact ⟨rfl, _, _, hrk₄, ⟨rfl, _, _, hk₄, hl, hm⟩, hr⟩
    · intro x hx _
      simp only [places_node, List.mem_append, List.mem_cons, not_or] at hx
      exact hother x hx.2.1 hx.2.2.2.1

theorem rotateRightAt_spec {q : Nat} (ht : TreeAt h (some q) t) (hrot : t.rotateRight = some t') :
    ∃ h' q', rotateRightAt h q = some (h', q') ∧ TurnsInto h h' t (some q') t' := by
  match t, ht, hrot with
  | .node aBal k v (.node bBal lk lv ll lr) right, ht, hrot =>
    obtain ⟨hq, pl, pr, hk, hpl, hright⟩ := ht.nodes
    obtain ⟨hpl, pll, plr, hlk, hll, hlr⟩ := hpl
    obtain rfl : q = k.1 := Option.some.inj hq
    subst hpl
    have hnodup := ht.nodup
    rw [nodup_node, nodup_node] at hnodup
    simp only [places_node, List.mem_append, List.mem_cons, not_or] at hnodup
    obtain ⟨⟨-, -, hlkl, hlkr, -⟩, -, ⟨hkl, hne, hkr⟩, hkright, hapart⟩ := hnodup
    have hlkright : lk.1 ∉ right.places := hapart lk.1 (Or.inr (Or.inl rfl))
    obtain ⟨h₁, hm₁, hk₁, ho₁⟩ := Heap.modify_spec hk fun c => { c with left := plr }
    have hlk₁ := (ho₁ lk.1 (Ne.symm hne)).trans hlk
    obtain ⟨h₂, hm₂, hlk₂, ho₂⟩ := Heap.modify_spec hlk₁ fun c => { c with right := some k.1 }
    obtain ⟨h₃, hm₃, hlk₃, ho₃⟩ := Heap.modify_spec hlk₂ fun c => { c with balance :=
      if bBal ≤ 0 then (if aBal < bBal then bBal + 1 else aBal + 2)
      else (if aBal ≤ -1 then bBal + 1 else aBal + bBal + 2) }
    have hk₃ := ((ho₃ k.1 hne).trans (ho₂ k.1 hne)).trans hk₁
    obtain ⟨h₄, hm₄, hk₄, ho₄⟩ := Heap.modify_spec hk₃ fun c => { c with balance :=
      if bBal ≤ 0 then aBal - bBal + 1 else aBal + 1 }
    have hlk₄ := (ho₄ lk.1 (Ne.symm hne)).trans hlk₃
    have hother (x : Nat) (hxk : x ≠ k.1) (hxl : x ≠ lk.1) :
        Heap.read h₄ x = Heap.read h x := by
      rw [ho₄ x hxk, ho₃ x hxl, ho₂ x hxl, ho₁ x hxk]
    have hsub {s : ITreeNode (Nat × κ) ν} {ps : Option Nat} (hs : NodesAt h ps s)
        (hks : k.1 ∉ s.places) (hls : lk.1 ∉ s.places) : NodesAt h₄ ps s := by
      apply hs.frame
      intro x hx
      apply hother
      · intro hxk
        exact hks (hxk ▸ hx)
      · intro hxl
        exact hls (hxl ▸ hx)
    refine ⟨h₄, lk.1, ?_, ?_, ?_⟩
    · simp only [rotateRightAt, hk, hlk, hm₁, hm₂, hm₃, hm₄, Option.bind_eq_bind, Option.bind_some]
    · simp only [rotateRight] at hrot
      have hl := hsub hll hkl hlkl
      have hm := hsub hlr hkr hlkr
      have hr := hsub hright hkright hlkright
      by_cases hb : bBal ≤ 0
      · rw [if_pos hb] at hrot
        cases hrot
        simp only [hb, if_true] at hk₄ hlk₄
        exact ⟨rfl, _, _, hlk₄, hl, rfl, _, _, hk₄, hm, hr⟩
      · rw [if_neg hb] at hrot
        cases hrot
        simp only [hb, if_false] at hk₄ hlk₄
        exact ⟨rfl, _, _, hlk₄, hl, rfl, _, _, hk₄, hm, hr⟩
    · intro x hx _
      simp only [places_node, List.mem_append, List.mem_cons, not_or] at hx
      exact hother x hx.2.1 hx.1.2.1

/-- Moving nodes keeps their addresses. -/
theorem places_of_inOrder (ho : t'.inOrder = t.inOrder) : t'.places = t.places := by
  rw [places, ho, places]

theorem rotateLeft_places (hrot : t.rotateLeft = some t') : t'.places = t.places :=
  places_of_inOrder (rotateLeft_inOrder hrot)

theorem rotateRight_places (hrot : t.rotateRight = some t') : t'.places = t.places :=
  places_of_inOrder (rotateRight_inOrder hrot)

/-- The subtree of a node was replaced by one with the same nodes and possibly a new one. -/
structure Replaces (h h' : ITreeHeap κ ν) (s : ITreeNode (Nat × κ) ν) (p : Option Nat)
    (s' : ITreeNode (Nat × κ) ν) : Prop extends TurnsInto h h' s p s' where
  nodup : s'.places.Nodup
  fresh : ∀ x ∈ s'.places, x ∈ s.places ∨ Heap.read h x = none

theorem TurnsInto.replaces (hs : TurnsInto h h' t p t') (hnodup : t.places.Nodup)
    (hplaces : t'.places = t.places) : Replaces h h' t p t' := by
  refine ⟨hs, hplaces ▸ hnodup, ?_⟩
  intro x hx
  exact Or.inl (hplaces ▸ hx)

/-- A node whose left subtree was replaced is linked to the new one. -/
theorem TreeAt.relink_left {left : Option Nat} {l' : ITreeNode (Nat × κ) ν}
    (ht : TreeAt h (some k.1) (.node b k v l r)) (hl : Replaces h h' l left l') :
    ∃ h₁, Heap.modify h' k.1 (fun c => { c with left := left }) = some h₁ ∧
      TreeAt h₁ (some k.1) (.node b k v l' r) ∧
      ∀ x, x ∉ (node b k v l r).places → x ∉ l'.places → Heap.read h₁ x = Heap.read h x := by
  obtain ⟨-, pl, pr, hk, -, hr⟩ := ht.nodes
  obtain ⟨-, hrnodup, hkl, hkr, hapart⟩ := nodup_node.mp ht.nodup
  -- what is held in the old heap and is not of `l` is not of `l'`
  have hout {x : Nat} (hx : (Heap.read h x).isSome) (hxl : x ∉ l.places) : x ∉ l'.places := by
    intro hxl'
    rcases hl.fresh x hxl' with hin | hnone
    · exact hxl hin
    · rw [hnone] at hx
      cases hx
  have hkl' : k.1 ∉ l'.places := hout (by rw [hk]; rfl) hkl
  have hk' : Heap.read h' k.1 = some ⟨b, k.2, v, pl, pr⟩ := (hl.other k.1 hkl hkl').trans hk
  obtain ⟨h₁, hm, hk₁, ho₁⟩ := Heap.modify_spec hk' fun c => { c with left := left }
  have hrout (x : Nat) (hx : x ∈ r.places) : x ∉ l.places ∧ x ∉ l'.places := by
    have hxl : x ∉ l.places := fun hmem => hapart x hmem hx
    exact ⟨hxl, hout (hr.isSome x hx) hxl⟩
  have hne {x : Nat} {s : ITreeNode (Nat × κ) ν} (hx : x ∈ s.places) (hks : k.1 ∉ s.places) :
      x ≠ k.1 := by
    intro hxk
    exact hks (hxk ▸ hx)
  refine ⟨h₁, hm, ⟨⟨rfl, left, pr, hk₁, ?_, ?_⟩, ?_⟩, ?_⟩
  · apply hl.nodes.frame
    intro x hx
    exact ho₁ x (hne hx hkl')
  · apply hr.frame
    intro x hx
    rw [ho₁ x (hne hx hkr), hl.other x (hrout x hx).1 (hrout x hx).2]
  · apply nodup_node.mpr
    refine ⟨hl.nodup, hrnodup, hkl', hkr, ?_⟩
    intro x hx hxr
    exact (hrout x hxr).2 hx
  · intro x hx hx'
    simp only [places_node, List.mem_append, List.mem_cons, not_or] at hx
    rw [ho₁ x hx.2.1, hl.other x hx.1 hx']

theorem TreeAt.relink_right {right : Option Nat} {r' : ITreeNode (Nat × κ) ν}
    (ht : TreeAt h (some k.1) (.node b k v l r)) (hr : Replaces h h' r right r') :
    ∃ h₁, Heap.modify h' k.1 (fun c => { c with right := right }) = some h₁ ∧
      TreeAt h₁ (some k.1) (.node b k v l r') ∧
      ∀ x, x ∉ (node b k v l r).places → x ∉ r'.places → Heap.read h₁ x = Heap.read h x := by
  obtain ⟨-, pl, pr, hk, hl, -⟩ := ht.nodes
  obtain ⟨hlnodup, -, hkl, hkr, hapart⟩ := nodup_node.mp ht.nodup
  have hout {x : Nat} (hx : (Heap.read h x).isSome) (hxr : x ∉ r.places) : x ∉ r'.places := by
    intro hxr'
    rcases hr.fresh x hxr' with hin | hnone
    · exact hxr hin
    · rw [hnone] at hx
      cases hx
  have hkr' : k.1 ∉ r'.places := hout (by rw [hk]; rfl) hkr
  have hk' : Heap.read h' k.1 = some ⟨b, k.2, v, pl, pr⟩ := (hr.other k.1 hkr hkr').trans hk
  obtain ⟨h₁, hm, hk₁, ho₁⟩ := Heap.modify_spec hk' fun c => { c with right := right }
  have hlout (x : Nat) (hx : x ∈ l.places) : x ∉ r.places ∧ x ∉ r'.places :=
    ⟨hapart x hx, hout (hl.isSome x hx) (hapart x hx)⟩
  have hne {x : Nat} {s : ITreeNode (Nat × κ) ν} (hx : x ∈ s.places) (hks : k.1 ∉ s.places) :
      x ≠ k.1 := by
    intro hxk
    exact hks (hxk ▸ hx)
  refine ⟨h₁, hm, ⟨⟨rfl, pl, right, hk₁, ?_, ?_⟩, ?_⟩, ?_⟩
  · apply hl.frame
    intro x hx
    rw [ho₁ x (hne hx hkl), hr.other x (hlout x hx).1 (hlout x hx).2]
  · apply hr.nodes.frame
    intro x hx
    exact ho₁ x (hne hx hkr')
  · apply nodup_node.mpr
    refine ⟨hlnodup, hr.nodup, hkl, hkr', ?_⟩
    intro x hx
    exact (hlout x hx).2
  · intro x hx hx'
    simp only [places_node, List.mem_append, List.mem_cons, not_or] at hx
    rw [ho₁ x hx.2.1, hr.other x hx.2.2 hx']

theorem TreeAt.children (ht : TreeAt h p (.node b k v l r)) :
    ∃ pl pr, Heap.read h k.1 = some ⟨b, k.2, v, pl, pr⟩ ∧ TreeAt h pl l ∧ TreeAt h pr r := by
  obtain ⟨-, pl, pr, hk, hl, hr⟩ := ht.nodes
  obtain ⟨hln, hrn, -⟩ := nodup_node.mp ht.nodup
  exact ⟨pl, pr, hk, ⟨hl, hln⟩, ⟨hr, hrn⟩⟩

theorem nodeBalanceAt_spec {q : Nat} (ht : TreeAt h (some q) t) (hbal : t.nodeBalance = some t') :
    ∃ h' q', nodeBalanceAt h q = some (h', q') ∧ TurnsInto h h' t (some q') t' := by
  cases t with
  | null => cases ht.nodes
  | node b k v l r =>
    obtain rfl : q = k.1 := Option.some.inj ht.nodes.1
    obtain ⟨pl, pr, hk, hl, hr⟩ := ht.children
    simp only [nodeBalance] at hbal
    by_cases hlow : b < -1
    · rw [if_pos hlow] at hbal
      obtain ⟨l₁, hlean, hrot⟩ := Option.bind_eq_some_iff.mp hbal
      cases l with
      | null => cases hlean
      | node lb lk lv ll lr =>
        obtain rfl : pl = some lk.1 := hl.nodes.1
        obtain ⟨pll, plr, hlk, -⟩ := hl.children
        simp only [leanLeft, balance?] at hlean
        by_cases hdouble : 0 < lb
        · rw [if_pos hdouble] at hlean
          obtain ⟨h₁, q₁, hrun₁, hturn₁⟩ := rotateLeftAt_spec hl hlean
          obtain ⟨h₂, hrun₂, ht₂, ho₂⟩ :=
            ht.relink_left (hturn₁.replaces hl.nodup (rotateLeft_places hlean))
          obtain ⟨h₃, q₃, hrun₃, hturn₃⟩ := rotateRightAt_spec ht₂ hrot
          refine ⟨h₃, q₃, ?_, hturn₃.nodes, ?_⟩
          · simp only [nodeBalanceAt, hk, hlow, hlk, hdouble, hrun₁, hrun₂, hrun₃,
              Option.bind_eq_bind, Option.bind_some, if_true]
          · intro x hx hx'
            have hx₁ : x ∉ l₁.places := by
              rw [rotateLeft_places hlean]
              simp only [places_node, List.mem_append, List.mem_cons, not_or] at hx ⊢
              exact hx.1
            have hx₂ : x ∉ (node b k v l₁ r).places := by
              simp only [places_node, List.mem_append, List.mem_cons, not_or] at hx ⊢
              exact ⟨hx₁, hx.2⟩
            rw [hturn₃.other x hx₂ hx', ho₂ x hx hx₁]
        · rw [if_neg hdouble] at hlean
          cases hlean
          obtain ⟨h₃, q₃, hrun₃, hturn₃⟩ := rotateRightAt_spec ht hrot
          refine ⟨h₃, q₃, ?_, hturn₃⟩
          simp only [nodeBalanceAt, hk, hlow, hlk, hdouble, hrun₃, Option.bind_eq_bind,
            Option.bind_some, if_true, if_false]
    · rw [if_neg hlow] at hbal
      by_cases hhigh : 1 < b
      · rw [if_pos hhigh] at hbal
        obtain ⟨r₁, hlean, hrot⟩ := Option.bind_eq_some_iff.mp hbal
        cases r with
        | null => cases hlean
        | node rb rk rv rl rr =>
          obtain rfl : pr = some rk.1 := hr.nodes.1
          obtain ⟨prl, prr, hrk, -⟩ := hr.children
          simp only [leanRight, balance?] at hlean
          by_cases hdouble : rb < 0
          · rw [if_pos hdouble] at hlean
            obtain ⟨h₁, q₁, hrun₁, hturn₁⟩ := rotateRightAt_spec hr hlean
            obtain ⟨h₂, hrun₂, ht₂, ho₂⟩ :=
              ht.relink_right (hturn₁.replaces hr.nodup (rotateRight_places hlean))
            obtain ⟨h₃, q₃, hrun₃, hturn₃⟩ := rotateLeftAt_spec ht₂ hrot
            refine ⟨h₃, q₃, ?_, hturn₃.nodes, ?_⟩
            · simp only [nodeBalanceAt, hk, hlow, hhigh, hrk, hdouble, hrun₁, hrun₂, hrun₃,
                Option.bind_eq_bind, Option.bind_some, if_true, if_false]
            · intro x hx hx'
              have hx₁ : x ∉ r₁.places := by
                rw [rotateRight_places hlean]
                simp only [places_node, List.mem_append, List.mem_cons, not_or] at hx ⊢
                exact hx.2.2
              have hx₂ : x ∉ (node b k v l r₁).places := by
                simp only [places_node, List.mem_append, List.mem_cons, not_or] at hx ⊢
                exact ⟨hx.1, hx.2.1, hx₁⟩
              rw [hturn₃.other x hx₂ hx', ho₂ x hx hx₁]
          · rw [if_neg hdouble] at hlean
            cases hlean
            obtain ⟨h₃, q₃, hrun₃, hturn₃⟩ := rotateLeftAt_spec ht hrot
            refine ⟨h₃, q₃, ?_, hturn₃⟩
            simp only [nodeBalanceAt, hk, hlow, hhigh, hrk, hdouble, hrun₃, Option.bind_eq_bind,
              Option.bind_some, if_true, if_false]
      · rw [if_neg hhigh] at hbal
        cases hbal
        refine ⟨h, k.1, ?_, ht.nodes, fun _ _ _ => rfl⟩
        simp only [nodeBalanceAt, hk, hlow, hhigh, Option.bind_eq_bind, Option.bind_some, if_false]

theorem settleAt_spec {q : Nat} {inserted answer : Bool} (ht : TreeAt h (some q) t)
    (hsettle : settle inserted t = some (t', answer)) :
    ∃ h' q', settleAt h q inserted = some (h', some q', answer) ∧
      TurnsInto h h' t (some q') t' := by
  match t, ht, hsettle with
  | .node b k v l r, ht, hsettle =>
    obtain rfl : q = k.1 := Option.some.inj ht.nodes.1
    obtain ⟨pl, pr, hk, -⟩ := ht.children
    simp only [settle] at hsettle
    by_cases hb : inserted = true ∧ (b < -1 ∨ 1 < b)
    · rw [if_pos hb] at hsettle
      obtain ⟨t₁, hbal, hanswer⟩ := Option.bind_eq_some_iff.mp hsettle
      cases hanswer
      obtain ⟨h', q', hrun, hturn⟩ := nodeBalanceAt_spec ht hbal
      refine ⟨h', q', ?_, hturn⟩
      simp only [settleAt, hk, hb, hrun, Option.bind_eq_bind, Option.bind_some, and_self, if_true]
    · rw [if_neg hb] at hsettle
      cases hsettle
      refine ⟨h, k.1, ?_, ht.nodes, fun _ _ _ => rfl⟩
      simp only [settleAt, hk, hb, Option.bind_eq_bind, Option.bind_some, if_false]

theorem settle_places {inserted answer : Bool} (hsettle : settle inserted t = some (t', answer)) :
    t'.places = t.places :=
  places_of_inOrder (settle_inOrder hsettle)

/-- The keys after an insertion: those before, and the new one where it was inserted. -/
theorem insert_keys {κ : Type} {compare : κ → κ → Int} {alloc inserted : Bool} {key : κ}
    {value : ν} {t t' : ITreeNode κ ν}
    (hins : ITreeNode.insert compare alloc key value t = some (t', inserted)) :
    ∃ l₁ l₂, t.inOrder.map Prod.fst = l₁ ++ l₂ ∧
      t'.inOrder.map Prod.fst = l₁ ++ (if inserted && alloc then [key] else []) ++ l₂ := by
  have hnew : ((nodeNew alloc key value).inOrder.map Prod.fst) = if alloc then [key] else [] := by
    cases alloc <;> rfl
  induction t generalizing t' inserted with
  | null =>
    cases hins
    exact ⟨[], [], rfl, by simp [hnew]⟩
  | node b k v l r ihl ihr =>
    simp only [ITreeNode.insert] at hins
    by_cases h0 : compare key k = 0
    · rw [if_pos h0] at hins
      cases hins
      exact ⟨[], (l.inOrder ++ (k, v) :: r.inOrder).map Prod.fst, by simp [inOrder],
        by simp [inOrder]⟩
    rw [if_neg h0] at hins
    by_cases hneg : compare key k < 0
    · rw [if_pos hneg] at hins
      cases l with
      | null =>
        obtain rfl : inserted = true := settle_answer hins
        refine ⟨[], k :: r.inOrder.map Prod.fst, by simp [inOrder], ?_⟩
        rw [settle_inOrder hins]
        simp [inOrder, hnew]
      | node lb lk lv ll lr =>
        simp only [balance?, Option.bind_eq_bind, Option.bind_eq_some_iff] at hins
        obtain ⟨⟨l', i⟩, hins', nb, -, hsettle⟩ := hins
        obtain rfl : inserted = i := settle_answer hsettle
        obtain ⟨l₁, l₂, hold, hkeys⟩ := ihl hins'
        refine ⟨l₁, l₂ ++ k :: r.inOrder.map Prod.fst, by rw [inOrder]; simp [hold], ?_⟩
        rw [settle_inOrder hsettle, inOrder]
        simp [hkeys]
    · rw [if_neg hneg] at hins
      cases r with
      | null =>
        obtain rfl : inserted = true := settle_answer hins
        refine ⟨l.inOrder.map Prod.fst ++ [k], [], by simp [inOrder], ?_⟩
        rw [settle_inOrder hins]
        simp [inOrder, hnew]
      | node rb rk rv rl rr =>
        simp only [balance?, Option.bind_eq_bind, Option.bind_eq_some_iff] at hins
        obtain ⟨⟨r', i⟩, hins', nb, -, hsettle⟩ := hins
        obtain rfl : inserted = i := settle_answer hsettle
        obtain ⟨l₁, l₂, hold, hkeys⟩ := ihr hins'
        refine ⟨l.inOrder.map Prod.fst ++ k :: l₁, l₂, by rw [inOrder]; simp [hold], ?_⟩
        rw [settle_inOrder hsettle, inOrder]
        simp [hkeys]

/-- The comparison of keys that carry an address. -/
def onKey (compare : κ → κ → Int) (a b : Nat × κ) : Int := compare a.2 b.2

theorem insert_places {compare : κ → κ → Int} {alloc inserted : Bool} {key : Nat × κ} {value : ν}
    (hins : ITreeNode.insert (onKey compare) alloc key value t = some (t', inserted)) :
    ∃ l₁ l₂, t.places = l₁ ++ l₂ ∧
      t'.places = l₁ ++ (if inserted && alloc then [key.1] else []) ++ l₂ := by
  obtain ⟨l₁, l₂, hold, hnew⟩ := insert_keys hins
  have hplaces (s : ITreeNode (Nat × κ) ν) :
      s.places = (s.inOrder.map Prod.fst).map Prod.fst := by
    rw [List.map_map]
    rfl
  refine ⟨l₁.map Prod.fst, l₂.map Prod.fst, by rw [hplaces, hold, List.map_append], ?_⟩
  rw [hplaces, hnew]
  split <;> simp

/-- An insertion whose new node gets a place that is not held. -/
theorem TurnsInto.inserted {compare : κ → κ → Int} {alloc inserted : Bool} {key : Nat × κ}
    {value : ν} (hturn : TurnsInto h h' t p t') (hnodup : t.places.Nodup)
    (hins : ITreeNode.insert (onKey compare) alloc key value t = some (t', inserted))
    (hheld : ∀ x ∈ t.places, (Heap.read h x).isSome) (hfree : Heap.read h key.1 = none) :
    Replaces h h' t p t' := by
  obtain ⟨l₁, l₂, hold, hnew⟩ := insert_places hins
  have hout : key.1 ∉ l₁ ++ l₂ := by
    intro hmem
    have hsome := hheld key.1 (hold ▸ hmem)
    rw [hfree] at hsome
    cases hsome
  refine ⟨hturn, ?_, ?_⟩
  · rw [hnew]
    rw [hold] at hnodup
    split
    · rw [List.append_assoc, List.singleton_append]
      exact List.nodup_middle.mpr (List.nodup_cons.mpr ⟨hout, hnodup⟩)
    · rwa [List.append_nil]
  · intro x hx
    rw [hnew] at hx
    rw [hold]
    split at hx
    · by_cases hxk : x = key.1
      · exact Or.inr (hxk ▸ hfree)
      · simp only [List.mem_append, List.mem_singleton, hxk, or_false] at hx
        exact Or.inl (List.mem_append.mpr hx)
    · rw [List.append_nil] at hx
      exact Or.inl hx

theorem TreeAt.rebalance (ht : TreeAt h (some k.1) (.node b k v l r)) (f : Int → Int) :
    ∃ h₁, Heap.modify h k.1 (fun c => { c with balance := f c.balance }) = some h₁ ∧
      TreeAt h₁ (some k.1) (.node (f b) k v l r) ∧
      ∀ x, x ≠ k.1 → Heap.read h₁ x = Heap.read h x := by
  obtain ⟨pl, pr, hk, hl, hr⟩ := ht.children
  obtain ⟨h₁, hm, hk₁, ho₁⟩ := Heap.modify_spec hk fun c => { c with balance := f c.balance }
  obtain ⟨hln, hrn, hkl, hkr, hapart⟩ := nodup_node.mp ht.nodup
  refine ⟨h₁, hm, ⟨⟨rfl, pl, pr, hk₁, ?_, ?_⟩, nodup_node.mpr ⟨hln, hrn, hkl, hkr, hapart⟩⟩, ho₁⟩
  · apply hl.nodes.frame
    intro x hx
    apply ho₁
    intro hxk
    exact hkl (hxk ▸ hx)
  · apply hr.nodes.frame
    intro x hx
    apply ho₁
    intro hxk
    exact hkr (hxk ▸ hx)

/-- A node that was given another subtree is balanced and settled. -/
theorem settleAt_relinked {h₂ : ITreeHeap κ ν} {l' r' : ITreeNode (Nat × κ) ν} {f : Int → Int}
    {inserted answer : Bool} (ht₂ : TreeAt h₂ (some k.1) (.node b k v l' r'))
    (hsettle : settle inserted (.node (f b) k v l' r') = some (t', answer))
    (hother : ∀ x, x ∉ (node b k v l r).places → x ∉ (node b k v l' r').places →
      Heap.read h₂ x = Heap.read h x) :
    ∃ h₃ h' p', Heap.modify h₂ k.1 (fun c => { c with balance := f c.balance }) = some h₃ ∧
      settleAt h₃ k.1 inserted = some (h', p', answer) ∧
      TurnsInto h h' (.node b k v l r) p' t' := by
  obtain ⟨h₃, hrun₃, ht₃, ho₃⟩ := ht₂.rebalance f
  obtain ⟨h', p', hrun', hturn⟩ := settleAt_spec ht₃ hsettle
  refine ⟨h₃, h', some p', hrun₃, hrun', hturn.nodes, ?_⟩
  intro x hx hx'
  have hplaces : t'.places = (node b k v l' r').places := by
    rw [settle_places hsettle, places_node, places_node]
  have hx₃ : x ∉ (node b k v l' r').places := hplaces ▸ hx'
  have hxk : x ≠ k.1 := by
    intro heq
    simp [heq] at hx
  rw [hturn.other x hx₃ hx', ho₃ x hxk, hother x hx hx₃]

theorem nodeNewAt_spec (h : ITreeHeap κ ν) (alloc : Bool) (key : κ) (value : ν) :
    ∃ h' p', nodeNewAt h alloc key value = (h', p') ∧
      TurnsInto h h' .null p' (nodeNew alloc (h.length, key) value) := by
  cases alloc with
  | false => exact ⟨h, none, rfl, rfl, fun _ _ _ => rfl⟩
  | true =>
    refine ⟨_, _, rfl, ⟨rfl, none, none, Heap.read_append_self h _, rfl, rfl⟩, ?_⟩
    intro x _ hx
    apply Heap.read_append_of_ne
    intro heq
    apply hx
    simp [nodeNew, heq]

/-- i_tree_node_insert on the heap does what it does to the tree: the nodes stay where they are,
and a new one comes from malloc. -/
theorem nodeInsertAt_spec {compare : κ → κ → Int} {alloc inserted : Bool} {key : κ} {value : ν}
    {fuel : Nat} (ht : TreeAt h p t) (hfuel : t.inOrder.length ≤ fuel)
    (hins : ITreeNode.insert (onKey compare) alloc (h.length, key) value t =
      some (t', inserted)) :
    ∃ h' p', nodeInsertAt compare alloc key value fuel h p = some (h', p', inserted) ∧
      TurnsInto h h' t p' t' := by
  have hfree : Heap.read h h.length = none := Heap.read_length h
  induction t generalizing p t' inserted fuel with
  | null =>
    obtain rfl : p = none := ht.nodes
    cases hins
    obtain ⟨h', p', hrun, hturn⟩ := nodeNewAt_spec h alloc key value
    refine ⟨h', p', ?_, hturn⟩
    simp only [nodeInsertAt, hrun]
  | node b k v l r ihl ihr =>
    obtain rfl : p = some k.1 := ht.nodes.1
    obtain ⟨fuel, rfl⟩ : ∃ j, fuel = j + 1 := ⟨fuel - 1, by simp [inOrder] at hfuel; omega⟩
    simp only [inOrder, List.length_append, List.length_cons] at hfuel
    obtain ⟨pl, pr, hk, hl, hr⟩ := ht.children
    have hheld := ht.nodes.isSome
    simp only [ITreeNode.insert] at hins
    by_cases h0 : onKey compare (h.length, key) k = 0
    · rw [if_pos h0] at hins
      cases hins
      have h0' : compare key k.2 = 0 := h0
      obtain ⟨h', hrun, hk', ho⟩ := Heap.modify_spec hk fun c => { c with value := value }
      obtain ⟨-, -, hkl, hkr, -⟩ := nodup_node.mp ht.nodup
      refine ⟨h', some k.1, ?_, ⟨rfl, pl, pr, hk', ?_, ?_⟩, ?_⟩
      · simp only [nodeInsertAt, hk, h0', hrun, Option.bind_eq_bind, Option.bind_some, if_true]
      · apply hl.nodes.frame
        intro x hx
        apply ho
        intro hxk
        exact hkl (hxk ▸ hx)
      · apply hr.nodes.frame
        intro x hx
        apply ho
        intro hxk
        exact hkr (hxk ▸ hx)
      · intro x hx _
        apply ho
        intro hxk
        simp [hxk] at hx
    rw [if_neg h0] at hins
    have h0' : ¬ compare key k.2 = 0 := h0
    by_cases hneg : onKey compare (h.length, key) k < 0
    · have hneg' : compare key k.2 < 0 := hneg
      rw [if_pos hneg] at hins
      cases l with
      | null =>
        obtain rfl : pl = none := hl.nodes
        obtain ⟨h₁, left, hrun₁, hturn₁⟩ := nodeNewAt_spec h alloc key value
        have hins₁ : ITreeNode.insert (onKey compare) alloc (h.length, key) value null =
            some (nodeNew alloc (h.length, key) value, true) := rfl
        have hrep := hturn₁.inserted hl.nodup hins₁ (by simp) hfree
        obtain ⟨h₂, hrun₂, ht₂, ho₂⟩ := ht.relink_left hrep
        obtain ⟨h₃, h', p', hrun₃, hrun', hturn⟩ :=
          settleAt_relinked (f := fun b => b - 1) (l := null) (r := r) (h := h) ht₂ hins
            (fun x hx hx' => ho₂ x hx (by simp at hx'; exact hx'.1))
        refine ⟨h', p', ?_, hturn⟩
        simp only [nodeInsertAt, hk, h0', hneg', hrun₁, hrun₂, hrun₃, hrun', Option.bind_eq_bind,
          Option.bind_some, if_true, if_false]
      | node lb lk lv ll lr =>
        obtain rfl : pl = some lk.1 := hl.nodes.1
        obtain ⟨pll, plr, hlk, -⟩ := hl.children
        simp only [balance?, Option.bind_eq_bind, Option.bind_eq_some_iff] at hins
        obtain ⟨⟨l', i⟩, hins', nb, hnb, hsettle⟩ := hins
        have hlen : (node lb lk lv ll lr).inOrder.length ≤ fuel := by omega
        obtain ⟨h₁, left, hrun₁, hturn₁⟩ := ihl hl hlen hins'
        have hrep := hturn₁.inserted hl.nodup hins' hl.nodes.isSome hfree
        obtain ⟨h₂, hrun₂, ht₂, ho₂⟩ := ht.relink_left hrep
        cases l' with
        | null => cases hnb
        | node lb' lk' lv' ll' lr' =>
          obtain rfl : nb = lb' := (Option.some.inj hnb).symm
          obtain rfl : left = some lk'.1 := hturn₁.nodes.1
          obtain ⟨pl', pr', hk₂, hl₂, -⟩ := ht₂.children
          obtain rfl : pl' = some lk'.1 := hl₂.nodes.1
          obtain ⟨pll', plr', hlk', -⟩ := hl₂.children
          obtain ⟨h₃, h', p', hrun₃, hrun', hturn⟩ := settleAt_relinked
            (f := fun b => if lb ≠ nb ∧ nb ≠ 0 then b - 1 else b) ht₂ hsettle
            (l := node lb lk lv ll lr) (r := r) (h := h)
            (fun x hx hx' => ho₂ x hx (by
              rw [places_node, List.mem_append, not_or] at hx'
              exact hx'.1))
          refine ⟨h', p', ?_, hturn⟩
          simp only [nodeInsertAt, hk, h0', hneg', hlk, hrun₁, hrun₂, hlk', hrun₃, hrun',
            Option.bind_eq_bind, Option.bind_some, if_true, if_false]
    · have hneg' : ¬ compare key k.2 < 0 := hneg
      rw [if_neg hneg] at hins
      cases r with
      | null =>
        obtain rfl : pr = none := hr.nodes
        obtain ⟨h₁, right, hrun₁, hturn₁⟩ := nodeNewAt_spec h alloc key value
        have hins₁ : ITreeNode.insert (onKey compare) alloc (h.length, key) value null =
            some (nodeNew alloc (h.length, key) value, true) := rfl
        have hrep := hturn₁.inserted hr.nodup hins₁ (by simp) hfree
        obtain ⟨h₂, hrun₂, ht₂, ho₂⟩ := ht.relink_right hrep
        obtain ⟨h₃, h', p', hrun₃, hrun', hturn⟩ :=
          settleAt_relinked (f := fun b => b + 1) (l := l) (r := null) (h := h) ht₂ hins
            (fun x hx hx' => ho₂ x hx (by
              simp only [places_node, List.mem_append, List.mem_cons, not_or] at hx'
              exact hx'.2.2))
        refine ⟨h', p', ?_, hturn⟩
        simp only [nodeInsertAt, hk, h0', hneg', hrun₁, hrun₂, hrun₃, hrun', Option.bind_eq_bind,
          Option.bind_some, if_false]
      | node rb rk rv rl rr =>
        obtain rfl : pr = some rk.1 := hr.nodes.1
        obtain ⟨prl, prr, hrk, -⟩ := hr.children
        simp only [balance?, Option.bind_eq_bind, Option.bind_eq_some_iff] at hins
        obtain ⟨⟨r', i⟩, hins', nb, hnb, hsettle⟩ := hins
        have hlen : (node rb rk rv rl rr).inOrder.length ≤ fuel := by omega
        obtain ⟨h₁, right, hrun₁, hturn₁⟩ := ihr hr hlen hins'
        have hrep := hturn₁.inserted hr.nodup hins' hr.nodes.isSome hfree
        obtain ⟨h₂, hrun₂, ht₂, ho₂⟩ := ht.relink_right hrep
        cases r' with
        | null => cases hnb
        | node rb' rk' rv' rl' rr' =>
          obtain rfl : nb = rb' := (Option.some.inj hnb).symm
          obtain rfl : right = some rk'.1 := hturn₁.nodes.1
          obtain ⟨pl', pr', hk₂, -, hr₂⟩ := ht₂.children
          obtain rfl : pr' = some rk'.1 := hr₂.nodes.1
          obtain ⟨prl', prr', hrk', -⟩ := hr₂.children
          obtain ⟨h₃, h', p', hrun₃, hrun', hturn⟩ := settleAt_relinked
            (f := fun b => if rb ≠ nb ∧ nb ≠ 0 then b + 1 else b) ht₂ hsettle
            (l := l) (r := node rb rk rv rl rr) (h := h)
            (fun x hx hx' => ho₂ x hx (by
              rw [places_node, List.mem_append, List.mem_cons, not_or, not_or] at hx'
              exact hx'.2.2))
          refine ⟨h', p', ?_, hturn⟩
          simp only [nodeInsertAt, hk, h0', hneg', hrk, hrun₁, hrun₂, hrk', hrun₃, hrun',
            Option.bind_eq_bind, Option.bind_some, if_false]

end

end IPStat
