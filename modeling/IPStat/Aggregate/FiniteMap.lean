import IPStat.Aggregate.Balance
import IPStat.Lib.Assoc
import IPStat.Lib.Run
import Mathlib.Data.List.Perm.Basic

namespace IPStat

/-- ITree; its `nnodes` and `height` are never read and left out. -/
structure ITree (κ ν : Type) where
  root : ITreeNode κ ν
  cmpFunc : κ → κ → Int

inductive ITraverseType where
  | inOrder
  | preOrder
  | postOrder
  | levelOrder
  deriving DecidableEq, Repr

namespace ITreeNode

variable {κ ν σ : Type} (f : σ → κ × ν → σ × Bool)

/-- i_tree_node_in_order; `f` is the callback with the data behind its pointer, and `true` is
an answer that is not zero. -/
def nodeInOrder : ITreeNode κ ν → σ → σ × Bool
  | .null, s => (s, false)
  | .node _ k v l r, s =>
    Run.goOn (nodeInOrder l s) fun s => Run.goOn (f s (k, v)) fun s => nodeInOrder r s

def nodePreOrder : ITreeNode κ ν → σ → σ × Bool
  | .null, s => (s, false)
  | .node _ k v l r, s =>
    Run.goOn (f s (k, v)) fun s => Run.goOn (nodePreOrder l s) fun s => nodePreOrder r s

def nodePostOrder : ITreeNode κ ν → σ → σ × Bool
  | .null, s => (s, false)
  | .node _ k v l r, s =>
    Run.goOn (nodePostOrder l s) fun s => Run.goOn (nodePostOrder r s) fun s => f s (k, v)

end ITreeNode

section
variable {κ ν σ : Type}

def iTreeNew (func : κ → κ → Int) : ITree κ ν := ⟨.null, func⟩

def iTreeInsert (alloc : Bool) (tree : ITree κ ν) (key : κ) (value : ν) :
    Option (ITree κ ν × Bool) :=
  (tree.root.insert tree.cmpFunc alloc key value).map fun p => ({ tree with root := p.1 }, p.2)

def iTreeLookup (tree : ITree κ ν) (key : κ) : Option ν := tree.root.lookup tree.cmpFunc key

def iTreeTraverse (tree : ITree κ ν) (f : σ → κ × ν → σ × Bool) (type : ITraverseType)
    (data : σ) : σ :=
  match type with
  | .preOrder => (tree.root.nodePreOrder f data).1
  | .inOrder => (tree.root.nodeInOrder f data).1
  | .postOrder => (tree.root.nodePostOrder f data).1
  | .levelOrder => data

/-- A sequence of insertions, with what each of them answers. -/
def insertAll : ITree κ ν → List (κ × ν) → Option (ITree κ ν × List Bool)
  | tree, [] => some (tree, [])
  | tree, (key, value) :: kvs => do
    let (tree, inserted) ← iTreeInsert true tree key value
    let (tree, answers) ← insertAll tree kvs
    return (tree, inserted :: answers)

end

namespace ITreeNode

variable {κ ν σ : Type}

def preOrder : ITreeNode κ ν → List (κ × ν)
  | .null => []
  | .node _ k v l r => (k, v) :: (l.preOrder ++ r.preOrder)

def postOrder : ITreeNode κ ν → List (κ × ν)
  | .null => []
  | .node _ k v l r => l.postOrder ++ (r.postOrder ++ [(k, v)])

theorem nodeInOrder_eq (f : σ → κ × ν → σ × Bool) (t : ITreeNode κ ν) (s : σ) :
    t.nodeInOrder f s = Run.untilStop f s t.inOrder := by
  induction t generalizing s with
  | null => rfl
  | node b k v l r ihl ihr =>
    rw [nodeInOrder, inOrder, Run.untilStop_append, ihl]
    simp only [ihr, Run.untilStop]

theorem nodePreOrder_eq (f : σ → κ × ν → σ × Bool) (t : ITreeNode κ ν) (s : σ) :
    t.nodePreOrder f s = Run.untilStop f s t.preOrder := by
  induction t generalizing s with
  | null => rfl
  | node b k v l r ihl ihr =>
    rw [nodePreOrder, preOrder, Run.untilStop]
    simp only [ihl, ihr, Run.untilStop_append]

theorem nodePostOrder_eq (f : σ → κ × ν → σ × Bool) (t : ITreeNode κ ν) (s : σ) :
    t.nodePostOrder f s = Run.untilStop f s t.postOrder := by
  induction t generalizing s with
  | null => rfl
  | node b k v l r ihl ihr =>
    rw [nodePostOrder, postOrder, Run.untilStop_append, ihl]
    simp only [ihr, Run.untilStop_append, Run.untilStop, Run.goOn_stop]

theorem preOrder_perm (t : ITreeNode κ ν) : t.preOrder.Perm t.inOrder := by
  induction t with
  | null => exact List.Perm.refl _
  | node b k v l r ihl ihr =>
    have hsub : (l.preOrder ++ r.preOrder).Perm (l.inOrder ++ r.inOrder) := ihl.append ihr
    exact (hsub.cons (k, v)).trans List.perm_middle.symm

theorem postOrder_perm (t : ITreeNode κ ν) : t.postOrder.Perm t.inOrder := by
  induction t with
  | null => exact List.Perm.refl _
  | node b k v l r ihl ihr =>
    have hlast : (r.postOrder ++ [(k, v)]).Perm ((k, v) :: r.inOrder) :=
      (List.perm_append_singleton _ _).trans (ihr.cons (k, v))
    exact ihl.append hlast

section
variable {compare : κ → κ → Int} {key : κ} {value : ν}

theorem settle_answer {t t' : ITreeNode κ ν} {i j : Bool} (h : settle i t = some (t', j)) :
    j = i := by
  cases t with
  | null => cases h
  | node b k v l r =>
    rw [settle] at h
    split_ifs at h
    · obtain ⟨t', -, he⟩ := Option.bind_eq_some_iff.mp h
      cases he
      rfl
    · cases h
      rfl

/-- On a tree in order, an insertion is the one into its sorted list of entries, and tells
whether the key was absent. -/
theorem insert_refines (hc : Assoc.StrictTotal compare) {t t' : ITreeNode κ ν} {inserted : Bool}
    (hs : Assoc.Sorted compare t.inOrder)
    (h : insert compare true key value t = some (t', inserted)) :
    t'.inOrder = Assoc.insert compare key value t.inOrder ∧
      (inserted = true ↔ Assoc.lookup compare key t.inOrder = none) := by
  induction t generalizing t' inserted with
  | null =>
    cases h
    simp [nodeNew, inOrder, Assoc.insert, Assoc.lookup]
  | node b k v l r ihl ihr =>
    rw [inOrder] at hs ⊢
    obtain ⟨hsl, hskr, -⟩ := List.pairwise_append.mp hs
    obtain ⟨-, hsr⟩ := List.pairwise_cons.mp hskr
    rw [insert] at h
    by_cases h0 : compare key k = 0
    · rw [if_pos h0] at h
      cases h
      have hbelow := Assoc.Sorted.below hc hs (Int.le_of_eq h0.symm)
      have hne := Assoc.Sorted.ne_below hc hs (Int.le_of_eq h0.symm)
      have hk := (hc.zero_iff key k).mp h0
      subst hk
      rw [inOrder, Assoc.insert_append_right hbelow, Assoc.lookup_append_right hne]
      simp [Assoc.insert, Assoc.lookup, h0]
    by_cases hneg : compare key k < 0
    · have hright := Assoc.Sorted.ne_above hc hs hneg
      rw [if_neg h0, if_pos hneg] at h
      rw [Assoc.insert_append_left hneg, Assoc.lookup_append_left hright]
      cases l with
      | null =>
        have hset := settle_inOrder h
        rw [settle_answer h, hset]
        simp [inOrder, nodeNew, Assoc.insert, Assoc.lookup]
      | node lb lk lv ll lr =>
        simp only [balance?, Option.bind_eq_bind, Option.bind_eq_some_iff] at h
        obtain ⟨⟨l', i⟩, hins, nb, -, h⟩ := h
        obtain ⟨hl', hi⟩ := ihl hsl hins
        have hset := settle_inOrder h
        rw [settle_answer h, hset, inOrder, hl']
        exact ⟨rfl, hi⟩
    · have hleft := Assoc.Sorted.below hc hs (Int.not_lt.mp hneg)
      have hne := Assoc.Sorted.ne_below hc hs (Int.not_lt.mp hneg)
      rw [if_neg h0, if_neg hneg] at h
      rw [Assoc.insert_append_right hleft, Assoc.lookup_append_right hne, Assoc.insert,
        if_neg h0, if_neg hneg, Assoc.lookup, if_neg h0]
      cases r with
      | null =>
        have hset := settle_inOrder h
        rw [settle_answer h, hset]
        simp [inOrder, nodeNew, Assoc.insert, Assoc.lookup]
      | node rb rk rv rl rr =>
        simp only [balance?, Option.bind_eq_bind, Option.bind_eq_some_iff] at h
        obtain ⟨⟨r', i⟩, hins, nb, -, h⟩ := h
        obtain ⟨hr', hi⟩ := ihr hsr hins
        have hset := settle_inOrder h
        rw [settle_answer h, hset, inOrder, hr']
        exact ⟨rfl, hi⟩

theorem lookup_refines (hc : Assoc.StrictTotal compare) {t : ITreeNode κ ν}
    (hs : Assoc.Sorted compare t.inOrder) :
    t.lookup compare key = Assoc.lookup compare key t.inOrder := by
  induction t with
  | null => rfl
  | node b k v l r ihl ihr =>
    rw [inOrder] at hs ⊢
    obtain ⟨hsl, hskr, -⟩ := List.pairwise_append.mp hs
    obtain ⟨-, hsr⟩ := List.pairwise_cons.mp hskr
    by_cases hneg : compare key k < 0
    · have hright := Assoc.Sorted.ne_above hc hs hneg
      have h0 : compare key k ≠ 0 := by omega
      rw [lookup, if_neg h0, if_pos hneg, Assoc.lookup_append_left hright, ihl hsl]
    · have hleft := Assoc.Sorted.ne_below hc hs (Int.not_lt.mp hneg)
      rw [lookup, Assoc.lookup_append_right hleft, Assoc.lookup, if_neg hneg, ihr hsr]

theorem mem_inOrder_iff (hc : Assoc.StrictTotal compare) {t : ITreeNode κ ν}
    (hs : Assoc.Sorted compare t.inOrder) :
    (key, value) ∈ t.inOrder ↔ t.lookup compare key = some value := by
  rw [lookup_refines hc hs, Assoc.mem_iff_lookup hc hs]

end

end ITreeNode

section
variable {κ ν : Type}

/-- What every tree built by insertions keeps. -/
structure ITree.Valid (tree : ITree κ ν) : Prop where
  avl : tree.root.Avl
  sorted : Assoc.Sorted tree.cmpFunc tree.root.inOrder

theorem iTreeNew_valid (func : κ → κ → Int) : (iTreeNew func : ITree κ ν).Valid :=
  ⟨trivial, List.Pairwise.nil⟩

/-- One insertion: it succeeds, tells whether the key is new, and changes what is found for
this key alone. -/
theorem iTreeInsert_spec [DecidableEq κ] {tree : ITree κ ν} (hc : Assoc.StrictTotal tree.cmpFunc)
    (hv : tree.Valid) (key : κ) (value : ν) :
    ∃ tree' inserted, iTreeInsert true tree key value = some (tree', inserted) ∧
      tree'.cmpFunc = tree.cmpFunc ∧ tree'.Valid ∧
      (inserted = true ↔ iTreeLookup tree key = none) ∧
      ∀ k, iTreeLookup tree' k = if key = k then some value else iTreeLookup tree k := by
  obtain ⟨t', inserted, ht', havl, -⟩ := ITreeNode.insert_avl tree.cmpFunc key value hv.avl
  obtain ⟨hentries, hnew⟩ := ITreeNode.insert_refines hc hv.sorted ht'
  have hsorted : Assoc.Sorted tree.cmpFunc t'.inOrder := by
    rw [hentries]
    exact hv.sorted.insert hc
  refine ⟨{ tree with root := t' }, inserted, ?_, rfl, ⟨havl, hsorted⟩, ?_, ?_⟩
  · rw [iTreeInsert, ht']
    rfl
  · rw [hnew, iTreeLookup, ITreeNode.lookup_refines hc hv.sorted]
  · intro k
    change t'.lookup tree.cmpFunc k = _
    rw [iTreeLookup, ITreeNode.lookup_refines hc hsorted,
      ITreeNode.lookup_refines hc hv.sorted, hentries]
    split_ifs with hk
    · subst hk
      exact Assoc.lookup_insert_self hc hv.sorted
    · exact Assoc.lookup_insert_of_ne hc (Ne.symm hk)

theorem insertAll_spec [DecidableEq κ] {tree : ITree κ ν} (hc : Assoc.StrictTotal tree.cmpFunc)
    (hv : tree.Valid) {seen : List κ} (hseen : ∀ k, k ∉ seen ↔ iTreeLookup tree k = none)
    (kvs : List (κ × ν)) :
    ∃ tree', insertAll tree kvs = some (tree', Assoc.newKeys seen kvs) ∧
      tree'.cmpFunc = tree.cmpFunc ∧ tree'.Valid ∧
      ∀ k, iTreeLookup tree' k = (Assoc.lastValue k kvs).or (iTreeLookup tree k) := by
  induction kvs generalizing tree seen with
  | nil => exact ⟨tree, rfl, rfl, hv, fun k => rfl⟩
  | cons p kvs ih =>
    obtain ⟨key, value⟩ := p
    obtain ⟨tree₁, inserted, h₁, hf₁, hv₁, hnew, hl₁⟩ := iTreeInsert_spec hc hv key value
    have hseen₁ : ∀ k, k ∉ key :: seen ↔ iTreeLookup tree₁ k = none := by
      intro k
      rw [hl₁, List.mem_cons, not_or, hseen]
      by_cases hk : key = k
      · simp [hk]
      · simp [hk, Ne.symm hk]
    obtain ⟨tree', h', hf', hv', hl'⟩ := ih (hf₁ ▸ hc) hv₁ hseen₁
    refine ⟨tree', ?_, hf'.trans hf₁, hv', ?_⟩
    · have hanswer : inserted = decide (key ∉ seen) := by
        rw [Bool.eq_iff_iff, hnew, decide_eq_true_iff, hseen]
      simp only [insertAll, h₁, h', Option.bind_eq_bind, Option.bind_some, Assoc.newKeys]
      rw [hanswer]
      rfl
    · intro k
      rw [hl', hl₁, Assoc.lastValue, Option.or_assoc]
      split_ifs <;> rfl

/-- What a sequence of insertions into a new tree leaves is the finite map of its last
writes: to its answers, to lookups, and to traversals with any callback. -/
def BuildsMap [DecidableEq κ] (compare : κ → κ → Int) (kvs : List (κ × ν)) : Prop :=
  ∃ tree answers, insertAll (iTreeNew compare) kvs = some (tree, answers) ∧
    answers = Assoc.newKeys [] kvs ∧
    (∀ k, iTreeLookup tree k = Assoc.lastValue k kvs) ∧
    ∃ entries pre post : List (κ × ν),
      entries.Pairwise (fun p q => compare p.1 q.1 < 0) ∧
      (∀ k v, (k, v) ∈ entries ↔ Assoc.lastValue k kvs = some v) ∧
      pre.Perm entries ∧ post.Perm entries ∧
      ∀ (σ : Type) (f : σ → κ × ν → σ × Bool) (data : σ),
        iTreeTraverse tree f .inOrder data = (Run.untilStop f data entries).1 ∧
        iTreeTraverse tree f .preOrder data = (Run.untilStop f data pre).1 ∧
        iTreeTraverse tree f .postOrder data = (Run.untilStop f data post).1

/-- ITree is a finite map. -/
theorem iTree_finite_map [DecidableEq κ] (compare : κ → κ → Int)
    (hc : Assoc.StrictTotal compare) (kvs : List (κ × ν)) : BuildsMap compare kvs := by
  have hnone : ∀ k, k ∉ ([] : List κ) ↔
      iTreeLookup (iTreeNew compare : ITree κ ν) k = none := by
    intro k
    exact iff_of_true List.not_mem_nil rfl
  obtain ⟨tree, hrun, hf, hv, hl⟩ := insertAll_spec hc (iTreeNew_valid compare) hnone kvs
  have hlast : ∀ k, iTreeLookup tree k = Assoc.lastValue k kvs := by
    intro k
    rw [hl]
    exact Option.or_none
  have hc' : Assoc.StrictTotal tree.cmpFunc := hf ▸ hc
  refine ⟨tree, _, hrun, rfl, hlast, tree.root.inOrder, tree.root.preOrder,
    tree.root.postOrder, ?_, ?_, tree.root.preOrder_perm, tree.root.postOrder_perm, ?_⟩
  · have hsorted := hv.sorted
    rw [hf] at hsorted
    exact hsorted
  · intro k v
    rw [ITreeNode.mem_inOrder_iff hc' hv.sorted, ← hlast, iTreeLookup]
  · intro σ f data
    refine ⟨?_, ?_, ?_⟩
    · exact congrArg Prod.fst (ITreeNode.nodeInOrder_eq f tree.root data)
    · exact congrArg Prod.fst (ITreeNode.nodePreOrder_eq f tree.root data)
    · exact congrArg Prod.fst (ITreeNode.nodePostOrder_eq f tree.root data)

theorem sub_strictTotal : Assoc.StrictTotal fun a b : Int => a - b where
  zero_iff := by
    intro a b
    omega
  neg_iff := by
    intro a b
    omega
  trans := by
    intro a b c hab hbc
    omega

/-- A key written twice, and an order of keys that takes a double rotation. -/
theorem iTree_finite_map_ints :
    BuildsMap (fun a b : Int => a - b) [(3, "c"), (1, "a"), (2, "b"), (1, "z")] :=
  iTree_finite_map _ sub_strictTotal _

end

end IPStat
