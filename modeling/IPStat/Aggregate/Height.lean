import IPStat.Aggregate.FiniteMap
import IPStat.Lib.Golden

namespace IPStat

namespace ITreeNode

variable {κ ν : Type}

/-- The calls under a call, where it is made only for a child that is not NULL. -/
def entered (child : ITreeNode κ ν) (calls : Nat) : Nat :=
  match child with
  | .null => 0
  | .node _ _ _ _ _ => calls

/-- How many calls of i_tree_node_insert, or of i_tree_node_lookup, are under way at once. -/
def descent (compare : κ → κ → Int) (key : κ) : ITreeNode κ ν → Nat
  | .null => 1
  | .node _ k _ l r =>
    let cmp := compare key k
    if cmp = 0 then 1
    else if cmp < 0 then entered l (descent compare key l) + 1
    else entered r (descent compare key r) + 1

/-- How many calls of i_tree_node_destroy are under way at once. -/
def destroyDepth : ITreeNode κ ν → Nat
  | .null => 1
  | .node _ _ _ l r => max (entered r r.destroyDepth) (entered l l.destroyDepth) + 1

theorem entered_le {t : ITreeNode κ ν} {calls : Nat} (h : calls ≤ max 1 t.height) :
    entered t calls ≤ t.height := by
  cases t with
  | null => exact Nat.le_refl 0
  | node b k v l r =>
    rw [height_node] at h ⊢
    change calls ≤ _
    omega

theorem descent_le (compare : κ → κ → Int) (key : κ) (t : ITreeNode κ ν) :
    t.descent compare key ≤ max 1 t.height := by
  induction t with
  | null => exact Nat.le_refl 1
  | node b k v l r ihl ihr =>
    have hl := entered_le ihl
    have hr := entered_le ihr
    rw [height_node, descent]
    split_ifs <;> omega

theorem destroyDepth_le (t : ITreeNode κ ν) : t.destroyDepth ≤ max 1 t.height := by
  induction t with
  | null => exact Nat.le_refl 1
  | node b k v l r ihl ihr =>
    have hl := entered_le ihl
    have hr := entered_le ihr
    rw [height_node, destroyDepth]
    omega

/-- A balanced tree has the more keys the higher it is. -/
theorem Avl.pow_height_le {t : ITreeNode κ ν} (ht : t.Avl) :
    Real.goldenRatio ^ t.height ≤ t.inOrder.length + 1 := by
  induction t with
  | null => simp [inOrder]
  | node b k v l r ihl ihr =>
    obtain ⟨hb, hlo, hhi, hl, hr⟩ := ht
    have hkeys : (node b k v l r).inOrder.length = l.inOrder.length + r.inOrder.length + 1 := by
      rw [inOrder, List.length_append, List.length_cons, Nat.add_assoc]
    rw [height_node, hkeys]
    calc Real.goldenRatio ^ (max l.height r.height + 1)
        ≤ Real.goldenRatio ^ l.height + Real.goldenRatio ^ r.height :=
          Golden.pow_succ_le (by omega) (by omega)
      _ ≤ (l.inOrder.length + 1) + (r.inOrder.length + 1) := add_le_add (ihl hl) (ihr hr)
      _ = ((l.inOrder.length + r.inOrder.length + 1 : Nat) : ℝ) + 1 := by
          push_cast
          ring

end ITreeNode

section
variable {κ ν : Type}

theorem iTreeInsert_avl {tree : ITree κ ν} (ht : tree.root.Avl) (key : κ) (value : ν) :
    ∃ tree' inserted, iTreeInsert true tree key value = some (tree', inserted) ∧
      tree'.cmpFunc = tree.cmpFunc ∧ tree'.root.Avl := by
  obtain ⟨t', inserted, ht', havl, -⟩ := ITreeNode.insert_avl tree.cmpFunc key value ht
  refine ⟨{ tree with root := t' }, inserted, ?_, rfl, havl⟩
  rw [iTreeInsert, ht']
  rfl

theorem insertAll_avl {tree : ITree κ ν} (ht : tree.root.Avl) (kvs : List (κ × ν)) :
    ∃ tree' answers, insertAll tree kvs = some (tree', answers) ∧
      tree'.cmpFunc = tree.cmpFunc ∧ tree'.root.Avl := by
  induction kvs generalizing tree with
  | nil => exact ⟨tree, [], rfl, rfl, ht⟩
  | cons p kvs ih =>
    obtain ⟨key, value⟩ := p
    obtain ⟨tree₁, inserted, h₁, hf₁, ht₁⟩ := iTreeInsert_avl ht key value
    obtain ⟨tree', answers, h', hf', ht'⟩ := ih ht₁
    refine ⟨tree', inserted :: answers, ?_, hf'.trans hf₁, ht'⟩
    simp only [insertAll, h₁, h', Option.bind_eq_bind, Option.bind_some]
    rfl

/-- What a tree of AVL shape is: its balances are exact, and its height, with the calls that
walk it, is within 1.4405 of the logarithm of its keys. -/
structure Shallow (tree : ITree κ ν) : Prop where
  avl : tree.root.Avl
  height : (tree.root.height : ℝ) ≤ 1.4405 * Real.logb 2 (tree.root.inOrder.length + 2)
  descent : ∀ key, (tree.root.descent tree.cmpFunc key : ℝ) ≤
    1.4405 * Real.logb 2 (tree.root.inOrder.length + 2)
  destroy : (tree.root.destroyDepth : ℝ) ≤
    1.4405 * Real.logb 2 (tree.root.inOrder.length + 2)

theorem Shallow.of_avl {tree : ITree κ ν} (ht : tree.root.Avl) : Shallow tree := by
  have hheight := Golden.le_logb ht.pow_height_le
  have hone := Golden.one_le tree.root.inOrder.length
  have hcalls {calls : Nat} (h : calls ≤ max 1 tree.root.height) :
      (calls : ℝ) ≤ 1.4405 * Real.logb 2 (tree.root.inOrder.length + 2) := by
    obtain h | h := le_max_iff.mp h
    · have hle : (calls : ℝ) ≤ 1 := by exact_mod_cast h
      exact hle.trans hone
    · have hle : (calls : ℝ) ≤ tree.root.height := by exact_mod_cast h
      exact hle.trans hheight
  exact ⟨ht, hheight, fun key => hcalls (tree.root.descent_le tree.cmpFunc key),
    hcalls tree.root.destroyDepth_le⟩

/-- Every sequence of insertions into a new tree leaves a shallow one. -/
theorem insertAll_shallow (compare : κ → κ → Int) (kvs : List (κ × ν)) :
    ∃ tree answers, insertAll (iTreeNew compare) kvs = some (tree, answers) ∧
      tree.cmpFunc = compare ∧ Shallow tree := by
  have hnew : (iTreeNew compare : ITree κ ν).root.Avl := trivial
  obtain ⟨tree, answers, hrun, hf, havl⟩ := insertAll_avl hnew kvs
  exact ⟨tree, answers, hrun, hf, Shallow.of_avl havl⟩

end

end IPStat
