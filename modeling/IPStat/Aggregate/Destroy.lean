import IPStat.Aggregate.Nodes

/-! A tree from i_tree_new to i_tree_destroy on a heap that holds other blocks too. -/

namespace IPStat

namespace ITreeNode

variable {κ κ' ν : Type}

/-- The same tree with other keys. -/
def mapKey (f : κ → κ') : ITreeNode κ ν → ITreeNode κ' ν
  | .null => .null
  | .node b k v l r => .node b (f k) v (l.mapKey f) (r.mapKey f)

variable (f : κ → κ') (t : ITreeNode κ ν)

theorem mapKey_balance? : (t.mapKey f).balance? = t.balance? := by
  cases t <;> rfl

theorem mapKey_rotateLeft : (t.mapKey f).rotateLeft = t.rotateLeft.map (mapKey f) := by
  match t with
  | .null => rfl
  | .node aBal k v l .null => rfl
  | .node aBal k v l (.node bBal rk rv rl rr) =>
    simp only [mapKey, rotateLeft]
    split <;> rfl

theorem mapKey_rotateRight : (t.mapKey f).rotateRight = t.rotateRight.map (mapKey f) := by
  match t with
  | .null => rfl
  | .node aBal k v .null r => rfl
  | .node aBal k v (.node bBal lk lv ll lr) r =>
    simp only [mapKey, rotateRight]
    split <;> rfl

theorem mapKey_leanLeft : (t.mapKey f).leanLeft = t.leanLeft.map (mapKey f) := by
  rw [leanLeft, leanLeft, mapKey_balance?]
  cases t.balance? with
  | none => rfl
  | some lb =>
    simp only [mapKey_rotateLeft]
    split <;> rfl

theorem mapKey_leanRight : (t.mapKey f).leanRight = t.leanRight.map (mapKey f) := by
  rw [leanRight, leanRight, mapKey_balance?]
  cases t.balance? with
  | none => rfl
  | some rb =>
    simp only [mapKey_rotateRight]
    split <;> rfl

theorem mapKey_nodeBalance : (t.mapKey f).nodeBalance = t.nodeBalance.map (mapKey f) := by
  cases t with
  | null => rfl
  | node b k v l r =>
    simp only [mapKey, nodeBalance, mapKey_leanLeft, mapKey_leanRight]
    split
    · cases l.leanLeft with
      | none => rfl
      | some l' => exact mapKey_rotateRight f (.node b k v l' r)
    · split
      · cases r.leanRight with
        | none => rfl
        | some r' => exact mapKey_rotateLeft f (.node b k v l r')
      · rfl

theorem mapKey_settle (inserted : Bool) : settle inserted (t.mapKey f) =
    (settle inserted t).map fun p => (p.1.mapKey f, p.2) := by
  cases t with
  | null => rfl
  | node b k v l r =>
    have hbal := mapKey_nodeBalance f (.node b k v l r)
    simp only [mapKey] at hbal
    simp only [mapKey, settle, hbal]
    split
    · cases (node b k v l r).nodeBalance <;> rfl
    · rfl

/-- An insertion compares keys and does nothing else with them. -/
theorem mapKey_insert (compare : κ' → κ' → Int) (alloc : Bool) (key : κ) (value : ν) :
    insert compare alloc (f key) value (t.mapKey f) =
      (insert (fun a b => compare (f a) (f b)) alloc key value t).map
        fun p => (p.1.mapKey f, p.2) := by
  induction t with
  | null => cases alloc <;> rfl
  | node b k v l r ihl ihr =>
    simp only [mapKey, insert, mapKey_balance?, ihl, ihr]
    split
    · rfl
    · split
      · cases hl : l.balance? with
        | none =>
          have hnew : nodeNew alloc (f key) value = (nodeNew alloc key value).mapKey f := by
            cases alloc <;> rfl
          rw [hnew]
          exact mapKey_settle f (.node (b - 1) k v (nodeNew alloc key value) r) true
        | some old =>
          cases hins : insert (fun a b => compare (f a) (f b)) alloc key value l with
          | none => rfl
          | some p =>
            obtain ⟨l', inserted⟩ := p
            simp only [Option.map_some, Option.bind_eq_bind, Option.bind_some, mapKey_balance?]
            cases hnew : l'.balance? with
            | none => rfl
            | some new => exact mapKey_settle f (.node _ k v l' r) inserted
      · cases hr : r.balance? with
        | none =>
          have hnew : nodeNew alloc (f key) value = (nodeNew alloc key value).mapKey f := by
            cases alloc <;> rfl
          rw [hnew]
          exact mapKey_settle f (.node (b + 1) k v l (nodeNew alloc key value)) true
        | some old =>
          cases hins : insert (fun a b => compare (f a) (f b)) alloc key value r with
          | none => rfl
          | some p =>
            obtain ⟨r', inserted⟩ := p
            simp only [Option.map_some, Option.bind_eq_bind, Option.bind_some, mapKey_balance?]
            cases hnew : r'.balance? with
            | none => rfl
            | some new => exact mapKey_settle f (.node _ k v l r') inserted

theorem mapKey_lookup (compare : κ' → κ' → Int) (key : κ) :
    lookup compare (f key) (t.mapKey f) =
      lookup (fun a b => compare (f a) (f b)) key t := by
  induction t with
  | null => rfl
  | node b k v l r ihl ihr => simp only [mapKey, lookup, ihl, ihr]

theorem mapKey_nodeInOrder {σ : Type} (g : σ → κ' × ν → σ × Bool) (s : σ) :
    (t.mapKey f).nodeInOrder g s = t.nodeInOrder (fun s e => g s (f e.1, e.2)) s := by
  induction t generalizing s with
  | null => rfl
  | node b k v l r ihl ihr => simp only [mapKey, nodeInOrder, ihl, ihr]

end ITreeNode

section
open ITreeNode

variable {κ ν : Type} {h h' : ITreeHeap κ ν} {p : Option Nat} {t : ITreeNode (Nat × κ) ν}

/-- i_tree_node_destroy releases every node once, and reads none after that. -/
theorem nodeDestroyAt_spec {fuel : Nat} (ht : TreeAt h p t) (hfuel : t.inOrder.length ≤ fuel) :
    ∃ h', nodeDestroyAt fuel h p = some h' ∧ Heap.Released h h' t.places := by
  induction t generalizing h p fuel with
  | null =>
    obtain rfl : p = none := ht.nodes
    exact ⟨h, by simp only [nodeDestroyAt], by simp, fun _ _ => rfl⟩
  | node b k v l r ihl ihr =>
    obtain rfl : p = some k.1 := ht.nodes.1
    obtain ⟨fuel, rfl⟩ : ∃ j, fuel = j + 1 := ⟨fuel - 1, by simp [inOrder] at hfuel; omega⟩
    simp only [inOrder, List.length_append, List.length_cons] at hfuel
    obtain ⟨pl, pr, hk, hl, hr⟩ := ht.children
    obtain ⟨-, -, hkl, hkr, hapart⟩ := nodup_node.mp ht.nodup
    have hlenl : l.inOrder.length ≤ fuel := by omega
    have hlenr : r.inOrder.length ≤ fuel := by omega
    obtain ⟨h₁, hrun₁, hfreed₁, hother₁⟩ := ihr hr hlenr
    have hsame₁ (x : Nat) (hx : x ∉ r.places) : Heap.read h₁ x = Heap.read h x := by
      rw [Heap.read, Heap.read, hother₁ x hx]
    have hl₁ : TreeAt h₁ pl l := by
      refine ⟨hl.nodes.frame ?_, hl.nodup⟩
      intro x hx
      exact hsame₁ x (hapart x hx)
    obtain ⟨h₂, hrun₂, hfreed₂, hother₂⟩ := ihl hl₁ hlenl
    have hk₁ := (hsame₁ k.1 hkr).trans hk
    have hk₂ : Heap.read h₂ k.1 = some ⟨b, k.2, v, pl, pr⟩ := by
      rw [Heap.read, hother₂ k.1 hkl]
      exact hk₁
    refine ⟨h₂.set k.1 .freed, ?_, ?_, ?_⟩
    · simp only [nodeDestroyAt, hk, hrun₁, hk₁, hrun₂, Heap.free_of_read hk₂, Option.bind_eq_bind,
        Option.bind_some]
    · intro x hx
      refine ⟨ht.nodes.isSome x hx, ?_⟩
      rw [places_node, List.mem_append, List.mem_cons] at hx
      by_cases hxk : x = k.1
      · rw [hxk, List.getElem?_set_self (Heap.lt_of_read hk₂)]
      · rw [List.getElem?_set_ne (Ne.symm hxk)]
        by_cases hxl : x ∈ l.places
        · exact (hfreed₂ x hxl).2
        · have hxr : x ∈ r.places := (hx.resolve_left hxl).resolve_left hxk
          rw [hother₂ x hxl]
          exact (hfreed₁ x hxr).2
    · intro x hx
      simp only [places_node, List.mem_append, List.mem_cons, not_or] at hx
      rw [List.getElem?_set_ne (Ne.symm hx.2.1), hother₂ x hx.1, hother₁ x hx.2.2]

theorem nodeLookupAt_spec (compare : κ → κ → Int) (key : Nat × κ) {fuel : Nat}
    (hn : NodesAt h p t) (hfuel : t.inOrder.length ≤ fuel) :
    nodeLookupAt compare key.2 h fuel p = some (t.lookup (onKey compare) key) := by
  induction t generalizing p fuel with
  | null =>
    obtain rfl : p = none := hn
    simp only [nodeLookupAt, lookup]
  | node b k v l r ihl ihr =>
    obtain ⟨rfl, pl, pr, hk, hl, hr⟩ := hn
    obtain ⟨fuel, rfl⟩ : ∃ j, fuel = j + 1 := ⟨fuel - 1, by simp [inOrder] at hfuel; omega⟩
    simp only [inOrder, List.length_append, List.length_cons] at hfuel
    have hlenl : l.inOrder.length ≤ fuel := by omega
    have hlenr : r.inOrder.length ≤ fuel := by omega
    simp only [nodeLookupAt, hk, Option.bind_eq_bind, Option.bind_some, lookup, ihl hl hlenl,
      ihr hr hlenr]
    by_cases h0 : compare key.2 k.2 = 0
    · simp only [onKey, h0, if_true]
    · by_cases hneg : compare key.2 k.2 < 0
      · simp only [onKey, h0, hneg, if_true, if_false]
      · simp only [onKey, h0, hneg, if_false]

theorem nodeInOrderAt_spec {σ : Type} (f : σ → κ × ν → σ × Bool) {fuel : Nat} (s : σ)
    (hn : NodesAt h p t) (hfuel : t.inOrder.length ≤ fuel) :
    nodeInOrderAt f h fuel p s = some (t.nodeInOrder (fun s e => f s (e.1.2, e.2)) s) := by
  induction t generalizing p fuel s with
  | null =>
    obtain rfl : p = none := hn
    simp only [nodeInOrderAt, nodeInOrder]
  | node b k v l r ihl ihr =>
    obtain ⟨rfl, pl, pr, hk, hl, hr⟩ := hn
    obtain ⟨fuel, rfl⟩ : ∃ j, fuel = j + 1 := ⟨fuel - 1, by simp [inOrder] at hfuel; omega⟩
    simp only [inOrder, List.length_append, List.length_cons] at hfuel
    have hlenl : l.inOrder.length ≤ fuel := by omega
    have hlenr : r.inOrder.length ≤ fuel := by omega
    simp only [nodeInOrderAt, hk, Option.bind_eq_bind, Option.bind_some, nodeInOrder, Run.goOn,
      ihl s hl hlenl, ihr _ hr hlenr]
    generalize l.nodeInOrder (fun s e => f s (e.1.2, e.2)) s = first
    obtain ⟨s₁, stop₁⟩ := first
    cases stop₁ with
    | true => rfl
    | false =>
      show (if (f s₁ (k.2, v)).2 = true then _ else _) =
        some (if (f s₁ (k.2, v)).2 = true then _ else _)
      generalize f s₁ (k.2, v) = next
      obtain ⟨s₂, stop₂⟩ := next
      cases stop₂ <;> rfl

/-- A sequence of i_tree_insert calls, with what each of them answers. -/
def insertAllAt (compare : κ → κ → Int) :
    ITreeHeap κ ν → Option Nat → List (κ × ν) → Option (ITreeHeap κ ν × Option Nat × List Bool)
  | h, root, [] => some (h, root, [])
  | h, root, (key, value) :: kvs => do
    let (h, root, inserted) ← nodeInsertAt compare true key value h.length h root
    let (h, root, answers) ← insertAllAt compare h root kvs
    some (h, root, inserted :: answers)

/-- All that the tree at `root` has changed on the heap are nodes of its own, which were not held
before. -/
structure GrownOn (h₀ h : ITreeHeap κ ν) (root : Option Nat) (t : ITreeNode (Nat × κ) ν) : Prop
    extends TreeAt h root t where
  other : ∀ x, x ∉ t.places → Heap.read h x = Heap.read h₀ x
  fresh : ∀ x ∈ t.places, Heap.read h₀ x = none

theorem TreeAt.length_le (ht : TreeAt h p t) : t.inOrder.length ≤ h.length := by
  have hle := Heap.length_le_of_nodup ht.nodup ht.nodes.isSome
  rwa [places, List.length_map] at hle

theorem mapKey_insert_onKey {compare : κ → κ → Int} (key : Nat × κ) {value : ν} :
    ITreeNode.insert compare true key.2 value (t.mapKey Prod.snd) =
      (ITreeNode.insert (onKey compare) true key value t).map
        fun p => (p.1.mapKey Prod.snd, p.2) :=
  mapKey_insert Prod.snd t compare true key value

/-- One insertion. -/
theorem GrownOn.insert {h₀ : ITreeHeap κ ν} {tree tree' : ITree κ ν} {inserted : Bool} {key : κ}
    {value : ν} (hg : GrownOn h₀ h p t) (htree : t.mapKey Prod.snd = tree.root)
    (hins : iTreeInsert true tree key value = some (tree', inserted)) :
    ∃ h' p' t', nodeInsertAt tree.cmpFunc true key value h.length h p = some (h', p', inserted) ∧
      GrownOn h₀ h' p' t' ∧ t'.mapKey Prod.snd = tree'.root := by
  obtain ⟨r, hr, heq⟩ := Option.map_eq_some_iff.mp hins
  cases heq
  rw [← htree, mapKey_insert_onKey (h.length, key)] at hr
  obtain ⟨⟨t', inserted⟩, hins', rfl⟩ := Option.map_eq_some_iff.mp hr
  obtain ⟨h', p', hrun, hturn⟩ := nodeInsertAt_spec hg.toTreeAt hg.length_le hins'
  have hrep := hturn.inserted hg.nodup hins' hg.nodes.isSome (Heap.read_length h)
  refine ⟨h', p', t', hrun, ⟨⟨hturn.nodes, hrep.nodup⟩, ?_, ?_⟩, rfl⟩
  · intro x hx
    obtain ⟨l₁, l₂, hold, hnew⟩ := insert_places hins'
    have hout : x ∉ t.places := by
      intro hmem
      apply hx
      rw [hold, List.mem_append] at hmem
      rw [hnew, List.mem_append, List.mem_append]
      exact hmem.elim (fun hl => Or.inl (Or.inl hl)) Or.inr
    rw [hturn.other x hout hx, hg.other x hout]
  · intro x hx
    rcases hrep.fresh x hx with hin | hnone
    · exact hg.fresh x hin
    · have hout : x ∉ t.places := by
        intro hmem
        have hsome := hg.nodes.isSome x hmem
        rw [hnone] at hsome
        cases hsome
      rw [← hg.other x hout, hnone]

theorem GrownOn.insertAll {h₀ : ITreeHeap κ ν} {tree tree' : ITree κ ν} {answers : List Bool}
    {kvs : List (κ × ν)} (hg : GrownOn h₀ h p t) (htree : t.mapKey Prod.snd = tree.root)
    (hins : IPStat.insertAll tree kvs = some (tree', answers)) :
    ∃ h' p' t', insertAllAt tree.cmpFunc h p kvs = some (h', p', answers) ∧
      GrownOn h₀ h' p' t' ∧ t'.mapKey Prod.snd = tree'.root := by
  induction kvs generalizing h p t tree answers with
  | nil =>
    cases hins
    exact ⟨h, p, t, rfl, hg, htree⟩
  | cons kv kvs ih =>
    obtain ⟨key, value⟩ := kv
    obtain ⟨⟨tree₁, inserted⟩, hins₁, hrest⟩ := Option.bind_eq_some_iff.mp hins
    obtain ⟨⟨tree₂, answers₂⟩, hins₂, heq⟩ := Option.bind_eq_some_iff.mp hrest
    cases heq
    have hcmp : tree₁.cmpFunc = tree.cmpFunc := by
      obtain ⟨r, -, heq⟩ := Option.map_eq_some_iff.mp hins₁
      cases heq
      rfl
    obtain ⟨h₁, p₁, t₁, hrun₁, hg₁, htree₁⟩ := hg.insert htree hins₁
    obtain ⟨h', p', t', hrun', hg', htree'⟩ := ih hg₁ htree₁ hins₂
    rw [hcmp] at hrun'
    refine ⟨h', p', t', ?_, hg', htree'⟩
    simp only [insertAllAt, hrun₁, hrun', Option.bind_eq_bind, Option.bind_some]

/-- The tree on the heap is the tree: to its lookups and to its traversals. -/
structure ServesAs (h : ITreeHeap κ ν) (root : Option Nat) (tree : ITree κ ν) : Prop where
  lookup : ∀ key, nodeLookupAt tree.cmpFunc key h h.length root = some (iTreeLookup tree key)
  traverse : ∀ (σ : Type) (f : σ → κ × ν → σ × Bool) (data : σ),
    (nodeInOrderAt f h h.length root data).map Prod.fst =
      some (iTreeTraverse tree f .inOrder data)

theorem TreeAt.serves {tree : ITree κ ν} (ht : TreeAt h p t)
    (htree : t.mapKey Prod.snd = tree.root) : ServesAs h p tree := by
  refine ⟨?_, ?_⟩
  · intro key
    have hlookup := mapKey_lookup (f := Prod.snd) t tree.cmpFunc (0, key)
    rw [htree] at hlookup
    rw [nodeLookupAt_spec tree.cmpFunc (0, key) ht.nodes ht.length_le, iTreeLookup, hlookup]
    rfl
  · intro σ f data
    rw [nodeInOrderAt_spec f data ht.nodes ht.length_le, Option.map_some, iTreeTraverse, ← htree,
      mapKey_nodeInOrder]

/-- Everything the tree has put on the heap is released with it. -/
theorem GrownOn.destroy {h₀ : ITreeHeap κ ν} (hg : GrownOn h₀ h p t) :
    ∃ h', nodeDestroyAt h.length h p = some h' ∧ ∀ x, Heap.read h' x = Heap.read h₀ x := by
  obtain ⟨h', hrun, hfreed, hother⟩ := nodeDestroyAt_spec hg.toTreeAt hg.length_le
  refine ⟨h', hrun, ?_⟩
  intro x
  by_cases hx : x ∈ t.places
  · rw [hg.fresh x hx, Heap.read, (hfreed x hx).2]
  · rw [← hg.other x hx, Heap.read, Heap.read, hother x hx]

/-- Where the comparison is a strict total order, no key has two nodes. -/
theorem insertAll_keys_nodup {compare : κ → κ → Int} (hc : Assoc.StrictTotal compare)
    {tree : ITree κ ν} {answers : List Bool} {kvs : List (κ × ν)}
    (hins : IPStat.insertAll (iTreeNew compare) kvs = some (tree, answers)) :
    (tree.root.inOrder.map Prod.fst).Nodup := by
  classical
  have hnone : ∀ k, k ∉ ([] : List κ) ↔ iTreeLookup (iTreeNew compare : ITree κ ν) k = none := by
    intro k
    exact iff_of_true List.not_mem_nil rfl
  obtain ⟨tree', hins', hcmp, hv, -⟩ := insertAll_spec hc (iTreeNew_valid compare) hnone kvs
  rw [hins] at hins'
  cases hins'
  have hsorted := hv.sorted
  rw [hcmp] at hsorted
  rw [List.Nodup, List.pairwise_map]
  apply hsorted.imp
  intro p q hlt heq
  have hzero : compare p.1 q.1 = 0 := (hc.zero_iff p.1 q.1).mpr heq
  change compare p.1 q.1 < 0 at hlt
  omega

/-- From i_tree_new to i_tree_destroy, on a heap that holds other blocks, with every node allocated
and the ITree itself kept apart: no call goes through NULL or to a block that is not held, the
calls and the traversals in order answer as the tree does, a comparison that is a strict total
order gives each key one node, and after i_tree_destroy what is held is what was held before. -/
theorem itree_heap_refines (compare : κ → κ → Int) (h₀ : ITreeHeap κ ν) (kvs : List (κ × ν)) :
    ∃ tree answers h root t, insertAll (iTreeNew compare) kvs = some (tree, answers) ∧
      insertAllAt compare h₀ none kvs = some (h, root, answers) ∧
      GrownOn h₀ h root t ∧ t.mapKey Prod.snd = tree.root ∧ ServesAs h root tree ∧
      (Assoc.StrictTotal compare → (tree.root.inOrder.map Prod.fst).Nodup) ∧
      ∃ h', nodeDestroyAt h.length h root = some h' ∧
        ∀ x, Heap.read h' x = Heap.read h₀ x := by
  have hnew : (iTreeNew compare : ITree κ ν).root.Avl := trivial
  obtain ⟨tree, answers, hins, -, -⟩ := insertAll_avl hnew kvs
  have hstart : GrownOn h₀ h₀ none (.null : ITreeNode (Nat × κ) ν) :=
    ⟨⟨rfl, List.nodup_nil⟩, fun _ _ => rfl, by simp⟩
  have hroot : (ITreeNode.null : ITreeNode (Nat × κ) ν).mapKey Prod.snd =
      (iTreeNew compare : ITree κ ν).root := rfl
  obtain ⟨h, root, t, hrun, hg, htree⟩ := hstart.insertAll hroot hins
  exact ⟨tree, answers, h, root, t, hins, hrun, hg, htree, hg.toTreeAt.serves htree,
    fun hc => insertAll_keys_nodup hc hins, hg.destroy⟩

end

end IPStat
