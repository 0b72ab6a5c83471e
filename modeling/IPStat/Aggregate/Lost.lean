import IPStat.Aggregate.FiniteMap

namespace IPStat

namespace ITreeNode

variable {κ ν : Type}

/-- A tree beside the same tree without one of its leaves, whose parents keep their balance. -/
inductive Lost (key : κ) (value : ν) : ITreeNode κ ν → ITreeNode κ ν → Prop
  | leaf : Lost key value (.node 0 key value .null .null) .null
  | left {b : Int} {k : κ} {v : ν} {l l' r : ITreeNode κ ν} (h : Lost key value l l') :
      Lost key value (.node b k v l r) (.node b k v l' r)
  | right {b : Int} {k : κ} {v : ν} {l r r' : ITreeNode κ ν} (h : Lost key value r r') :
      Lost key value (.node b k v l r) (.node b k v l r')

section
variable {key : κ} {value : ν} {t t' s' : ITreeNode κ ν}

theorem Lost.balance (h : Lost key value t t') {b : Int} (hb : t'.balance? = some b) :
    t.balance? = some b := by
  cases h with
  | leaf => cases hb
  | left h => exact hb
  | right h => exact hb

/-- A rotation that a tree stands without its leaf, it stands with it. -/
theorem Lost.rotateLeft (h : Lost key value t t') (hrot : t'.rotateLeft = some s') :
    ∃ s, t.rotateLeft = some s ∧ Lost key value s s' := by
  match t', hrot with
  | .node a k v l (.node b rk rv rl rr), hrot =>
    rw [ITreeNode.rotateLeft] at hrot
    cases h with
    | left h =>
      rw [ITreeNode.rotateLeft]
      split_ifs at hrot ⊢ <;>
      · cases hrot
        exact ⟨_, rfl, .left (.left h)⟩
    | right h =>
      cases h with
      | left h =>
        rw [ITreeNode.rotateLeft]
        split_ifs at hrot ⊢ <;>
        · cases hrot
          exact ⟨_, rfl, .left (.right h)⟩
      | right h =>
        rw [ITreeNode.rotateLeft]
        split_ifs at hrot ⊢ <;>
        · cases hrot
          exact ⟨_, rfl, .right h⟩

theorem Lost.mirror (h : Lost key value t t') : Lost key value t.mirror t'.mirror := by
  induction h with
  | leaf => exact .leaf
  | left _ ih => exact .right ih
  | right _ ih => exact .left ih

theorem Lost.rotateRight (h : Lost key value t t') (hrot : t'.rotateRight = some s') :
    ∃ s, t.rotateRight = some s ∧ Lost key value s s' := by
  have hmirror : t'.mirror.rotateLeft = some s'.mirror := by
    rw [rotateLeft_mirror, hrot]
    rfl
  obtain ⟨s, hs, hlost⟩ := h.mirror.rotateLeft hmirror
  rw [rotateLeft_mirror, Option.map_eq_some_iff] at hs
  obtain ⟨u, hu, rfl⟩ := hs
  refine ⟨u, hu, ?_⟩
  have hback := hlost.mirror
  rwa [mirror_mirror, mirror_mirror] at hback

theorem Lost.leanLeft (h : Lost key value t t') (hlean : t'.leanLeft = some s') :
    ∃ s, t.leanLeft = some s ∧ Lost key value s s' := by
  cases hb : t'.balance? with
  | none =>
    rw [ITreeNode.leanLeft, hb] at hlean
    cases hlean
  | some b =>
    rw [ITreeNode.leanLeft, hb] at hlean
    rw [ITreeNode.leanLeft, h.balance hb]
    dsimp only at hlean ⊢
    split_ifs at hlean ⊢
    · exact h.rotateLeft hlean
    · cases hlean
      exact ⟨t, rfl, h⟩

theorem Lost.leanRight (h : Lost key value t t') (hlean : t'.leanRight = some s') :
    ∃ s, t.leanRight = some s ∧ Lost key value s s' := by
  have hmirror : t'.mirror.leanLeft = some s'.mirror := by
    rw [leanLeft_mirror, hlean]
    rfl
  obtain ⟨s, hs, hlost⟩ := h.mirror.leanLeft hmirror
  rw [leanLeft_mirror, Option.map_eq_some_iff] at hs
  obtain ⟨u, hu, rfl⟩ := hs
  refine ⟨u, hu, ?_⟩
  have hback := hlost.mirror
  rwa [mirror_mirror, mirror_mirror] at hback

theorem Lost.nodeBalance (h : Lost key value t t') (hbal : t'.nodeBalance = some s') :
    ∃ s, t.nodeBalance = some s ∧ Lost key value s s' := by
  cases h with
  | leaf => cases hbal
  | left h =>
    simp only [ITreeNode.nodeBalance] at hbal ⊢
    split_ifs at hbal ⊢
    · obtain ⟨m', hm', hrot⟩ := Option.bind_eq_some_iff.mp hbal
      obtain ⟨m, hm, hlost⟩ := h.leanLeft hm'
      obtain ⟨s, hs, hlost'⟩ := (Lost.left hlost).rotateRight hrot
      exact ⟨s, Option.bind_eq_some_iff.mpr ⟨m, hm, hs⟩, hlost'⟩
    · obtain ⟨m, hm, hrot⟩ := Option.bind_eq_some_iff.mp hbal
      obtain ⟨s, hs, hlost⟩ := (Lost.left h).rotateLeft hrot
      exact ⟨s, Option.bind_eq_some_iff.mpr ⟨m, hm, hs⟩, hlost⟩
    · cases hbal
      exact ⟨_, rfl, .left h⟩
  | right h =>
    simp only [ITreeNode.nodeBalance] at hbal ⊢
    split_ifs at hbal ⊢
    · obtain ⟨m, hm, hrot⟩ := Option.bind_eq_some_iff.mp hbal
      obtain ⟨s, hs, hlost⟩ := (Lost.right h).rotateRight hrot
      exact ⟨s, Option.bind_eq_some_iff.mpr ⟨m, hm, hs⟩, hlost⟩
    · obtain ⟨m', hm', hrot⟩ := Option.bind_eq_some_iff.mp hbal
      obtain ⟨m, hm, hlost⟩ := h.leanRight hm'
      obtain ⟨s, hs, hlost'⟩ := (Lost.right hlost).rotateLeft hrot
      exact ⟨s, Option.bind_eq_some_iff.mpr ⟨m, hm, hs⟩, hlost'⟩
    · cases hbal
      exact ⟨_, rfl, .right h⟩

theorem Lost.settle (h : Lost key value t t') {p' : ITreeNode κ ν × Bool}
    (hp : t'.settle true = some p') :
    p'.2 = true ∧ ∃ s, t.settle true = some (s, true) ∧ Lost key value s p'.1 := by
  have hsettled {b : Int} {k : κ} {v : ν} {l l' r r' : ITreeNode κ ν}
      (h : Lost key value (.node b k v l r) (.node b k v l' r'))
      (hp : (node b k v l' r').settle true = some p') :
      p'.2 = true ∧ ∃ s, (node b k v l r).settle true = some (s, true) ∧ Lost key value s p'.1 := by
    simp only [ITreeNode.settle, true_and] at hp ⊢
    split_ifs at hp ⊢
    · obtain ⟨s', hs', hp⟩ := Option.bind_eq_some_iff.mp hp
      cases hp
      obtain ⟨s, hs, hlost⟩ := h.nodeBalance hs'
      exact ⟨rfl, s, Option.bind_eq_some_iff.mpr ⟨s, hs, rfl⟩, hlost⟩
    · cases hp
      exact ⟨rfl, _, rfl, h⟩
  cases h with
  | leaf => cases hp
  | left h => exact hsettled (.left h) hp
  | right h => exact hsettled (.right h) hp

/-- An insertion that gets no node answers TRUE, and leaves what it would leave with the node,
less the node. -/
theorem insert_lost {compare : κ → κ → Int} {p' : ITreeNode κ ν × Bool}
    (h : insert compare false key value t = some p') (hl : lookup compare key t = none) :
    p'.2 = true ∧ ∃ t₁, insert compare true key value t = some (t₁, true) ∧
      Lost key value t₁ p'.1 := by
  induction t generalizing p' with
  | null =>
    cases h
    exact ⟨rfl, _, rfl, .leaf⟩
  | node b k v l r ihl ihr =>
    simp only [insert] at h ⊢
    simp only [lookup] at hl
    by_cases h0 : compare key k = 0
    · simp [h0] at hl
    by_cases hneg : compare key k < 0
    · simp only [h0, hneg, if_true, if_false] at h hl ⊢
      cases l with
      | null => exact (Lost.left .leaf).settle h
      | node lb lk lv ll lr =>
        simp only [balance?, Option.bind_eq_bind, Option.bind_eq_some_iff] at h ⊢
        obtain ⟨⟨l', inserted⟩, hins, nb, hnb, h⟩ := h
        obtain ⟨hinserted, l₁, hl₁, hlost⟩ := ihl hins hl
        obtain rfl : inserted = true := hinserted
        obtain ⟨hanswer, s, hs, hlost'⟩ := (Lost.left hlost).settle h
        exact ⟨hanswer, s, ⟨(l₁, true), hl₁, nb, hlost.balance hnb, hs⟩, hlost'⟩
    · simp only [h0, hneg, if_false] at h hl ⊢
      cases r with
      | null => exact (Lost.right .leaf).settle h
      | node rb rk rv rl rr =>
        simp only [balance?, Option.bind_eq_bind, Option.bind_eq_some_iff] at h ⊢
        obtain ⟨⟨r', inserted⟩, hins, nb, hnb, h⟩ := h
        obtain ⟨hinserted, r₁, hr₁, hlost⟩ := ihr hins hl
        obtain rfl : inserted = true := hinserted
        obtain ⟨hanswer, s, hs, hlost'⟩ := (Lost.right hlost).settle h
        exact ⟨hanswer, s, ⟨(r₁, true), hr₁, nb, hlost.balance hnb, hs⟩, hlost'⟩

/-- The balance of the leaf's parent is wrong without the leaf. -/
theorem Lost.not_avl (h : Lost key value t t') (ht : t.Avl) (hne : t' ≠ .null) : ¬ t'.Avl := by
  induction h with
  | leaf => exact absurd rfl hne
  | @left b k v l l' r h ih =>
    obtain ⟨hb, -, -, hl, -⟩ := ht
    intro havl
    obtain ⟨hb', -, -, hl', -⟩ := havl
    by_cases hnull : l' = .null
    · subst hnull
      cases h
      simp only [height_node, height_null] at hb hb'
      omega
    · exact ih hl hnull hl'
  | @right b k v l r r' h ih =>
    obtain ⟨hb, -, -, -, hr⟩ := ht
    intro havl
    obtain ⟨hb', -, -, -, hr'⟩ := havl
    by_cases hnull : r' = .null
    · subst hnull
      cases h
      simp only [height_node, height_null] at hb hb'
      omega
    · exact ih hr hnull hr'

theorem insert_lost_null {compare : κ → κ → Int} {p' : ITreeNode κ ν × Bool}
    (h : insert compare false key value t = some p') (hl : lookup compare key t = none) :
    p'.1 = .null ↔ t = .null := by
  have hsame := insert_lost_inOrder h hl
  have hempty (t : ITreeNode κ ν) : t = .null ↔ t.inOrder = [] := by
    cases t <;> simp [inOrder]
  rw [hempty, hempty, hsame]

end

end ITreeNode

section
variable {κ ν : Type}

/-- An insertion whose node is not allocated answers FALSE and leaves the tree as it was. -/
def FailsCleanly (tree : ITree κ ν) (key : κ) (value : ν) : Prop :=
  iTreeInsert false tree key value = some (tree, false)

/-- No failed insertion of a new key is clean: one that comes back answers TRUE, and unless the
tree was empty it leaves a balance that is not its node's. -/
theorem failed_insert (tree : ITree κ ν) (key : κ) (value : ν) (hv : tree.Valid)
    (hnew : iTreeLookup tree key = none) :
    ¬ FailsCleanly tree key value ∧
    ∀ tree' inserted, iTreeInsert false tree key value = some (tree', inserted) →
      inserted = true ∧ (tree.root ≠ .null → ¬ tree'.Valid ∧ tree' ≠ tree) := by
  have hcase : ∀ tree' inserted, iTreeInsert false tree key value = some (tree', inserted) →
      inserted = true ∧ (tree.root ≠ .null → ¬ tree'.Valid ∧ tree' ≠ tree) := by
    intro tree' inserted h
    obtain ⟨⟨t', answer⟩, hins, hp⟩ := Option.map_eq_some_iff.mp h
    cases hp
    obtain ⟨hanswer, t₁, ht₁, hlost⟩ := ITreeNode.insert_lost hins hnew
    refine ⟨hanswer, ?_⟩
    intro hroot
    obtain ⟨t₂, inserted₂, ht₂, havl, -⟩ := ITreeNode.insert_avl tree.cmpFunc key value hv.avl
    rw [ht₁] at ht₂
    cases ht₂
    have hne : t' ≠ .null := mt (ITreeNode.insert_lost_null hins hnew).mp hroot
    have hbroken : ¬ t'.Avl := hlost.not_avl havl hne
    constructor
    · exact fun hvalid => hbroken hvalid.avl
    · intro heq
      have hsame : t' = tree.root := congrArg ITree.root heq
      rw [hsame] at hbroken
      exact hbroken hv.avl
  refine ⟨?_, hcase⟩
  intro hclean
  cases (hcase tree false hclean).1

end

/-- The order of numbers. -/
def byValue (a b : Nat) : Int := (a : Int) - b

/-- The key 10, and the key 5 below it. -/
def tenAndFive : ITree Nat Nat := ⟨.node (-1) 10 1 (.node 0 5 1 .null .null) .null, byValue⟩

theorem tenAndFive_valid : tenAndFive.Valid := by
  constructor
  · show (ITreeNode.node (-1) 10 1 (.node 0 5 1 .null .null) .null).Avl
    simp [ITreeNode.Avl]
  · show Assoc.Sorted byValue [(5, 1), (10, 1)]
    simp [Assoc.Sorted, byValue]

theorem failed_insert_three : ¬ FailsCleanly tenAndFive 3 1 ∧
    ∀ tree' inserted, iTreeInsert false tenAndFive 3 1 = some (tree', inserted) →
      inserted = true ∧ (tenAndFive.root ≠ .null → ¬ tree'.Valid ∧ tree' ≠ tenAndFive) :=
  failed_insert tenAndFive 3 1 tenAndFive_valid (by decide)

/-- Two insertions lead to the tree; a third, of 7, that gets no node rotates where the node would
be, and one of 3 is answered TRUE. -/
theorem failed_insert_seven :
    (insertAll (iTreeNew byValue) [(10, 1), (5, 1)]).map (fun p => (p.1.root, p.2)) =
        some (tenAndFive.root, [true, true]) ∧
      iTreeInsert false tenAndFive 7 1 = none ∧
      (iTreeInsert false tenAndFive 3 1).map (fun p => (p.1.root, p.2)) =
        some (.node 0 5 1 .null (.node 0 10 1 .null .null), true) ∧
      ¬ FailsCleanly tenAndFive 7 1 := by
  have hseven : iTreeInsert false tenAndFive 7 1 = none := by
    have hroot : tenAndFive.root.insert byValue false 7 1 = none := by decide
    rw [iTreeInsert, show tenAndFive.cmpFunc = byValue from rfl, hroot]
    rfl
  refine ⟨by decide, hseven, by decide, ?_⟩
  rw [FailsCleanly, hseven]
  simp

end IPStat
