import Mathlib.Data.List.Basic
import Mathlib.Tactic.SplitIfs

namespace IPStat

/-- ITree_Node; `null` is the NULL pointer and the `parent` field, never used, is left out. -/
inductive ITreeNode (κ ν : Type) where
  | null
  | node (balance : Int) (key : κ) (value : ν) (left right : ITreeNode κ ν)
  deriving DecidableEq, Repr

namespace ITreeNode

variable {κ ν : Type}

/-- i_tree_node_new, with the outcome of its malloc. -/
def nodeNew (alloc : Bool) (key : κ) (value : ν) : ITreeNode κ ν :=
  if alloc then .node 0 key value .null .null else .null

/-- `node->balance`; reading it through NULL is undefined. -/
def balance? : ITreeNode κ ν → Option Int
  | .null => none
  | .node b _ _ _ _ => some b

def rotateLeft : ITreeNode κ ν → Option (ITreeNode κ ν)
  | .node aBal k v left (.node bBal rk rv rl rr) =>
    if bBal ≤ 0 then
      some (.node (if 1 ≤ aBal then bBal - 1 else aBal + bBal - 2) rk rv
        (.node (aBal - 1) k v left rl) rr)
    else
      some (.node (if aBal ≤ bBal then aBal - 2 else bBal - 1) rk rv
        (.node (aBal - bBal - 1) k v left rl) rr)
  | _ => none

def rotateRight : ITreeNode κ ν → Option (ITreeNode κ ν)
  | .node aBal k v (.node bBal lk lv ll lr) right =>
    if bBal ≤ 0 then
      some (.node (if aBal < bBal then bBal + 1 else aBal + 2) lk lv ll
        (.node (aBal - bBal + 1) k v lr right))
    else
      some (.node (if aBal ≤ -1 then bBal + 1 else aBal + bBal + 2) lk lv ll
        (.node (aBal + 1) k v lr right))
  | _ => none

/-- The child's rotation that makes a double one. -/
def leanLeft (l : ITreeNode κ ν) : Option (ITreeNode κ ν) :=
  match l.balance? with
  | none => none
  | some lb => if 0 < lb then rotateLeft l else some l

def leanRight (r : ITreeNode κ ν) : Option (ITreeNode κ ν) :=
  match r.balance? with
  | none => none
  | some rb => if rb < 0 then rotateRight r else some r

/-- i_tree_node_balance. -/
def nodeBalance : ITreeNode κ ν → Option (ITreeNode κ ν)
  | .null => none
  | .node b k v l r =>
    if b < -1 then (leanLeft l).bind fun l => rotateRight (.node b k v l r)
    else if 1 < b then (leanRight r).bind fun r => rotateLeft (.node b k v l r)
    else some (.node b k v l r)

/-- The end of i_tree_node_insert: rebalance on the way up after an insertion. -/
def settle (inserted : Bool) : ITreeNode κ ν → Option (ITreeNode κ ν × Bool)
  | .null => none
  | .node b k v l r =>
    if inserted ∧ (b < -1 ∨ 1 < b) then do
      let node ← nodeBalance (.node b k v l r)
      return (node, inserted)
    else some (.node b k v l r, inserted)

section
variable (compare : κ → κ → Int)

/-- i_tree_node_insert; the second component is `*inserted`. -/
def insert (alloc : Bool) (key : κ) (value : ν) :
    ITreeNode κ ν → Option (ITreeNode κ ν × Bool)
  | .null => some (nodeNew alloc key value, true)
  | .node b k v l r =>
    let cmp := compare key k
    if cmp = 0 then some (.node b k value l r, false)
    else if cmp < 0 then
      match l.balance? with
      | some oldBalance => do
        let (l, inserted) ← insert alloc key value l
        let newBalance ← l.balance?
        settle inserted
          (.node (if oldBalance ≠ newBalance ∧ newBalance ≠ 0 then b - 1 else b) k v l r)
      | none => settle true (.node (b - 1) k v (nodeNew alloc key value) r)
    else
      match r.balance? with
      | some oldBalance => do
        let (r, inserted) ← insert alloc key value r
        let newBalance ← r.balance?
        settle inserted
          (.node (if oldBalance ≠ newBalance ∧ newBalance ≠ 0 then b + 1 else b) k v l r)
      | none => settle true (.node (b + 1) k v l (nodeNew alloc key value))

def lookup (key : κ) : ITreeNode κ ν → Option ν
  | .null => none
  | .node _ k v l r =>
    let cmp := compare key k
    if cmp = 0 then some v
    else if cmp < 0 then lookup key l
    else lookup key r

end

/-- What an in-order traversal visits. -/
def inOrder : ITreeNode κ ν → List (κ × ν)
  | .null => []
  | .node _ k v l r => l.inOrder ++ (k, v) :: r.inOrder

theorem rotateLeft_inOrder {t t' : ITreeNode κ ν} (h : t.rotateLeft = some t') :
    t'.inOrder = t.inOrder := by
  match t, h with
  | .node aBal k v left (.node bBal rk rv rl rr), h =>
    simp only [rotateLeft] at h
    split_ifs at h <;>
    · cases h
      simp [inOrder]

theorem rotateRight_inOrder {t t' : ITreeNode κ ν} (h : t.rotateRight = some t') :
    t'.inOrder = t.inOrder := by
  match t, h with
  | .node aBal k v (.node bBal lk lv ll lr) right, h =>
    simp only [rotateRight] at h
    split_ifs at h <;>
    · cases h
      simp [inOrder]

theorem leanLeft_inOrder {t t' : ITreeNode κ ν} (h : t.leanLeft = some t') :
    t'.inOrder = t.inOrder := by
  cases t with
  | null => cases h
  | node b k v l r =>
    simp only [leanLeft, balance?] at h
    split_ifs at h
    · exact rotateLeft_inOrder h
    · cases h
      rfl

theorem leanRight_inOrder {t t' : ITreeNode κ ν} (h : t.leanRight = some t') :
    t'.inOrder = t.inOrder := by
  cases t with
  | null => cases h
  | node b k v l r =>
    simp only [leanRight, balance?] at h
    split_ifs at h
    · exact rotateRight_inOrder h
    · cases h
      rfl

/-- Rebalancing moves nodes but keeps their order. -/
theorem nodeBalance_inOrder {t t' : ITreeNode κ ν} (h : t.nodeBalance = some t') :
    t'.inOrder = t.inOrder := by
  cases t with
  | null => cases h
  | node b k v l r =>
    simp only [nodeBalance] at h
    split_ifs at h
    · obtain ⟨l', hl, h⟩ := Option.bind_eq_some_iff.mp h
      rw [rotateRight_inOrder h, inOrder, leanLeft_inOrder hl, inOrder]
    · obtain ⟨r', hr, h⟩ := Option.bind_eq_some_iff.mp h
      rw [rotateLeft_inOrder h, inOrder, leanRight_inOrder hr, inOrder]
    · cases h
      rfl

theorem settle_inOrder {t : ITreeNode κ ν} {inserted : Bool} {p : ITreeNode κ ν × Bool}
    (h : settle inserted t = some p) : p.1.inOrder = t.inOrder := by
  cases t with
  | null => cases h
  | node b k v l r =>
    simp only [settle] at h
    split_ifs at h with hs
    · simp only [Option.bind_eq_bind, Option.bind_eq_some_iff] at h
      obtain ⟨t', ht', h⟩ := h
      cases h
      exact nodeBalance_inOrder ht'
    · cases h
      rfl

section
variable {compare : κ → κ → Int}

/-- An insertion that finds no equal key on its way adds what its malloc gives to the traversal. -/
theorem insert_entries {alloc : Bool} {key : κ} {value : ν} {t : ITreeNode κ ν}
    {p : ITreeNode κ ν × Bool} (h : insert compare alloc key value t = some p)
    (hl : lookup compare key t = none) : ∃ l₁ l₂, t.inOrder = l₁ ++ l₂ ∧
      p.1.inOrder = l₁ ++ (nodeNew alloc key value).inOrder ++ l₂ := by
  induction t generalizing p with
  | null =>
    cases h
    exact ⟨[], [], rfl, by simp⟩
  | node b k v l r ihl ihr =>
    simp only [insert] at h
    simp only [lookup] at hl
    by_cases h0 : compare key k = 0
    · simp [h0] at hl
    by_cases hneg : compare key k < 0
    · simp only [h0, hneg, if_true, if_false] at h hl
      cases l with
      | null =>
        refine ⟨[], (k, v) :: r.inOrder, by simp [inOrder], ?_⟩
        rw [settle_inOrder h]
        simp [inOrder]
      | node lb lk lv ll lr =>
        simp only [balance?, Option.bind_eq_bind, Option.bind_eq_some_iff] at h
        obtain ⟨⟨l', inserted⟩, hins, nb, -, h⟩ := h
        obtain ⟨l₁, l₂, he, he'⟩ := ihl hins hl
        refine ⟨l₁, l₂ ++ (k, v) :: r.inOrder, by rw [inOrder, he]; simp, ?_⟩
        rw [settle_inOrder h, inOrder, he']
        simp
    · simp only [h0, hneg, if_false] at h hl
      cases r with
      | null =>
        refine ⟨l.inOrder ++ [(k, v)], [], by simp [inOrder], ?_⟩
        rw [settle_inOrder h]
        simp [inOrder]
      | node rb rk rv rl rr =>
        simp only [balance?, Option.bind_eq_bind, Option.bind_eq_some_iff] at h
        obtain ⟨⟨r', inserted⟩, hins, nb, -, h⟩ := h
        obtain ⟨l₁, l₂, he, he'⟩ := ihr hins hl
        refine ⟨l.inOrder ++ (k, v) :: l₁, l₂, by rw [inOrder, he]; simp, ?_⟩
        rw [settle_inOrder h, inOrder, he']
        simp

theorem insert_inOrder {key : κ} {value : ν} {t : ITreeNode κ ν} {p : ITreeNode κ ν × Bool}
    (h : insert compare true key value t = some p) (hl : lookup compare key t = none) :
    ∃ l₁ l₂, t.inOrder = l₁ ++ l₂ ∧ p.1.inOrder = l₁ ++ (key, value) :: l₂ := by
  obtain ⟨l₁, l₂, he, he'⟩ := insert_entries h hl
  refine ⟨l₁, l₂, he, ?_⟩
  rw [he', List.append_assoc]
  rfl

/-- A new key whose node is not allocated leaves the entries as they were. -/
theorem insert_lost_inOrder {key : κ} {value : ν} {t : ITreeNode κ ν} {p : ITreeNode κ ν × Bool}
    (h : insert compare false key value t = some p) (hl : lookup compare key t = none) :
    p.1.inOrder = t.inOrder := by
  obtain ⟨l₁, l₂, he, he'⟩ := insert_entries h hl
  rw [he', he]
  show l₁ ++ [] ++ l₂ = l₁ ++ l₂
  rw [List.append_nil]

end

end ITreeNode

end IPStat
