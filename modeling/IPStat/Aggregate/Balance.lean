import IPStat.Aggregate.Tree

namespace IPStat.ITreeNode

variable {κ ν : Type}

def height : ITreeNode κ ν → Nat
  | .null => 0
  | .node _ _ _ l r => max l.height r.height + 1

/-- The balance of a tree, 0 for none. -/
def bal : ITreeNode κ ν → Int
  | .null => 0
  | .node b _ _ _ _ => b

/-- Every node's balance is how much higher its right subtree is, by one level at most. -/
def Avl : ITreeNode κ ν → Prop
  | .null => True
  | .node b _ _ l r =>
    b = (r.height : Int) - l.height ∧ -1 ≤ b ∧ b ≤ 1 ∧ l.Avl ∧ r.Avl

@[simp] theorem height_null : (null : ITreeNode κ ν).height = 0 := rfl

@[simp] theorem height_node (b : Int) (k : κ) (v : ν) (l r : ITreeNode κ ν) :
    (node b k v l r).height = max l.height r.height + 1 := rfl

theorem exists_node_of_height {t : ITreeNode κ ν} (h : 0 < t.height) :
    ∃ b k v l r, t = .node b k v l r := by
  cases t with
  | null => exact absurd h (Nat.lt_irrefl 0)
  | node b k v l r => exact ⟨b, k, v, l, r, rfl⟩

/-- The tree with left and right exchanged. -/
def mirror : ITreeNode κ ν → ITreeNode κ ν
  | .null => .null
  | .node b k v l r => .node (-b) k v r.mirror l.mirror

@[simp] theorem mirror_mirror (t : ITreeNode κ ν) : t.mirror.mirror = t := by
  induction t with
  | null => rfl
  | node b k v l r ihl ihr => simp [mirror, ihl, ihr]

@[simp] theorem height_mirror (t : ITreeNode κ ν) : t.mirror.height = t.height := by
  induction t with
  | null => rfl
  | node b k v l r ihl ihr => simp [mirror, ihl, ihr, Nat.max_comm]

theorem bal_mirror (t : ITreeNode κ ν) : t.mirror.bal = -t.bal := by
  cases t with
  | null => rfl
  | node b k v l r => rfl

theorem Avl.mirror {t : ITreeNode κ ν} (h : t.Avl) : t.mirror.Avl := by
  induction t with
  | null => trivial
  | node b k v l r ihl ihr =>
    obtain ⟨hb, hlo, hhi, hl, hr⟩ := h
    refine ⟨?_, by omega, by omega, ihr hr, ihl hl⟩
    rw [height_mirror, height_mirror]
    omega

/-- The two rotations are one, their arithmetic on balances included. -/
theorem rotateLeft_mirror (t : ITreeNode κ ν) :
    t.mirror.rotateLeft = t.rotateRight.map mirror := by
  cases t with
  | null => rfl
  | node a k v l r =>
    cases l with
    | null => rfl
    | node b lk lv ll lr =>
      simp only [mirror, rotateLeft, rotateRight]
      split_ifs <;> simp only [Option.map_some, mirror, Option.some.injEq, node.injEq,
        and_true, true_and] <;> omega

theorem rotateRight_mirror (t : ITreeNode κ ν) :
    t.mirror.rotateRight = t.rotateLeft.map mirror := by
  have h := rotateLeft_mirror t.mirror
  rw [mirror_mirror] at h
  rw [h, Option.map_map]
  cases t.mirror.rotateRight with
  | none => rfl
  | some t' => simp

theorem leanRight_mirror (t : ITreeNode κ ν) :
    t.mirror.leanRight = t.leanLeft.map mirror := by
  cases t with
  | null => rfl
  | node b k v l r =>
    have hrot := rotateRight_mirror (node b k v l r)
    simp only [mirror] at hrot
    simp only [mirror, leanRight, leanLeft, balance?]
    by_cases hb : 0 < b
    · have hneg : -b < 0 := by omega
      rw [if_pos hneg, if_pos hb, hrot]
    · have hneg : ¬ -b < 0 := by omega
      rw [if_neg hneg, if_neg hb]
      rfl

theorem leanLeft_mirror (t : ITreeNode κ ν) :
    t.mirror.leanLeft = t.leanRight.map mirror := by
  have h := leanRight_mirror t.mirror
  rw [mirror_mirror] at h
  rw [h, Option.map_map]
  cases t.mirror.leanLeft with
  | none => rfl
  | some t' => simp

theorem nodeBalance_mirror (t : ITreeNode κ ν) :
    t.mirror.nodeBalance = t.nodeBalance.map mirror := by
  cases t with
  | null => rfl
  | node b k v l r =>
    simp only [mirror, nodeBalance]
    by_cases hlow : b < -1
    · have hhigh : 1 < -b := by omega
      have hnot : ¬ -b < -1 := by omega
      rw [if_neg hnot, if_pos hhigh, if_pos hlow, leanRight_mirror]
      cases l.leanLeft with
      | none => rfl
      | some l' => exact rotateLeft_mirror (node b k v l' r)
    · by_cases hhigh : 1 < b
      · have hlow' : -b < -1 := by omega
        rw [if_pos hlow', if_neg hlow, if_pos hhigh, leanLeft_mirror]
        cases r.leanRight with
        | none => rfl
        | some r' => exact rotateRight_mirror (node b k v l r')
      · have hlow' : ¬ -b < -1 := by omega
        have hhigh' : ¬ 1 < -b := by omega
        rw [if_neg hlow', if_neg hhigh', if_neg hlow, if_neg hhigh]
        rfl

theorem settle_mirror (inserted : Bool) (t : ITreeNode κ ν) :
    settle inserted t.mirror = (settle inserted t).map fun p => (p.1.mirror, p.2) := by
  cases t with
  | null => rfl
  | node b k v l r =>
    have hbalance := nodeBalance_mirror (node b k v l r)
    simp only [mirror] at hbalance
    simp only [mirror, settle]
    by_cases hout : inserted = true ∧ (b < -1 ∨ 1 < b)
    · have hout' : inserted = true ∧ (-b < -1 ∨ 1 < -b) := ⟨hout.1, by have := hout.2; omega⟩
      rw [if_pos hout, if_pos hout', hbalance]
      cases (node b k v l r).nodeBalance with
      | none => rfl
      | some t' => rfl
    · have hout' : ¬ (inserted = true ∧ (-b < -1 ∨ 1 < -b)) := by
        rintro ⟨hi, hb⟩
        exact hout ⟨hi, by omega⟩
      rw [if_neg hout, if_neg hout']
      rfl

/-- A left subtree two levels higher, and leaning, is rotated back to the height it had. -/
theorem nodeBalance_left {k : κ} {v : ν} {l r : ITreeNode κ ν} (hl : l.Avl) (hr : r.Avl)
    (hh : l.height = r.height + 2) (hlean : l.bal ≠ 0) :
    ∃ t', nodeBalance (.node (-2) k v l r) = some t' ∧ t'.Avl ∧ t'.height = l.height ∧
      t'.bal = 0 := by
  obtain ⟨b, lk, lv, ll, lr, rfl⟩ := exists_node_of_height (t := l) (by omega)
  obtain ⟨hb, hlo, hhi, hll, hlr⟩ := hl
  simp only [height_node] at hh
  change b ≠ 0 at hlean
  by_cases hpos : 0 < b
  · have hb1 : b = 1 := by omega
    obtain ⟨m, mk, mv, ml, mr, rfl⟩ := exists_node_of_height (t := lr) (by omega)
    obtain ⟨hm, hmlo, hmhi, hml, hmr⟩ := hlr
    simp only [height_node] at hb hh
    by_cases hm0 : m ≤ 0
    · refine ⟨.node 0 mk mv (.node 0 lk lv ll ml) (.node (-m) k v mr r), ?_, ?_, ?_, rfl⟩
      · subst hb1
        have hm' : m = 0 ∨ m = -1 := by omega
        rcases hm' with rfl | rfl <;> rfl
      · refine ⟨?_, by omega, by omega, ⟨?_, by omega, by omega, hll, hml⟩,
          ⟨?_, by omega, by omega, hmr, hr⟩⟩
        · simp only [height_node]
          omega
        · omega
        · omega
      · simp only [height_node]
        omega
    · have hm1 : m = 1 := by omega
      refine ⟨.node 0 mk mv (.node (-1) lk lv ll ml) (.node 0 k v mr r), ?_, ?_, ?_, rfl⟩
      · subst hb1 hm1
        rfl
      · refine ⟨?_, by omega, by omega, ⟨?_, by omega, by omega, hll, hml⟩,
          ⟨?_, by omega, by omega, hmr, hr⟩⟩
        · simp only [height_node]
          omega
        · omega
        · omega
      · simp only [height_node]
        omega
  · have hb1 : b = -1 := by omega
    refine ⟨.node 0 lk lv ll (.node 0 k v lr r), ?_, ?_, ?_, rfl⟩
    · subst hb1
      rfl
    · refine ⟨?_, by omega, by omega, hll, ⟨?_, by omega, by omega, hlr, hr⟩⟩
      · simp only [height_node]
        omega
      · omega
    · simp only [height_node]
      omega

/-- How the insertion reads a subtree's growth off its balances. -/
def grown (old new : Int) : Nat := if old ≠ new ∧ new ≠ 0 then 1 else 0

/-- What an insertion makes of a tree that is not empty. -/
structure Inserted (t t' : ITreeNode κ ν) (inserted : Bool) : Prop where
  avl : t'.Avl
  height : t'.height = t.height + grown t.bal t'.bal
  same : inserted = false → t'.bal = t.bal
  ne_null : t' ≠ .null

theorem grown_self (b : Int) : grown b b = 0 := by simp [grown]

theorem settle_same {b : Int} {k : κ} {v : ν} {l l' r r' : ITreeNode κ ν} {inserted : Bool}
    (ht : (node b k v l r).Avl) (hl : l'.Avl) (hr : r'.Avl) (hhl : l'.height = l.height)
    (hhr : r'.height = r.height) :
    ∃ t', settle inserted (node b k v l' r') = some (t', inserted) ∧
      Inserted (node b k v l r) t' inserted := by
  obtain ⟨hb, hlo, hhi, -, -⟩ := ht
  have hin : ¬ (inserted = true ∧ (b < -1 ∨ 1 < b)) := by omega
  refine ⟨node b k v l' r', ?_, ⟨?_, ?_, fun _ => rfl, by simp⟩⟩
  · rw [settle, if_neg hin]
  · exact ⟨by omega, hlo, hhi, hl, hr⟩
  · rw [bal, bal, grown_self]
    simp only [height_node]
    omega

/-- A left subtree that grew by a level tips its node, and is rotated back when it tips too
far. -/
theorem settle_left {b : Int} {k : κ} {v : ν} {l l' r : ITreeNode κ ν}
    (ht : (node b k v l r).Avl) (hl : l'.Avl) (hh : l'.height = l.height + 1)
    (hlean : l.height ≠ 0 → l'.bal ≠ 0) :
    ∃ t', settle true (node (b - 1) k v l' r) = some (t', true) ∧
      Inserted (node b k v l r) t' true := by
  obtain ⟨hb, hlo, hhi, -, hr⟩ := ht
  by_cases htip : b = -1
  · subst htip
    obtain ⟨t', ht', havl, hheight, hbal⟩ := nodeBalance_left (k := k) (v := v) hl hr
      (by omega) (hlean (by omega))
    refine ⟨t', ?_, ⟨havl, ?_, by simp, ?_⟩⟩
    · have hout : true = true ∧ ((-1 : Int) - 1 < -1 ∨ 1 < (-1 : Int) - 1) := by decide
      rw [settle, if_pos hout]
      change (nodeBalance (node (-2) k v l' r)).bind _ = _
      rw [ht']
      rfl
    · rw [hbal, grown, if_neg (by simp), hheight]
      simp only [height_node]
      omega
    · rintro rfl
      rw [height_null] at hheight
      omega
  · have hin : ¬ (true = true ∧ (b - 1 < -1 ∨ 1 < b - 1)) := by omega
    refine ⟨node (b - 1) k v l' r, ?_, ⟨?_, ?_, by simp, by simp⟩⟩
    · rw [settle, if_neg hin]
    · exact ⟨by omega, by omega, by omega, hl, hr⟩
    · rw [bal, bal, grown]
      simp only [height_node]
      split_ifs <;> omega

theorem Inserted.mirror {t t' : ITreeNode κ ν} {inserted : Bool} (h : Inserted t t' inserted) :
    Inserted t.mirror t'.mirror inserted where
  avl := h.avl.mirror
  height := by
    have hgrown : grown t.mirror.bal t'.mirror.bal = grown t.bal t'.bal := by
      simp [grown, bal_mirror]
    rw [height_mirror, height_mirror, hgrown, h.height]
  same hi := by rw [bal_mirror, bal_mirror, h.same hi]
  ne_null hnull := by
    have hmm := congrArg ITreeNode.mirror hnull
    rw [mirror_mirror] at hmm
    exact h.ne_null hmm

theorem settle_right {b : Int} {k : κ} {v : ν} {l r r' : ITreeNode κ ν}
    (ht : (node b k v l r).Avl) (hr : r'.Avl) (hh : r'.height = r.height + 1)
    (hlean : r.height ≠ 0 → r'.bal ≠ 0) :
    ∃ t', settle true (node (b + 1) k v l r') = some (t', true) ∧
      Inserted (node b k v l r) t' true := by
  have hlean' : r.mirror.height ≠ 0 → r'.mirror.bal ≠ 0 := by
    rw [height_mirror, bal_mirror]
    intro hne
    have := hlean hne
    omega
  obtain ⟨t', ht', hins⟩ := settle_left (k := k) (v := v) ht.mirror hr.mirror
    (by rw [height_mirror, height_mirror, hh]) hlean'
  refine ⟨t'.mirror, ?_, ?_⟩
  · have hm := settle_mirror true (node (-b - 1) k v r'.mirror l.mirror)
    rw [ht', ITreeNode.mirror, mirror_mirror, mirror_mirror] at hm
    have hb : -(-b - 1) = b + 1 := by omega
    rw [hb] at hm
    exact hm
  · have hm : Inserted (node b k v l r).mirror.mirror t'.mirror true := hins.mirror
    rwa [mirror_mirror] at hm

theorem Inserted.of_grown {t t' : ITreeNode κ ν} {inserted : Bool} (h : Inserted t t' inserted)
    (hg : t.bal ≠ t'.bal ∧ t'.bal ≠ 0) : inserted = true ∧ t'.height = t.height + 1 := by
  have hgrew : grown t.bal t'.bal = 1 := if_pos hg
  refine ⟨?_, by rw [h.height, hgrew]⟩
  cases inserted with
  | true => rfl
  | false => exact absurd (h.same rfl).symm hg.1

theorem Inserted.of_not_grown {t t' : ITreeNode κ ν} {inserted : Bool}
    (h : Inserted t t' inserted) (hg : ¬ (t.bal ≠ t'.bal ∧ t'.bal ≠ 0)) :
    t'.height = t.height := by
  have hsame : grown t.bal t'.bal = 0 := if_neg hg
  rw [h.height, hsame, Nat.add_zero]

/-- The way back up through a left child that was there before. -/
theorem settle_child_left {b : Int} {k : κ} {v : ν} {l l' r : ITreeNode κ ν} {inserted : Bool}
    (ht : (node b k v l r).Avl) (h : Inserted l l' inserted) :
    ∃ t', settle inserted
        (node (if l.bal ≠ l'.bal ∧ l'.bal ≠ 0 then b - 1 else b) k v l' r) =
          some (t', inserted) ∧ Inserted (node b k v l r) t' inserted := by
  by_cases hg : l.bal ≠ l'.bal ∧ l'.bal ≠ 0
  · obtain ⟨rfl, hheight⟩ := h.of_grown hg
    rw [if_pos hg]
    exact settle_left ht h.avl hheight fun _ => hg.2
  · rw [if_neg hg]
    exact settle_same ht h.avl ht.2.2.2.2 (h.of_not_grown hg) rfl

theorem settle_child_right {b : Int} {k : κ} {v : ν} {l r r' : ITreeNode κ ν} {inserted : Bool}
    (ht : (node b k v l r).Avl) (h : Inserted r r' inserted) :
    ∃ t', settle inserted
        (node (if r.bal ≠ r'.bal ∧ r'.bal ≠ 0 then b + 1 else b) k v l r') =
          some (t', inserted) ∧ Inserted (node b k v l r) t' inserted := by
  by_cases hg : r.bal ≠ r'.bal ∧ r'.bal ≠ 0
  · obtain ⟨rfl, hheight⟩ := h.of_grown hg
    rw [if_pos hg]
    exact settle_right ht h.avl hheight fun _ => hg.2
  · rw [if_neg hg]
    exact settle_same ht ht.2.2.2.1 h.avl rfl (h.of_not_grown hg)

theorem balance?_of_ne_null {t : ITreeNode κ ν} (h : t ≠ .null) : t.balance? = some t.bal := by
  cases t with
  | null => exact absurd rfl h
  | node => rfl

theorem nodeNew_avl (key : κ) (value : ν) : (nodeNew true key value).Avl :=
  ⟨rfl, by omega, by omega, trivial, trivial⟩

/-- No insertion into a balanced tree reads through a NULL pointer, and it leaves a balanced
tree. -/
theorem insert_avl (compare : κ → κ → Int) (key : κ) (value : ν) {t : ITreeNode κ ν}
    (ht : t.Avl) : ∃ t' inserted, insert compare true key value t = some (t', inserted) ∧
      t'.Avl ∧ (t ≠ .null → Inserted t t' inserted) := by
  induction t with
  | null => exact ⟨_, _, rfl, nodeNew_avl key value, by simp⟩
  | node b k v l r ihl ihr =>
    obtain ⟨-, -, -, hl, hr⟩ := id ht
    have hfinish {p : Option (ITreeNode κ ν × Bool)} {inserted : Bool}
        (h : ∃ t', p = some (t', inserted) ∧ Inserted (node b k v l r) t' inserted) :
        ∃ t' inserted, p = some (t', inserted) ∧ t'.Avl ∧
          (node b k v l r ≠ .null → Inserted (node b k v l r) t' inserted) := by
      obtain ⟨t', hp, hins⟩ := h
      exact ⟨t', inserted, hp, hins.avl, fun _ => hins⟩
    rw [insert]
    by_cases h0 : compare key k = 0
    · rw [if_pos h0]
      have hreplaced : Inserted (node b k v l r) (node b k value l r) false := by
        refine ⟨ht, ?_, fun _ => rfl, by simp⟩
        rw [bal, bal, grown_self]
        rfl
      exact hfinish ⟨_, rfl, hreplaced⟩
    by_cases hneg : compare key k < 0
    · rw [if_neg h0, if_pos hneg]
      cases l with
      | null =>
        exact hfinish (settle_left ht (nodeNew_avl key value) rfl (by simp))
      | node lb lk lv ll lr =>
        obtain ⟨l', inserted, hl', -, hins⟩ := ihl hl
        have hins := hins (by simp)
        have hold : (node lb lk lv ll lr).balance? = some lb := rfl
        have hnew := balance?_of_ne_null hins.ne_null
        simp only [hold, hl', hnew, Option.bind_eq_bind, Option.bind_some]
        exact hfinish (settle_child_left ht hins)
    · rw [if_neg h0, if_neg hneg]
      cases r with
      | null =>
        exact hfinish (settle_right ht (nodeNew_avl key value) rfl (by simp))
      | node rb rk rv rl rr =>
        obtain ⟨r', inserted, hr', -, hins⟩ := ihr hr
        have hins := hins (by simp)
        have hold : (node rb rk rv rl rr).balance? = some rb := rfl
        have hnew := balance?_of_ne_null hins.ne_null
        simp only [hold, hr', hnew, Option.bind_eq_bind, Option.bind_some]
        exact hfinish (settle_child_right ht hins)

end IPStat.ITreeNode
