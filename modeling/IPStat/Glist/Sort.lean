import IPStat.Glist.Cells
import IPStat.Lib.Halving

/-! g_list_sort in place. Its cells are linked anew, and none is given out or released. -/

namespace IPStat

open Heap

section
variable {δ : Type}

/-- `l->next = next`, where `l` is the cell on the stack (`none`) or one of the heap. -/
def setLink (h : GListHeap δ) (head l next : Option Nat) : Option (GListHeap δ × Option Nat) :=
  match l with
  | none => some (h, next)
  | some l => (setNext h l next).map fun h => (h, head)

/-- The loop of g_list_sort_merge; `head` is the `next` of the cell on the stack. -/
def gListSortMergeLoop (cmp : δ → δ → Int) : Nat → GListHeap δ → Option Nat → Option Nat →
    Option Nat → Option Nat → Option (GListHeap δ × Option Nat)
  | fuel, h, head, l, some l1, some l2 =>
    match fuel with
    | 0 => none
    | fuel + 1 => do
      let cell1 ← Heap.read h l1
      let cell2 ← Heap.read h l2
      if cmp cell1.data cell2.data ≤ 0 then
        let (h, head) ← setLink h head l (some l1)
        let cell1 ← Heap.read h l1
        gListSortMergeLoop cmp fuel h head (some l1) cell1.next (some l2)
      else
        let (h, head) ← setLink h head l (some l2)
        let cell2 ← Heap.read h l2
        gListSortMergeLoop cmp fuel h head (some l2) (some l1) cell2.next
  | _, h, head, l, some l1, none => setLink h head l (some l1)
  | _, h, head, l, none, l2 => setLink h head l l2

def gListSortMerge (cmp : δ → δ → Int) (h : GListHeap δ) (l1 l2 : Option Nat) :
    Option (GListHeap δ × Option Nat) :=
  gListSortMergeLoop cmp h.length h none none l1 l2

/-- The first loop of g_list_sort_real, up to the value of `l1`. -/
def gListSplitLoop (h : GListHeap δ) : Nat → Nat → Nat → Option Nat
  | 0, _, _ => none
  | fuel + 1, l1, l2 => do
    let cell2 ← Heap.read h l2
    match cell2.next with
    | none => some l1
    | some l2 =>
      let cell2 ← Heap.read h l2
      match cell2.next with
      | none => some l1
      | some l2 =>
        let cell1 ← Heap.read h l1
        match cell1.next with
        | none => none
        | some l1 => gListSplitLoop h fuel l1 l2

/-- C leaves open which of the two recursive calls is made first: `leftFirst` says it. -/
def gListSortReal (cmp : δ → δ → Int) (leftFirst : Bool) :
    Nat → GListHeap δ → Option Nat → Option (GListHeap δ × Option Nat)
  | _, h, none => some (h, none)
  | 0, _, some _ => none
  | fuel + 1, h, some list => do
    let cell ← Heap.read h list
    match cell.next with
    | none => some (h, some list)
    | some l2 =>
      let l1 ← gListSplitLoop h h.length list l2
      let cell1 ← Heap.read h l1
      let h ← setNext h l1 none
      if leftFirst then
        let (h, left) ← gListSortReal cmp leftFirst fuel h (some list)
        let (h, right) ← gListSortReal cmp leftFirst fuel h cell1.next
        gListSortMerge cmp h left right
      else
        let (h, right) ← gListSortReal cmp leftFirst fuel h cell1.next
        let (h, left) ← gListSortReal cmp leftFirst fuel h (some list)
        gListSortMerge cmp h left right

def gListSort (cmp : δ → δ → Int) (leftFirst : Bool) (h : GListHeap δ) (list : Option Nat) :
    Option (GListHeap δ × Option Nat) :=
  gListSortReal cmp leftFirst h.length h list

/-- The order in which g_list_sort puts two cells: ties stay as they are. -/
def cellLE (cmp : δ → δ → Int) (x y : Nat × δ) : Bool := cmp x.2 y.2 ≤ 0

variable {cmp : δ → δ → Int} {h h' : GListHeap δ} {list : Option Nat} {cells : List (Nat × δ)}

/-- What a write through `l` leaves: the cell has the new link, and the rest is as it was. -/
structure Relinked (h h' : GListHeap δ) (l next : Option Nat) : Prop where
  link : ∀ p, l = some p → ∀ d n, read h p = some ⟨d, n⟩ → read h' p = some ⟨d, next⟩
  other : ∀ y, l ≠ some y → read h' y = read h y

theorem setLink_spec {l : Option Nat} (head next : Option Nat)
    (hl : ∀ p, l = some p → (read h p).isSome) :
    ∃ h', setLink h head l next = some (h', if l = none then next else head) ∧
      Relinked h h' l next := by
  match l, hl with
  | none, _ =>
    refine ⟨h, by simp [setLink], ?_, fun _ _ => rfl⟩
    intro p hp
    cases hp
  | some p, hl =>
    obtain ⟨⟨d, n⟩, hp⟩ := Option.isSome_iff_exists.mp (hl p rfl)
    refine ⟨h.set p (.live ⟨d, next⟩), by simp [setLink, setNext_of_read hp next], ?_, ?_⟩
    · intro q hq d' n' hread
      cases hq
      rw [hp] at hread
      cases hread
      exact read_set_self hp _
    · intro y hy
      apply read_set_of_ne
      intro hyp
      exact hy (hyp ▸ rfl)

/-- A list that `l` is not a cell of survives a write through `l`. -/
theorem Relinked.listAt {l next s t : Option Nat} (hr : Relinked h h' l next)
    (hseg : Segment GListCell.mk h s cells t) (hl : ∀ p, l = some p → p ∉ places cells) :
    Segment GListCell.mk h' s cells t := by
  apply hseg.frame
  intro x hx
  apply hr.other
  intro hlx
  exact hl x hlx hx

/-- The list at `t` hangs behind `l`, and only `l` and the cells of the list were written. -/
structure HangsBehind (h h' : GListHeap δ) (l t : Option Nat) (cells : List (Nat × δ)) : Prop where
  listAt : GListAt h' t cells
  link : ∀ p, l = some p → ∀ d n, read h p = some ⟨d, n⟩ → read h' p = some ⟨d, t⟩
  other : ∀ y, l ≠ some y → y ∉ places cells → read h' y = read h y

/-- One cell is linked behind `l`, and the rest behind that cell. -/
theorem HangsBehind.cons {h₁ : GListHeap δ} {l t n : Option Nat} {x : Nat × δ}
    (hr : Relinked h h₁ l (some x.1)) (hx : read h₁ x.1 = some ⟨x.2, n⟩)
    (hrest : HangsBehind h₁ h' (some x.1) t cells)
    (hl : ∀ p, l = some p → p ≠ x.1 ∧ p ∉ places cells) :
    HangsBehind h h' l (some x.1) (x :: cells) := by
  refine ⟨⟨rfl, t, hrest.link x.1 rfl _ _ hx, hrest.listAt⟩, ?_, ?_⟩
  · intro p hp d n' hread
    obtain ⟨hne, hout⟩ := hl p hp
    rw [hrest.other p _ hout, hr.link p hp d n' hread]
    intro heq
    exact hne (Option.some.inj heq).symm
  · intro y hly hy
    simp only [places_cons, List.mem_cons, not_or] at hy
    rw [hrest.other y _ hy.2, hr.other y hly]
    intro heq
    exact hy.1 (Option.some.inj heq).symm

theorem mem_places_merge {y : Nat} {cells1 cells2 : List (Nat × δ)} :
    y ∈ places (cells1.merge cells2 (cellLE cmp)) ↔ y ∈ places cells1 ∨ y ∈ places cells2 := by
  simp only [places, List.mem_map, List.mem_merge, or_and_right, exists_or]

/-- With one list used up, the other is linked as it is. -/
theorem setLink_hangs {l next : Option Nat} (head : Option Nat)
    (hl : ∀ p, l = some p → (read h p).isSome) (hnext : GListAt h next cells)
    (hout : ∀ p, l = some p → p ∉ places cells) :
    ∃ h', setLink h head l next = some (h', if l = none then next else head) ∧
      HangsBehind h h' l next cells := by
  obtain ⟨h', hset, hr⟩ := setLink_spec head next hl
  exact ⟨h', hset, hr.listAt hnext hout, hr.link, fun y hy _ => hr.other y hy⟩

theorem gListSortMergeLoop_nil {fuel : Nat} {head l l2 : Option Nat} :
    gListSortMergeLoop cmp fuel h head l none l2 = setLink h head l l2 := by
  simp [gListSortMergeLoop]

/-- The cell `x` is moved behind `l`: both lists go on as they were. -/
theorem setLink_take (head : Option Nat) {l n : Option Nat} {x : Nat × δ}
    (hl : ∀ p, l = some p → (read h p).isSome) (hx : read h x.1 = some ⟨x.2, n⟩)
    (hne : ∀ p, l = some p → p ≠ x.1) :
    ∃ h₁, setLink h head l (some x.1) = some (h₁, if l = none then some x.1 else head) ∧
      Relinked h h₁ l (some x.1) ∧ read h₁ x.1 = some ⟨x.2, n⟩ := by
  obtain ⟨h₁, hset, hr⟩ := setLink_spec head (some x.1) hl
  refine ⟨h₁, hset, hr, ?_⟩
  rw [hr.other x.1, hx]
  intro hlx
  exact hne x.1 hlx rfl

theorem notMem_of_some {q : Nat} (hq : q ∉ places cells) (p : Nat) (hp : some q = some p) :
    p ∉ places cells := by
  cases hp
  exact hq

theorem isSome_of_some {q : Nat} {cell : GListCell δ} (hq : read h q = some cell) (p : Nat)
    (hp : some q = some p) : (read h p).isSome := by
  cases hp
  rw [hq]
  rfl

/-- What is written through `l` in the end is the merged list, made of the cells of both. -/
theorem gListSortMergeLoop_spec {fuel : Nat} (head : Option Nat) {l l1 l2 : Option Nat}
    {cells1 cells2 : List (Nat × δ)} (hl : ∀ p, l = some p → (read h p).isSome)
    (hl1 : GListAt h l1 cells1) (hl2 : GListAt h l2 cells2)
    (hout1 : ∀ p, l = some p → p ∉ places cells1) (hout2 : ∀ p, l = some p → p ∉ places cells2)
    (hapart : ∀ x ∈ places cells1, x ∉ places cells2)
    (hfuel : cells1.length + cells2.length ≤ fuel) :
    ∃ h' t, gListSortMergeLoop cmp fuel h head l l1 l2 =
        some (h', if l = none then t else head) ∧
      HangsBehind h h' l t (cells1.merge cells2 (cellLE cmp)) := by
  induction fuel generalizing h head l l1 l2 cells1 cells2 with
  | zero =>
    obtain rfl : cells1 = [] := List.eq_nil_of_length_eq_zero (by omega)
    obtain rfl : l1 = none := hl1
    obtain ⟨h', hset, hangs⟩ := setLink_hangs head hl hl2 hout2
    rw [List.nil_merge]
    exact ⟨h', l2, by rw [gListSortMergeLoop_nil, hset], hangs⟩
  | succ fuel ih =>
    match cells1, cells2 with
    | [], cells2 =>
      obtain rfl : l1 = none := hl1
      obtain ⟨h', hset, hangs⟩ := setLink_hangs head hl hl2 hout2
      rw [List.nil_merge]
      exact ⟨h', l2, by rw [gListSortMergeLoop_nil, hset], hangs⟩
    | x :: cells1, [] =>
      obtain rfl : l2 = none := hl2
      obtain ⟨h', hset, hangs⟩ := setLink_hangs head hl hl1 hout1
      obtain rfl : l1 = some x.1 := hl1.1
      rw [List.merge_right]
      exact ⟨h', some x.1, by rw [gListSortMergeLoop, hset], hangs⟩
    | x :: cells1, y :: cells2 =>
      have hnodup1 := List.nodup_cons.mp hl1.nodup
      have hnodup2 := List.nodup_cons.mp hl2.nodup
      obtain ⟨rfl, n1, hx, htail1⟩ := id hl1
      obtain ⟨rfl, n2, hy, htail2⟩ := id hl2
      have hxy : x.1 ∉ places (y :: cells2) := hapart x.1 List.mem_cons_self
      have hyx : y.1 ∉ places (x :: cells1) := by
        intro hmem
        exact hapart y.1 hmem List.mem_cons_self
      have hnotx (p : Nat) (hp : l = some p) : p ≠ x.1 := by
        intro hpx
        exact hout1 p hp (hpx ▸ List.mem_cons_self)
      have hnoty (p : Nat) (hp : l = some p) : p ≠ y.1 := by
        intro hpy
        exact hout2 p hp (hpy ▸ List.mem_cons_self)
      have htail1' (p : Nat) (hp : l = some p) : p ∉ places cells1 := by
        intro hmem
        exact hout1 p hp (List.mem_cons_of_mem _ hmem)
      have htail2' (p : Nat) (hp : l = some p) : p ∉ places cells2 := by
        intro hmem
        exact hout2 p hp (List.mem_cons_of_mem _ hmem)
      by_cases hle : cmp x.2 y.2 ≤ 0
      · obtain ⟨h₁, hset, hr, hx₁⟩ := setLink_take head hl hx hnotx
        obtain ⟨h', t, hrun, hangs⟩ := ih (if l = none then some x.1 else head)
          (isSome_of_some hx₁) (hr.listAt htail1 htail1') (hr.listAt hl2 hout2)
          (notMem_of_some hnodup1.1) (notMem_of_some hxy)
          (fun z hz => hapart z (List.mem_cons_of_mem _ hz))
          (by simp only [List.length_cons] at hfuel ⊢; omega)
        refine ⟨h', some x.1, ?_, ?_⟩
        · simp only [gListSortMergeLoop, hx, hy, Option.bind_eq_bind, Option.bind_some, hle,
            if_true, hset, hx₁, hrun, reduceCtorEq, if_false]
        · rw [List.cons_merge_cons_pos _ _ _ (by simpa [cellLE] using hle)]
          apply HangsBehind.cons hr hx₁ hangs
          intro p hp
          refine ⟨hnotx p hp, ?_⟩
          rw [mem_places_merge, not_or]
          exact ⟨htail1' p hp, hout2 p hp⟩
      · obtain ⟨h₁, hset, hr, hy₁⟩ := setLink_take head hl hy hnoty
        obtain ⟨h', t, hrun, hangs⟩ := ih (if l = none then some y.1 else head)
          (isSome_of_some hy₁) (hr.listAt hl1 hout1) (hr.listAt htail2 htail2')
          (notMem_of_some hyx) (notMem_of_some hnodup2.1)
          (fun z hz hmem => hapart z hz (List.mem_cons_of_mem _ hmem))
          (by simp only [List.length_cons] at hfuel ⊢; omega)
        refine ⟨h', some y.1, ?_, ?_⟩
        · simp only [gListSortMergeLoop, hx, hy, Option.bind_eq_bind, Option.bind_some, hle,
            hset, hy₁, hrun, reduceCtorEq, if_false]
        · rw [List.cons_merge_cons_neg _ _ _ (by simpa [cellLE] using hle)]
          apply HangsBehind.cons hr hy₁ hangs
          intro p hp
          refine ⟨hnoty p hp, ?_⟩
          rw [mem_places_merge, not_or]
          exact ⟨hout1 p hp, htail2' p hp⟩

/-- Two lists of different cells are merged into one, and nothing else is written. -/
theorem gListSortMerge_spec {l1 l2 : Option Nat} {cells1 cells2 : List (Nat × δ)}
    (hl1 : GListAt h l1 cells1) (hl2 : GListAt h l2 cells2)
    (hapart : ∀ x ∈ places cells1, x ∉ places cells2) :
    ∃ h' t, gListSortMerge cmp h l1 l2 = some (h', t) ∧
      GListAt h' t (cells1.merge cells2 (cellLE cmp)) ∧
      ∀ y, y ∉ places cells1 → y ∉ places cells2 → read h' y = read h y := by
  have hnodup : (places (cells1 ++ cells2)).Nodup := by
    rw [places_append, List.nodup_append]
    refine ⟨hl1.nodup, hl2.nodup, ?_⟩
    intro a ha b hb hab
    exact hapart a ha (hab ▸ hb)
  have hheld : ∀ x ∈ places (cells1 ++ cells2), (read h x).isSome := by
    intro x hx
    rw [places_append, List.mem_append] at hx
    exact hx.elim (hl1.isSome x) (hl2.isSome x)
  have hle := length_le_of_nodup hnodup hheld
  rw [places, List.length_map, List.length_append] at hle
  have hnone (p : Nat) (hp : none = some p) : False := by cases hp
  obtain ⟨h', t, hrun, hangs⟩ := @gListSortMergeLoop_spec _ cmp _ _ none none _ _ _ _
    (fun p hp => (hnone p hp).elim) hl1 hl2 (fun p hp => (hnone p hp).elim)
    (fun p hp => (hnone p hp).elim) hapart hle
  refine ⟨h', t, by rw [gListSortMerge, hrun, if_pos rfl], hangs.listAt, ?_⟩
  intro y hy1 hy2
  apply hangs.other y (hnone y)
  rw [mem_places_merge, not_or]
  exact ⟨hy1, hy2⟩

/-- `l2` moves two cells while `l1` moves one. -/
theorem gListSplitLoop_spec {fuel l1 l2 : Nat} {x : Nat × δ} {xs ys : List (Nat × δ)}
    {y : Nat × δ} (hl1 : GListAt h (some l1) (x :: xs)) (hl2 : GListAt h (some l2) (y :: ys))
    (hfuel : ys.length < fuel) (hle : ys.length / 2 ≤ xs.length) :
    gListSplitLoop h fuel l1 l2 = ((x :: xs)[ys.length / 2]?).map Prod.fst := by
  induction fuel generalizing l1 l2 x xs y ys with
  | zero => omega
  | succ fuel ih =>
    obtain ⟨hp1, n1, hx, htail1⟩ := hl1
    obtain ⟨hp2, n2, hy, htail2⟩ := hl2
    obtain rfl : l1 = x.1 := Option.some.inj hp1
    obtain rfl : l2 = y.1 := Option.some.inj hp2
    match ys, htail2 with
    | [], htail2 =>
      obtain rfl : n2 = none := htail2
      simp [gListSplitLoop, hy]
    | z :: ys, htail2 =>
      obtain ⟨rfl, n3, hz, htail3⟩ := htail2
      match ys, htail3 with
      | [], htail3 =>
        obtain rfl : n3 = none := htail3
        simp [gListSplitLoop, hy, hz]
      | w :: ys, htail3 =>
        simp only [List.length_cons] at hfuel hle
        match xs, htail1 with
        | [], _ =>
          simp only [List.length_nil] at hle
          omega
        | x' :: xs, htail1 =>
          simp only [List.length_cons] at hle
          obtain ⟨rfl, n4, hx', htail4⟩ := id htail1
          obtain ⟨rfl, -⟩ := id htail3
          have hrest := ih htail1 htail3 (by omega) (by omega)
          have hhalf : (ys.length + 1 + 1) / 2 = ys.length / 2 + 1 := by omega
          simp [gListSplitLoop, hx, hy, hz, hrest, hhalf]

theorem mem_places_sort {y : Nat} :
    y ∈ places (Halving.sort (cellLE cmp) cells) ↔ y ∈ places cells :=
  ((Halving.sort_perm (cellLE cmp) cells).map Prod.fst).mem_iff

/-- One call of g_list_sort_real: the cells of the list in order, and nothing else written. -/
def Sorts (run : GListHeap δ → Option Nat → Option (GListHeap δ × Option Nat))
    (cmp : δ → δ → Int) (cells : List (Nat × δ)) : Prop :=
  ∀ h list, GListAt h list cells → ∃ h' list', run h list = some (h', list') ∧
    GListAt h' list' (Halving.sort (cellLE cmp) cells) ∧
    ∀ y, y ∉ places cells → read h' y = read h y

/-- One half is sorted and then the other; neither call touches the list of the other. -/
theorem Sorts.both {run : GListHeap δ → Option Nat → Option (GListHeap δ × Option Nat)}
    {first second : Option Nat} {cells1 cells2 : List (Nat × δ)} (hs1 : Sorts run cmp cells1)
    (hs2 : Sorts run cmp cells2) (hl1 : GListAt h first cells1) (hl2 : GListAt h second cells2)
    (hapart : ∀ x ∈ places cells1, x ∉ places cells2) :
    ∃ h₁ h' list1 list2, run h first = some (h₁, list1) ∧ run h₁ second = some (h', list2) ∧
      GListAt h' list1 (Halving.sort (cellLE cmp) cells1) ∧
      GListAt h' list2 (Halving.sort (cellLE cmp) cells2) ∧
      ∀ y, y ∉ places cells1 → y ∉ places cells2 → read h' y = read h y := by
  obtain ⟨h₁, list1, hrun1, hlist1, hother1⟩ := hs1 h first hl1
  have hl2' : GListAt h₁ second cells2 := by
    apply hl2.frame
    intro x hx
    apply hother1
    intro hmem
    exact hapart x hmem hx
  obtain ⟨h', list2, hrun2, hlist2, hother2⟩ := hs2 h₁ second hl2'
  refine ⟨h₁, h', list1, list2, hrun1, hrun2, ?_, hlist2, ?_⟩
  · apply hlist1.frame
    intro x hx
    exact hother2 x (hapart x (mem_places_sort.mp hx))
  · intro y hy1 hy2
    rw [hother2 y hy2, hother1 y hy1]

/-- The list is cut before its second half. -/
theorem gListCut_spec {p q : Nat} {x : Nat × δ} {xs : List (Nat × δ)}
    (hl : GListAt h (some p) (x :: xs)) (hx : read h x.1 = some ⟨x.2, some q⟩) :
    ∃ l1 cell1 h₁, gListSplitLoop h h.length p q = some l1 ∧ read h l1 = some cell1 ∧
      setNext h l1 none = some h₁ ∧
      GListAt h₁ (some p) ((x :: xs).take ((x :: xs).length / 2)) ∧
      GListAt h₁ cell1.next ((x :: xs).drop ((x :: xs).length / 2)) ∧
      ∀ y, y ∉ places (x :: xs) → read h₁ y = read h y := by
  obtain ⟨hp, n, hx', htail⟩ := id hl
  rw [hx] at hx'
  cases hx'
  match xs, htail with
  | [], htail => cases htail
  | y :: ys, htail =>
    have hlen : (x :: y :: ys).length / 2 = ys.length / 2 + 1 := by
      simp only [List.length_cons]
      omega
    have hlt : ys.length / 2 < (x :: y :: ys).length := by
      simp only [List.length_cons]
      omega
    have hfuel : ys.length < h.length := by
      have hle := hl.length_le
      simp only [List.length_cons] at hle
      omega
    have hsplit := gListSplitLoop_spec hl htail hfuel (by simp only [List.length_cons]; omega)
    rw [List.getElem?_eq_getElem hlt, Option.map_some] at hsplit
    -- the cell at which `l1` stops is the last of the first half
    obtain ⟨z, hz⟩ : ∃ z, (x :: y :: ys)[ys.length / 2] = z := ⟨_, rfl⟩
    have htake : (x :: y :: ys).take ((x :: y :: ys).length / 2) =
        (x :: y :: ys).take (ys.length / 2) ++ [z] := by
      rw [hlen, List.take_succ_eq_append_getElem hlt, hz]
    have hall : GListAt h (some p) ((x :: y :: ys).take (ys.length / 2) ++ [z] ++
        (x :: y :: ys).drop ((x :: y :: ys).length / 2)) := by
      rwa [← htake, List.take_append_drop]
    obtain ⟨n, hread, hleft, hright⟩ := hall.cut gListCell_mk_injective2 none
    rw [hz] at hsplit
    refine ⟨z.1, ⟨z.2, n⟩, _, hsplit, hread, setNext_of_read hread none, ?_, hright, ?_⟩
    · rwa [htake]
    · intro w hw
      apply read_set_of_ne
      intro hwz
      apply hw
      rw [hwz]
      exact List.mem_map_of_mem (hz ▸ List.getElem_mem hlt)

/-- g_list_sort_real, with either order of its two calls. -/
theorem gListSortReal_spec (leftFirst : Bool) {fuel : Nat} (hfuel : cells.length ≤ fuel) :
    Sorts (gListSortReal cmp leftFirst fuel) cmp cells := by
  induction fuel generalizing cells with
  | zero =>
    obtain rfl : cells = [] := List.eq_nil_of_length_eq_zero (by omega)
    intro h list hl
    obtain rfl : list = none := hl
    refine ⟨h, none, by simp [gListSortReal], ?_, fun y _ => rfl⟩
    rw [Halving.sort_short (by simp)]
    rfl
  | succ fuel ih =>
    intro h list hl
    match cells, hl with
    | [], hl =>
      obtain rfl : list = none := hl
      refine ⟨h, none, by simp [gListSortReal], ?_, fun y _ => rfl⟩
      rw [Halving.sort_short (by simp)]
      rfl
    | x :: xs, hl =>
      obtain ⟨rfl, n, hx, htail⟩ := id hl
      match n, htail with
      | none, htail =>
        have hnil : xs = [] := htail.unique gListCell_mk_injective2 rfl
        subst hnil
        refine ⟨h, some x.1, by simp [gListSortReal, hx], ?_, fun y _ => rfl⟩
        rw [Halving.sort_short (by simp)]
        exact hl
      | some q, htail =>
        obtain ⟨l1, cell1, h₁, hsplit, hcell, hcut, hleft, hright, hother⟩ := gListCut_spec hl hx
        have hlong : 2 ≤ (x :: xs).length := by
          match xs, htail with
          | [], htail => cases htail
          | _ :: _, _ => simp
        have hapart : ∀ y ∈ places ((x :: xs).take ((x :: xs).length / 2)),
            y ∉ places ((x :: xs).drop ((x :: xs).length / 2)) := by
          have hnodup := hl.nodup
          rw [← List.take_append_drop ((x :: xs).length / 2) (x :: xs), places_append,
            List.nodup_append] at hnodup
          intro y hy hy'
          exact hnodup.2.2 y hy y hy' rfl
        have hside (y : Nat) : y ∈ places (x :: xs) ↔
            y ∈ places ((x :: xs).take ((x :: xs).length / 2)) ∨
              y ∈ places ((x :: xs).drop ((x :: xs).length / 2)) := by
          rw [← List.mem_append, ← places_append, List.take_append_drop]
        have hs1 := @ih ((x :: xs).take ((x :: xs).length / 2))
          (by simp only [List.length_take, List.length_cons] at hfuel ⊢; omega)
        have hs2 := @ih ((x :: xs).drop ((x :: xs).length / 2))
          (by simp only [List.length_drop, List.length_cons] at hfuel hlong ⊢; omega)
        rw [Halving.sort_halves hlong]
        cases leftFirst with
        | true =>
          obtain ⟨h₂, h₃, left, right, hrun1, hrun2, hlist1, hlist2, hother'⟩ :=
            hs1.both hs2 hleft hright hapart
          obtain ⟨h', list', hmerge, hlist', hother''⟩ := gListSortMerge_spec hlist1 hlist2
            (fun y hy hy' => hapart y (mem_places_sort.mp hy) (mem_places_sort.mp hy'))
          refine ⟨h', list', ?_, hlist', ?_⟩
          · simp only [gListSortReal, hx, Option.bind_eq_bind, Option.bind_some, hsplit, hcell,
              hcut, if_true, hrun1, hrun2, hmerge]
          · intro y hy
            obtain ⟨hy1, hy2⟩ := not_or.mp (mt (hside y).mpr hy)
            rw [hother'' y (mt mem_places_sort.mp hy1) (mt mem_places_sort.mp hy2),
              hother' y hy1 hy2, hother y hy]
        | false =>
          obtain ⟨h₂, h₃, right, left, hrun1, hrun2, hlist2, hlist1, hother'⟩ :=
            hs2.both hs1 hright hleft (fun y hy hy' => hapart y hy' hy)
          obtain ⟨h', list', hmerge, hlist', hother''⟩ := gListSortMerge_spec hlist1 hlist2
            (fun y hy hy' => hapart y (mem_places_sort.mp hy) (mem_places_sort.mp hy'))
          refine ⟨h', list', ?_, hlist', ?_⟩
          · simp only [gListSortReal, hx, Option.bind_eq_bind, Option.bind_some, hsplit, hcell,
              hcut, Bool.false_eq_true, if_false, hrun1, hrun2, hmerge]
          · intro y hy
            obtain ⟨hy1, hy2⟩ := not_or.mp (mt (hside y).mpr hy)
            rw [hother'' y (mt mem_places_sort.mp hy1) (mt mem_places_sort.mp hy2),
              hother' y hy2 hy1, hother y hy]

theorem gListSort_turns (leftFirst : Bool) (hl : GListAt h list cells) :
    ∃ h' list', gListSort cmp leftFirst h list = some (h', list') ∧
      GListTurns h h' cells list' (Halving.sort (cellLE cmp) cells) := by
  obtain ⟨h', list', hrun, hlist, hother⟩ := gListSortReal_spec leftFirst hl.length_le h list hl
  refine ⟨h', list', hrun, Transforms.of_perm hlist ?_ hother⟩
  intro x
  exact mem_places_sort

/-- A comparison function that orders the data. -/
structure IsOrder (cmp : δ → δ → Int) : Prop where
  trans : ∀ a b c, cmp a b ≤ 0 → cmp b c ≤ 0 → cmp a c ≤ 0
  total : ∀ a b, cmp a b ≤ 0 ∨ cmp b a ≤ 0

/-- g_list_sort links the cells of a list anew and touches nothing else, whatever it compares
with; with an order they come in the stable order. -/
theorem g_list_sort_spec (cmp : δ → δ → Int) (leftFirst : Bool)
    (h : GListHeap δ) (list : Option Nat) (cells : List (Nat × δ)) (hl : GListAt h list cells) :
    ∃ h' list' cells', gListSort cmp leftFirst h list = some (h', list') ∧
      GListTurns h h' cells list' cells' ∧ cells'.Perm cells ∧
      (IsOrder cmp → cells' = cells.mergeSort (cellLE cmp)) := by
  obtain ⟨h', list', hrun, hturns⟩ := @gListSort_turns _ cmp _ _ _ leftFirst hl
  refine ⟨h', list', _, hrun, hturns, Halving.sort_perm _ cells, ?_⟩
  intro horder
  apply Halving.sort_eq_mergeSort
  · intro x y z hxy hyz
    simp only [cellLE, decide_eq_true_eq] at hxy hyz ⊢
    exact horder.trans x.2 y.2 z.2 hxy hyz
  · intro x y
    simpa [cellLE] using horder.total x.2 y.2

end

theorem g_list_sort_two : ∃ h' list' cells', gListSort (fun a b : Int => a - b) true
      [.live ⟨5, some 1⟩, .live ⟨3, none⟩] (some 0) = some (h', list') ∧
    GListTurns [.live ⟨5, some 1⟩, .live ⟨3, none⟩] h' [(0, 5), (1, 3)] list' cells' ∧
    cells'.Perm [(0, 5), (1, 3)] ∧ (IsOrder (fun a b : Int => a - b) →
      cells' = [(0, 5), (1, 3)].mergeSort (cellLE fun a b => a - b)) :=
  g_list_sort_spec (fun a b => a - b) true [.live ⟨5, some 1⟩, .live ⟨3, none⟩] (some 0)
    [(0, 5), (1, 3)] ⟨rfl, some 1, rfl, rfl, none, rfl, rfl⟩

end IPStat
