import IPStat.Glist.Operations

namespace IPStat

open Heap

section
variable {δ : Type} {h h' : GListHeap δ} {list : Option Nat} {cells : List (Nat × δ)}

theorem gListCell_mk_injective2 : Function.Injective2 (@GListCell.mk δ) := by
  intro d d' n n' heq
  cases heq
  exact ⟨rfl, rfl⟩

/-- The list at this address: its cells with their data, in order. -/
abbrev GListAt (h : GListHeap δ) (list : Option Nat) (cells : List (Nat × δ)) : Prop :=
  Segment GListCell.mk h list cells none

/-- What became of a list: see `Heap.Transforms`. -/
abbrev GListTurns (h h' : GListHeap δ) (cells : List (Nat × δ)) (list : Option Nat)
    (cells' : List (Nat × δ)) : Prop :=
  Transforms GListCell.mk h h' cells list cells'

theorem GListAt.nodup (hl : GListAt h list cells) : (places cells).Nodup :=
  Segment.nodup gListCell_mk_injective2 hl

theorem GListAt.length_le (hl : GListAt h list cells) : cells.length ≤ h.length :=
  Segment.length_le gListCell_mk_injective2 hl

theorem setNext_of_read {p : Nat} {d : δ} {n : Option Nat} (hr : read h p = some ⟨d, n⟩)
    (next : Option Nat) : setNext h p next = some (h.set p (.live ⟨d, next⟩)) := by
  simp only [setNext, hr, Option.bind_eq_bind, Option.bind_some, write_of_read hr]

/-- The writes that follow a malloc. -/
theorem setData_append (h : GListHeap δ) (junk : GListCell δ) (data : δ) :
    setData (h ++ [.live junk]) h.length data = some (h ++ [.live ⟨data, junk.next⟩]) := by
  simp only [setData, read_append_self, Option.bind_eq_bind, Option.bind_some, write_append]

theorem setNext_append (h : GListHeap δ) (cell : GListCell δ) (next : Option Nat) :
    setNext (h ++ [.live cell]) h.length next = some (h ++ [.live ⟨cell.data, next⟩]) := by
  simp only [setNext, read_append_self, Option.bind_eq_bind, Option.bind_some, write_append]

theorem gListLastLoop_spec {fuel p : Nat} {x : Nat × δ}
    (hl : GListAt h (some p) (cells ++ [x])) (hfuel : cells.length < fuel) :
    gListLastLoop fuel h p = some x.1 := by
  induction cells generalizing fuel p with
  | nil =>
    obtain ⟨fuel, rfl⟩ : ∃ k, fuel = k + 1 := ⟨fuel - 1, by omega⟩
    obtain ⟨hp, n, hx, hn⟩ := hl
    obtain rfl : p = x.1 := Option.some.inj hp
    obtain rfl : n = none := hn
    simp [gListLastLoop, hx]
  | cons y cells ih =>
    simp only [List.length_cons] at hfuel
    obtain ⟨fuel, rfl⟩ : ∃ k, fuel = k + 1 := ⟨fuel - 1, by omega⟩
    obtain ⟨hp, n, hy, hrest⟩ := hl
    obtain rfl : p = y.1 := Option.some.inj hp
    have hrest : GListAt h n (cells ++ [x]) := hrest
    match n, hrest with
    | none, hrest =>
      have hempty : GListAt h none [] := rfl
      have hnil := hrest.unique gListCell_mk_injective2 hempty
      simp at hnil
    | some n, hrest =>
      have hlast : gListLastLoop fuel h n = some x.1 := ih hrest (by omega)
      simp only [gListLastLoop, hy, Option.bind_eq_bind, Option.bind_some, hlast]

/-- A list that is not empty has a last cell, and g_list_last finds it. -/
theorem gListLast_spec {p : Nat} (hl : GListAt h (some p) cells) :
    ∃ front x, cells = front ++ [x] ∧ gListLast h (some p) = some (some x.1) := by
  rcases List.eq_nil_or_concat cells with rfl | ⟨front, x, rfl⟩
  · cases hl
  · rw [List.concat_eq_append] at hl ⊢
    have hle := hl.length_le
    simp only [List.length_append, List.length_cons, List.length_nil] at hle
    refine ⟨front, x, rfl, ?_⟩
    rw [gListLast, gListLastLoop_spec hl (by omega), Option.map_some]

/-- A new cell is linked behind one of the list. -/
theorem gListTurns_insert {front back : List (Nat × δ)} {x : Nat × δ} {n : Option Nat}
    (hl : GListAt h list (front ++ x :: back)) (hx : read h x.1 = some ⟨x.2, n⟩) (data : δ) :
    GListTurns h (List.set (h ++ [.live ⟨data, n⟩]) x.1 (.live ⟨x.2, some h.length⟩))
      (front ++ x :: back) list (front ++ x :: (h.length, data) :: back) := by
  have hnodup := hl.nodup
  have hlength := Segment.length_notMem hl
  have hsome := Segment.isSome hl
  simp only [places_append, places_cons, List.mem_append, List.mem_cons, not_or] at hlength
  simp only [places_append, places_cons, List.nodup_append, List.nodup_cons] at hnodup
  obtain ⟨m, hfront, hm, n', hx', hback⟩ := segment_append.mp hl
  obtain rfl : n = n' := by
    rw [hx] at hx'
    cases hx'
    rfl
  have hnew : Segment GListCell.mk (h ++ [.live ⟨data, n⟩]) (some h.length)
      ((h.length, data) :: back) none :=
    ⟨rfl, n, read_append_self h _, hback.append_heap _⟩
  have hupto : Segment GListCell.mk (h ++ [.live ⟨data, n⟩]) list (front ++ [x]) n := by
    apply segment_append.mpr
    exact ⟨m, hfront.append_heap _, hm, n, by rw [read_append_of_ne h _ (by tauto), hx], rfl⟩
  refine ⟨?_, ?_, ?_, ?_⟩
  · have hjoin := hupto.join hnew ?_ ?_
    · simpa using hjoin
    · intro hmem
      exact hnodup.2.2 x.1 hmem x.1 List.mem_cons_self rfl
    · simp only [places_cons, List.mem_cons, not_or]
      exact ⟨by tauto, hnodup.2.1.1⟩
  · intro y hout hout'
    simp only [places_append, places_cons, List.mem_append, List.mem_cons, not_or] at hout'
    rw [read_set_of_ne _ (by tauto), read_append_of_ne h _ (by tauto)]
  · intro y hin hout
    simp only [places_append, places_cons, List.mem_append, List.mem_cons, not_or] at hin hout
    obtain rfl : y = h.length := by tauto
    exact read_length h
  · intro y hin hout
    simp only [places_append, places_cons, List.mem_append, List.mem_cons, not_or] at hin hout
    tauto

/-- A new cell is linked in front of the list. -/
theorem gListTurns_cons (hl : GListAt h list cells) (data : δ) :
    GListTurns h (h ++ [.live ⟨data, list⟩]) cells (some h.length)
      ((h.length, data) :: cells) := by
  refine ⟨⟨rfl, list, read_append_self h _, hl.append_heap _⟩, ?_, ?_, ?_⟩
  · intro y _ hout
    simp only [places_cons, List.mem_cons, not_or] at hout
    exact read_append_of_ne h _ hout.1
  · intro y hin hout
    obtain rfl : y = h.length := (List.mem_cons.mp hin).resolve_right hout
    exact read_length h
  · intro y hin hout
    exact absurd (List.mem_cons_of_mem _ hin) hout

theorem gListPrepend_spec (hl : GListAt h list cells) (junk : GListCell δ) (data : δ) :
    ∃ h' list', gListPrepend h (some junk) list data = some (h', list') ∧
      GListTurns h h' cells list' ((h.length, data) :: cells) := by
  refine ⟨_, _, ?_, gListTurns_cons hl data⟩
  simp [gListPrepend, Heap.alloc, setData_append, setNext_append]

/-- The new cell comes last. -/
theorem gListAppend_spec (hl : GListAt h list cells) (junk : GListCell δ) (data : δ) :
    ∃ h' list', gListAppend h (some junk) list data = some (h', list') ∧
      GListTurns h h' cells list' (cells ++ [(h.length, data)]) := by
  match list, hl with
  | none, hl =>
    have hnil : cells = [] := hl.unique gListCell_mk_injective2 rfl
    subst hnil
    refine ⟨_, _, ?_, gListTurns_cons hl data⟩
    simp [gListAppend, Heap.alloc, setData_append, setNext_append]
  | some p, hl =>
    obtain ⟨front, x, rfl, hlast⟩ := gListLast_spec (hl.append_heap ⟨data, none⟩)
    obtain ⟨m, hfront, hm, n, hx, hn⟩ := segment_append.mp hl
    obtain rfl : n = none := hn
    have hturns := gListTurns_insert hl hx data
    have hx' : read (h ++ [.live ⟨data, none⟩]) x.1 = some ⟨x.2, none⟩ := by
      rw [read_append_of_ne, hx]
      exact (Nat.ne_of_lt (lt_of_read hx))
    refine ⟨_, some p, ?_, by simpa using hturns⟩
    simp [gListAppend, Heap.alloc, setData_append, setNext_append, hlast, setNext_of_read hx']

/-- The loop of g_list_insert stops behind the cell before the place asked for. -/
theorem gListInsertLoop_spec {prev : Option Nat} {position : Nat} (hl : GListAt h list cells) :
    gListInsertLoop h position prev list =
      some (((cells.take position).getLast?.map Prod.fst).or prev) := by
  induction position generalizing prev list cells with
  | zero => simp [gListInsertLoop]
  | succ position ih =>
    match cells, hl with
    | [], hl =>
      obtain rfl : list = none := hl
      simp [gListInsertLoop]
    | x :: cells, hl =>
      obtain ⟨rfl, n, hx, hrest⟩ := hl
      simp only [gListInsertLoop, hx, Option.bind_eq_bind, Option.bind_some, ih hrest,
        List.take_succ_cons, List.getLast?_cons]
      cases (cells.take position).getLast? <;> rfl

/-- The place at which g_list_insert puts the new cell: the end for a negative position. -/
def insertAt {α : Type} (cells : List α) (position : Int) (x : α) : List α :=
  if position < 0 then cells ++ [x]
  else cells.take position.toNat ++ x :: cells.drop position.toNat

theorem gListInsert_spec (hl : GListAt h list cells) (junk : GListCell δ) (data : δ)
    (position : Int) :
    ∃ h' list', gListInsert h (some junk) list data position = some (h', list') ∧
      GListTurns h h' cells list' (insertAt cells position (h.length, data)) := by
  rw [gListInsert, insertAt]
  split
  · exact gListAppend_spec hl junk data
  · split
    · next hzero =>
      rw [hzero]
      exact gListPrepend_spec hl junk data
    · match list, hl with
      | none, hl =>
        have hnil : cells = [] := hl.unique gListCell_mk_injective2 rfl
        subst hnil
        refine ⟨_, _, ?_, by simpa using gListTurns_cons hl data⟩
        simp [Heap.alloc, setData_append, setNext_append]
      | some p, hl =>
        have hne : cells.take position.toNat ≠ [] := by
          intro hnil
          rcases List.take_eq_nil_iff.mp hnil with hzero | rfl
          · omega
          · cases hl
        obtain ⟨front, x, hsplit⟩ := (List.eq_nil_or_concat _).resolve_left hne
        rw [List.concat_eq_append] at hsplit
        have hcells : cells = front ++ x :: cells.drop position.toNat := by
          calc cells = cells.take position.toNat ++ cells.drop position.toNat :=
                (List.take_append_drop _ _).symm
            _ = front ++ x :: cells.drop position.toNat := by
                rw [hsplit, List.append_assoc, List.singleton_append]
        have hloop : gListInsertLoop (h ++ [.live ⟨data, junk.next⟩]) position.toNat none (some p) =
            some (some x.1) := by
          rw [gListInsertLoop_spec (hl.append_heap _), hsplit, List.getLast?_concat,
            Option.map_some, Option.some_or]
        have hcut : GListAt h (some p) (front ++ x :: cells.drop position.toNat) := hcells ▸ hl
        obtain ⟨m, -, -, n, hx, -⟩ := segment_append.mp hcut
        have hx' (next : Option Nat) : read (h ++ [.live ⟨data, next⟩]) x.1 = some ⟨x.2, n⟩ := by
          rw [read_append_of_ne, hx]
          exact Nat.ne_of_lt (lt_of_read hx)
        have hturns := gListTurns_insert hcut hx data
        rw [← hcells] at hturns
        refine ⟨_, some p, ?_, by simpa [hsplit] using hturns⟩
        simp [Heap.alloc, setData_append, hloop, hx', setNext_append, setNext_of_read (hx' n)]

/-- The second list is linked behind the first, in its own cells. -/
theorem gListConcat_spec {list1 list2 : Option Nat} {cells1 cells2 : List (Nat × δ)}
    (hl1 : GListAt h list1 cells1) (hl2 : GListAt h list2 cells2)
    (hapart : ∀ x ∈ places cells1, x ∉ places cells2) :
    ∃ h' list', gListConcat h list1 list2 = some (h', list') ∧
      GListTurns h h' (cells1 ++ cells2) list' (cells1 ++ cells2) := by
  match list2, list1, hl2, hl1 with
  | none, list1, hl2, hl1 =>
    have hnil : cells2 = [] := hl2.unique gListCell_mk_injective2 rfl
    subst hnil
    refine ⟨h, list1, by simp [gListConcat], ?_⟩
    rw [List.append_nil]
    exact Transforms.refl hl1
  | some q, none, hl2, hl1 =>
    have hnil : cells1 = [] := hl1.unique gListCell_mk_injective2 rfl
    subst hnil
    exact ⟨h, some q, by simp [gListConcat], Transforms.refl hl2⟩
  | some q, some p, hl2, hl1 =>
    obtain ⟨front, x, rfl, hlast⟩ := gListLast_spec hl1
    have hnodup := hl1.nodup
    simp only [places_append, places_cons, places_nil, List.nodup_append] at hnodup
    have hfront : x.1 ∉ places front := by
      intro hmem
      exact hnodup.2.2 x.1 hmem x.1 List.mem_cons_self rfl
    have hback : x.1 ∉ places cells2 := hapart x.1 (by simp)
    obtain ⟨m, -, -, n, hx, -⟩ := segment_append.mp hl1
    refine ⟨_, some p, ?_, Transforms.of_perm (hl1.join hl2 hfront hback) (fun y => Iff.rfl) ?_⟩
    · simp [gListConcat, hlast, setNext_of_read hx]
    · intro y hy
      apply read_set_of_ne
      intro hyx
      simp [hyx] at hy

/-- A cell is linked out and released. -/
theorem gListTurns_unlink {front back : List (Nat × δ)} {x : Nat × δ}
    (hlist : GListAt h' list (front ++ back)) (hfreed : read h' x.1 = none)
    (hother : ∀ y, y ∉ places (front ++ x :: back) → read h' y = read h y) :
    GListTurns h h' (front ++ x :: back) list (front ++ back) := by
  have hmem (y : Nat) : y ∈ places (front ++ x :: back) ↔ y = x.1 ∨ y ∈ places (front ++ back) := by
    simp only [places_append, places_cons, List.mem_append, List.mem_cons]
    tauto
  refine ⟨hlist, fun y hy _ => hother y hy, ?_, ?_⟩
  · intro y hin hout
    exact absurd ((hmem y).mpr (Or.inr hin)) hout
  · intro y hin hout
    obtain rfl : y = x.1 := ((hmem y).mp hin).resolve_right hout
    exact hfreed

theorem gListRemoveLoop_spec [DecidableEq δ] {front rest : List (Nat × δ)} {tmp : Option Nat}
    {fuel : Nat} {data : δ} (hl : GListAt h list (front ++ rest)) (hrest : GListAt h tmp rest)
    (hfront : ∀ y ∈ front, y.2 ≠ data) (hfuel : rest.length ≤ fuel) :
    ∃ h' list', gListRemoveLoop h data list fuel (front.getLast?.map Prod.fst) tmp =
        some (h', list') ∧
      GListTurns h h' (front ++ rest) list' ((front ++ rest).eraseP fun y => y.2 = data) := by
  induction rest generalizing front tmp fuel with
  | nil =>
    obtain rfl : tmp = none := hrest
    refine ⟨h, list, by simp [gListRemoveLoop], ?_⟩
    rw [List.eraseP_of_forall_not]
    · exact Transforms.refl hl
    · simpa using hfront
  | cons x rest ih =>
    obtain ⟨fuel, rfl⟩ : ∃ k, fuel = k + 1 := ⟨fuel - 1, by simp at hfuel; omega⟩
    have hnodup := hl.nodup
    simp only [places_append, places_cons, List.nodup_append, List.nodup_cons] at hnodup
    obtain ⟨hplaces, ⟨hxrest, -⟩, hdisjoint⟩ := hnodup
    obtain ⟨rfl, n, hx, htail⟩ := hrest
    by_cases hdata : x.2 = data
    · have herase : ((front ++ x :: rest).eraseP fun y => y.2 = data) = front ++ rest := by
        rw [List.eraseP_append_right, List.eraseP_cons_of_pos (by simpa using hdata)]
        simpa using hfront
      rw [herase]
      rcases List.eq_nil_or_concat front with rfl | ⟨front, y, rfl⟩
      · refine ⟨h.set x.1 .freed, n, ?_, gListTurns_unlink ?_ (read_set_freed hx) ?_⟩
        · simp [gListRemoveLoop, hx, hdata, free_of_read hx]
        · exact htail.set_other hxrest _
        · intro y hy
          apply read_set_of_ne
          intro hyx
          simp [hyx] at hy
      · rw [List.concat_eq_append] at hl hplaces hdisjoint ⊢
        simp only [places_append, places_cons, places_nil, List.nodup_append, List.mem_append,
          List.mem_cons] at hplaces hdisjoint
        have hyx : x.1 ≠ y.1 := Ne.symm (hdisjoint y.1 (by simp) x.1 (by simp))
        have hyrest : y.1 ∉ places rest := by
          intro hmem
          exact hdisjoint y.1 (by simp) y.1 (Or.inr hmem) rfl
        have hyfront : y.1 ∉ places front := by
          intro hmem
          exact hplaces.2.2 y.1 hmem y.1 (by simp) rfl
        obtain ⟨m, hupto, hm, -⟩ := segment_append.mp hl
        obtain ⟨-, -, -, m', hy, hm'⟩ := segment_append.mp hupto
        have hx' : read (h.set y.1 (.live ⟨y.2, n⟩)) x.1 = some ⟨x.2, n⟩ := by
          rw [read_set_of_ne _ hyx, hx]
        refine ⟨(h.set y.1 (.live ⟨y.2, n⟩)).set x.1 .freed, list, ?_,
          gListTurns_unlink ?_ (read_set_freed hx') ?_⟩
        · simp [gListRemoveLoop, hx, hdata, setNext_of_read hy, free_of_read hx']
        · apply Segment.set_other (hupto.join htail hyfront hyrest)
          simp only [places_append, places_cons, places_nil, List.mem_append, List.mem_singleton,
            not_or]
          refine ⟨⟨?_, hyx⟩, hxrest⟩
          intro hmem
          exact hdisjoint x.1 (Or.inl hmem) x.1 (Or.inl rfl) rfl
        · intro z hz
          simp only [places_append, places_cons, places_nil, List.mem_append, List.mem_cons,
            not_or] at hz
          rw [read_set_of_ne _ hz.2.1, read_set_of_ne _ hz.1.2.1]
    · have hnext : GListAt h list ((front ++ [x]) ++ rest) := by simpa using hl
      have hfront' : ∀ y ∈ front ++ [x], y.2 ≠ data := by
        intro y hy
        rcases List.mem_append.mp hy with hy | hy
        · exact hfront y hy
        · rwa [List.mem_singleton.mp hy]
      have hle : rest.length ≤ fuel := by simpa using hfuel
      obtain ⟨h', list', hrun, hturns⟩ := ih hnext htail hfront' hle
      refine ⟨h', list', ?_, by simpa using hturns⟩
      rw [List.getLast?_concat, Option.map_some] at hrun
      simp [gListRemoveLoop, hx, hdata, hrun]

/-- The first cell with this data is linked out and released. -/
theorem gListRemove_spec [DecidableEq δ] (hl : GListAt h list cells) (data : δ) :
    ∃ h' list', gListRemove h list data = some (h', list') ∧
      GListTurns h h' cells list' (cells.eraseP fun y => y.2 = data) := by
  have hfront : ∀ y ∈ ([] : List (Nat × δ)), y.2 ≠ data := by simp
  exact gListRemoveLoop_spec hl hl hfront hl.length_le

/-- Each cell is linked to the one before it. -/
theorem gListReverseLoop_spec {prev : Option Nat} {done rest : List (Nat × δ)} {fuel : Nat}
    (hprev : GListAt h prev done) (hrest : GListAt h list rest)
    (hapart : ∀ x ∈ places rest, x ∉ places done) (hfuel : rest.length ≤ fuel) :
    ∃ h' list', gListReverseLoop fuel h prev list = some (h', list') ∧
      GListAt h' list' (rest.reverse ++ done) ∧ ∀ y, y ∉ places rest → read h' y = read h y := by
  induction rest generalizing h prev done list fuel with
  | nil =>
    obtain rfl : list = none := hrest
    exact ⟨h, prev, by simp [gListReverseLoop], hprev, fun y _ => rfl⟩
  | cons x rest ih =>
    obtain ⟨fuel, rfl⟩ : ∃ k, fuel = k + 1 := ⟨fuel - 1, by simp at hfuel; omega⟩
    have hnodup := List.nodup_cons.mp hrest.nodup
    obtain ⟨rfl, n, hx, htail⟩ := hrest
    have hxdone := hapart x.1 List.mem_cons_self
    have hdone : GListAt (h.set x.1 (.live ⟨x.2, prev⟩)) (some x.1) (x :: done) :=
      ⟨rfl, prev, read_set_self hx _, hprev.set_other hxdone _⟩
    obtain ⟨h', list', hrun, hlist, hother⟩ := ih hdone (htail.set_other hnodup.1 _)
      (by
        intro y hy
        simp only [places_cons, List.mem_cons, not_or]
        refine ⟨?_, hapart y (List.mem_cons_of_mem _ hy)⟩
        intro hyx
        exact hnodup.1 (hyx ▸ hy))
      (by simpa using hfuel)
    refine ⟨h', list', ?_, by simpa using hlist, ?_⟩
    · simp [gListReverseLoop, hx, setNext_of_read hx, hrun]
    · intro y hy
      simp only [places_cons, List.mem_cons, not_or] at hy
      rw [hother y hy.2, read_set_of_ne _ hy.1]

theorem gListReverse_spec (hl : GListAt h list cells) :
    ∃ h' list', gListReverse h list = some (h', list') ∧
      GListTurns h h' cells list' cells.reverse := by
  have hempty : GListAt h none [] := rfl
  obtain ⟨h', list', hrun, hlist, hother⟩ := gListReverseLoop_spec hempty hl
    (fun _ _ => List.not_mem_nil) hl.length_le
  rw [List.append_nil] at hlist
  refine ⟨h', list', hrun, Transforms.of_perm hlist ?_ hother⟩
  intro x
  simp [places]

/-- How many of the calls from number `k` on malloc answers, up to the first that it refuses. -/
def mallocsGranted (malloc : Nat → Malloc δ) : Nat → Nat → Nat
  | _, 0 => 0
  | k, n + 1 =>
    match malloc k with
    | none => 0
    | some _ => mallocsGranted malloc (k + 1) n + 1

/-- A copy under way: the new cells end in one whose link is not written yet. -/
structure GListCopying (h₀ h : GListHeap δ) (ptr : Nat) (copied : List (Nat × δ)) : Prop where
  ends : ∃ m, Segment GListCell.mk h (some ptr) copied m
  nodup : (places copied).Nodup
  fresh : ∀ x ∈ places copied, read h₀ x = none
  other : ∀ x, x ∉ places copied → read h x = read h₀ x

/-- With the last link written, the new cells are a list, and nothing else has changed. -/
theorem GListCopying.close {h₀ : GListHeap δ} {ptr : Nat} {copied : List (Nat × δ)} {x : Nat × δ}
    (hc : GListCopying h₀ h ptr (copied ++ [x])) :
    ∃ h', setNext h x.1 none = some h' ∧
      GListTurns h₀ h' [] (some ptr) (copied ++ [x]) := by
  obtain ⟨m, hseg⟩ := hc.ends
  have hnodup := hc.nodup
  simp only [places_append, places_cons, places_nil, List.nodup_append] at hnodup
  have hx : x.1 ∉ places copied := by
    intro hmem
    exact hnodup.2.2 x.1 hmem x.1 List.mem_cons_self rfl
  obtain ⟨-, -, -, n, hread, -⟩ := segment_append.mp hseg
  refine ⟨_, setNext_of_read hread none, hseg.relink hx none, ?_, ?_, ?_⟩
  · intro y _ hy
    rw [read_set_of_ne, hc.other y hy]
    intro hyx
    simp [hyx] at hy
  · intro y hy _
    exact hc.fresh y hy
  · intro y hy
    cases hy

/-- One more cell is copied. -/
theorem GListCopying.next {h₀ : GListHeap δ} {ptr : Nat} {copied : List (Nat × δ)}
    {x z : Nat × δ} {n : Option Nat} (hc : GListCopying h₀ h ptr (copied ++ [x]))
    (hz : read h₀ z.1 = some ⟨z.2, n⟩) (junk : GListCell δ) :
    ∃ h₁ h₂, setNext (h ++ [.live junk]) x.1 (some h.length) = some h₁ ∧
      read h₁ z.1 = some ⟨z.2, n⟩ ∧ setData h₁ h.length z.2 = some h₂ ∧
      GListCopying h₀ h₂ ptr (copied ++ [x] ++ [(h.length, z.2)]) := by
  obtain ⟨m, hseg⟩ := hc.ends
  have hlength : h.length ∉ places (copied ++ [x]) := hseg.length_notMem
  have hnodup := hc.nodup
  have hzcopied : z.1 ∉ places (copied ++ [x]) := by
    intro hmem
    rw [hc.fresh z.1 hmem] at hz
    cases hz
  have hzh : read h z.1 = some ⟨z.2, n⟩ := by rw [hc.other z.1 hzcopied, hz]
  obtain ⟨-, -, -, k, hx, -⟩ := segment_append.mp hseg
  simp only [places_append, places_cons, places_nil, List.mem_append, List.mem_singleton,
    not_or] at hlength hzcopied
  have hxcopied : x.1 ∉ places copied := by
    intro hmem
    simp only [places_append, places_cons, places_nil, List.nodup_append] at hnodup
    exact hnodup.2.2 x.1 hmem x.1 List.mem_cons_self rfl
  have hx' (c : GListCell δ) : read (h ++ [.live c]) x.1 = some ⟨x.2, k⟩ := by
    rw [read_append_of_ne h c (Ne.symm hlength.2), hx]
  have hswap (c : GListCell δ) : setData (List.set (h ++ [.live c]) x.1
      (.live ⟨x.2, some h.length⟩)) h.length z.2 =
      some (List.set (h ++ [.live ⟨z.2, c.next⟩]) x.1 (.live ⟨x.2, some h.length⟩)) := by
    have hnew : read (List.set (h ++ [.live c]) x.1 (.live ⟨x.2, some h.length⟩)) h.length =
        some c := by
      rw [read_set_of_ne _ hlength.2, read_append_self]
    simp only [setData, hnew, Option.bind_eq_bind, Option.bind_some, write_of_read hnew]
    rw [List.set_comm _ _ (Ne.symm hlength.2), List.set_append_right _ _ (Nat.le_refl h.length),
      Nat.sub_self, List.set_cons_zero]
  refine ⟨_, _, setNext_of_read (hx' junk) _, ?_, hswap junk, ⟨junk.next, ?_⟩, ?_, ?_, ?_⟩
  · rw [read_set_of_ne _ hzcopied.2, read_append_of_ne h _ (Nat.ne_of_lt (lt_of_read hzh)), hzh]
  · have hnew : Segment GListCell.mk (h ++ [.live ⟨z.2, junk.next⟩]) (some h.length)
        [(h.length, z.2)] junk.next := ⟨rfl, junk.next, read_append_self h _, rfl⟩
    apply (hseg.append_heap _).join hnew hxcopied
    simpa using Ne.symm hlength.2
  · rw [places_append, List.nodup_append]
    refine ⟨hnodup, List.nodup_singleton _, ?_⟩
    intro a ha b hb
    rw [List.mem_singleton.mp hb]
    intro hab
    have hlast : a = h.length := hab
    exact hseg.length_notMem (hlast ▸ ha)
  · intro y hy
    rw [places_append, List.mem_append] at hy
    rcases hy with hy | hy
    · exact hc.fresh y hy
    · rw [List.mem_singleton.mp hy, ← hc.other _ hseg.length_notMem]
      exact read_length h
  · intro y hy
    have hout : y ∉ places (copied ++ [x]) := by
      intro hmem
      apply hy
      rw [places_append, List.mem_append]
      exact Or.inl hmem
    simp only [places_append, places_cons, places_nil, List.mem_append, List.mem_singleton,
      not_or] at hy
    rw [read_set_of_ne _ hy.1.2, read_append_of_ne h _ hy.2, hc.other y hout]

theorem gListCopyLoop_spec {h₀ : GListHeap δ} {malloc : Nat → Malloc δ} {ptr fuel k : Nat}
    {copied rest : List (Nat × δ)} {x : Nat × δ} (hc : GListCopying h₀ h ptr (copied ++ [x]))
    (hrest : GListAt h₀ list rest) (hfuel : rest.length ≤ fuel) :
    ∃ h' list' new, gListCopyLoop malloc ptr fuel k h x.1 list = some (h', list') ∧
      GListTurns h₀ h' [] (some ptr) (copied ++ [x] ++ new) ∧
      new.map Prod.snd = (rest.map Prod.snd).take (mallocsGranted malloc k rest.length) ∧
      list' = if mallocsGranted malloc k rest.length = rest.length then some ptr else none := by
  induction rest generalizing h k fuel list copied x with
  | nil =>
    obtain rfl : list = none := hrest
    obtain ⟨h', hset, hturns⟩ := hc.close
    refine ⟨h', some ptr, [], ?_, by simpa using hturns, by simp, by simp [mallocsGranted]⟩
    simp [gListCopyLoop, hset]
  | cons z rest ih =>
    obtain ⟨fuel, rfl⟩ : ∃ j, fuel = j + 1 := ⟨fuel - 1, by simp at hfuel; omega⟩
    have hle : rest.length ≤ fuel := by simpa using hfuel
    obtain ⟨rfl, n, hz, htail⟩ := hrest
    cases hm : malloc k with
    | none =>
      obtain ⟨h', hset, hturns⟩ := hc.close
      refine ⟨h', none, [], ?_, by simpa using hturns, ?_, ?_⟩
      · simp [gListCopyLoop, hm, hset]
      · simp [mallocsGranted, hm]
      · simp [mallocsGranted, hm]
    | some junk =>
      obtain ⟨h₁, h₂, hlink, hread, hdata, hcopied⟩ := hc.next hz junk
      obtain ⟨h', list', new, hrun, hturns, hnew, hlist⟩ := ih (k := k + 1) hcopied htail hle
      refine ⟨h', list', (h.length, z.2) :: new, ?_, by simpa using hturns, ?_, ?_⟩
      · simp [gListCopyLoop, hm, Heap.alloc, hlink, hread, hdata, hrun]
      · simp [mallocsGranted, hm, hnew]
      · simp [mallocsGranted, hm, hlist]

/-- The cells that malloc granted hold a copy; when one was refused, NULL is given back and they
are held by nobody. -/
theorem gListCopy_spec (hl : GListAt h list cells) (malloc : Nat → Malloc δ) :
    ∃ h' list' t new, gListCopy h malloc list = some (h', list') ∧ GListTurns h h' [] t new ∧
      new.map Prod.snd = (cells.map Prod.snd).take (mallocsGranted malloc 0 cells.length) ∧
      list' = if mallocsGranted malloc 0 cells.length = cells.length then t else none := by
  match cells, hl with
  | [], hl =>
    obtain rfl : list = none := hl
    have hempty : GListAt h none [] := rfl
    exact ⟨h, none, none, [], by simp [gListCopy], Transforms.refl hempty, by simp, by simp⟩
  | x :: cells, hl =>
    have hle := hl.length_le
    obtain ⟨rfl, n, hx, htail⟩ := id hl
    cases hm : malloc 0 with
    | none =>
      have hempty : GListAt h none [] := rfl
      refine ⟨h, none, none, [], by simp [gListCopy, hm], Transforms.refl hempty, ?_, by simp⟩
      simp [mallocsGranted, hm]
    | some junk =>
      have hx' : read (h ++ [.live junk]) x.1 = some ⟨x.2, n⟩ := by
        rw [read_append_of_ne h _ (Nat.ne_of_lt (lt_of_read hx)), hx]
      have hstart : GListCopying h (h ++ [.live ⟨x.2, junk.next⟩]) h.length
          ([] ++ [(h.length, x.2)]) := by
        have hcell := @read_append_self (GListCell δ) h ⟨x.2, junk.next⟩
        refine ⟨⟨junk.next, rfl, junk.next, hcell, rfl⟩, List.nodup_singleton _, ?_, ?_⟩
        · intro y hy
          rw [List.mem_singleton.mp hy]
          exact read_length h
        · intro y hy
          apply read_append_of_ne
          intro heq
          simp [heq] at hy
      obtain ⟨h', list', new, hrun, hturns, hnew, hlist⟩ :=
        @gListCopyLoop_spec _ _ _ _ malloc _ _ 1 _ _ _ hstart htail (Nat.le_of_succ_le hle)
      refine ⟨h', list', some h.length, (h.length, x.2) :: new, ?_, hturns, ?_, ?_⟩
      · simp [gListCopy, hm, Heap.alloc, hx', setData_append, hrun]
      · simp [mallocsGranted, hm, hnew]
      · simp [mallocsGranted, hm, hlist]

/-- The first cell that passes the test. -/
theorem gListFindLoop_spec (test : δ → Bool) {fuel : Nat} (hl : GListAt h list cells)
    (hfuel : cells.length ≤ fuel) :
    gListFindLoop test h fuel list = some ((cells.find? fun y => test y.2).map Prod.fst) := by
  induction cells generalizing list fuel with
  | nil =>
    obtain rfl : list = none := hl
    simp [gListFindLoop]
  | cons x cells ih =>
    obtain ⟨fuel, rfl⟩ : ∃ j, fuel = j + 1 := ⟨fuel - 1, by simp at hfuel; omega⟩
    obtain ⟨rfl, n, hx, htail⟩ := hl
    cases htest : test x.2 with
    | true => simp [gListFindLoop, hx, htest]
    | false => simp [gListFindLoop, hx, htest, ih htail (by simpa using hfuel)]

theorem gListIndexLoop_spec [DecidableEq δ] (data : δ) {fuel : Nat} {i : Int}
    (hl : GListAt h list cells) (hfuel : cells.length ≤ fuel) :
    gListIndexLoop h data fuel i list =
      some (if data ∈ cells.map Prod.snd then i + (cells.map Prod.snd).idxOf data else -1) := by
  induction cells generalizing list fuel i with
  | nil =>
    obtain rfl : list = none := hl
    simp [gListIndexLoop]
  | cons x cells ih =>
    obtain ⟨fuel, rfl⟩ : ∃ j, fuel = j + 1 := ⟨fuel - 1, by simp at hfuel; omega⟩
    obtain ⟨rfl, n, hx, htail⟩ := hl
    by_cases hdata : x.2 = data
    · simp [gListIndexLoop, hx, hdata]
    · have hrest : gListIndexLoop h data fuel (i + 1) n = _ := ih htail (by simpa using hfuel)
      simp only [gListIndexLoop, hx, Option.bind_eq_bind, Option.bind_some, hdata, if_false, hrest]
      rw [List.map_cons, List.idxOf_cons_ne _ hdata]
      simp only [List.mem_cons, Ne.symm hdata, false_or]
      congr 2
      omega

theorem gListLengthLoop_spec {fuel length : Nat} (hl : GListAt h list cells)
    (hfuel : cells.length ≤ fuel) (hlength : length < 4294967296) :
    gListLengthLoop h fuel length list = some ((length + cells.length) % 4294967296) := by
  induction cells generalizing list fuel length with
  | nil =>
    obtain rfl : list = none := hl
    simp only [gListLengthLoop, List.length_nil, Nat.add_zero, Nat.mod_eq_of_lt hlength]
  | cons x cells ih =>
    obtain ⟨fuel, rfl⟩ : ∃ j, fuel = j + 1 := ⟨fuel - 1, by simp at hfuel; omega⟩
    obtain ⟨rfl, n, hx, htail⟩ := hl
    have hrest := ih htail (Nat.le_of_succ_le_succ hfuel)
      (Nat.mod_lt (length + 1) (Nat.two_pow_pos 32))
    simp only [gListLengthLoop, hx, Option.bind_eq_bind, Option.bind_some, hrest,
      List.length_cons, Nat.mod_add_mod]
    congr 2
    omega

theorem gListForeachLoop_spec {σ : Type} (func : δ → σ → σ) {fuel : Nat} {user : σ}
    (hl : GListAt h list cells) (hfuel : cells.length ≤ fuel) :
    gListForeachLoop h func fuel user list =
      some ((cells.map Prod.snd).foldl (fun user data => func data user) user) := by
  induction cells generalizing list fuel user with
  | nil =>
    obtain rfl : list = none := hl
    simp [gListForeachLoop]
  | cons x cells ih =>
    obtain ⟨fuel, rfl⟩ : ∃ j, fuel = j + 1 := ⟨fuel - 1, by simp at hfuel; omega⟩
    obtain ⟨rfl, n, hx, htail⟩ := hl
    simp [gListForeachLoop, hx, ih htail (Nat.le_of_succ_le_succ hfuel)]

end

end IPStat
