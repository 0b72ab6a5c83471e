import IPStat.Glist.Sort
import Mathlib.Logic.Function.Basic

/-! A client of glist.c with several list variables. The heap keeps them apart through any run of
the operations, and what the client sees of it are plain lists. -/

namespace IPStat

open Heap Function

section
variable {ν δ : Type} [DecidableEq ν]

/-- The calls, on the variables of the client. A variable is set to what its call returns; the
second list of g_list_concat is given away with the call. -/
inductive ListOp (ν δ : Type) where
  | append (v : ν) (malloc : Malloc δ) (data : δ)
  | prepend (v : ν) (malloc : Malloc δ) (data : δ)
  | insert (v : ν) (malloc : Malloc δ) (data : δ) (position : Int)
  | concat (v w : ν) (hne : v ≠ w)
  | remove (v : ν) (data : δ)
  | reverse (v : ν)
  | sort (v : ν) (cmp : δ → δ → Int) (leftFirst : Bool)
  | copy (v w : ν) (malloc : Nat → Malloc δ)
  | find (v : ν) (data : δ)
  | findCustom (v : ν) (data : δ) (func : δ → δ → Int)
  | index (v : ν) (data : δ)
  | length (v : ν)
  | foreach (v : ν)

/-- What a call shows: the data of the cell found, a number, the data passed to `func`. -/
inductive ListAnswer (δ : Type) where
  | done
  | cell (data : Option δ)
  | number (n : Int)
  | passed (data : List δ)
  deriving DecidableEq, Repr

structure ListStore (ν δ : Type) where
  heap : GListHeap δ
  var : ν → Option Nat

/-- The data of a cell the client was given. -/
def cellData (h : GListHeap δ) : Option Nat → Option (Option δ)
  | none => some none
  | some p => (read h p).map fun cell => some cell.data

def ListStore.set (st : ListStore ν δ) (v : ν) (result : GListHeap δ × Option Nat) :
    ListAnswer δ × ListStore ν δ :=
  (.done, ⟨result.1, update st.var v result.2⟩)

def ListStore.step [DecidableEq δ] (st : ListStore ν δ) :
    ListOp ν δ → Option (ListAnswer δ × ListStore ν δ)
  | .append v malloc data => (gListAppend st.heap malloc (st.var v) data).map (st.set v)
  | .prepend v malloc data => (gListPrepend st.heap malloc (st.var v) data).map (st.set v)
  | .insert v malloc data position =>
    (gListInsert st.heap malloc (st.var v) data position).map (st.set v)
  | .concat v w _ =>
    (gListConcat st.heap (st.var v) (st.var w)).map fun result =>
      (.done, ⟨result.1, update (update st.var v result.2) w none⟩)
  | .remove v data => (gListRemove st.heap (st.var v) data).map (st.set v)
  | .reverse v => (gListReverse st.heap (st.var v)).map (st.set v)
  | .sort v cmp leftFirst => (gListSort cmp leftFirst st.heap (st.var v)).map (st.set v)
  | .copy v w malloc => (gListCopy st.heap malloc (st.var v)).map (st.set w)
  | .find v data => do
    let found ← gListFind st.heap (st.var v) data
    let data ← cellData st.heap found
    some (.cell data, st)
  | .findCustom v data func => do
    let found ← gListFindCustom st.heap (st.var v) data (some func)
    let data ← cellData st.heap found
    some (.cell data, st)
  | .index v data => (gListIndex st.heap (st.var v) data).map fun n => (.number n, st)
  | .length v => (gListLength st.heap (st.var v)).map fun n : Nat => (.number n, st)
  | .foreach v =>
    (gListForeach st.heap (st.var v) (fun data passed => passed ++ [data]) []).map fun passed =>
      (.passed passed, st)

def ListStore.run [DecidableEq δ] : ListStore ν δ → List (ListOp ν δ) →
    Option (List (ListAnswer δ) × ListStore ν δ)
  | st, [] => some ([], st)
  | st, op :: ops => do
    let (answer, st) ← st.step op
    let (answers, st) ← st.run ops
    some (answer :: answers, st)

/-- What the client means by its variables, and how many cells no list has any more. -/
structure PlainLists (ν δ : Type) where
  lists : ν → List δ
  lost : Nat

def PlainLists.put (pl : PlainLists ν δ) (v : ν) (l : List δ) : ListAnswer δ × PlainLists ν δ :=
  (.done, { pl with lists := update pl.lists v l })

/-- A call that got no memory returns NULL, and the list is gone. -/
def PlainLists.drop (pl : PlainLists ν δ) (v : ν) (cells : Nat) :
    ListAnswer δ × PlainLists ν δ :=
  (.done, ⟨update pl.lists v [], pl.lost + cells⟩)

def PlainLists.step [DecidableEq δ] (pl : PlainLists ν δ) :
    ListOp ν δ → ListAnswer δ × PlainLists ν δ
  | .append v malloc data =>
    if malloc.isSome then pl.put v (pl.lists v ++ [data]) else pl.drop v (pl.lists v).length
  | .prepend v malloc data =>
    if malloc.isSome then pl.put v (data :: pl.lists v) else pl.drop v (pl.lists v).length
  | .insert v malloc data position =>
    if malloc.isSome then pl.put v (insertAt (pl.lists v) position data)
    else pl.drop v (pl.lists v).length
  | .concat v w _ =>
    (.done, { pl with lists := update (update pl.lists v (pl.lists v ++ pl.lists w)) w [] })
  | .remove v data => pl.put v ((pl.lists v).erase data)
  | .reverse v => pl.put v (pl.lists v).reverse
  | .sort v cmp _ => pl.put v (Halving.sort (fun a b => cmp a b ≤ 0) (pl.lists v))
  | .copy v w malloc =>
    let granted := mallocsGranted malloc 0 (pl.lists v).length
    if granted = (pl.lists v).length then
      (.done, ⟨update pl.lists w (pl.lists v), pl.lost + (pl.lists w).length⟩)
    else pl.drop w ((pl.lists w).length + granted)
  | .find v data => (.cell ((pl.lists v).find? fun d => d = data), pl)
  | .findCustom v data func => (.cell ((pl.lists v).find? fun d => func d data = 0), pl)
  | .index v data =>
    (.number (if data ∈ pl.lists v then (pl.lists v).idxOf data else -1), pl)
  | .length v => (.number ((pl.lists v).length % 4294967296 : Nat), pl)
  | .foreach v => (.passed (pl.lists v), pl)

def PlainLists.run [DecidableEq δ] : PlainLists ν δ → List (ListOp ν δ) →
    List (ListAnswer δ) × PlainLists ν δ
  | pl, [] => ([], pl)
  | pl, op :: ops =>
    let (answer, pl) := pl.step op
    let (answers, pl) := pl.run ops
    (answer :: answers, pl)

variable {st : ListStore ν δ} {pl : PlainLists ν δ}

/-- Each variable has its own cells; the rest of what is held is lost. -/
structure Owns (h : GListHeap δ) (var : ν → Option Nat) (lists : ν → List (Nat × δ))
    (lost : List Nat) : Prop where
  listAt : ∀ v, GListAt h (var v) (lists v)
  apart : ∀ v w, v ≠ w → ∀ x ∈ places (lists v), x ∉ places (lists w)
  lostNodup : lost.Nodup
  lostHeld : ∀ x ∈ lost, (read h x).isSome
  lostApart : ∀ v, ∀ x ∈ places (lists v), x ∉ lost
  held : ∀ x, (read h x).isSome → x ∈ lost ∨ ∃ v, x ∈ places (lists v)

/-- The lists of the client, and the count of all cells that are held beside them. -/
def RepresentsLists (st : ListStore ν δ) (pl : PlainLists ν δ) : Prop :=
  ∃ lists lost, Owns st.heap st.var lists lost ∧ (∀ v, (lists v).map Prod.snd = pl.lists v) ∧
    lost.length = pl.lost

section
variable {h h' : GListHeap δ} {var : ν → Option Nat} {lists : ν → List (Nat × δ)}
  {lost : List Nat} {v w : ν} {t : Option Nat} {cells : List (Nat × δ)}

/-- What an operation does to the list of one variable leaves the others alone. -/
theorem Owns.turns (ho : Owns h var lists lost) (ht : GListTurns h h' (lists v) t cells) :
    Owns h' (update var v t) (update lists v cells) lost := by
  have hother (w : ν) (hw : w ≠ v) (x : Nat) (hx : x ∈ places (lists w)) :
      read h' x = read h x ∧ x ∉ places cells :=
    ht.read_of_notMem (ho.apart w v hw x hx) ((ho.listAt w).isSome x hx)
  have hlost (x : Nat) (hx : x ∈ lost) : read h' x = read h x ∧ x ∉ places cells :=
    ht.read_of_notMem (fun hmem => ho.lostApart v x hmem hx) (ho.lostHeld x hx)
  refine ⟨?_, ?_, ho.lostNodup, ?_, ?_, ?_⟩
  · intro w
    by_cases hw : w = v
    · subst hw
      simpa using ht.list
    · rw [update_of_ne hw, update_of_ne hw]
      exact (ho.listAt w).frame fun x hx => (hother w hw x hx).1
  · intro u w huw x hx
    by_cases hu : u = v
    · subst hu
      rw [update_self] at hx
      rw [update_of_ne (Ne.symm huw)]
      intro hmem
      exact (hother w (Ne.symm huw) x hmem).2 hx
    · rw [update_of_ne hu] at hx
      by_cases hw : w = v
      · subst hw
        rw [update_self]
        exact (hother u hu x hx).2
      · rw [update_of_ne hw]
        exact ho.apart u w huw x hx
  · intro x hx
    rw [(hlost x hx).1]
    exact ho.lostHeld x hx
  · intro w x hx
    by_cases hw : w = v
    · subst hw
      rw [update_self] at hx
      intro hmem
      exact (hlost x hmem).2 hx
    · rw [update_of_ne hw] at hx
      exact ho.lostApart w x hx
  · intro x hx
    by_cases hin : x ∈ places cells
    · exact Or.inr ⟨v, by rwa [update_self]⟩
    · have hout : x ∉ places (lists v) := by
        intro hmem
        rw [ht.dropped x hmem hin] at hx
        cases hx
      rw [ht.other x hout hin] at hx
      rcases ho.held x hx with hl | ⟨w, hw⟩
      · exact Or.inl hl
      · have hne : w ≠ v := by
          intro heq
          exact hout (heq ▸ hw)
        exact Or.inr ⟨w, by rwa [update_of_ne hne]⟩

/-- A variable that is overwritten loses its cells. -/
theorem Owns.drop (ho : Owns h var lists lost) (v : ν) :
    Owns h (update var v none) (update lists v []) (lost ++ places (lists v)) := by
  refine ⟨?_, ?_, ?_, ?_, ?_, ?_⟩
  · intro w
    by_cases hw : w = v
    · subst hw
      simp
    · rw [update_of_ne hw, update_of_ne hw]
      exact ho.listAt w
  · intro u w huw x hx
    by_cases hu : u = v
    · subst hu
      simp at hx
    · rw [update_of_ne hu] at hx
      by_cases hw : w = v
      · subst hw
        simp
      · rw [update_of_ne hw]
        exact ho.apart u w huw x hx
  · apply List.nodup_append.mpr
    refine ⟨ho.lostNodup, (ho.listAt v).nodup, ?_⟩
    intro x hx y hy hxy
    exact ho.lostApart v y hy (hxy ▸ hx)
  · intro x hx
    exact (List.mem_append.mp hx).elim (ho.lostHeld x) ((ho.listAt v).isSome x)
  · intro w x hx hmem
    by_cases hw : w = v
    · subst hw
      simp at hx
    · rw [update_of_ne hw] at hx
      rcases List.mem_append.mp hmem with hl | hv
      · exact ho.lostApart w x hx hl
      · exact ho.apart w v hw x hx hv
  · intro x hx
    rcases ho.held x hx with hl | ⟨w, hw⟩
    · exact Or.inl (List.mem_append_left _ hl)
    · by_cases hwv : w = v
      · subst hwv
        exact Or.inl (List.mem_append_right _ hw)
      · exact Or.inr ⟨w, by rwa [update_of_ne hwv]⟩

/-- The cells of one variable are given to another that has none. -/
theorem Owns.move (ho : Owns h var lists lost) (hvw : v ≠ w)
    (ht : GListTurns h h' (lists v ++ lists w) t (lists v ++ lists w)) :
    Owns h' (update (update var v t) w none)
      (update (update lists v (lists v ++ lists w)) w []) lost := by
  have hmem (x : Nat) (hx : x ∈ places (lists v ++ lists w)) :
      x ∈ places (lists v) ∨ x ∈ places (lists w) := by
    rwa [places_append, List.mem_append] at hx
  have hother (u : ν) (hu : u ≠ v) (hu' : u ≠ w) (x : Nat) (hx : x ∈ places (lists u)) :
      x ∉ places (lists v ++ lists w) := by
    intro hin
    exact (hmem x hin).elim (ho.apart u v hu x hx) (ho.apart u w hu' x hx)
  have hlost (x : Nat) (hx : x ∈ lost) : x ∉ places (lists v ++ lists w) := by
    intro hin
    exact (hmem x hin).elim (fun hv => ho.lostApart v x hv hx) (fun hw => ho.lostApart w x hw hx)
  have hsame (x : Nat) (hx : x ∉ places (lists v ++ lists w)) : read h' x = read h x :=
    ht.other x hx hx
  refine ⟨?_, ?_, ho.lostNodup, ?_, ?_, ?_⟩
  · intro u
    by_cases hu' : u = w
    · subst hu'
      simp
    · rw [update_of_ne hu', update_of_ne hu']
      by_cases hu : u = v
      · subst hu
        simpa using ht.list
      · rw [update_of_ne hu, update_of_ne hu]
        exact (ho.listAt u).frame fun x hx => hsame x (hother u hu hu' x hx)
  · intro u u' huu x hx
    by_cases hu : u = w
    · subst hu
      simp at hx
    by_cases hu' : u' = w
    · subst hu'
      simp
    rw [update_of_ne hu] at hx
    rw [update_of_ne hu']
    by_cases huv : u = v
    · subst huv
      rw [update_self] at hx
      rw [update_of_ne (Ne.symm huu)]
      intro hin
      exact hother u' (Ne.symm huu) hu' x hin hx
    · rw [update_of_ne huv] at hx
      by_cases huv' : u' = v
      · subst huv'
        rw [update_self]
        exact hother u huv hu x hx
      · rw [update_of_ne huv']
        exact ho.apart u u' huu x hx
  · intro x hx
    rw [hsame x (hlost x hx)]
    exact ho.lostHeld x hx
  · intro u x hx hl
    by_cases hu : u = w
    · subst hu
      simp at hx
    rw [update_of_ne hu] at hx
    by_cases huv : u = v
    · subst huv
      rw [update_self] at hx
      exact hlost x hl hx
    · rw [update_of_ne huv] at hx
      exact ho.lostApart u x hx hl
  · intro x hx
    by_cases hin : x ∈ places (lists v ++ lists w)
    · exact Or.inr ⟨v, by rwa [update_of_ne hvw, update_self]⟩
    · rw [hsame x hin] at hx
      rw [places_append, List.mem_append, not_or] at hin
      rcases ho.held x hx with hl | ⟨u, hu⟩
      · exact Or.inl hl
      · have huv : u ≠ v := by
          intro heq
          exact hin.1 (heq ▸ hu)
        have huw : u ≠ w := by
          intro heq
          exact hin.2 (heq ▸ hu)
        exact Or.inr ⟨u, by rwa [update_of_ne huw, update_of_ne huv]⟩

/-- The variable is set to the list that an operation gives back. -/
theorem RepresentsLists.put (ho : Owns st.heap st.var lists lost)
    (hdata : ∀ v, (lists v).map Prod.snd = pl.lists v) (hlost : lost.length = pl.lost)
    (ht : GListTurns st.heap h' (lists v) t cells) :
    RepresentsLists ⟨h', update st.var v t⟩
      ⟨update pl.lists v (cells.map Prod.snd), pl.lost⟩ := by
  refine ⟨_, lost, ho.turns ht, ?_, hlost⟩
  intro w
  by_cases hw : w = v
  · subst hw
    simp
  · simp [hw, hdata w]

theorem RepresentsLists.drop (ho : Owns st.heap st.var lists lost)
    (hdata : ∀ v, (lists v).map Prod.snd = pl.lists v) (hlost : lost.length = pl.lost) (v : ν) :
    RepresentsLists ⟨st.heap, update st.var v none⟩
      ⟨update pl.lists v [], pl.lost + (pl.lists v).length⟩ := by
  refine ⟨_, _, ho.drop v, ?_, ?_⟩
  · intro w
    by_cases hw : w = v
    · subst hw
      simp
    · simp [hw, hdata w]
  · rw [List.length_append, hlost, ← hdata v, places, List.length_map, List.length_map]

theorem map_insertAt (f : Nat × δ → δ) (cells : List (Nat × δ)) (position : Int) (x : Nat × δ) :
    (insertAt cells position x).map f = insertAt (cells.map f) position (f x) := by
  rw [insertAt, insertAt]
  split <;> simp

theorem cellData_find (test : δ → Bool) {p : Option Nat} (hl : GListAt h p cells) :
    cellData h ((cells.find? fun y => test y.2).map Prod.fst) =
      some ((cells.map Prod.snd).find? test) := by
  induction cells generalizing p with
  | nil => simp [cellData]
  | cons x cells ih =>
    obtain ⟨rfl, n, hx, htail⟩ := hl
    cases htest : test x.2 with
    | true => simp [cellData, htest, hx]
    | false => simpa [htest] using ih htail

end

theorem mallocsGranted_le (malloc : Nat → Malloc δ) (k n : Nat) :
    mallocsGranted malloc k n ≤ n := by
  induction n generalizing k with
  | zero => simp [mallocsGranted]
  | succ n ih =>
    rw [mallocsGranted]
    split
    · exact Nat.zero_le _
    · have hle := ih (k + 1)
      omega

/-- One call: no fault, the answer the plain lists give, and the lists after it. -/
def StepRefines [DecidableEq δ] (st : ListStore ν δ) (pl : PlainLists ν δ) (op : ListOp ν δ) :
    Prop :=
  ∃ st', st.step op = some ((pl.step op).1, st') ∧ RepresentsLists st' (pl.step op).2

section
variable [DecidableEq δ] {op : ListOp ν δ} {h' : GListHeap δ} {lists : ν → List (Nat × δ)}
  {lost : List Nat} {v : ν} {t : Option Nat} {cells : List (Nat × δ)}

theorem StepRefines.of_put (ho : Owns st.heap st.var lists lost)
    (hdata : ∀ v, (lists v).map Prod.snd = pl.lists v) (hlost : lost.length = pl.lost)
    (ht : GListTurns st.heap h' (lists v) t cells)
    (hstep : st.step op = some (.done, ⟨h', update st.var v t⟩))
    (hplain : pl.step op = pl.put v (cells.map Prod.snd)) : StepRefines st pl op := by
  refine ⟨_, by rw [hstep, hplain]; rfl, ?_⟩
  rw [hplain]
  exact RepresentsLists.put ho hdata hlost ht

theorem StepRefines.of_drop (ho : Owns st.heap st.var lists lost)
    (hdata : ∀ v, (lists v).map Prod.snd = pl.lists v) (hlost : lost.length = pl.lost)
    (hstep : st.step op = some (.done, ⟨st.heap, update st.var v none⟩))
    (hplain : pl.step op = pl.drop v (pl.lists v).length) : StepRefines st pl op := by
  refine ⟨_, by rw [hstep, hplain]; rfl, ?_⟩
  rw [hplain]
  exact RepresentsLists.drop ho hdata hlost v

theorem StepRefines.of_answer {a : ListAnswer δ} (hr : RepresentsLists st pl)
    (hstep : st.step op = some (a, st)) (hplain : pl.step op = (a, pl)) : StepRefines st pl op := by
  refine ⟨st, by rw [hstep, hplain], ?_⟩
  rw [hplain]
  exact hr

end

theorem step_refines [DecidableEq δ] (hr : RepresentsLists st pl) (op : ListOp ν δ) :
    StepRefines st pl op := by
  obtain ⟨lists, lost, ho, hdata, hlost⟩ := id hr
  cases op with
  | append v malloc data =>
    cases malloc with
    | none =>
      apply StepRefines.of_drop ho hdata hlost (v := v)
      · simp [ListStore.step, gListAppend, ListStore.set]
      · simp [PlainLists.step]
    | some junk =>
      obtain ⟨h', t, hrun, hturns⟩ := gListAppend_spec (ho.listAt v) junk data
      apply StepRefines.of_put ho hdata hlost hturns
      · simp [ListStore.step, hrun, ListStore.set]
      · simp [PlainLists.step, hdata v]
  | prepend v malloc data =>
    cases malloc with
    | none =>
      apply StepRefines.of_drop ho hdata hlost (v := v)
      · simp [ListStore.step, gListPrepend, ListStore.set]
      · simp [PlainLists.step]
    | some junk =>
      obtain ⟨h', t, hrun, hturns⟩ := gListPrepend_spec (ho.listAt v) junk data
      apply StepRefines.of_put ho hdata hlost hturns
      · simp [ListStore.step, hrun, ListStore.set]
      · simp [PlainLists.step, hdata v]
  | insert v malloc data position =>
    cases malloc with
    | none =>
      apply StepRefines.of_drop ho hdata hlost (v := v)
      · simp [ListStore.step, gListInsert, gListAppend, gListPrepend, ListStore.set]
      · simp [PlainLists.step]
    | some junk =>
      obtain ⟨h', t, hrun, hturns⟩ := gListInsert_spec (ho.listAt v) junk data position
      apply StepRefines.of_put ho hdata hlost hturns
      · simp [ListStore.step, hrun, ListStore.set]
      · simp [PlainLists.step, map_insertAt, hdata v]
  | concat v w hne =>
    obtain ⟨h', t, hrun, hturns⟩ := gListConcat_spec (ho.listAt v) (ho.listAt w) (ho.apart v w hne)
    refine ⟨⟨h', update (update st.var v t) w none⟩, ?_, _, lost, ho.move hne hturns, ?_, hlost⟩
    · simp [ListStore.step, hrun, PlainLists.step]
    · intro u
      by_cases hu : u = w
      · subst hu
        simp [PlainLists.step]
      · by_cases huv : u = v
        · subst huv
          simp [PlainLists.step, hu, hdata]
        · simp [PlainLists.step, hu, huv, hdata]
  | remove v data =>
    obtain ⟨h', t, hrun, hturns⟩ := gListRemove_spec (ho.listAt v) data
    apply StepRefines.of_put ho hdata hlost hturns
    · simp [ListStore.step, hrun, ListStore.set]
    · rw [PlainLists.step, ← hdata v, List.erase_eq_eraseP', List.eraseP_map]
      rfl
  | reverse v =>
    obtain ⟨h', t, hrun, hturns⟩ := gListReverse_spec (ho.listAt v)
    apply StepRefines.of_put ho hdata hlost hturns
    · simp [ListStore.step, hrun, ListStore.set]
    · simp [PlainLists.step, hdata v]
  | sort v cmp leftFirst =>
    obtain ⟨h', t, hrun, hturns⟩ := @gListSort_turns _ cmp _ _ _ leftFirst (ho.listAt v)
    have hkeys := Halving.map_sort (r := fun a b => decide (cmp a b ≤ 0)) Prod.snd (lists v)
    apply StepRefines.of_put ho hdata hlost hturns
    · simp [ListStore.step, hrun, ListStore.set]
    · rw [PlainLists.step, ← hdata v, ← hkeys]
      rfl
  | copy v w malloc =>
    obtain ⟨h', list', t, new, hrun, hturns, hnew, hlist⟩ := gListCopy_spec (ho.listAt v) malloc
    have hcount : (lists v).length = (pl.lists v).length := by rw [← hdata v, List.length_map]
    have hcountw : (places (lists w)).length = (pl.lists w).length := by
      rw [← hdata w, places, List.length_map, List.length_map]
    rw [hcount] at hnew hlist
    rw [hdata v] at hnew
    -- the cells that `w` had are lost, and the copy is made on a variable that has none
    have hempty : (update lists w []) w = [] := update_self w [] lists
    have hcopied := (ho.drop w).turns (v := w) (by rw [hempty]; exact hturns)
    rw [update_idem, update_idem] at hcopied
    have hstep : st.step (.copy v w malloc) = some (.done, ⟨h', update st.var w list'⟩) := by
      simp [ListStore.step, hrun, ListStore.set]
    by_cases hall : mallocsGranted malloc 0 (pl.lists v).length = (pl.lists v).length
    · rw [if_pos hall] at hlist
      rw [hall, List.take_length] at hnew
      refine ⟨_, by rw [hstep]; simp [PlainLists.step, hall]; rfl, _, _, hlist ▸ hcopied, ?_, ?_⟩
      · intro u
        by_cases hu : u = w
        · subst hu
          simp [PlainLists.step, hall, hnew]
        · simp [PlainLists.step, hall, hu, hdata u]
      · simp [PlainLists.step, hall, hlost, hcountw]
    · rw [if_neg hall] at hlist
      have hlength : (places new).length = mallocsGranted malloc 0 (pl.lists v).length := by
        rw [places, List.length_map, ← @List.length_map _ _ new Prod.snd, hnew, List.length_take]
        have hle := mallocsGranted_le malloc 0 (pl.lists v).length
        omega
      have hdropped := hcopied.drop w
      rw [update_idem, update_idem, update_self] at hdropped
      refine ⟨_, by rw [hstep, hlist]; simp [PlainLists.step, hall, PlainLists.drop]; rfl, _, _,
        hdropped, ?_, ?_⟩
      · intro u
        by_cases hu : u = w
        · subst hu
          simp [PlainLists.step, hall, PlainLists.drop]
        · simp [PlainLists.step, hall, PlainLists.drop, hu, hdata u]
      · simp [PlainLists.step, hall, PlainLists.drop, hlost, hcountw, hlength]
  | find v data =>
    have hfind := gListFindLoop_spec (fun d => d = data) (ho.listAt v) (ho.listAt v).length_le
    have hcell := cellData_find (fun d => d = data) (ho.listAt v)
    apply StepRefines.of_answer hr (a := .cell ((pl.lists v).find? fun d => d = data))
    · rw [ListStore.step, gListFind, hfind]
      simp [hcell, hdata v]
    · rfl
  | findCustom v data func =>
    have hat := ho.listAt v
    have hfind := gListFindLoop_spec (fun d => func d data = 0) hat hat.length_le
    have hcell := cellData_find (fun d => func d data = 0) (ho.listAt v)
    apply StepRefines.of_answer hr (a := .cell ((pl.lists v).find? fun d => func d data = 0))
    · rw [ListStore.step, gListFindCustom, hfind]
      simp [hcell, hdata v]
    · rfl
  | index v data =>
    have hindex := gListIndexLoop_spec data (i := 0) (ho.listAt v) (ho.listAt v).length_le
    rw [hdata v, Int.zero_add] at hindex
    apply StepRefines.of_answer hr
    · rw [ListStore.step, gListIndex, hindex, Option.map_some]
    · rfl
  | length v =>
    have hlength := gListLengthLoop_spec (ho.listAt v) (ho.listAt v).length_le
      (Nat.two_pow_pos 32)
    have hcount : (lists v).length = (pl.lists v).length := by rw [← hdata v, List.length_map]
    rw [Nat.zero_add, hcount] at hlength
    apply StepRefines.of_answer hr
    · rw [ListStore.step, gListLength, hlength, Option.map_some]
    · rfl
  | foreach v =>
    have hpass : gListForeachLoop st.heap (fun data passed => passed ++ [data]) st.heap.length []
        (st.var v) = _ := gListForeachLoop_spec _ (ho.listAt v) (ho.listAt v).length_le
    have hfold : (pl.lists v).foldl (fun passed data => passed ++ [data]) [] = pl.lists v := by
      rw [List.foldl_append_eq_append, List.nil_append, ← List.flatMap_def, List.flatMap_singleton']
    rw [hdata v, hfold] at hpass
    apply StepRefines.of_answer hr
    · rw [ListStore.step, gListForeach, hpass, Option.map_some]
    · rfl

theorem run_refines [DecidableEq δ] (hr : RepresentsLists st pl) (ops : List (ListOp ν δ)) :
    ∃ st', st.run ops = some ((pl.run ops).1, st') ∧ RepresentsLists st' (pl.run ops).2 := by
  induction ops generalizing st pl with
  | nil => exact ⟨st, rfl, hr⟩
  | cons op ops ih =>
    obtain ⟨st₁, hstep, hr₁⟩ := step_refines hr op
    obtain ⟨st', hrun, hr'⟩ := ih hr₁
    refine ⟨st', ?_, hr'⟩
    simp [ListStore.run, hstep, hrun, PlainLists.run]

omit [DecidableEq ν] in
/-- Nothing is held at the start. -/
theorem representsLists_empty :
    RepresentsLists (⟨[], fun _ => none⟩ : ListStore ν δ) ⟨fun _ => [], 0⟩ := by
  refine ⟨fun _ => [], [], ⟨fun _ => rfl, ?_, List.nodup_nil, ?_, ?_, ?_⟩, fun _ => rfl, rfl⟩
  · simp
  · simp
  · simp
  · intro x hx
    cases hx

/-- Whatever calls are made, and whatever malloc answers: no fault and no loop without end, the
answers of plain lists, every variable with cells of its own, and no other cell held than those
that a call without memory or an overwritten variable has lost. -/
theorem glist_run_refines [DecidableEq δ] (ops : List (ListOp ν δ)) :
    ∃ st', ListStore.run ⟨[], fun _ => none⟩ ops =
        some ((PlainLists.run ⟨fun _ => [], 0⟩ ops).1, st') ∧
      RepresentsLists st' (PlainLists.run ⟨fun _ => [], 0⟩ ops).2 :=
  run_refines representsLists_empty ops

end

end IPStat
