import IPStat.Lib.Run
import Mathlib.Data.List.Basic
import Mathlib.Tactic.SplitIfs

namespace Aged

variable {α κ τ σ ε : Type*} [DecidableEq κ]

/-- Walk over a snapshot of a table: a stale element takes out the first entry that carries
its key. -/
def sweep (key : α → κ) (stale : Nat → α → Bool) : Nat → List α → List α → List α
  | _, [], l => l
  | i, a :: as, l =>
    sweep key stale (i + 1) as (if stale i a then l.eraseP (key · = key a) else l)

/-- The stamps of the entries of one key, at their positions. -/
def stamps (key : α → κ) (live : α → τ) (k : κ) (l : List α) : List (Option τ) :=
  l.map fun a => if key a = k then some (live a) else none

/-- The first entry takes a new stamp. -/
def restamp (t : τ) : List (Option τ) → List (Option τ)
  | [] => []
  | none :: v => none :: restamp t v
  | some _ :: v => some t :: v

def restampBy : Option τ → List (Option τ) → List (Option τ)
  | none, v => v
  | some t, v => restamp t v

/-- The stamp of the last touch of a key. -/
def lastTouch (k : κ) : List (κ × τ) → Option τ
  | [] => none
  | p :: ps =>
    match lastTouch k ps with
    | some t => some t
    | none => if p.1 = k then some p.2 else none

/-- One row of a listing: the first entry of its key is rewritten and stamped, or entries of
a key that was absent are added. -/
inductive Touch (key : α → κ) (live : α → τ) (k : κ) (t : τ) (l : List α) : List α → Prop
  | found (e : α → α) (h : ∃ a ∈ l, key a = k)
      (he : ∀ a, key a = k → key (e a) = k ∧ live (e a) = t) :
      Touch key live k t l (l.replaceF fun a => if key a = k then some (e a) else none)
  | missed (new : List α) (h : ∀ a ∈ l, key a ≠ k) (hn : ∀ a ∈ new, key a = k) :
      Touch key live k t l (l ++ new)

section
variable {key : α → κ} {live : α → τ} {k k' : κ} {t : τ} {l l' : List α}

theorem sweep_sublist (stale : Nat → α → Bool) (i : Nat) (as l : List α) :
    (sweep key stale i as l).Sublist l := by
  induction as generalizing i l with
  | nil => exact List.Sublist.refl l
  | cons a as ih =>
    rw [sweep]
    apply (ih (i + 1) _).trans
    split_ifs
    · exact List.eraseP_sublist
    · exact List.Sublist.refl l

theorem sweep_fresh {stale : Nat → α → Bool} {as : List α}
    (h : ∀ j, ∀ b ∈ as, stale j b = false) (i : Nat) (l : List α) :
    sweep key stale i as l = l := by
  induction as generalizing i l with
  | nil => rfl
  | cons b as ih =>
    rw [sweep, ih fun j c hc => h j c (List.mem_cons_of_mem b hc), h i b List.mem_cons_self]
    rfl

/-- An entry outlives a sweep that finds no entry of its key stale. -/
theorem mem_sweep {stale : Nat → α → Bool} {i : Nat} {as : List α} {a : α}
    (h : ∀ j, ∀ b ∈ as, key b = key a → stale j b = false) :
    a ∈ sweep key stale i as l ↔ a ∈ l := by
  induction as generalizing i l with
  | nil => rfl
  | cons b as ih =>
    rw [sweep, ih fun j c hc => h j c (List.mem_cons_of_mem b hc)]
    by_cases hkey : key b = key a
    · rw [h i b List.mem_cons_self hkey]
      rfl
    · split_ifs
      · have hother : ¬ (decide (key a = key b) = true) := by
          rw [decide_eq_true_eq]
          exact Ne.symm hkey
        exact List.mem_eraseP_of_neg hother
      · rfl

@[simp] theorem restamp_restamp (t t' : τ) (v : List (Option τ)) :
    restamp t' (restamp t v) = restamp t' v := by
  induction v with
  | nil => rfl
  | cons o v ih =>
    cases o with
    | none => simp [restamp, ih]
    | some s => rfl

theorem restamp_nones (t : τ) (n : Nat) :
    restamp t (List.replicate n none) = List.replicate n none := by
  induction n with
  | zero => rfl
  | succ n ih => simp [List.replicate_succ, restamp, ih]

theorem restamp_append (t : τ) (v : List (Option τ)) (n : Nat) :
    restamp t (v ++ List.replicate n none) = restamp t v ++ List.replicate n none := by
  induction v with
  | nil => exact restamp_nones t n
  | cons o v ih =>
    cases o with
    | none => simp [restamp, ih]
    | some s => rfl

theorem restampBy_cons (p : κ × τ) (ps : List (κ × τ)) (v : List (Option τ)) :
    restampBy (lastTouch k (p :: ps)) v =
      restampBy (lastTouch k ps) (if p.1 = k then restamp p.2 v else v) := by
  rw [lastTouch]
  cases lastTouch k ps with
  | none =>
    simp only
    split_ifs <;> rfl
  | some s =>
    simp only [restampBy]
    split_ifs
    · rw [restamp_restamp]
    · rfl

theorem restampBy_append (o : Option τ) (v : List (Option τ)) (n : Nat) :
    restampBy o (v ++ List.replicate n none) = restampBy o v ++ List.replicate n none := by
  cases o with
  | none => rfl
  | some t => exact restamp_append t v n

theorem stamps_replace {e : α → α} (he : ∀ a, key a = k → key (e a) = k ∧ live (e a) = t) :
    stamps key live k (l.replaceF fun a => if key a = k then some (e a) else none) =
      restamp t (stamps key live k l) := by
  induction l with
  | nil => rfl
  | cons a l ih =>
    unfold stamps at ih ⊢
    by_cases h : key a = k
    · simp [List.replaceF, h, (he a h).1, (he a h).2, restamp]
    · simp [List.replaceF, h, restamp, ih]

theorem stamps_replace_other {e : α → α} (hne : k' ≠ k)
    (he : ∀ a, key a = k' → key (e a) = k' ∧ live (e a) = t) :
    stamps key live k (l.replaceF fun a => if key a = k' then some (e a) else none) =
      stamps key live k l := by
  induction l with
  | nil => rfl
  | cons a l ih =>
    unfold stamps at ih ⊢
    by_cases h : key a = k'
    · simp [List.replaceF, h, (he a h).1, hne]
    · simp [List.replaceF, h, ih]

theorem Touch.keeps (h : Touch key live k' t l l') (hk : ∃ a ∈ l, key a = k) :
    ∃ a ∈ l', key a = k := by
  cases h with
  | missed new =>
    obtain ⟨a, ha, hak⟩ := hk
    exact ⟨a, List.mem_append_left new ha, hak⟩
  | found e hpresent he =>
    have hkeys : (l.replaceF fun a => if key a = k' then some (e a) else none).map key =
        l.map key := by
      clear hk hpresent
      induction l with
      | nil => rfl
      | cons a l ih =>
        by_cases h : key a = k'
        · simp [List.replaceF, h, (he a h).1]
        · simp [List.replaceF, h, ih]
    have hmem : k ∈ l.map key := List.mem_map.mpr hk
    rw [← hkeys] at hmem
    exact List.mem_map.mp hmem

/-- Entries of other keys behind the table hold no stamp of the key. -/
theorem padded_get (v : List (Option τ)) (n i : Nat) (t : τ) :
    (v ++ List.replicate n none)[i]? = some (some t) ↔ v[i]? = some (some t) := by
  rw [List.getElem?_append]
  split_ifs with hi
  · rfl
  · rw [List.getElem?_replicate, List.getElem?_eq_none (Nat.le_of_not_lt hi)]
    split_ifs <;> simp

/-- What a row does to the stamps of a key of the table. -/
theorem Touch.stamps_eq (h : Touch key live k' t l l') (hk : ∃ a ∈ l, key a = k) :
    ∃ n, stamps key live k l' =
      (if k' = k then restamp t (stamps key live k l) else stamps key live k l) ++
        List.replicate n none := by
  cases h with
  | found e _ he =>
    refine ⟨0, ?_⟩
    rw [List.replicate_zero, List.append_nil]
    split_ifs with hkk
    · subst hkk
      exact stamps_replace he
    · exact stamps_replace_other hkk he
  | missed new habs hn =>
    obtain ⟨a, ha, hak⟩ := hk
    have hne : k' ≠ k := by
      rintro rfl
      exact habs a ha hak
    refine ⟨new.length, ?_⟩
    have hnew : stamps key live k new = List.replicate new.length none := by
      apply List.eq_replicate_iff.mpr
      refine ⟨List.length_map _, ?_⟩
      intro o ho
      obtain ⟨b, hb, rfl⟩ := List.mem_map.mp ho
      have hbk : key b ≠ k := by
        rw [hn b hb]
        exact hne
      exact if_neg hbk
    rw [if_neg hne, ← hnew]
    exact List.map_append

end

/-- A whole listing gives the first entry of a key the stamp of its last row. -/
theorem stamps_exec {key : α → κ} {live : α → τ} {k : κ} {step : σ → ε → Option σ}
    (table : σ → List α) (touch : ε → κ × τ)
    (hstep : ∀ s e s', step s e = some s' →
      Touch key live (touch e).1 (touch e).2 (table s) (table s'))
    {s s' : σ} {es : List ε} (hk : ∃ a ∈ table s, key a = k)
    (h : Run.exec step s es = some s') :
    ∃ n, stamps key live k (table s') =
      restampBy (lastTouch k (es.map touch)) (stamps key live k (table s)) ++
        List.replicate n none := by
  induction es generalizing s with
  | nil =>
    cases h
    exact ⟨0, by simp [restampBy, lastTouch]⟩
  | cons e es ih =>
    obtain ⟨s1, hs, hrest⟩ := Run.exec_cons_some h
    have htouch := hstep s e s1 hs
    obtain ⟨n, hn⟩ := ih (htouch.keeps hk) hrest
    obtain ⟨m, hm⟩ := htouch.stamps_eq hk
    refine ⟨m + n, ?_⟩
    rw [hn, hm, restampBy_append, List.map_cons, restampBy_cons, List.append_assoc,
      List.replicate_append_replicate]

section
variable (key : α → κ)

/-- How often a key is found stale on a walk. -/
def staleCount (stale : Nat → α → Bool) (k : κ) : Nat → List α → Nat
  | _, [] => 0
  | i, a :: as =>
    staleCount stale k (i + 1) as + if key a = k ∧ stale i a = true then 1 else 0

theorem countP_eraseP_key (k k' : κ) (l : List α) :
    (l.eraseP (key · = k')).countP (key · = k) =
      l.countP (key · = k) - if k' = k then 1 else 0 := by
  induction l with
  | nil => simp
  | cons a l ih =>
    by_cases h : key a = k'
    · rw [List.eraseP_cons_of_pos (by simp [h])]
      by_cases hk : k' = k
      · simp [h, hk]
      · simp [h, hk]
    · rw [List.eraseP_cons_of_neg (by simp [h]), List.countP_cons, List.countP_cons, ih]
      by_cases hk : key a = k
      · have hne : k' ≠ k := fun he => h (hk.trans he.symm)
        simp [hne]
      · simp [hk]

theorem countP_sweep (stale : Nat → α → Bool) (k : κ) (i : Nat) (as l : List α) :
    (sweep key stale i as l).countP (key · = k) =
      l.countP (key · = k) - staleCount key stale k i as := by
  induction as generalizing i l with
  | nil => rfl
  | cons a as ih =>
    rw [sweep, ih, staleCount]
    cases hs : stale i a with
    | false => simp
    | true =>
      rw [if_pos rfl, countP_eraseP_key]
      simp only [and_true]
      omega

theorem staleCount_le (stale : Nat → α → Bool) (k : κ) (i : Nat) (l : List α) :
    staleCount key stale k i l ≤ l.countP (key · = k) := by
  induction l generalizing i with
  | nil => exact Nat.le_refl 0
  | cons a l ih =>
    have hrest := ih (i + 1)
    rw [staleCount, List.countP_cons]
    by_cases hk : key a = k
    · simp only [hk, true_and, decide_true, if_true]
      split_ifs <;> omega
    · simp only [hk, false_and, decide_false, if_false]
      exact hrest

/-- A key outnumbers its stale findings exactly when one of its entries is not stale. -/
theorem staleCount_lt_iff (stale : Nat → α → Bool) (k : κ) (i : Nat) (l : List α) :
    staleCount key stale k i l < l.countP (key · = k) ↔
      ∃ j a, l[j]? = some a ∧ key a = k ∧ stale (i + j) a = false := by
  induction l generalizing i with
  | nil => simp [staleCount]
  | cons a l ih =>
    have htail : (∃ j b, (a :: l)[j + 1]? = some b ∧ key b = k ∧ stale (i + (j + 1)) b = false) ↔
        staleCount key stale k (i + 1) l < l.countP (key · = k) := by
      rw [ih (i + 1)]
      simp only [List.getElem?_cons_succ, Nat.add_right_comm i 1, ← Nat.add_assoc]
    have hsplit : (∃ j b, (a :: l)[j]? = some b ∧ key b = k ∧ stale (i + j) b = false) ↔
        (key a = k ∧ stale i a = false) ∨
          staleCount key stale k (i + 1) l < l.countP (key · = k) := by
      rw [← htail]
      constructor
      · rintro ⟨j, b, hb, hk, hs⟩
        cases j with
        | zero =>
          cases hb
          exact .inl ⟨hk, hs⟩
        | succ j => exact .inr ⟨j, b, hb, hk, hs⟩
      · rintro (⟨hk, hs⟩ | ⟨j, b, h⟩)
        · exact ⟨0, a, rfl, hk, hs⟩
        · exact ⟨j + 1, b, h⟩
    have hle := staleCount_le key stale k (i + 1) l
    rw [hsplit, staleCount, List.countP_cons]
    by_cases hk : key a = k
    · cases hs : stale i a with
      | false => simp [hk]; omega
      | true => simp [hk]
    · simp [hk]

theorem stamps_get {live : α → τ} {k : κ} {l : List α} {i : Nat} {t : τ} :
    (stamps key live k l)[i]? = some (some t) ↔ ∃ a, l[i]? = some a ∧ key a = k ∧ live a = t := by
  unfold stamps
  rw [List.getElem?_map, Option.map_eq_some_iff]
  constructor
  · rintro ⟨a, ha, h⟩
    by_cases hk : key a = k
    · rw [if_pos hk] at h
      exact ⟨a, ha, hk, Option.some.inj h⟩
    · rw [if_neg hk] at h
      cases h
  · rintro ⟨a, ha, hk, rfl⟩
    exact ⟨a, ha, if_pos hk⟩

/-- A key outlives the sweep exactly when one of its entries is not stale at its position. -/
theorem exists_mem_sweep_iff (stale : Nat → α → Bool) (k : κ) (l : List α) :
    (∃ a ∈ sweep key stale 0 l l, key a = k) ↔
      ∃ i a, l[i]? = some a ∧ key a = k ∧ stale i a = false := by
  have hcount : (∃ a ∈ sweep key stale 0 l l, key a = k) ↔
      staleCount key stale k 0 l < l.countP (key · = k) := by
    rw [← Nat.sub_pos_iff_lt, ← countP_sweep, List.countP_pos_iff]
    simp
  rw [hcount, staleCount_lt_iff]
  simp only [Nat.zero_add]

/-- So does a key that is known by its stamps. -/
theorem kept_iff (live : α → τ) (stale : Nat → τ → Bool) (k : κ) (l : List α) :
    (∃ a ∈ sweep key (fun i a => stale i (live a)) 0 l l, key a = k) ↔
      ∃ i t, (stamps key live k l)[i]? = some (some t) ∧ stale i t = false := by
  rw [exists_mem_sweep_iff]
  constructor
  · rintro ⟨i, a, ha, hk, hs⟩
    exact ⟨i, live a, (stamps_get key).mpr ⟨a, ha, hk, rfl⟩, hs⟩
  · rintro ⟨i, t, ht, hs⟩
    obtain ⟨a, ha, hk, rfl⟩ := (stamps_get key).mp ht
    exact ⟨i, a, ha, hk, hs⟩

end

section
variable {key : α → κ}

/-- Of each key, leave out as many of the first entries as it has to lose. -/
def dropFirst (key : α → κ) : (κ → Nat) → List α → List α
  | _, [] => []
  | m, a :: l =>
    if m (key a) = 0 then a :: dropFirst key m l
    else dropFirst key (Function.update m (key a) (m (key a) - 1)) l

theorem dropFirst_zero (l : List α) : dropFirst key (fun _ => 0) l = l := by
  induction l with
  | nil => rfl
  | cons a l ih => rw [dropFirst, if_pos rfl, ih]

theorem dropFirst_eraseP (m : κ → Nat) (k : κ) (l : List α) :
    dropFirst key m (l.eraseP (key · = k)) = dropFirst key (Function.update m k (m k + 1)) l := by
  induction l generalizing m with
  | nil => rfl
  | cons a l ih =>
    by_cases hk : key a = k
    · subst hk
      rw [List.eraseP_cons_of_pos (by simp), dropFirst, if_neg (by simp)]
      simp
    · rw [List.eraseP_cons_of_neg (by simpa using hk), dropFirst, dropFirst,
        Function.update_of_ne hk]
      split_ifs with h0
      · rw [ih]
      · rw [ih, Function.update_of_ne (Ne.symm hk), Function.update_comm hk]

/-- A sweep takes out, of each key, as many of the first entries as it finds stale. -/
theorem sweep_eq_dropFirst (stale : Nat → α → Bool) (i : Nat) (as l : List α) :
    sweep key stale i as l = dropFirst key (fun k => staleCount key stale k i as) l := by
  induction as generalizing i l with
  | nil => exact (dropFirst_zero l).symm
  | cons a as ih =>
    rw [sweep, ih]
    cases hs : stale i a with
    | false => simp [staleCount, hs]
    | true =>
      rw [if_pos rfl, dropFirst_eraseP]
      congr 1
      funext k
      by_cases hk : key a = k
      · subst hk
        simp [staleCount, hs]
      · simp [staleCount, hs, hk, Function.update_of_ne (Ne.symm hk)]

theorem forall_mem_dropFirst_iff (Q : α → Prop) (m : κ → Nat) (l : List α) :
    (∀ a ∈ dropFirst key m l, Q a) ↔
      ∀ j a, l[j]? = some a → m (key a) ≤ (l.take j).countP (key · = key a) → Q a := by
  induction l generalizing m with
  | nil => simp [dropFirst]
  | cons b l ih =>
    have hsplit : (∀ j a, (b :: l)[j]? = some a →
          m (key a) ≤ ((b :: l).take j).countP (key · = key a) → Q a) ↔
        (m (key b) = 0 → Q b) ∧ ∀ j a, l[j]? = some a →
          m (key a) ≤ (l.take j).countP (key · = key a) + (if key b = key a then 1 else 0) →
          Q a := by
      constructor
      · intro h
        refine ⟨?_, ?_⟩
        · intro h0
          exact h 0 b rfl (by simp [h0])
        · intro j a ha hle
          refine h (j + 1) a ha ?_
          simpa [List.countP_cons] using hle
      · rintro ⟨hhead, htail⟩ j a ha hle
        cases j with
        | zero =>
          cases ha
          exact hhead (by simpa using hle)
        | succ j => exact htail j a ha (by simpa [List.countP_cons] using hle)
    rw [hsplit, dropFirst]
    split_ifs with h0
    · have hle (a : α) (c : Nat) :
          m (key a) ≤ c ↔ m (key a) ≤ c + if key b = key a then 1 else 0 := by
        split_ifs with hk
        · rw [← hk, h0]
          simp
        · rfl
      rw [List.forall_mem_cons, ih]
      simp only [h0, true_imp_iff, ← hle]
    · have hle (a : α) (c : Nat) :
          Function.update m (key b) (m (key b) - 1) (key a) ≤ c ↔
            m (key a) ≤ c + if key b = key a then 1 else 0 := by
        split_ifs with hk
        · rw [← hk, Function.update_self]
          omega
        · rw [Function.update_of_ne (Ne.symm hk)]
          rfl
      rw [ih]
      simp only [h0, false_imp_iff, true_and, hle]

/-- What holds of all that a sweep keeps holds of every entry that has as many of its key before
it as the sweep finds stale. -/
theorem forall_mem_sweep_iff (Q : α → Prop) (stale : Nat → α → Bool) (l : List α) :
    (∀ a ∈ sweep key stale 0 l l, Q a) ↔
      ∀ j a, l[j]? = some a →
        staleCount key stale (key a) 0 l ≤ (l.take j).countP (key · = key a) → Q a := by
  rw [sweep_eq_dropFirst]
  exact forall_mem_dropFirst_iff Q _ l

/-- The stamps of a key tell how often a sweep finds it stale. -/
theorem staleCount_stamps (live : α → τ) (stale : Nat → τ → Bool) (k : κ) (i : Nat) (l : List α) :
    staleCount key (fun i a => stale i (live a)) k i l =
      ((stamps key live k l).zipIdx i).countP fun q => q.1.any (stale q.2) := by
  induction l generalizing i with
  | nil => rfl
  | cons a l ih =>
    rw [staleCount, ih (i + 1)]
    unfold stamps
    rw [List.map_cons, List.zipIdx_cons, List.countP_cons]
    by_cases hk : key a = k
    · simp [hk]
    · simp [hk]

/-- Entries of other keys behind the table are never found stale. -/
theorem countP_padded (stale : Nat → τ → Bool) (v : List (Option τ)) (n : Nat) :
    ((v ++ List.replicate n (none : Option τ)).zipIdx.countP fun q => q.1.any (stale q.2)) =
      v.zipIdx.countP fun q => q.1.any (stale q.2) := by
  rw [List.zipIdx_append, List.countP_append]
  apply Nat.add_eq_left.mpr
  apply List.countP_eq_zero.mpr
  intro q hq
  rw [List.eq_of_mem_replicate (List.fst_mem_of_mem_zipIdx hq)]
  simp

end

end Aged
