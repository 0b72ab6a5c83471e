import IPStat.Lib.Aged
import Mathlib.Data.List.Nodup

namespace Keyed

section
variable {α κ : Type*} {key : α → κ} {k : κ} {l l' : List α} {a b c : α} {right : α → Prop}
  {shown : Prop}

/-- What one row of a listing does to a list with distinct keys: the entries of other keys stay,
an entry of its own key is right, there is one if the row is shown, and a new one is the last. -/
structure Puts (key : α → κ) (k : κ) (right : α → Prop) (shown : Prop) (l l' : List α) :
    Prop where
  nodup : (l'.map key).Nodup
  order : l.map key <+: l'.map key
  others : ∀ a, key a ≠ k → (a ∈ l' ↔ a ∈ l)
  right : ∀ a ∈ l', key a = k → right a
  shown : shown → ∃ a ∈ l', key a = k

theorem Puts.forall (h : Puts key k right shown l l') (hl : ∀ a ∈ l, right a) :
    ∀ a ∈ l', right a := by
  intro a hm
  by_cases ha : key a = k
  · exact h.right a hm ha
  · exact hl a ((h.others a ha).mp hm)

theorem Puts.imp {right' : α → Prop} (h : Puts key k right shown l l')
    (himp : ∀ a, right a → right' a) : Puts key k right' shown l l' := by
  refine ⟨h.nodup, h.order, h.others, ?_, h.shown⟩
  intro a hm ha
  exact himp a (h.right a hm ha)

/-- With distinct keys, an entry is the only one of its key. -/
theorem filter_eq_singleton [DecidableEq κ] (hnodup : (l.map key).Nodup) (hm : a ∈ l)
    (ha : key a = k) : (l.filter fun c => key c = k) = [a] := by
  induction l with
  | nil => cases hm
  | cons c l ih =>
    rw [List.map_cons, List.nodup_cons] at hnodup
    rcases List.mem_cons.mp hm with rfl | htail
    · have hnone : (l.filter fun c => key c = k) = [] := by
        apply List.filter_eq_nil_iff.mpr
        intro d hd heq
        have hkey : key d = key a := (of_decide_eq_true heq).trans ha.symm
        exact hnodup.1 (List.mem_map.mpr ⟨d, hd, hkey⟩)
      simp only [List.filter_cons, ha, decide_true, if_true, hnone]
    · have hne : key c ≠ k := by
        intro heq
        exact hnodup.1 (List.mem_map.mpr ⟨a, htail, ha.trans heq.symm⟩)
      rw [List.filter_cons, if_neg (by simpa using hne), ih hnodup.2 htail]

section
variable [DecidableEq κ]

/-- Write over the first entry of the key. -/
def put (key : α → κ) (k : κ) (b : α) (l : List α) : List α :=
  l.replaceF fun a => if key a = k then some b else none

theorem map_key_put (hb : key b = k) (l : List α) : (put key k b l).map key = l.map key := by
  induction l with
  | nil => rfl
  | cons a l ih =>
    unfold put at ih ⊢
    by_cases h : key a = k
    · simp [List.replaceF, h, hb]
    · simp [List.replaceF, h, ih]

theorem mem_put_of_ne (ha : key a ≠ k) (hb : key b = k) : a ∈ put key k b l ↔ a ∈ l := by
  induction l with
  | nil => rfl
  | cons c l ih =>
    unfold put at ih ⊢
    by_cases h : key c = k
    · have hab : a ≠ b := by
        intro heq
        exact ha (heq ▸ hb)
      have hac : a ≠ c := by
        intro heq
        exact ha (heq ▸ h)
      simp [List.replaceF, h, hab, hac]
    · simp [List.replaceF, h, ih]

/-- With distinct keys, the entry of the key is the one written. -/
theorem eq_of_mem_put (hnodup : (l.map key).Nodup) (ha : key a = k) (hm : a ∈ put key k b l) :
    a = b := by
  induction l with
  | nil => cases hm
  | cons c l ih =>
    rw [List.map_cons, List.nodup_cons] at hnodup
    unfold put at hm ih
    by_cases h : key c = k
    · rw [List.replaceF, if_pos h] at hm
      rcases List.mem_cons.mp hm with heq | htail
      · exact heq
      · have hkey : key c ∈ l.map key := List.mem_map.mpr ⟨a, htail, ha.trans h.symm⟩
        exact absurd hkey hnodup.1
    · rw [List.replaceF, if_neg h] at hm
      rcases List.mem_cons.mp hm with heq | htail
      · exact absurd (heq ▸ ha) h
      · exact ih hnodup.2 htail

/-- The entry written is the one that the same search finds. -/
theorem find?_put (hb : key b = k) (hc : l.find? (key · = k) = some c) :
    (put key k b l).find? (key · = k) = some b := by
  induction l with
  | nil => cases hc
  | cons d l ih =>
    unfold put at ih ⊢
    by_cases h : key d = k
    · simp [List.replaceF, h, hb]
    · rw [List.find?_cons_of_neg (by simpa using h)] at hc
      have hrest := ih hc
      simp [List.replaceF, h, hrest]

/-- What the new entry has in common with the one found, the list keeps. -/
theorem map_put {β : Type*} (g : α → β) (hg : g b = g c) (hc : l.find? (key · = k) = some c) :
    (put key k b l).map g = l.map g := by
  induction l with
  | nil => cases hc
  | cons d l ih =>
    unfold put at ih ⊢
    by_cases h : key d = k
    · rw [List.find?_cons_of_pos (by simpa using h)] at hc
      cases hc
      simp [List.replaceF, h, hg]
    · rw [List.find?_cons_of_neg (by simpa using h)] at hc
      have hrest := ih hc
      simp [List.replaceF, h, hrest]

/-- Writing over the entry that a search finds loses no other. -/
theorem mem_put_or (ha : a ∈ l) (hc : l.find? (key · = k) = some c) :
    a ∈ put key k b l ∨ a = c ∧ b ∈ put key k b l := by
  induction l with
  | nil => cases ha
  | cons d l ih =>
    unfold put at ih ⊢
    by_cases h : key d = k
    · rw [List.find?_cons_of_pos (by simpa using h)] at hc
      cases hc
      rw [List.replaceF, if_pos h]
      cases ha with
      | head => exact .inr ⟨rfl, List.mem_cons_self⟩
      | tail _ htail => exact .inl (List.mem_cons_of_mem b htail)
    · rw [List.find?_cons_of_neg (by simpa using h)] at hc
      rw [List.replaceF, if_neg h]
      cases ha with
      | head => exact .inl List.mem_cons_self
      | tail _ htail =>
        obtain hm | ⟨heq, hm⟩ := ih htail hc
        · exact .inl (List.mem_cons_of_mem d hm)
        · exact .inr ⟨heq, List.mem_cons_of_mem d hm⟩

theorem Puts.put (hnodup : (l.map key).Nodup) (hfound : ∃ a ∈ l, key a = k) (hb : key b = k)
    (hright : right b) : Puts key k right shown l (Keyed.put key k b l) := by
  have hkeys : (Keyed.put key k b l).map key = l.map key := map_key_put hb l
  refine ⟨hkeys ▸ hnodup, hkeys ▸ List.prefix_refl _, ?_, ?_, ?_⟩
  · intro a ha
    exact mem_put_of_ne ha hb
  · intro a hm ha
    rw [eq_of_mem_put hnodup ha hm]
    exact hright
  · intro _
    have hmem : k ∈ (Keyed.put key k b l).map key := by
      rw [hkeys]
      exact List.mem_map.mpr hfound
    exact List.mem_map.mp hmem

end

theorem Puts.append (hnodup : (l.map key).Nodup) (habsent : ∀ a ∈ l, key a ≠ k)
    (hb : key b = k) (hright : right b) : Puts key k right shown l (l ++ [b]) := by
  refine ⟨?_, (List.prefix_append l [b]).map key, ?_, ?_, ?_⟩
  · rw [List.map_append, List.map_singleton, List.nodup_append]
    refine ⟨hnodup, List.nodup_singleton _, ?_⟩
    intro c hc d hd
    obtain ⟨a, hm, rfl⟩ := List.mem_map.mp hc
    rw [List.mem_singleton.mp hd, hb]
    exact habsent a hm
  · intro a ha
    have hab : a ≠ b := by
      intro heq
      exact ha (heq ▸ hb)
    simp [hab]
  · intro a hm ha
    rcases List.mem_append.mp hm with hold | hnew
    · exact absurd ha (habsent a hold)
    · rw [List.mem_singleton.mp hnew]
      exact hright
  · intro _
    exact ⟨b, by simp, hb⟩

/-- A row that is not shown may leave the list as it is. -/
theorem Puts.skip (hnodup : (l.map key).Nodup) (habsent : ∀ a ∈ l, key a ≠ k)
    (hshown : ¬ shown) : Puts key k right shown l l := by
  refine ⟨hnodup, List.prefix_refl _, fun _ _ => Iff.rfl, ?_, ?_⟩
  · intro a hm ha
    exact absurd ha (habsent a hm)
  · intro h
    exact absurd h hshown

end

section
variable {σ ε α κ : Type*} {key : α → κ}

/-- A listing with distinct keys, whose rows find the entries of the list they started with,
leaves every entry of a listed key right. -/
theorem exec_puts {step : σ → ε → Option σ} (table : σ → List α) (k : ε → κ)
    {before right : ε → α → Prop} {shown : ε → Prop} {s s' : σ} {es : List ε}
    (hstep : ∀ e ∈ es, ∀ s s', ((table s).map key).Nodup →
      (∀ a ∈ table s, key a = k e → before e a) → step s e = some s' →
      Puts key (k e) (right e) (shown e) (table s) (table s'))
    (hnodup : ((table s).map key).Nodup) (hkeys : (es.map k).Nodup)
    (hbefore : ∀ e ∈ es, ∀ a ∈ table s, key a = k e → before e a)
    (h : Run.exec step s es = some s') :
    ((table s').map key).Nodup ∧ (table s).map key <+: (table s').map key ∧
      (∀ a, (∀ e ∈ es, key a ≠ k e) → (a ∈ table s' ↔ a ∈ table s)) ∧
      (∀ e ∈ es, ∀ a ∈ table s', key a = k e → right e a) ∧
      ∀ e ∈ es, shown e → ∃ a ∈ table s', key a = k e := by
  induction es generalizing s with
  | nil =>
    cases h
    exact ⟨hnodup, List.prefix_refl _, by simp, by simp, by simp⟩
  | cons e es ih =>
    obtain ⟨s1, hs, hrest⟩ := Run.exec_cons_some h
    rw [List.map_cons, List.nodup_cons] at hkeys
    have hne : ∀ f ∈ es, k f ≠ k e := by
      intro f hf heq
      exact hkeys.1 (List.mem_map.mpr ⟨f, hf, heq⟩)
    have hputs := hstep e List.mem_cons_self s s1 hnodup (hbefore e List.mem_cons_self) hs
    have hstep' := fun f hf => hstep f (List.mem_cons_of_mem e hf)
    have hbefore1 : ∀ f ∈ es, ∀ a ∈ table s1, key a = k f → before f a := by
      intro f hf a hm ha
      have hkey : key a ≠ k e := ha ▸ hne f hf
      exact hbefore f (List.mem_cons_of_mem e hf) a ((hputs.others a hkey).mp hm) ha
    obtain ⟨hnodup', horder, hothers, hright, hshown⟩ := ih hstep' hputs.nodup hkeys.2 hbefore1 hrest
    -- the rows after this one are of other keys, and leave its entry alone
    have hkept : ∀ a, key a = k e → (a ∈ table s' ↔ a ∈ table s1) := by
      intro a ha
      apply hothers a
      intro f hf
      rw [ha]
      exact (hne f hf).symm
    refine ⟨hnodup', hputs.order.trans horder, ?_, ?_, ?_⟩
    · intro a ha
      rw [hothers a fun f hf => ha f (List.mem_cons_of_mem e hf)]
      exact hputs.others a (ha e List.mem_cons_self)
    · intro f hf a hm ha
      rcases List.mem_cons.mp hf with rfl | hf
      · exact hputs.right a ((hkept a ha).mp hm) ha
      · exact hright f hf a hm ha
    · intro f hf hshow
      rcases List.mem_cons.mp hf with rfl | hf
      · obtain ⟨a, hm, ha⟩ := hputs.shown hshow
        exact ⟨a, (hkept a ha).mpr hm, ha⟩
      · exact hshown f hf hshow

/-- So does the sweep that follows, if an entry that is right is not stale. -/
theorem sweep_puts [DecidableEq κ] {step : σ → ε → Option σ} (table : σ → List α) (k : ε → κ)
    {before right : ε → α → Prop} {shown : ε → Prop} {s s' : σ} {es : List ε}
    {stale : Nat → α → Bool}
    (hstep : ∀ e ∈ es, ∀ s s', ((table s).map key).Nodup →
      (∀ a ∈ table s, key a = k e → before e a) → step s e = some s' →
      Puts key (k e) (right e) (shown e) (table s) (table s'))
    (hnodup : ((table s).map key).Nodup) (hkeys : (es.map k).Nodup)
    (hbefore : ∀ e ∈ es, ∀ a ∈ table s, key a = k e → before e a)
    (hfresh : ∀ e ∈ es, ∀ a, right e a → ∀ j, stale j a = false)
    (h : Run.exec step s es = some s') :
    ((Aged.sweep key stale 0 (table s') (table s')).map key).Nodup ∧
      (∀ e ∈ es, ∀ a ∈ Aged.sweep key stale 0 (table s') (table s'), key a = k e → right e a) ∧
      ∀ e ∈ es, shown e → ∃ a ∈ Aged.sweep key stale 0 (table s') (table s'), key a = k e := by
  obtain ⟨hnodup', -, -, hright, hshown⟩ := exec_puts table k hstep hnodup hkeys hbefore h
  have hsub : (Aged.sweep key stale 0 (table s') (table s')).Sublist (table s') :=
    Aged.sweep_sublist stale 0 (table s') (table s')
  refine ⟨hnodup'.sublist (hsub.map key), ?_, ?_⟩
  · intro e he a hm ha
    exact hright e he a (hsub.subset hm) ha
  · intro e he hshow
    obtain ⟨a, hm, ha⟩ := hshown e he hshow
    have hspared : ∀ j, ∀ b ∈ table s', key b = key a → stale j b = false := by
      intro j b hb hkey
      exact hfresh e he b (hright e he b hb (hkey.trans ha)) j
    exact ⟨a, (Aged.mem_sweep hspared).mpr hm, ha⟩

end

section
variable {α κ : Type*} {key : α → κ} {a : α} {k k' : κ} {ks ks' : List κ} {l l' : List α}
  {i : Nat}

/-- Of distinct keys, two that a sublist keeps stand in it as they stood. -/
theorem before_of_sublist (h : ks'.Sublist ks) (hnodup : ks.Nodup) (hk : k ∈ ks') (hk' : k' ∈ ks')
    (hbefore : [k, k'].Sublist ks) : [k, k'].Sublist ks' := by
  induction h with
  | slnil => cases hk
  | cons c hsub ih =>
    have hc := (List.nodup_cons.mp hnodup).1
    have hne : k ≠ c := by
      rintro rfl
      exact hc (hsub.subset hk)
    rcases List.cons_sublist_cons'.mp hbefore with hrest | ⟨heq, -⟩
    · exact ih (List.nodup_cons.mp hnodup).2 hk hk' hrest
    · exact absurd heq hne
  | cons_cons c hsub ih =>
    obtain ⟨hc, hnodup'⟩ := List.nodup_cons.mp hnodup
    have hin : k' ∈ _ := hbefore.subset (List.mem_cons_of_mem k List.mem_cons_self)
    rcases List.cons_sublist_cons'.mp hbefore with hrest | ⟨rfl, hrest⟩
    · have hne : ∀ x ∈ [k, k'], x ≠ c := by
        rintro x hx rfl
        exact hc (hrest.subset hx)
      have hold := List.mem_of_ne_of_mem (hne k (by simp)) hk
      have hold' := List.mem_of_ne_of_mem (hne k' (by simp)) hk'
      exact (ih hnodup' hold hold' hrest).cons c
    · have hne : k' ≠ k := by
        rintro rfl
        exact hc (List.singleton_sublist.mp hrest)
      exact (List.singleton_sublist.mpr (List.mem_of_ne_of_mem hne hk')).cons_cons k

/-- What is appended stands behind. -/
theorem before_iff_of_prefix (h : ks <+: ks') (hnodup : ks'.Nodup) (hk' : k' ∈ ks) :
    [k, k'].Sublist ks' ↔ [k, k'].Sublist ks := by
  obtain ⟨more, rfl⟩ := h
  constructor
  · intro hbefore
    have hne : k' ∉ more := fun hmore => List.disjoint_of_nodup_append hnodup hk' hmore
    obtain ⟨l1, l2, heq, h1, h2⟩ := List.sublist_append_iff.mp hbefore
    rcases List.eq_nil_or_concat l2 with rfl | ⟨l2, x, rfl⟩
    · rw [heq, List.append_nil]
      exact h1
    · have hlast : k' = x := by
        have := congrArg List.getLast? heq
        simpa using this
      exact absurd (h2.subset (by simp [hlast])) hne
  · intro hbefore
    exact hbefore.trans (List.sublist_append_left ks more)

/-- An entry keeps its position when others are appended. -/
theorem getElem?_of_prefix (h : l.map key <+: l'.map key) (hnodup : (l'.map key).Nodup)
    (hm : a ∈ l) (hm' : a ∈ l') : l[i]? = some a ↔ l'[i]? = some a := by
  have hget {j : Nat} (hj : l[j]? = some a) : l'[j]? = some a := by
    have hkey : (l.map key)[j]? = some (key a) := by rw [List.getElem?_map, hj, Option.map_some]
    have hkey' : (l'.map key)[j]? = some (key a) := by
      obtain ⟨more, hmore⟩ := h
      rw [← hmore, List.getElem?_append_left (List.getElem?_eq_some_iff.mp hkey).1]
      exact hkey
    rw [List.getElem?_map, Option.map_eq_some_iff] at hkey'
    obtain ⟨b, hb, hab⟩ := hkey'
    rw [hb, List.inj_on_of_nodup_map hnodup (List.mem_of_getElem? hb) hm' hab]
  refine ⟨hget, ?_⟩
  intro hi
  obtain ⟨j, hj⟩ := List.mem_iff_getElem?.mp hm
  have hlt : j < l'.length := (List.getElem?_eq_some_iff.mp (hget hj)).1
  have hij : j = i := (List.getElem?_inj hlt hnodup.of_map).mp ((hget hj).trans hi.symm)
  exact hij ▸ hj

/-- With distinct keys, a search passes an entry over exactly when it finds one before it. -/
theorem find?_ne_iff {p : α → Bool} (hnodup : (l.map key).Nodup) (hm : a ∈ l) (hp : p a = true) :
    l.find? p ≠ some a ↔ ∃ b ∈ l, [key b, key a].Sublist (l.map key) ∧ p b = true := by
  induction l with
  | nil => cases hm
  | cons c l ih =>
    rw [List.map_cons, List.nodup_cons] at hnodup
    have hin {b : α} (hb : b ∈ l) : key b ∈ l.map key := List.mem_map.mpr ⟨b, hb, rfl⟩
    rcases List.mem_cons.mp hm with rfl | hm
    · -- nothing stands before the head
      rw [List.find?_cons_of_pos hp]
      apply iff_of_false (fun hne => hne rfl)
      rintro ⟨b, -, hbefore, -⟩
      rcases List.cons_sublist_cons'.mp hbefore with hrest | ⟨-, hrest⟩
      · exact hnodup.1 (hrest.subset (by simp))
      · exact hnodup.1 (List.singleton_sublist.mp hrest)
    · have hac : key c ≠ key a := by
        intro heq
        exact hnodup.1 (heq ▸ hin hm)
      by_cases hc : p c = true
      · rw [List.find?_cons_of_pos hc]
        refine iff_of_true ?_ ⟨c, List.mem_cons_self, ?_, hc⟩
        · intro heq
          exact hac (congrArg key (Option.some.inj heq))
        · exact (List.singleton_sublist.mpr (hin hm)).cons_cons (key c)
      · rw [List.find?_cons_of_neg hc, ih hnodup.2 hm]
        constructor
        · rintro ⟨b, hb, hbefore, hpb⟩
          exact ⟨b, List.mem_cons_of_mem c hb, hbefore.cons (key c), hpb⟩
        · rintro ⟨b, hb, hbefore, hpb⟩
          have hbl : b ∈ l := by
            rcases List.mem_cons.mp hb with rfl | hb
            · exact absurd hpb hc
            · exact hb
          rcases List.cons_sublist_cons'.mp hbefore with hrest | ⟨heq, -⟩
          · exact ⟨b, hbl, hrest, hpb⟩
          · exact absurd (heq ▸ hin hbl) hnodup.1

end

/-- The first place of a key. -/
structure FirstAt {κ : Type*} (ks : List κ) (j : Nat) (k : κ) : Prop where
  here : ks[j]? = some k
  before : ∀ i < j, ks[i]? ≠ some k

section
variable {α κ : Type*} {key : α → κ} {k : κ} {ks ks' : List κ} {l : List α} {j : Nat}

theorem firstAt_zero {k' : κ} : FirstAt (k' :: ks) 0 k ↔ k' = k := by
  constructor
  · intro h
    exact Option.some.inj h.here
  · rintro rfl
    exact ⟨rfl, fun i hi => absurd hi (Nat.not_lt_zero i)⟩

theorem firstAt_succ {k' : κ} : FirstAt (k' :: ks) (j + 1) k ↔ k' ≠ k ∧ FirstAt ks j k := by
  constructor
  · intro h
    refine ⟨?_, h.here, ?_⟩
    · intro heq
      exact h.before 0 (Nat.succ_pos j) (congrArg some heq)
    · intro i hi
      exact h.before (i + 1) (Nat.succ_lt_succ hi)
  · rintro ⟨hne, h⟩
    refine ⟨h.here, ?_⟩
    intro i hi
    cases i with
    | zero => exact fun heq => hne (Option.some.inj heq)
    | succ i => exact h.before i (Nat.lt_of_succ_lt_succ hi)

/-- Appending leaves the first places where they are. -/
theorem firstAt_prefix (h : ks <+: ks') (hj : j < ks.length) :
    FirstAt ks' j k ↔ FirstAt ks j k := by
  obtain ⟨more, rfl⟩ := h
  have hsame {i : Nat} (hi : i ≤ j) : (ks ++ more)[i]? = ks[i]? :=
    List.getElem?_append_left (Nat.lt_of_le_of_lt hi hj)
  constructor
  · intro h
    exact ⟨hsame (Nat.le_refl j) ▸ h.here, fun i hi => hsame (Nat.le_of_lt hi) ▸ h.before i hi⟩
  · intro h
    exact ⟨(hsame (Nat.le_refl j)).trans h.here,
      fun i hi => (hsame (Nat.le_of_lt hi)).symm ▸ h.before i hi⟩

variable [DecidableEq κ]

theorem find?_first (h : FirstAt (l.map key) j k) : l.find? (key · = k) = l[j]? := by
  induction l generalizing j with
  | nil => cases h.here
  | cons a l ih =>
    rw [List.map_cons] at h
    cases j with
    | zero =>
      rw [List.find?_cons_of_pos (by simpa using firstAt_zero.mp h)]
      rfl
    | succ j =>
      obtain ⟨hne, hrest⟩ := firstAt_succ.mp h
      rw [List.find?_cons_of_neg (by simpa using hne), ih hrest]
      rfl

/-- Rewriting the first entry of a key rewrites its first place. -/
theorem getElem?_replaceF_first (f : α → α) (h : FirstAt (l.map key) j k) :
    (l.replaceF fun a => if key a = k then some (f a) else none)[j]? = l[j]?.map f := by
  induction l generalizing j with
  | nil => cases h.here
  | cons a l ih =>
    rw [List.map_cons] at h
    cases j with
    | zero => simp [List.replaceF, firstAt_zero.mp h]
    | succ j =>
      obtain ⟨hne, hrest⟩ := firstAt_succ.mp h
      simp [List.replaceF, hne, ih hrest]

/-- And no other. -/
theorem getElem?_replaceF_other (f : α → α) (h : ¬ FirstAt (l.map key) j k) :
    (l.replaceF fun a => if key a = k then some (f a) else none)[j]? = l[j]? := by
  induction l generalizing j with
  | nil => rfl
  | cons a l ih =>
    rw [List.map_cons] at h
    by_cases hk : key a = k
    · cases j with
      | zero => exact absurd (firstAt_zero.mpr hk) h
      | succ j => simp [List.replaceF, hk]
    · cases j with
      | zero => simp [List.replaceF, hk]
      | succ j =>
        have hrest : ¬ FirstAt (l.map key) j k := fun hf => h (firstAt_succ.mpr ⟨hk, hf⟩)
        simp [List.replaceF, hk, ih hrest]

theorem firstAt_iff_findIdx? :
    FirstAt (l.map key) j k ↔ l.findIdx? (fun a => key a = k) = some j := by
  induction l generalizing j with
  | nil =>
    apply iff_of_false
    · intro h
      cases h.here
    · intro h
      cases h
  | cons a l ih =>
    rw [List.map_cons, List.findIdx?_cons]
    cases j with
    | zero =>
      rw [firstAt_zero]
      by_cases hk : key a = k
      · simp [hk]
      · simp [hk]
    | succ j =>
      rw [firstAt_succ, ih]
      by_cases hk : key a = k
      · simp [hk]
      · simp [hk]

end

section
variable {α : Type*} {p : α → Bool} {f : α → α} {l : List α} {i : Nat}

/-- A map that moves every match leaves a list alone only where nothing matches. -/
theorem map_matches_eq_self_iff (hf : ∀ a, f a ≠ a) :
    (l.map fun a => if p a then f a else a) = l ↔ l.filter p = [] := by
  induction l with
  | nil => exact iff_of_true rfl rfl
  | cons a l ih =>
    rw [List.map_cons, List.cons.injEq, ih]
    by_cases hp : p a = true
    · rw [if_pos hp, List.filter_cons_of_pos hp]
      apply iff_of_false
      · intro h
        exact hf a h.1
      · exact List.cons_ne_nil _ _
    · rw [if_neg hp, List.filter_cons_of_neg hp]
      exact ⟨fun h => h.2, fun h => ⟨rfl, h⟩⟩

/-- Rewriting the first match rewrites every match exactly where there is no second. -/
theorem modify_first_eq_map_iff (hf : ∀ a, f a ≠ a) (h : l.findIdx? p = some i) :
    l.modify i f = (l.map fun a => if p a then f a else a) ↔ (l.filter p).length ≤ 1 := by
  induction l generalizing i with
  | nil => cases h
  | cons a l ih =>
    rw [List.findIdx?_cons] at h
    by_cases hp : p a = true
    · rw [if_pos hp] at h
      cases h
      rw [List.modify_zero_cons, List.map_cons, if_pos hp, List.filter_cons_of_pos hp,
        List.length_cons, List.cons.injEq]
      have hrest := map_matches_eq_self_iff (l := l) (p := p) hf
      rw [eq_comm (a := l), hrest, ← List.length_eq_zero_iff]
      constructor
      · intro hzero
        exact Nat.le_of_eq (congrArg (· + 1) hzero.2)
      · intro hle
        exact ⟨rfl, by omega⟩
    · rw [if_neg hp, Option.map_eq_some_iff] at h
      obtain ⟨j, hj, rfl⟩ := h
      rw [List.modify_succ_cons, List.map_cons, if_neg hp, List.filter_cons_of_neg hp,
        List.cons.injEq, ih hj]
      exact ⟨fun h => h.2, fun h => ⟨rfl, h⟩⟩

end

end Keyed
