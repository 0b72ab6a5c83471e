import IPStat.Policy.Decision

namespace IPStat

/-- The answer to the query of an init function: each row with its fingerprint, and the clock
read for it. -/
structure InitEnv (δ : Type) where
  opened : Bool
  rows : Option (List (PolicyNode δ))

section
variable {δ : Type}

/-- The body of the loading loops. -/
def loadPolicyRow (l : List (PolicyNode δ)) (node : PolicyNode δ) : List (PolicyNode δ) :=
  l ++ [node]

/-- The common body of the init functions, with what they return. -/
def loadPolicyList (env : InitEnv δ) (l : List (PolicyNode δ)) : List (PolicyNode δ) × Bool :=
  if env.opened then
    match env.rows with
    | none => (l, false)
    | some rows => (rows.foldl loadPolicyRow l, true)
  else (l, false)

end

namespace TimePolicy

def initPolicyList (env : InitEnv TimeDef) (s : TimePolicy) : TimePolicy × Bool :=
  ({ s with policyTime := (loadPolicyList env s.policyTime).1 },
    (loadPolicyList env s.policyTime).2)

def initUsersList (env : InitEnv PolicyRef) (s : TimePolicy) : TimePolicy × Bool :=
  ({ s with policyUsers := (loadPolicyList env s.policyUsers).1 },
    (loadPolicyList env s.policyUsers).2)

def initGroupUsersList (env : InitEnv PolicyRef) (s : TimePolicy) : TimePolicy × Bool :=
  ({ s with policyGroupUsers := (loadPolicyList env s.policyGroupUsers).1 },
    (loadPolicyList env s.policyGroupUsers).2)

def initTypeTrafficList (env : InitEnv PolicyRef) (s : TimePolicy) : TimePolicy × Bool :=
  ({ s with policyTypeTraffic := (loadPolicyList env s.policyTypeTraffic).1 },
    (loadPolicyList env s.policyTypeTraffic).2)

def initGroupTrafficList (env : InitEnv PolicyRef) (s : TimePolicy) : TimePolicy × Bool :=
  ({ s with policyGroupTraffic := (loadPolicyList env s.policyGroupTraffic).1 },
    (loadPolicyList env s.policyGroupTraffic).2)

end TimePolicy

/-- A visit of the database, which does not change meanwhile. -/
structure Visit (δ : Type) where
  table : List (DefRow δ)
  ids : (table.map DefRow.id).Nodup
  start : TimeT
  finish : TimeT

section
variable {δ σ : Type}

def Visit.Sees (v : Visit δ) (id : IpId) : Prop := id ∈ v.table.map DefRow.id

instance (v : Visit δ) (id : IpId) : Decidable (v.Sees id) :=
  inferInstanceAs (Decidable (_ ∈ _))

/-- A reading of the clock during the visit. -/
def Visit.During (v : Visit δ) (t : TimeT) : Prop := v.start ≤ t ∧ t ≤ v.finish

instance (v : Visit δ) (t : TimeT) : Decidable (v.During t) := inferInstanceAs (Decidable (_ ∧ _))

section
variable (md5 : δ → Md5)

/-- A row as an init function reads it. -/
def DefRow.loaded (now : DefRow δ → TimeT) (r : DefRow δ) : PolicyNode δ :=
  ⟨r.id, r.row, md5 r.row, now r⟩

/-- A row as a pass meets it: listed with its fingerprint, and read when it is asked for. -/
def DefRow.shown (queried now : DefRow δ → TimeT) (r : DefRow δ) : PolicyRow δ :=
  ⟨r.id, md5 r.row, ⟨true, some (some ⟨r.row, md5 r.row⟩), queried r⟩, now r⟩

/-- An init function that reads all rows, in whatever order the store has them. -/
def Visit.Loads (v : Visit δ) (env : InitEnv δ) : Prop :=
  env.opened = true ∧ ∃ (order : List (DefRow δ)) (now : DefRow δ → TimeT),
    order.Perm v.table ∧ env.rows = some (order.map (DefRow.loaded md5 now)) ∧
      ∀ r ∈ order, v.During (now r)

/-- A pass, shorter than 90 seconds, that reads all rows. -/
def Visit.Lists (v : Visit δ) (env : PolicyEnv δ) : Prop :=
  env.opened = true ∧ v.finish - v.start < 90 ∧ (∀ i, v.During (env.age i)) ∧
    ∃ (order : List (DefRow δ)) (queried now : DefRow δ → TimeT), order.Perm v.table ∧
      env.rows = some (order.map (DefRow.shown md5 queried now)) ∧
        ∀ r ∈ order, v.During (queried r) ∧ v.During (now r)

end

/-- The last visit that saw a row of the id, the latest visit standing first. -/
def lastSaw (hist : List (Visit δ)) (id : IpId) : Option (Visit δ) :=
  hist.find? fun v => decide (v.Sees id)

/-- A row that differs from when it was last seen has another fingerprint. -/
def Detects (md5 : δ → Md5) (hist : List (Visit δ)) (v : Visit δ) : Prop :=
  ∀ r ∈ v.table, ∀ w, lastSaw hist r.id = some w → ∀ old ∈ w.table, old.id = r.id →
    md5 old.row = md5 r.row → old.row = r.row

/-- The states after the init function of a list and passes over it, with what they visited;
in between, the rest of the module may do anything. -/
inductive History (md5 : δ → Md5) (init : InitEnv δ → σ → σ × Bool)
    (sync : PolicyEnv δ → σ → Option σ) (list : σ → List (PolicyNode δ)) :
    List (Visit δ) → σ → Prop
  | init {s : σ} (v : Visit δ) (env : InitEnv δ) (hempty : list s = []) (hv : v.Loads md5 env) :
      History md5 init sync list [v] (init env s).1
  | pass {hist : List (Visit δ)} {s s' : σ} (v : Visit δ) (env : PolicyEnv δ)
      (hs : History md5 init sync list hist s) (hv : v.Lists md5 env)
      (hdetects : Detects md5 hist v) (h : sync env s = some s') :
      History md5 init sync list (v :: hist) s'
  | other {hist : List (Visit δ)} {s s' : σ} (hs : History md5 init sync list hist s)
      (h : list s' = list s) : History md5 init sync list hist s'

def DistinctIds (l : List (PolicyNode δ)) : Prop := (l.map PolicyNode.id).Nodup

/-- What holds of one of the lists, over every history: no id is ever twice in it, and its
passes return; after a visit each row has its node, with its columns; and a node without a row
is gone once a pass starts more than 90 seconds after the last visit that saw the row. -/
structure Converges (md5 : δ → Md5) (init : InitEnv δ → σ → σ × Bool)
    (sync : PolicyEnv δ → σ → Option σ) (list : σ → List (PolicyNode δ)) : Prop where
  loading : ∀ (v : Visit δ) env rows, v.Loads md5 env → env.rows = some rows →
    Run.Always (fun l node => some (loadPolicyRow l node)) DistinctIds [] rows
  listing : ∀ hist s v env rows, History md5 init sync list hist s → v.Lists md5 env →
    Detects md5 hist v → env.rows = some rows →
      Run.Always (syncPolicyRow fun _ => true) DistinctIds (list s) rows
  sweeping : ∀ hist s v env rows l, History md5 init sync list hist s → v.Lists md5 env →
    Detects md5 hist v → env.rows = some rows →
      Run.exec (syncPolicyRow fun _ => true) (list s) rows = some l →
        ∀ n, DistinctIds (sweepPolicy env.age 0 (l.take n) l)
  unique : ∀ hist s, History md5 init sync list hist s → DistinctIds (list s)
  returns : ∀ hist s v env, History md5 init sync list hist s → v.Lists md5 env →
    Detects md5 hist v → ∃ s', sync env s = some s'
  listed : ∀ hist v s, History md5 init sync list (v :: hist) s → ∀ r ∈ v.table, ∃ node,
    ((list s).filter fun node => node.id = r.id) = [node] ∧ node.data = r.row ∧
      node.md5 = md5 r.row
  gone : ∀ hist v w s id, History md5 init sync list (v :: hist) s → ¬ v.Sees id →
    lastSaw hist id = some w → 90 < v.start - w.finish → ∀ node ∈ list s, node.id ≠ id

end

section
variable {δ σ : Type} {md5 : δ → Md5} {v : Visit δ} {hist : List (Visit δ)}
  {l l' : List (PolicyNode δ)}

theorem age_within {start finish live read : Int} (hlive : start ≤ live) (hread : read ≤ finish)
    (hshort : finish - start < 90) : read - live ≤ 90 := by
  omega

theorem age_since {start live read : Int} (hread : start ≤ read) (hlive : read - live ≤ 90) :
    start - live ≤ 90 := by
  omega

theorem age_over {start finish live : Int} (hlive : live ≤ finish) (hlong : 90 < start - finish) :
    90 < start - live := by
  omega

theorem foldl_loadPolicyRow (rows l : List (PolicyNode δ)) :
    rows.foldl loadPolicyRow l = l ++ rows := by
  induction rows generalizing l with
  | nil => simp
  | cons node rows ih => simp [ih, loadPolicyRow]

theorem always_load (l rows : List (PolicyNode δ)) (h : DistinctIds (l ++ rows)) :
    Run.Always (fun l node => some (loadPolicyRow l node)) DistinctIds l rows := by
  have hl : DistinctIds l := by
    rw [DistinctIds, List.map_append] at h
    exact (List.nodup_append.mp h).1
  induction rows generalizing l with
  | nil => exact hl
  | cons node rows ih =>
    refine ⟨hl, ?_⟩
    intro l' hl'
    cases hl'
    have hrest : DistinctIds ((l ++ [node]) ++ rows) := by
      rw [List.append_assoc]
      exact h
    apply ih (l ++ [node]) hrest
    rw [DistinctIds, List.map_append] at hrest
    exact (List.nodup_append.mp hrest).1

theorem Visit.sees_of_mem {r : DefRow δ} (hr : r ∈ v.table) : v.Sees r.id :=
  List.mem_map_of_mem hr

theorem lastSaw_cons_of_sees {id : IpId} (h : v.Sees id) :
    lastSaw (v :: hist) id = some v := by
  simp [lastSaw, h]

theorem lastSaw_cons_of_not {id : IpId} (h : ¬ v.Sees id) :
    lastSaw (v :: hist) id = lastSaw hist id := by
  simp [lastSaw, h]

/-- No row of a listing brings an id into the list twice, whatever it is answered. -/
theorem syncPolicyRow_unique {accepts : δ → Bool} {row : PolicyRow δ} (hl : DistinctIds l)
    (h : syncPolicyRow accepts l row = some l') : DistinctIds l' := by
  rcases syncPolicyRow_cases h with ⟨node, node', hf, hwritten, rfl⟩ | ⟨hf, hinsert⟩
  · obtain ⟨-, hid⟩ := policyFind_some hf
    have hid' : node'.id = row.id := by
      rcases hwritten with ⟨-, rfl⟩ | ⟨-, hu⟩
      · exact hid
      · exact (updatePolicy_id hu).trans hid
    have hstamped : { node' with timeLive := row.now : PolicyNode δ }.id = row.id := hid'
    rw [DistinctIds, Keyed.map_key_put hstamped]
    exact hl
  · rcases insertPolicy_cases hinsert with ⟨rfl, -⟩ | ⟨rec, -, rfl⟩
    · exact hl
    · have hputs : Keyed.Puts PolicyNode.id row.id (fun _ => True) True l
          (l ++ [⟨row.id, rec.data, rec.md5, row.query.now⟩]) :=
        Keyed.Puts.append hl (policyFind_none hf) rfl trivial
      exact hputs.nodup

theorem sweepPolicy_unique (hl : DistinctIds l) (age : Nat → TimeT) (ns : List (PolicyNode δ)) :
    DistinctIds (sweepPolicy age 0 ns l) := by
  rw [sweepPolicy_sweep]
  have hsub : (Aged.sweep PolicyNode.id (fun i n => expired age i n.timeLive) 0 ns l).Sublist l :=
    Aged.sweep_sublist _ 0 ns l
  exact hl.sublist (hsub.map PolicyNode.id)

/-- What the history says of a list: each node is the row that the last visit to see it saw. -/
structure Recorded (md5 : δ → Md5) (hist : List (Visit δ)) (l : List (PolicyNode δ)) : Prop where
  unique : DistinctIds l
  seen : ∀ node ∈ l, ∃ w, lastSaw hist node.id = some w ∧ node.timeLive ≤ w.finish ∧
    ∃ r ∈ w.table, r.id = node.id ∧ node.data = r.row ∧ node.md5 = md5 r.row

/-- What one visit does to a list. -/
structure Visited (md5 : δ → Md5) (v : Visit δ) (l l' : List (PolicyNode δ)) : Prop where
  unique : DistinctIds l'
  shown : ∀ r ∈ v.table, ∃ node ∈ l', node.id = r.id
  right : ∀ r ∈ v.table, ∀ node ∈ l', node.id = r.id → node.data = r.row ∧
    node.md5 = md5 r.row ∧ node.timeLive ≤ v.finish
  kept : ∀ node ∈ l', ¬ v.Sees node.id → node ∈ l ∧ v.start - node.timeLive ≤ 90

theorem Recorded.visit (h : Recorded md5 hist l) (hv : Visited md5 v l l') :
    Recorded md5 (v :: hist) l' := by
  refine ⟨hv.unique, ?_⟩
  intro node hm
  by_cases hsees : v.Sees node.id
  · obtain ⟨r, hr, hid⟩ := List.mem_map.mp hsees
    obtain ⟨hdata, hmd5, hlive⟩ := hv.right r hr node hm hid.symm
    exact ⟨v, lastSaw_cons_of_sees hsees, hlive, r, hr, hid, hdata, hmd5⟩
  · obtain ⟨hold, -⟩ := hv.kept node hm hsees
    rw [lastSaw_cons_of_not hsees]
    exact h.seen node hold

theorem Visited.load {env : InitEnv δ} (hv : v.Loads md5 env) :
    Visited md5 v [] (loadPolicyList env []).1 := by
  obtain ⟨hopened, order, now, hperm, hrows, hclock⟩ := hv
  have hlist : (loadPolicyList env []).1 = order.map (DefRow.loaded md5 now) := by
    simp [loadPolicyList, hopened, hrows, foldl_loadPolicyRow]
  have hids : DistinctIds (order.map (DefRow.loaded md5 now)) := by
    have horder : (order.map DefRow.id).Nodup := ((hperm.map DefRow.id).nodup_iff).mpr v.ids
    rw [DistinctIds, List.map_map]
    exact horder
  rw [hlist]
  refine ⟨hids, ?_, ?_, ?_⟩
  · intro r hr
    have hmem : r.loaded md5 now ∈ order.map (DefRow.loaded md5 now) :=
      List.mem_map_of_mem (hperm.mem_iff.mpr hr)
    exact ⟨r.loaded md5 now, hmem, rfl⟩
  · intro r hr node hm hid
    obtain ⟨r', hr', rfl⟩ := List.mem_map.mp hm
    have hsame : r' = r := List.inj_on_of_nodup_map v.ids (hperm.mem_iff.mp hr') hr hid
    subst hsame
    exact ⟨rfl, rfl, (hclock r' hr').2⟩
  · intro node hm hno
    obtain ⟨r, hr, rfl⟩ := List.mem_map.mp hm
    exact absurd (Visit.sees_of_mem (hperm.mem_iff.mp hr)) hno

theorem shown_returns (queried now : DefRow δ → TimeT) (r : DefRow δ) (l : List (PolicyNode δ)) :
    ∃ l', syncPolicyRow (fun _ => true) l (r.shown md5 queried now) = some l' := by
  rw [syncPolicyRow]
  cases policyFind l (r.shown md5 queried now).id with
  | none => exact ⟨_, rfl⟩
  | some node =>
    by_cases hmd5 : node.md5 = md5 r.row
    · simp [DefRow.shown, hmd5]
    · simp [DefRow.shown, hmd5, updatePolicy]

/-- A pass over a recorded list returns, and visits it. -/
theorem Recorded.pass (h : Recorded md5 hist l) {env : PolicyEnv δ} (hv : v.Lists md5 env)
    (hdetects : Detects md5 hist v) :
    ∃ l', syncPolicyList (fun _ => true) env l = some l' ∧ Visited md5 v l l' := by
  obtain ⟨hopened, hshort, hage, order, queried, now, hperm, hrows, hclock⟩ := hv
  obtain ⟨l1, hl1⟩ : ∃ l1, Run.exec (syncPolicyRow fun _ => true) l
      (order.map (DefRow.shown md5 queried now)) = some l1 := by
    apply Run.exec_returns
    intro row hrow s
    obtain ⟨r, -, rfl⟩ := List.mem_map.mp hrow
    exact shown_returns queried now r s
  have hlist : syncPolicyList (fun _ => true) env l =
      some (Aged.sweep PolicyNode.id (fun i n => expired env.age i n.timeLive) 0 l1 l1) := by
    simp only [syncPolicyList, hopened, hrows, if_true, hl1, Option.map_some, sweepPolicy_sweep]
  have horder : (order.map DefRow.id).Nodup := ((hperm.map DefRow.id).nodup_iff).mpr v.ids
  have hknows : ∀ r ∈ order, ∀ node ∈ l, node.id = r.id →
      node.md5 = md5 r.row → node.data = r.row := by
    intro r hr node hm hid hmd5
    obtain ⟨w, hw, -, old, hold, hidold, hdata, hmd5old⟩ := h.seen node hm
    rw [hid] at hw hidold
    rw [hdata]
    exact hdetects r (hperm.mem_iff.mp hr) w hw old hold hidold (hmd5old.symm.trans hmd5)
  let right : DefRow δ → PolicyNode δ → Prop := fun r node => node.data = r.row ∧
    node.md5 = md5 r.row ∧ (node.timeLive = now r ∨ node.timeLive = queried r)
  have hstep : ∀ r ∈ order, ∀ l l' : List (PolicyNode δ), (l.map PolicyNode.id).Nodup →
      (∀ node ∈ l, node.id = r.id → node.md5 = md5 r.row → node.data = r.row) →
      syncPolicyRow (fun _ => true) l (r.shown md5 queried now) = some l' →
      Keyed.Puts PolicyNode.id r.id (right r) True l l' := by
    intro r _ l l' hnodup hbefore hs
    have hquery : (r.shown md5 queried now).query =
        ⟨true, some (some ⟨r.row, md5 r.row⟩), queried r⟩ := rfl
    exact syncPolicyRow_puts hquery rfl rfl hnodup hbefore hs
  have hstamp : ∀ r ∈ order, ∀ node, right r node → v.During node.timeLive := by
    intro r hr node hright
    cases hright.2.2 with
    | inl hnow => exact hnow ▸ (hclock r hr).2
    | inr hqueried => exact hqueried ▸ (hclock r hr).1
  have hfresh : ∀ r ∈ order, ∀ node, right r node → ∀ i,
      expired env.age i node.timeLive = false := by
    intro r hr node hright i
    rw [expired_eq_false_iff]
    exact age_within (hstamp r hr node hright).1 (hage i).2 hshort
  have hexec := hl1
  rw [Run.exec_map] at hexec
  obtain ⟨hunique1, -, hothers, -, -⟩ :=
    Keyed.exec_puts (fun l => l) DefRow.id hstep h.unique horder hknows hexec
  obtain ⟨hunique, hright, hshown⟩ :=
    Keyed.sweep_puts (fun l => l) DefRow.id hstep h.unique horder hknows hfresh hexec
  refine ⟨_, hlist, hunique, ?_, ?_, ?_⟩
  · intro r hr
    exact hshown r (hperm.mem_iff.mpr hr) trivial
  · intro r hr node hm hid
    have hr' : r ∈ order := hperm.mem_iff.mpr hr
    have hnode := hright r hr' node hm hid
    exact ⟨hnode.1, hnode.2.1, (hstamp r hr' node hnode).2⟩
  · -- the sweep reads the clock for such a node after the pass has started
    intro node hm hno
    have hin : node ∈ l1 := (Aged.sweep_sublist _ 0 l1 l1).subset hm
    have hnew : ∀ r ∈ order, node.id ≠ r.id := by
      intro r hr hid
      exact hno (hid ▸ Visit.sees_of_mem (hperm.mem_iff.mp hr))
    refine ⟨(hothers node hnew).mp hin, ?_⟩
    obtain ⟨i, other, hget, hid, hkept⟩ :=
      (Aged.exists_mem_sweep_iff PolicyNode.id _ node.id l1).mp ⟨node, hm, rfl⟩
    have hsame : other = node :=
      List.inj_on_of_nodup_map hunique1 (List.mem_of_getElem? hget) hin hid
    rw [hsame, expired_eq_false_iff] at hkept
    exact age_since (hage i).1 hkept

section
variable {init : InitEnv δ → σ → σ × Bool} {sync : PolicyEnv δ → σ → Option σ}
  {list : σ → List (PolicyNode δ)}

/-- At every point of a history, the list is what the last visit made of a recorded one. -/
theorem History.visited {s : σ}
    (hinit : ∀ env s, list (init env s).1 = (loadPolicyList env (list s)).1)
    (hsync : ∀ env s, (sync env s).map list = syncPolicyList (fun _ => true) env (list s))
    (h : History md5 init sync list hist s) : ∃ v before l, hist = v :: before ∧
      Recorded md5 before l ∧ Visited md5 v l (list s) := by
  induction h with
  | @init s v env hempty hv =>
    have hnone : Recorded md5 [] ([] : List (PolicyNode δ)) := ⟨List.nodup_nil, by simp⟩
    refine ⟨v, [], [], rfl, hnone, ?_⟩
    rw [hinit, hempty]
    exact Visited.load hv
  | @pass hist s s' v env hs hv hdetects h ih =>
    obtain ⟨w, before, l, rfl, hl, hw⟩ := ih
    have hrecorded : Recorded md5 (w :: before) (list s) := hl.visit hw
    obtain ⟨l', hpass, hvisited⟩ := hrecorded.pass hv hdetects
    have hlist := hsync env s
    rw [h, hpass, Option.map_some] at hlist
    refine ⟨v, w :: before, list s, rfl, hrecorded, ?_⟩
    rw [Option.some.inj hlist]
    exact hvisited
  | other hs h ih =>
    rw [h]
    exact ih

theorem History.recorded {s : σ}
    (hinit : ∀ env s, list (init env s).1 = (loadPolicyList env (list s)).1)
    (hsync : ∀ env s, (sync env s).map list = syncPolicyList (fun _ => true) env (list s))
    (h : History md5 init sync list hist s) : Recorded md5 hist (list s) := by
  obtain ⟨v, before, l, rfl, hl, hv⟩ := h.visited hinit hsync
  exact hl.visit hv

/-- For a module that keeps the list by the common bodies. -/
theorem converges_of (hinit : ∀ env s, list (init env s).1 = (loadPolicyList env (list s)).1)
    (hsync : ∀ env s, (sync env s).map list = syncPolicyList (fun _ => true) env (list s)) :
    Converges md5 init sync list := by
  have hrow : ∀ (l : List (PolicyNode δ)) (row : PolicyRow δ) l', DistinctIds l → True →
      syncPolicyRow (fun _ => true) l row = some l' → DistinctIds l' :=
    fun _ _ _ hl _ h => syncPolicyRow_unique hl h
  have halways (l : List (PolicyNode δ)) (rows : List (PolicyRow δ)) (hl : DistinctIds l) :
      Run.Always (syncPolicyRow fun _ => true) DistinctIds l rows :=
    Run.always_of_invariant hrow hl (Run.guarded_of_forall (fun _ _ _ => trivial) l)
  constructor
  · intro v env rows hv hrows
    have hloaded := (Visited.load hv).unique
    obtain ⟨hopened, -⟩ := hv
    have hlist : (loadPolicyList env []).1 = rows := by
      simp [loadPolicyList, hopened, hrows, foldl_loadPolicyRow]
    rw [hlist] at hloaded
    exact always_load [] rows hloaded
  · intro hist s v env rows h _ _ _
    exact halways (list s) rows (h.recorded hinit hsync).unique
  · intro hist s v env rows l h _ _ _ hexec n
    have hlisted : DistinctIds l := Run.exec_invariant hrow (h.recorded hinit hsync).unique
      (Run.guarded_of_forall (fun _ _ _ => trivial) (list s)) hexec
    exact sweepPolicy_unique hlisted env.age (l.take n)
  · intro hist s h
    exact (h.recorded hinit hsync).unique
  · intro hist s v env h hv hdetects
    obtain ⟨l', hpass, -⟩ := (h.recorded hinit hsync).pass hv hdetects
    have hlist := hsync env s
    rw [hpass, Option.map_eq_some_iff] at hlist
    obtain ⟨s', hs', -⟩ := hlist
    exact ⟨s', hs'⟩
  · intro hist v s h r hr
    obtain ⟨v', before, l, heq, -, hv⟩ := h.visited hinit hsync
    cases heq
    obtain ⟨node, hm, hid⟩ := hv.shown r hr
    obtain ⟨hdata, hmd5, -⟩ := hv.right r hr node hm hid
    exact ⟨node, Keyed.filter_eq_singleton hv.unique hm hid, hdata, hmd5⟩
  · intro hist v w s id h hno hw hlong node hm hid
    obtain ⟨v', before, l, heq, hl, hv⟩ := h.visited hinit hsync
    cases heq
    obtain ⟨hold, hage⟩ := hv.kept node hm (hid ▸ hno)
    obtain ⟨w', hw', hlive, -⟩ := hl.seen node hold
    rw [hid, hw] at hw'
    cases hw'
    exact absurd hage (not_le.mpr (age_over hlive hlong))

end

end

/-- The five lists of the time policies converge to their tables and keep their ids unique, for
any fingerprints. -/
theorem policy_lists_converge (md5Ref : PolicyRef → Md5) (md5Time : TimeDef → Md5) :
    Converges md5Ref TimePolicy.initUsersList TimePolicy.syncUsersList (·.policyUsers) ∧
    Converges md5Ref TimePolicy.initGroupUsersList TimePolicy.syncGroupUsersList
      (·.policyGroupUsers) ∧
    Converges md5Ref TimePolicy.initTypeTrafficList TimePolicy.syncTypeTrafficList
      (·.policyTypeTraffic) ∧
    Converges md5Ref TimePolicy.initGroupTrafficList TimePolicy.syncGroupTrafficList
      (·.policyGroupTraffic) ∧
    Converges md5Time TimePolicy.initPolicyList TimePolicy.syncTimeList (·.policyTime) := by
  refine ⟨?_, ?_, ?_, ?_, ?_⟩
  · apply converges_of
    · exact fun _ _ => rfl
    · simp [TimePolicy.syncUsersList, Function.comp_def]
  · apply converges_of
    · exact fun _ _ => rfl
    · simp [TimePolicy.syncGroupUsersList, Function.comp_def]
  · apply converges_of
    · exact fun _ _ => rfl
    · simp [TimePolicy.syncTypeTrafficList, Function.comp_def]
  · apply converges_of
    · exact fun _ _ => rfl
    · simp [TimePolicy.syncGroupTrafficList, Function.comp_def]
  · apply converges_of
    · exact fun _ _ => rfl
    · simp [TimePolicy.syncTimeList, Function.comp_def]

def noPolicies : TimePolicy := ⟨[], [], [], [], []⟩

/-- User 7 has a row at the start and none 100 seconds later. -/
def withUser : Visit PolicyRef := ⟨[⟨7, ⟨1, 0⟩⟩], by decide, 0, 1⟩

def withoutUser : Visit PolicyRef := ⟨[], by decide, 100, 110⟩

theorem policy_lists_converge_gone : ∃ s, TimePolicy.syncUsersList ⟨true, some [], fun _ => 105⟩
    (TimePolicy.initUsersList ⟨true, some [⟨7, ⟨1, 0⟩, 5, 1⟩]⟩ noPolicies).1 = some s ∧
      ∀ node ∈ s.policyUsers, node.id ≠ 7 := by
  have hconverges := (policy_lists_converge (fun _ => 5) fun _ => 5).1
  have hloaded : withUser.During 1 := by decide
  have hswept : withoutUser.During 105 := by decide
  have hstart : withUser.Loads (fun _ => 5) ⟨true, some [⟨7, ⟨1, 0⟩, 5, 1⟩]⟩ :=
    ⟨rfl, withUser.table, fun _ => 1, List.Perm.refl _, rfl, fun _ _ => hloaded⟩
  have hpass : withoutUser.Lists (fun _ => 5) ⟨true, some [], fun _ => 105⟩ :=
    ⟨rfl, by decide, fun _ => hswept, [], fun _ => 0, fun _ => 0, List.Perm.refl _, rfl, by simp⟩
  have hfirst : History (fun _ => 5) TimePolicy.initUsersList TimePolicy.syncUsersList
      (·.policyUsers) [withUser]
      (TimePolicy.initUsersList ⟨true, some [⟨7, ⟨1, 0⟩, 5, 1⟩]⟩ noPolicies).1 :=
    .init withUser _ rfl hstart
  have hsecond := History.pass withoutUser _ hfirst hpass (by simp [Detects, withoutUser]) rfl
  exact ⟨_, rfl, hconverges.gone [withUser] withoutUser withUser _ 7 hsecond (by decide) rfl
    (by decide)⟩

end IPStat
