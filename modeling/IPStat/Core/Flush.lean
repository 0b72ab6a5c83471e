import IPStat.Core.UserTraffic
import IPStat.Lib.Keyed

namespace IPStat

/-- Every statement of an export goes through, and its select finds the row and a Price. -/
def ExportEnv.Succeeds (e : ExportEnv) : Prop := e = ⟨true, true, true, true, true, true, true, true⟩

structure RulesTrafficEnv.Succeeds (env : RulesTrafficEnv) : Prop where
  opened : env.opened = true
  exports : ∀ j, (env.exports j).Succeeds

structure LoadEnv.Succeeds (env : LoadEnv) : Prop where
  opened : env.opened = true
  rows : env.rows ≠ none

structure UpdateEnv.Succeeds (env : UpdateEnv) : Prop where
  opened : env.opened = true
  unload : env.unload.Succeeds
  rows : env.rows ≠ none
  load : env.load.Succeeds

structure InsertEnv.Succeeds (env : InsertEnv) : Prop where
  opened : env.opened = true
  rows : ∃ rows, env.rows = some rows ∧ ∀ row ∈ rows, row.load.Succeeds

structure ListingRow.Succeeds (row : ListingRow) : Prop where
  rulesOpened : row.rulesSync.opened = true
  rulesRows : row.rulesSync.rows ≠ none
  update : row.update.Succeeds
  insert : row.insert.Succeeds

structure SyncEnv.Succeeds (env : SyncEnv) : Prop where
  opened : env.opened = true
  rows : ∃ rows, env.rows = some rows ∧ ∀ row ∈ rows, row.Succeeds
  trafficOpened : env.traffic.opened = true
  exported : ∀ i, (env.traffic.nodes i).exported = true
  rules : ∀ i, (env.traffic.nodes i).rules.Succeeds

/-- No rule of the user has bytes pending. -/
def NodeUser.Quiet (node : NodeUser) : Prop := ∀ rule ∈ node.idRules, rule.traffic = 0

def Users.Flushed (users : Users) : Prop :=
  ∀ node ∈ users.idUsers, node.traffic = 0 ∧ node.Quiet

/-- A listing reloads a user: by the fingerprint of its row or by what rules_sync answers, for the
first row of the user that asks for it. -/
def Reloads : List ListingRow → NodeUser → Prop
  | [], _ => False
  | row :: rows, node =>
    if row.id = node.id then
      (syncCheck row node).2 = true ∨
        Reloads rows { node with idRules := (syncCheck row node).1, timeLive := row.now }
    else Reloads rows node

/-- The sweep of a pass takes out the user at a place: it finds more entries of its id expired, by
the stamps that the listing leaves, than stand before it. -/
def SweptOut (env : SyncEnv) (d : Core) (j : Nat) (id : IpId) : Prop :=
  (d.users.idUsers.take j).countP (·.id = id) <
    (Aged.restampBy (Aged.lastTouch id env.touches)
      (Aged.stamps NodeUser.id NodeUser.timeLive id d.users.idUsers)).zipIdx.countP
        fun q => q.1.any (expired env.sweep.age q.2)

section
variable {d d' : Core} {node node' : NodeUser} {row : ListingRow}

theorem rulesMysqlExport_succeeds {e : ExportEnv} (h : e.Succeeds) (noSum : Bool) :
    rulesMysqlExport e noSum = some true := by
  rw [h]
  cases noSum with
  | true => rfl
  | false => rfl

theorem rulesSyncTraffic_quiet {env : RulesTrafficEnv} (h : env.Succeeds) {b : Bool}
    {rs rs' : List NodeRule} {c c' : IpId → IpSize}
    (hs : rulesSyncTraffic env rs c = some (b, rs', c')) : ∀ rule ∈ rs', rule.traffic = 0 := by
  obtain ⟨hclosed, -⟩ | ⟨-, -, he⟩ := rulesSyncTraffic_cases hs
  · rw [h.opened] at hclosed
    cases hclosed
  · apply exportRules_drained _ he
    intro i rule _ _ hrefused
    rw [rulesMysqlExport_succeeds (h.exports (0 + i))] at hrefused
    cases hrefused

theorem stampRule_traffic (key : IpId) (now : TimeT) (rs : List NodeRule) :
    (stampRule key now rs).map NodeRule.traffic = rs.map NodeRule.traffic := by
  induction rs with
  | nil => rfl
  | cons rule rs ih =>
    unfold stampRule at ih ⊢
    by_cases hk : rule.id = key
    · simp [List.replaceF, hk]
    · simp [List.replaceF, hk, ih]

theorem rulesSyncRows_traffic (rows : List RulesSyncRow) (rs : List NodeRule) (flag : Bool) :
    (rulesSyncRows rows rs flag).1.map NodeRule.traffic = rs.map NodeRule.traffic := by
  induction rows generalizing rs flag with
  | nil => rfl
  | cons row rows ih =>
    rw [rulesSyncRows]
    split
    · split_ifs
      · exact ih rs true
      · rw [ih, stampRule_traffic]
    · exact ih rs true

theorem syncCheck_traffic (row : ListingRow) (node : NodeUser) :
    (syncCheck row node).1.map NodeRule.traffic = node.idRules.map NodeRule.traffic := by
  rw [syncCheck, rulesSync]
  split_ifs
  · rfl
  · cases row.rulesSync.rows with
    | none => rfl
    | some rows => exact rulesSyncRows_traffic rows node.idRules false
  · rfl

theorem quiet_iff_traffic (node : NodeUser) :
    node.Quiet ↔ ∀ t ∈ node.idRules.map NodeRule.traffic, t = 0 := by
  rw [List.forall_mem_map]
  rfl

/-- A row that reloads its user leaves it quiet; one that does not leaves its rules' counters. -/
theorem syncNode_quiet (hok : row.Succeeds) {c c' : IpId → IpSize}
    (h : syncNode row node c = some (node', c')) :
    ((syncCheck row node).2 = true ∧ node'.Quiet) ∨
      (syncCheck row node).2 = false ∧
        node' = { node with idRules := (syncCheck row node).1, timeLive := row.now } := by
  obtain ⟨node1, rfl, ⟨hkeep, rfl, -⟩ | ⟨hreload, hu⟩⟩ := syncNode_cases h
  · exact .inr ⟨hkeep, rfl⟩
  · refine .inl ⟨hreload, ?_⟩
    obtain ⟨hclosed, -⟩ | ⟨-, -, -, rules, hunload, hrules⟩ := updateNode_cases hu
    · rw [hok.update.opened] at hclosed
      cases hclosed
    · have hempty : rules = [] := by
        obtain ⟨hclosed, -⟩ | ⟨-, hnil, -⟩ := rulesMysqlUnload_cases hunload
        · rw [hok.update.unload.opened] at hclosed
          cases hclosed
        · exact hnil
      subst hempty
      change ∀ rule ∈ node1.idRules, rule.traffic = 0
      obtain hrules | hrules := hrules
      · rw [hrules]
        simp
      · rw [hrules]
        exact rulesMysqlLoad_zero (by simp)

/-- The ids of id_users, in order. -/
def Core.ids (d : Core) : List IpId := d.users.idUsers.map NodeUser.id

/-- A row of the listing appends ids, if anything. -/
theorem usersSyncRow_ids (h : usersSyncRow d row = some d') : d.ids <+: d'.ids := by
  obtain ⟨-, rfl⟩ | ⟨node, node', c, hu, hn, rfl⟩ := usersSyncRow_cases h
  · obtain ⟨new, hids, -⟩ := usersMysqlInsert_new row.insert row.id d.users
    refine ⟨new.map NodeUser.id, ?_⟩
    change d.ids ++ _ = (usersMysqlInsert row.insert row.id d.users).idUsers.map NodeUser.id
    rw [hids, List.map_append]
    rfl
  · obtain ⟨hid, -⟩ := syncNode_frame hn
    have hkey := usersFind_id hu
    have hsame : (d.users.modify row.id fun _ => node').idUsers.map NodeUser.id = d.ids :=
      Keyed.map_key_put (hid.trans hkey) d.users.idUsers
    exact ⟨[], by rw [List.append_nil]; exact hsame.symm⟩

/-- What a row does to the user at a place: the one it finds goes through the body of the loop. -/
theorem usersSyncRow_at {j : Nat} (h : usersSyncRow d row = some d')
    (hj : d.users.idUsers[j]? = some node) :
    (Keyed.FirstAt d.ids j row.id ∧ ∃ node' c c', syncNode row node c = some (node', c') ∧
        d'.users.idUsers[j]? = some node') ∨
      ¬ Keyed.FirstAt d.ids j row.id ∧ d'.users.idUsers[j]? = some node := by
  obtain ⟨hu, rfl⟩ | ⟨found, node', c, hu, hn, rfl⟩ := usersSyncRow_cases h
  · have hnone := usersFind_none hu
    refine .inr ⟨?_, ?_⟩
    · intro hfirst
      obtain ⟨n, hm, hid⟩ := List.mem_map.mp (List.mem_of_getElem? hfirst.here)
      exact hnone n hm hid
    · obtain ⟨new, hids, -⟩ := usersMysqlInsert_new row.insert row.id d.users
      change (usersMysqlInsert row.insert row.id d.users).idUsers[j]? = some node
      rw [hids, List.getElem?_append_left (List.getElem?_eq_some_iff.mp hj).1]
      exact hj
  · by_cases hfirst : Keyed.FirstAt d.ids j row.id
    · have hfound : usersFind d.users row.id = some node := (Keyed.find?_first hfirst).trans hj
      cases hu.symm.trans hfound
      refine .inl ⟨hfirst, node', d.ledger.rulesCommitted, c, hn, ?_⟩
      change (d.users.idUsers.replaceF _)[j]? = _
      rw [Keyed.getElem?_replaceF_first (fun _ => node') hfirst, hj, Option.map_some]
    · refine .inr ⟨hfirst, ?_⟩
      change (d.users.idUsers.replaceF _)[j]? = _
      rw [Keyed.getElem?_replaceF_other (fun _ => node') hfirst]
      exact hj

/-- What a listing leaves at a place: the id and counter of the user, and rules without bytes
exactly where there were none or the listing finds the user there and reloads it. -/
theorem exec_usersSyncRow_at {rows : List ListingRow} {j : Nat} (hok : ∀ row ∈ rows, row.Succeeds)
    (h : Run.exec usersSyncRow d rows = some d') (hj : d.users.idUsers[j]? = some node) :
    d.ids <+: d'.ids ∧ ∃ node', d'.users.idUsers[j]? = some node' ∧ node'.id = node.id ∧
      node'.traffic = node.traffic ∧
      (node'.Quiet ↔ node.Quiet ∨ Keyed.FirstAt d.ids j node.id ∧ Reloads rows node) := by
  induction rows generalizing d node with
  | nil =>
    cases h
    refine ⟨List.prefix_refl _, node, hj, rfl, rfl, ?_⟩
    simp only [Reloads, and_false, or_false]
  | cons row rows ih =>
    obtain ⟨d1, hs, hrest⟩ := Run.exec_cons_some h
    have hids := usersSyncRow_ids hs
    have hlt : j < d.ids.length := by
      rw [Core.ids, List.length_map]
      exact (List.getElem?_eq_some_iff.mp hj).1
    have hfirst (k : IpId) : Keyed.FirstAt d1.ids j k ↔ Keyed.FirstAt d.ids j k :=
      Keyed.firstAt_prefix hids hlt
    have hrows : ∀ row ∈ rows, row.Succeeds := fun r hr => hok r (List.mem_cons_of_mem row hr)
    obtain ⟨hat, node1, c, c', hn, hj1⟩ | ⟨hnot, hj1⟩ := usersSyncRow_at hs hj
    · obtain ⟨hgrown, node', hj', hid', htraffic', hquiet⟩ := ih hrows hrest hj1
      obtain ⟨hid, htraffic, -⟩ := syncNode_frame hn
      have hkey : row.id = node.id := by
        have hhere := hat.here
        rw [Core.ids, List.getElem?_map, hj] at hhere
        exact (Option.some.inj hhere).symm
      refine ⟨hids.trans hgrown, node', hj', hid'.trans hid, htraffic'.trans htraffic, ?_⟩
      rw [hquiet, hfirst, hid, ← hkey, Reloads, if_pos hkey]
      obtain ⟨hreload, hdone⟩ | ⟨hkeep, rfl⟩ := syncNode_quiet (hok row List.mem_cons_self) hn
      · simp only [hdone, hreload, hat, true_or, or_true, and_true]
      · have hsame : ({ node with idRules := (syncCheck row node).1, timeLive := row.now } :
            NodeUser).Quiet ↔ node.Quiet := by
          rw [quiet_iff_traffic, quiet_iff_traffic, ← syncCheck_traffic row node]
        rw [hsame, hkeep]
        simp only [Bool.false_eq_true, false_or]
    · obtain ⟨hgrown, node', hj', hid', htraffic', hquiet⟩ := ih hrows hrest hj1
      refine ⟨hids.trans hgrown, node', hj', hid', htraffic', ?_⟩
      rw [hquiet, hfirst, Reloads]
      split_ifs with hkey
      · rw [hkey] at hnot
        simp only [hnot, false_and, or_false]
      · rfl

/-- A row that finds a user without bytes leaves it so. -/
theorem syncNode_flushed (hok : row.Succeeds) {c c' : IpId → IpSize}
    (h : syncNode row node c = some (node', c')) (hf : node.traffic = 0 ∧ node.Quiet) :
    node'.traffic = 0 ∧ node'.Quiet := by
  obtain ⟨-, htraffic, -⟩ := syncNode_frame h
  refine ⟨htraffic.trans hf.1, ?_⟩
  obtain ⟨-, hdone⟩ | ⟨-, rfl⟩ := syncNode_quiet hok h
  · exact hdone
  · apply (quiet_iff_traffic _).mpr
    change ∀ t ∈ (syncCheck row node).1.map NodeRule.traffic, t = 0
    rw [syncCheck_traffic]
    exact (quiet_iff_traffic node).mp hf.2

/-- The users that a listing adds have no bytes pending. -/
theorem exec_usersSyncRow_new {rows : List ListingRow} (hok : ∀ row ∈ rows, row.Succeeds)
    (h : Run.exec usersSyncRow d rows = some d') {j : Nat} (hlen : d.users.idUsers.length ≤ j)
    (hj : d'.users.idUsers[j]? = some node) : node.traffic = 0 ∧ node.Quiet := by
  let inv (s : Core) : Prop := ∀ j node, d.users.idUsers.length ≤ j →
    s.users.idUsers[j]? = some node → node.traffic = 0 ∧ node.Quiet
  have hstep : ∀ s row s', inv s → row.Succeeds → usersSyncRow s row = some s' → inv s' := by
    intro s row s' hi hrow hs j node' hlen hj'
    by_cases hlt : j < s.users.idUsers.length
    · have hold := hi j _ hlen (List.getElem?_eq_getElem hlt)
      obtain ⟨-, node1, c, c', hn, hj1⟩ | ⟨-, hj1⟩ :=
        usersSyncRow_at hs (List.getElem?_eq_getElem hlt)
      · cases hj1.symm.trans hj'
        exact syncNode_flushed hrow hn hold
      · cases hj1.symm.trans hj'
        exact hold
    · obtain ⟨-, rfl⟩ | ⟨found, node1, c, -, -, rfl⟩ := usersSyncRow_cases hs
      · obtain ⟨new, hids, -, hnew⟩ := usersMysqlInsert_new row.insert row.id s.users
        change (usersMysqlInsert row.insert row.id s.users).idUsers[j]? = some node' at hj'
        rw [hids, List.getElem?_append_right (Nat.le_of_not_lt hlt)] at hj'
        exact (hnew node' (List.mem_of_getElem? hj')).2
      · have hlength : (s.users.modify row.id fun _ => node1).idUsers.length =
            s.users.idUsers.length := List.length_replaceF
        have hnone := (List.getElem?_eq_some_iff.mp hj').1
        exact absurd (hlength ▸ hnone) hlt
  have hinit : inv d := by
    intro j node hlen hj
    exact absurd (List.getElem?_eq_some_iff.mp hj).1 (Nat.not_lt.mpr hlen)
  have hguard : Run.Guarded usersSyncRow (fun _ row => row.Succeeds) d rows :=
    Run.guarded_of_forall (fun row hr _ => hok row hr) d
  exact Run.exec_invariant hstep hinit hguard h j node hlen hj

/-- The exports of a pass leave bytes exactly with the rules of the users whose own counter was
zero already. -/
theorem exportUsers_flushed_iff {nodes : Nat → UserTrafficEnv} {i : Nat} {ns ns' : List NodeUser}
    {l l' : Ledger} (hexported : ∀ i, (nodes i).exported = true)
    (hrules : ∀ i, (nodes i).rules.Succeeds) (h : exportUsers nodes i ns l = some (ns', l')) :
    (∀ node ∈ ns', node.traffic = 0 ∧ node.Quiet) ↔
      ∀ node ∈ ns, node.traffic = 0 → node.Quiet := by
  induction ns generalizing i l ns' l' with
  | nil =>
    cases h
    simp
  | cons node ns ih =>
    obtain ⟨rest, rfl, he, h0⟩ | ⟨rest, b, rules, c, rfl, hs, he, hne, -⟩ := exportUsers_cons h
    · have hzero : node.traffic = 0 := by
        obtain h0 | hrefused := h0
        · exact h0
        · rw [hexported i] at hrefused
          cases hrefused
      rw [List.forall_mem_cons, List.forall_mem_cons, ih he]
      simp only [hzero, true_and, true_imp_iff]
    · have hdone : ({ node with traffic := 0, idRules := rules } : NodeUser).traffic = 0 ∧
          ({ node with traffic := 0, idRules := rules } : NodeUser).Quiet :=
        ⟨rfl, rulesSyncTraffic_quiet (hrules i) hs⟩
      rw [List.forall_mem_cons, List.forall_mem_cons, ih he]
      simp only [hdone, hne, true_and, and_self, false_imp_iff]

theorem RulesTrafficEnv.Succeeds.findsRows {env : RulesTrafficEnv} (h : env.Succeeds) :
    env.FindsRows := by
  intro j
  rw [h.exports j]
  rfl

theorem SyncEnv.Succeeds.listed {env : SyncEnv} (h : env.Succeeds) :
    ∀ row ∈ env.listed, row.Succeeds := by
  obtain ⟨rows, hrows, hok⟩ := h.rows
  rw [SyncEnv.listed, if_pos h.opened, hrows]
  exact hok

/-- How often the sweep finds an id expired is told by the stamps before the pass. -/
theorem listing_staleCount {env : SyncEnv} {d1 : Core}
    (h : Run.exec usersSyncRow d env.listed = some d1) (hm : node ∈ d.users.idUsers) :
    Aged.staleCount NodeUser.id (fun i n => expired env.sweep.age i n.timeLive) node.id 0
        d1.users.idUsers =
      (Aged.restampBy (Aged.lastTouch node.id env.touches)
        (Aged.stamps NodeUser.id NodeUser.timeLive node.id d.users.idUsers)).zipIdx.countP
          fun q => q.1.any (expired env.sweep.age q.2) := by
  obtain ⟨n, hstamps⟩ := Aged.stamps_exec (fun d : Core => d.users.idUsers)
    (fun row : ListingRow => (row.id, row.now)) (fun _ _ _ hs => usersSyncRow_touch hs)
    ⟨node, hm, rfl⟩ h
  rw [Aged.staleCount_stamps NodeUser.timeLive (expired env.sweep.age), hstamps,
    Aged.countP_padded]
  rfl

/-- A user that stands at a place in two tables with the same ids before it. -/
theorem countP_take_ids {ns ns' : List NodeUser} {j : Nat} (id : IpId)
    (h : ns.map NodeUser.id <+: ns'.map NodeUser.id) (hj : j ≤ ns.length) :
    (ns'.take j).countP (·.id = id) = (ns.take j).countP (·.id = id) := by
  have hids (l : List NodeUser) : l.countP (·.id = id) = (l.map NodeUser.id).countP (· = id) := by
    rw [List.countP_map]
    rfl
  obtain ⟨more, hmore⟩ := h
  rw [hids, hids, List.map_take, List.map_take, ← hmore, List.take_append_of_le_length]
  rw [List.length_map]
  exact hj

/-- The condition on a pass: a user whose own counter is zero while a rule has bytes pending is
reloaded by the listing, or taken out by the sweep. -/
def FlushesQuiet (env : SyncEnv) (d : Core) : Prop :=
  ∀ j node, d.users.idUsers[j]? = some node → node.traffic = 0 → ¬ node.Quiet →
    Keyed.FirstAt d.ids j node.id ∧ Reloads env.listed node ∨ SweptOut env d j node.id

/-- A pass in which every store call succeeds leaves no bytes pending exactly when it reloads or
takes out each user whose rules have bytes that its own counter does not show. -/
theorem usersSync_flushed_iff {env : SyncEnv} (hok : env.Succeeds) (d : Core) :
    ∃ d', usersSync env d = some d' ∧ (d'.users.Flushed ↔ FlushesQuiet env d) := by
  have hlisted := hok.listed
  obtain ⟨d', h⟩ := usersSync_returns (fun row hr => (hlisted row hr).update.unload.findsRows)
    (fun i => (hok.rules i).findsRows) d
  refine ⟨d', h, ?_⟩
  obtain ⟨-, hnone, -⟩ | ⟨d1, -, he, ht⟩ := usersSync_cases h
  · obtain ⟨rows, hrows, -⟩ := hok.rows
    rw [hrows] at hnone
    cases hnone
  obtain ⟨hclosed, -⟩ | ⟨-, ns, l, hexport, rfl⟩ := usersSyncTraffic_cases ht
  · rw [hok.trafficOpened] at hclosed
    cases hclosed
  rw [Users.Flushed, exportUsers_flushed_iff hok.exported hok.rules hexport]
  change (∀ node ∈ (usersMysqlDelete env.sweep d1.users).idUsers, _) ↔ _
  rw [usersMysqlDelete, sweepUsers_sweep, Aged.forall_mem_sweep_iff]
  -- a user of the table before the pass, at its place in the table that the sweep walks
  have hplace {j : Nat} {node : NodeUser} (hj : d.users.idUsers[j]? = some node) :
      ∃ node1, d1.users.idUsers[j]? = some node1 ∧ node1.traffic = node.traffic ∧
        (node1.Quiet ↔ node.Quiet ∨ Keyed.FirstAt d.ids j node.id ∧ Reloads env.listed node) ∧
        (Aged.staleCount NodeUser.id (fun i n => expired env.sweep.age i n.timeLive) node1.id 0
            d1.users.idUsers ≤ (d1.users.idUsers.take j).countP (·.id = node1.id) ↔
          ¬ SweptOut env d j node.id) := by
    obtain ⟨hids, node1, hj1, hid, htraffic, hquiet⟩ := exec_usersSyncRow_at hlisted he hj
    refine ⟨node1, hj1, htraffic, hquiet, ?_⟩
    have hle : j ≤ d.users.idUsers.length := Nat.le_of_lt (List.getElem?_eq_some_iff.mp hj).1
    rw [hid, listing_staleCount he (List.mem_of_getElem? hj), countP_take_ids node.id hids hle,
      SweptOut, Nat.not_lt]
  constructor
  · intro hall j node hj hzero hpending
    obtain ⟨node1, hj1, htraffic, hquiet, hswept⟩ := hplace hj
    by_cases hout : SweptOut env d j node.id
    · exact .inr hout
    · have hdone := hall j node1 hj1 (hswept.mpr hout) (htraffic.trans hzero)
      exact .inl ((hquiet.mp hdone).resolve_left hpending)
  · intro hflush j node1 hj1 hstale hzero
    by_cases hlt : j < d.users.idUsers.length
    · have hj := List.getElem?_eq_getElem hlt
      obtain ⟨node2, hj2, htraffic, hquiet, hswept⟩ := hplace hj
      cases hj1.symm.trans hj2
      by_cases hpending : (d.users.idUsers[j]).Quiet
      · exact hquiet.mpr (.inl hpending)
      · obtain hreload | hout := hflush j _ hj (htraffic.symm.trans hzero) hpending
        · exact hquiet.mpr (.inr hreload)
        · exact absurd hout (hswept.mp hstale)
    · exact (exec_usersSyncRow_new hlisted he (Nat.le_of_not_lt hlt) hj1).2

end

/-- User 7 with its proxy rule, in the listing of a pass; `action` is the rule's. -/
def summedUser (action : IpFlag) : ListingRow :=
  { listedUser 0 storeUp with
    update := ⟨true, ⟨true, fun _ => storeUp⟩, some [userRecord],
      ⟨true, some [{ proxyRecord with action := action }]⟩⟩
    insert := ⟨true, some [⟨userRecord, 1000,
      ⟨true, some [{ proxyRecord with action := action }]⟩⟩]⟩ }

theorem summedUser_succeeds (action : IpFlag) : (passOver [summedUser action] 1000).Succeeds := by
  have hunload : (⟨true, fun _ => storeUp⟩ : RulesTrafficEnv).Succeeds := ⟨rfl, fun _ => rfl⟩
  refine ⟨rfl, ⟨_, rfl, ?_⟩, rfl, fun _ => rfl, fun _ => hunload⟩
  intro row hrow
  rw [List.mem_singleton.mp hrow]
  refine ⟨rfl, by simp [summedUser, listedUser], ⟨rfl, hunload, ?_, rfl, ?_⟩, rfl, _, rfl, ?_⟩
  · simp [summedUser]
  · simp [summedUser]
  · intro insert hinsert
    rw [List.mem_singleton.mp hinsert]
    exact ⟨rfl, by simp⟩

/-- User 7 is loaded, charged 1500 bytes by the proxy, and listed again. -/
def summedRun (action : IpFlag) : List CoreOp :=
  [.sync (passOver [summedUser action] 1000),
    .acct (.squid ⟨[], 16777226⟩ ⟨.squid, 7, 1, 10, 1, 0, 1500⟩)]

/-- The next pass over the user's ordinary rule. -/
theorem usersSync_flushes_plain :
    ∃ d, Run.exec coreStep coreInit (summedRun 0) = some d ∧
      (passOver [summedUser 0] 1000).Succeeds ∧
      ∃ d', usersSync (passOver [summedUser 0] 1000) d = some d' ∧
        (d'.users.Flushed ↔ FlushesQuiet (passOver [summedUser 0] 1000) d) :=
  ⟨_, rfl, summedUser_succeeds 0, usersSync_flushed_iff (summedUser_succeeds 0) _⟩

/-- Over a rule with CONST_SUM the bytes stay with the rule: the user's own counter is zero, and
its rules are not looked at. -/
theorem usersSync_keeps_summed :
    (passOver [summedUser 2] 1000).Succeeds ∧
    ∃ d d', Run.exec coreStep coreInit (summedRun 2) = some d ∧
      usersSync (passOver [summedUser 2] 1000) d = some d' ∧ ¬ d'.users.Flushed := by
  refine ⟨summedUser_succeeds 2, _, _, rfl, rfl, ?_⟩
  intro hflushed
  have hrule := (hflushed _ List.mem_cons_self).2 _ List.mem_cons_self
  revert hrule
  decide

end IPStat
