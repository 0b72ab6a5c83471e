import IPStat.Core.Charge

namespace IPStat

open Tally

/-- The counter bytes of a rule in a rule list, over all its copies. -/
def ruleBytes (r : IpId) : List NodeRule → IpSize :=
  tally fun rule => if rule.id = r then rule.traffic else 0

def nodesRuleBytes (r : IpId) : List NodeUser → IpSize := tally fun node => ruleBytes r node.idRules

/-- The in-memory counter of a rule: the users' lists and the nodes waiting to be freed. -/
def Users.ruleBytes (r : IpId) (u : Users) : IpSize :=
  nodesRuleBytes r u.idUsers + nodesRuleBytes r u.cleanList

/-- Bytes charged to the rule are bytes committed to its row plus its in-memory counter. -/
def RuleBalanced (r : IpId) (d : Core) : Prop :=
  d.ledger.rulesCharged r = d.ledger.rulesCommitted r + d.users.ruleBytes r

open scoped UInt32.CommRing

theorem ruleBytes_cons (r : IpId) (rule : NodeRule) (rs : List NodeRule) :
    ruleBytes r (rule :: rs) = (if rule.id = r then rule.traffic else 0) + ruleBytes r rs :=
  tally_cons _ _

/-- An export loop moves bytes from counters to the database and loses none. -/
theorem exportRules_bytes {exports : Nat → ExportEnv} {j : Nat} {rs rs' : List NodeRule}
    {c c' : IpId → IpSize} (r : IpId) (h : exportRules exports j rs c = some (rs', c')) :
    c' r + ruleBytes r rs' = c r + ruleBytes r rs := by
  induction rs generalizing j c rs' c' with
  | nil =>
    cases h
    rfl
  | cons rule rs ih =>
    rcases exportRules_cons h with ⟨rest, rfl, he, -⟩ | ⟨rest, rfl, he, -⟩
    · have hrest := ih he
      rw [ruleBytes_cons, ruleBytes_cons, add_left_comm, hrest, add_left_comm]
    · have hrest := ih he
      rw [bump_apply] at hrest
      rw [ruleBytes_cons, ruleBytes_cons, ite_self, zero_add, hrest, add_assoc]

/-- Should the reload connect, the store takes the export of every counter in the list. -/
def RulesTrafficEnv.Accepts (env : RulesTrafficEnv) (rules : List NodeRule) : Prop :=
  env.opened = true → ∀ j rule, rules[j]? = some rule → rule.traffic ≠ 0 →
    rulesMysqlExport (env.exports j) rule.noSum ≠ some false

theorem exportRules_drained {exports : Nat → ExportEnv} {j : Nat} {rs rs' : List NodeRule}
    {c c' : IpId → IpSize}
    (hok : ∀ i rule, rs[i]? = some rule → rule.traffic ≠ 0 →
      rulesMysqlExport (exports (j + i)) rule.noSum ≠ some false)
    (h : exportRules exports j rs c = some (rs', c')) : ∀ rule ∈ rs', rule.traffic = 0 := by
  induction rs generalizing j c rs' c' with
  | nil =>
    cases h
    simp
  | cons rule rs ih =>
    have hrest : ∀ i next, rs[i]? = some next → next.traffic ≠ 0 →
        rulesMysqlExport (exports (j + 1 + i)) next.noSum ≠ some false := by
      intro i next hi hn
      have hnext := hok (i + 1) next hi hn
      rwa [← add_assoc, add_right_comm] at hnext
    rcases exportRules_cons h with ⟨rest, rfl, he, h0⟩ | ⟨rest, rfl, he, -⟩
    · have hzero : rule.traffic = 0 := by
        rcases h0 with h0 | hrefused
        · exact h0
        · by_contra hn
          exact hok 0 rule rfl hn hrefused
      exact List.forall_mem_cons.mpr ⟨hzero, ih hrest he⟩
    · exact List.forall_mem_cons.mpr ⟨rfl, ih hrest he⟩

/-- An unload that connects with every export accepted frees nothing but zero counters. -/
theorem RulesTrafficEnv.Accepts.drained {env : RulesTrafficEnv} {rs freed : List NodeRule}
    {c c' : IpId → IpSize} (hok : env.Accepts rs) (ho : env.opened = true)
    (he : exportRules env.exports 0 rs c = some (freed, c')) :
    ∀ rule ∈ freed, rule.traffic = 0 := by
  apply exportRules_drained _ he
  intro i rule hi hn
  rw [zero_add]
  exact hok ho i rule hi hn

theorem ruleBytes_drained {rs : List NodeRule} (r : IpId) (h : ∀ rule ∈ rs, rule.traffic = 0) :
    ruleBytes r rs = 0 := by
  apply tally_zero
  intro rule hm
  rw [h rule hm, ite_self]

theorem rulesSyncTraffic_bytes {env : RulesTrafficEnv} {rs rs' : List NodeRule} {b : Bool}
    {c c' : IpId → IpSize} (r : IpId) (h : rulesSyncTraffic env rs c = some (b, rs', c')) :
    c' r + ruleBytes r rs' = c r + ruleBytes r rs := by
  rcases rulesSyncTraffic_cases h with ⟨-, -, rfl, rfl⟩ | ⟨-, -, he⟩
  · rfl
  · exact exportRules_bytes r he

/-- Unloading keeps the books when every export it makes is accepted: the freed counters are
all zero. -/
theorem rulesMysqlUnload_bytes {env : RulesTrafficEnv} {rs rs' : List NodeRule}
    {c c' : IpId → IpSize} (r : IpId) (hok : env.Accepts rs)
    (h : rulesMysqlUnload env rs c = some (rs', c')) :
    c' r + ruleBytes r rs' = c r + ruleBytes r rs := by
  rcases rulesMysqlUnload_cases h with ⟨-, rfl, rfl⟩ | ⟨ho, rfl, freed, he⟩
  · rfl
  · have hbytes := exportRules_bytes r he
    rw [ruleBytes_drained r (hok.drained ho he)] at hbytes
    exact hbytes

theorem rulesMysqlLoad_bytes (r : IpId) (env : LoadEnv) (rs : List NodeRule) :
    ruleBytes r (rulesMysqlLoad env rs) = ruleBytes r rs := by
  by_cases hne : rs ≠ []
  · rw [rulesMysqlLoad, if_pos hne]
  · have hnil : rs = [] := not_not.mp hne
    subst hnil
    exact ruleBytes_drained r (rulesMysqlLoad_zero (by simp))

theorem stampRule_bytes (r key : IpId) (now : TimeT) (rs : List NodeRule) :
    ruleBytes r (stampRule key now rs) = ruleBytes r rs := by
  induction rs with
  | nil => rfl
  | cons rule rs ih =>
    unfold stampRule at ih ⊢
    by_cases hk : rule.id = key
    · simp [List.replaceF, hk, ruleBytes_cons]
    · simp [List.replaceF, hk, ruleBytes_cons, ih]

theorem rulesSyncRows_bytes (r : IpId) (rows : List RulesSyncRow) (rs : List NodeRule)
    (flag : Bool) : ruleBytes r (rulesSyncRows rows rs flag).1 = ruleBytes r rs := by
  induction rows generalizing rs flag with
  | nil => rfl
  | cons row rows ih =>
    rw [rulesSyncRows]
    split
    · split_ifs
      · exact ih rs true
      · rw [ih, stampRule_bytes]
    · exact ih rs true

theorem rulesSync_bytes (r : IpId) (env : RulesSyncEnv) (rs : List NodeRule) :
    ruleBytes r (rulesSync env rs).1 = ruleBytes r rs := by
  rw [rulesSync]
  cases env.opened with
  | false => rfl
  | true =>
    cases env.rows with
    | none => rfl
    | some rows => exact rulesSyncRows_bytes r rows rs false

theorem updateNode_bytes {env : UpdateEnv} {node node' : NodeUser} {c c' : IpId → IpSize}
    (r : IpId) (h : updateNode env node c = some (node', c'))
    (hok : env.opened = true → env.unload.Accepts node.idRules) :
    c' r + ruleBytes r node'.idRules = c r + ruleBytes r node.idRules := by
  rcases updateNode_cases h with ⟨-, rfl, rfl⟩ | ⟨ho, -, -, rules, hu, hrules⟩
  · rfl
  · have hbytes := rulesMysqlUnload_bytes r (hok ho) hu
    rcases hrules with hrules | hrules
    · rw [hrules]
      exact hbytes
    · rw [hrules, rulesMysqlLoad_bytes]
      exact hbytes

theorem syncCheck_bytes (r : IpId) (row : ListingRow) (node : NodeUser) :
    ruleBytes r (syncCheck row node).1 = ruleBytes r node.idRules := by
  rw [syncCheck]
  split_ifs
  · rfl
  · exact rulesSync_bytes r row.rulesSync node.idRules

/-- If the row makes the pass reload its user, every counter is exported before it is freed. -/
def ReloadExports (d : Core) (row : ListingRow) : Prop :=
  ∀ node, usersFind d.users row.id = some node → (syncCheck row node).2 = true →
    row.update.opened = true → row.update.unload.Accepts (syncCheck row node).1

theorem syncNode_bytes {row : ListingRow} {node node' : NodeUser} {c c' : IpId → IpSize}
    (r : IpId)
    (hok : (syncCheck row node).2 = true → row.update.opened = true →
      row.update.unload.Accepts (syncCheck row node).1)
    (h : syncNode row node c = some (node', c')) :
    c' r + ruleBytes r node'.idRules = c r + ruleBytes r node.idRules := by
  rw [← syncCheck_bytes r row node]
  obtain ⟨node1, rfl, ⟨-, rfl, rfl⟩ | ⟨hf, hu⟩⟩ := syncNode_cases h
  · rfl
  · have hbytes := updateNode_bytes r hu (hok hf)
    exact hbytes

/-- What the database and the memory hold of a rule together. -/
def Core.ruleTotal (r : IpId) (d : Core) : IpSize :=
  d.ledger.rulesCommitted r + d.users.ruleBytes r

theorem usersMysqlInsert_bytes (r : IpId) (env : InsertEnv) (id : IpId) (users : Users) :
    (usersMysqlInsert env id users).ruleBytes r = users.ruleBytes r := by
  obtain ⟨new, hids, hclean, hnew⟩ := usersMysqlInsert_new env id users
  have hzero : nodesRuleBytes r new = 0 := by
    apply tally_zero
    intro node hm
    exact ruleBytes_drained r (hnew node hm).2.2
  unfold Users.ruleBytes nodesRuleBytes at *
  rw [hids, hclean, tally_append, hzero, add_zero]

theorem usersSyncRow_total {row : ListingRow} {d d' : Core} (r : IpId)
    (hok : ReloadExports d row) (h : usersSyncRow d row = some d') :
    d'.ruleTotal r = d.ruleTotal r ∧ d'.ledger.rulesCharged = d.ledger.rulesCharged := by
  rcases usersSyncRow_cases h with ⟨-, rfl⟩ | ⟨node, node', c, hu, hn, rfl⟩
  · refine ⟨?_, rfl⟩
    unfold Core.ruleTotal
    rw [usersMysqlInsert_bytes]
  · have hbytes := syncNode_bytes r (hok node hu) hn
    have hmod := modify_tally (fun n => ruleBytes r n.idRules) (fun _ => node') hu
    refine ⟨?_, rfl⟩
    change c r + (tally (fun n : NodeUser => ruleBytes r n.idRules)
        (d.users.modify row.id fun _ => node').idUsers + nodesRuleBytes r d.users.cleanList) =
      d.ledger.rulesCommitted r + (tally (fun n : NodeUser => ruleBytes r n.idRules)
        d.users.idUsers + nodesRuleBytes r d.users.cleanList)
    grind

theorem usersDelete_bytes (r key : IpId) (now : TimeT) (users : Users) :
    (usersDelete users key now).ruleBytes r = users.ruleBytes r := by
  rw [usersDelete]
  cases hu : usersFind users key with
  | none => rfl
  | some node =>
    have herase := tally_eraseP (f := fun n : NodeUser => ruleBytes r n.idRules) hu
    unfold Users.ruleBytes nodesRuleBytes
    simp only [tally_append, tally_cons, tally_nil]
    rw [herase]
    grind

theorem sweepUsers_bytes (r : IpId) (env : SweepEnv) (i : Nat) (ns : List NodeUser)
    (users : Users) : (sweepUsers env i ns users).ruleBytes r = users.ruleBytes r := by
  induction ns generalizing i users with
  | nil => rfl
  | cons node ns ih =>
    rw [sweepUsers, ih]
    split_ifs
    · exact usersDelete_bytes r _ _ users
    · rfl

theorem exportUsers_bytes {nodes : Nat → UserTrafficEnv} {i : Nat} {ns ns' : List NodeUser}
    {l l' : Ledger} (r : IpId) (h : exportUsers nodes i ns l = some (ns', l')) :
    l'.rulesCommitted r + nodesRuleBytes r ns' = l.rulesCommitted r + nodesRuleBytes r ns ∧
      l'.rulesCharged = l.rulesCharged := by
  induction ns generalizing i l ns' l' with
  | nil =>
    cases h
    exact ⟨rfl, rfl⟩
  | cons node ns ih =>
    have hcons (node : NodeUser) (ns : List NodeUser) :
        nodesRuleBytes r (node :: ns) = ruleBytes r node.idRules + nodesRuleBytes r ns :=
      tally_cons _ _
    rcases exportUsers_cons h with ⟨rest, rfl, he, -⟩ | ⟨rest, b, rules, c, rfl, hs, he, -⟩
    · obtain ⟨hrest, hcharged⟩ := ih he
      refine ⟨?_, hcharged⟩
      rw [hcons, hcons, add_left_comm, hrest, add_left_comm]
    · obtain ⟨hrest, hcharged⟩ := ih he
      have hrules := rulesSyncTraffic_bytes r hs
      refine ⟨?_, hcharged⟩
      calc
        _ = ruleBytes r rules + (l'.rulesCommitted r + nodesRuleBytes r rest) := by
          rw [hcons, add_left_comm]
        _ = ruleBytes r rules + (c r + nodesRuleBytes r ns) := by rw [hrest]
        _ = c r + ruleBytes r rules + nodesRuleBytes r ns := by
          rw [← add_assoc, add_comm (ruleBytes r rules)]
        _ = l.rulesCommitted r + nodesRuleBytes r (node :: ns) := by
          rw [hrules, hcons, add_assoc]

theorem usersSyncTraffic_total {env : TrafficEnv} {d d' : Core} (r : IpId)
    (h : usersSyncTraffic env d = some d') :
    d'.ruleTotal r = d.ruleTotal r ∧ d'.ledger.rulesCharged = d.ledger.rulesCharged := by
  rcases usersSyncTraffic_cases h with ⟨-, rfl⟩ | ⟨-, ns, l, he, rfl⟩
  · exact ⟨rfl, rfl⟩
  · obtain ⟨hbytes, hcharged⟩ := exportUsers_bytes r he
    refine ⟨?_, hcharged⟩
    change l.rulesCommitted r + (nodesRuleBytes r ns + nodesRuleBytes r d.users.cleanList) =
      d.ledger.rulesCommitted r +
        (nodesRuleBytes r d.users.idUsers + nodesRuleBytes r d.users.cleanList)
    rw [← add_assoc, hbytes, add_assoc]

theorem RuleBalanced.of_total {r : IpId} {d d' : Core} (h : RuleBalanced r d)
    (ht : d'.ruleTotal r = d.ruleTotal r ∧ d'.ledger.rulesCharged = d.ledger.rulesCharged) :
    RuleBalanced r d' := by
  rw [RuleBalanced]
  rw [ht.2]
  exact h.trans ht.1.symm

/-- The condition on an operation: in a pass, the reload of each row exports before it frees. -/
def CoreOp.ExportsBeforeFree (d : Core) : CoreOp → Prop
  | .acct _ => True
  | .sync env => ∀ rows, env.opened = true → env.rows = some rows →
      Run.Guarded usersSyncRow ReloadExports d rows

theorem CoreOp.ExportsBeforeFree.listed {env : SyncEnv} {d : Core}
    (h : (CoreOp.sync env).ExportsBeforeFree d) :
    Run.Guarded usersSyncRow ReloadExports d env.listed := by
  rw [SyncEnv.listed]
  split_ifs with ho
  · cases hr : env.rows with
    | none => trivial
    | some rows => exact h rows ho hr
  · trivial

theorem usersSync_balanced {env : SyncEnv} {d d' : Core} {r : IpId} (hb : RuleBalanced r d)
    (hok : (CoreOp.sync env).ExportsBeforeFree d) (h : usersSync env d = some d') :
    RuleBalanced r d' := by
  apply usersSync_invariant _ _ _ hb hok.listed h
  · intro s row s' hi hg hs
    exact hi.of_total (usersSyncRow_total r hg hs)
  · intro s _ hi
    have hsweep := sweepUsers_bytes r env.sweep 0 s.users.idUsers s.users
    apply hi.of_total
    exact ⟨congrArg (s.ledger.rulesCommitted r + ·) hsweep, rfl⟩
  · intro s s' hi hs
    exact hi.of_total (usersSyncTraffic_total r hs)

theorem coreAcct_balanced {req : Request} {d d' : Core} {r : IpId} (hb : RuleBalanced r d)
    (h : coreAcct req d = some d') : RuleBalanced r d' := by
  obtain ⟨rfl, -⟩ | ⟨user, qs, s, hc, -, rfl⟩ := coreAcct_cases h
  · exact hb
  · obtain ⟨test, stop, hv⟩ := hc.visited
    obtain ⟨hsum, -, hcommitted, -⟩ := charge_sums d.ledger
      fun q hq => (Chain.visited_get hv q hq).2.1
    have hgain : ruleBytes r s.rules = ruleBytes r user.idRules +
        tally (fun rule => if rule.id = r then req.len else 0) (qs.map Prod.snd) := by
      rw [hc.rules]
      apply Chain.visited_gain _ hv
      intro rule
      change (if rule.id = r then rule.traffic + req.len else 0) = _
      split_ifs
      · rfl
      · exact (add_zero 0).symm
    have hmod := account_tally (fun n => ruleBytes r n.idRules) s hc.found
    unfold RuleBalanced Users.ruleBytes nodesRuleBytes at *
    rw [hsum, hcommitted]
    rw [hgain] at hmod
    change _ = _ + (_ + tally (fun n : NodeUser => ruleBytes r n.idRules) d.users.cleanList)
    grind

/-- The reload of this row frees no counter that still holds bytes. -/
def ReloadFreesZero (d : Core) (row : ListingRow) : Prop :=
  ∀ node rules c, usersFind d.users row.id = some node → (syncCheck row node).2 = true →
    row.update.opened = true →
    rulesSyncTraffic row.update.unload (syncCheck row node).1 d.ledger.rulesCommitted =
      some (true, rules, c) →
    ∀ rule ∈ rules, rule.traffic = 0

def CoreOp.FreesZero (d : Core) : CoreOp → Prop
  | .acct _ => True
  | .sync env => ∀ rows, env.opened = true → env.rows = some rows →
      Run.Guarded usersSyncRow ReloadFreesZero d rows

theorem ReloadExports.freesZero {d : Core} {row : ListingRow} (h : ReloadExports d row) :
    ReloadFreesZero d row := by
  intro node rules c hu hf ho hs
  rcases rulesSyncTraffic_cases hs with ⟨-, hb, -⟩ | ⟨hopen, -, he⟩
  · cases hb
  · exact (h node hu hf ho).drained hopen he

/-- In a run whose reloads all export before they free, no bytes charged to a rule are lost. -/
theorem rules_conserve (ops : List CoreOp)
    (hg : Run.Guarded coreStep CoreOp.ExportsBeforeFree coreInit ops) :
    Run.Guarded coreStep CoreOp.FreesZero coreInit ops ∧
      ∀ d, Run.exec coreStep coreInit ops = some d → ∀ r, RuleBalanced r d := by
  constructor
  · apply Run.Guarded.imp _ hg
    intro d op hop
    cases op with
    | acct req => trivial
    | sync env =>
      intro rows ho hr
      exact (hop rows ho hr).imp fun _ _ => ReloadExports.freesZero
  · intro d h r
    have hstep : ∀ d op d', RuleBalanced r d → op.ExportsBeforeFree d → coreStep d op = some d' →
        RuleBalanced r d' := by
      intro d op d' hb hop hs
      cases op with
      | acct req => exact coreAcct_balanced hb hs
      | sync env => exact usersSync_balanced hb hop hs
    have hinit : RuleBalanced r coreInit := rfl
    exact Run.exec_invariant hstep hinit hg h

def storeUp : ExportEnv := ⟨true, true, true, true, true, true, true, true⟩

def startRefused : ExportEnv := { storeUp with start := false }

def proxyRecord : RulesRecord := ⟨1, 3, 254, 0, 0, 0, 0, 1, 1, 10, 0⟩

def userRecord : UsersRecord := ⟨16777226, [], 1, 1, 0⟩

/-- User 7 in the listing of a pass at second 1000. -/
def listedUser (md5 : Md5) (reply : ExportEnv) : ListingRow where
  id := 7
  md5 := md5
  rulesSync := ⟨true, some [⟨1, 0, 1000⟩], fun _ => 1000⟩
  update := ⟨true, ⟨true, fun _ => reply⟩, some [userRecord], ⟨true, some [proxyRecord]⟩⟩
  insert := ⟨true, some [⟨userRecord, 1000, ⟨true, some [proxyRecord]⟩⟩]⟩
  now := 1000

/-- A pass in which the store answers everything but, if so told, the exports of a reload. -/
def passOver (rows : List ListingRow) (now : TimeT) : SyncEnv where
  opened := true
  rows := some rows
  sweep := ⟨fun _ => now, fun _ => now⟩
  traffic := ⟨true, fun _ => ⟨true, ⟨true, fun _ => storeUp⟩⟩⟩

/-- User 7 is loaded, charged 1500 bytes by the proxy, and edited before the next pass. -/
def reloadRun (reply : ExportEnv) : List CoreOp :=
  [.sync (passOver [listedUser 0 storeUp] 1000),
    .acct (.squid ⟨[], 16777226⟩ ⟨.squid, 7, 1, 10, 1, 0, 1500⟩),
    .sync (passOver [listedUser 1 reply] 1000)]

theorem reloadRun_exports : Run.Guarded coreStep CoreOp.ExportsBeforeFree coreInit
    (reloadRun storeUp) := by
  apply Run.guarded_of_forall
  intro op hop d
  have hlisted (md5 : Md5) (d : Core) : ReloadExports d (listedUser md5 storeUp) := by
    intro node hu hf ho hopen j rule hj hn
    change rulesMysqlExport storeUp rule.noSum ≠ some false
    cases rule.noSum <;> decide
  have hpass (md5 : Md5) :
      (CoreOp.sync (passOver [listedUser md5 storeUp] 1000)).ExportsBeforeFree d := by
    intro rows ho hr
    cases hr
    exact ⟨hlisted md5 d, fun _ _ => trivial⟩
  rcases List.mem_cons.mp hop with rfl | hop
  · exact hpass 0
  rcases List.mem_cons.mp hop with rfl | hop
  · trivial
  rw [List.mem_singleton.mp hop]
  exact hpass 1

/-- With the store answering, the reload commits the 1500 bytes. -/
theorem rules_conserve_reload : ∃ d, Run.exec coreStep coreInit (reloadRun storeUp) = some d ∧
    d.ledger.rulesCommitted 1 = 1500 ∧ ∀ r, RuleBalanced r d :=
  ⟨_, rfl, by decide, (rules_conserve _ reloadRun_exports).2 _ rfl⟩

/-- With the transaction refused, the reload frees the counter and its 1500 bytes. -/
theorem rules_lose_refused : ∃ d, Run.exec coreStep coreInit (reloadRun startRefused) = some d ∧
    d.ledger.rulesCharged 1 = 1500 ∧ d.ledger.rulesCommitted 1 = 0 ∧ ¬ RuleBalanced 1 d :=
  ⟨_, rfl, by decide, by decide, by unfold RuleBalanced; decide⟩

end IPStat
