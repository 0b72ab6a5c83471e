import IPStat.Core.Sync
import IPStat.Lib.Aged
import IPStat.Lib.Tally

namespace IPStat

/-- One round of rules_sync_traffic keeps the rule as it was, or empties its counter into the
database. -/
theorem exportRules_cons {exports : Nat → ExportEnv} {j : Nat} {rule : NodeRule}
    {rs rs' : List NodeRule} {c c' : IpId → IpSize}
    (h : exportRules exports j (rule :: rs) c = some (rs', c')) :
    (∃ rest, rs' = rule :: rest ∧ exportRules exports (j + 1) rs c = some (rest, c') ∧
      (rule.traffic = 0 ∨ rulesMysqlExport (exports j) rule.noSum = some false)) ∨
    ∃ rest, rs' = { rule with traffic := 0 } :: rest ∧
      exportRules exports (j + 1) rs (bump c rule.id rule.traffic) = some (rest, c') ∧
      rule.traffic ≠ 0 ∧ rulesMysqlExport (exports j) rule.noSum = some true := by
  rw [exportRules] at h
  split_ifs at h with h0
  · cases he : exportRules exports (j + 1) rs c with
    | none => simp [he] at h
    | some q =>
      simp only [he] at h
      cases h
      exact .inl ⟨q.1, rfl, rfl, .inl h0⟩
  · have htaken : rule.traffic - rule.traffic = 0 := UInt32.sub_self _
    simp only [htaken] at h
    rcases ho : rulesMysqlExport (exports j) rule.noSum with _ | _ | _
    · simp [ho] at h
    · cases he : exportRules exports (j + 1) rs c with
      | none => simp [ho, he] at h
      | some q =>
        have hback : 0 + rule.traffic = rule.traffic := UInt32.zero_add _
        simp only [ho, he, hback] at h
        cases h
        exact .inl ⟨q.1, rfl, rfl, .inr rfl⟩
    · cases he : exportRules exports (j + 1) rs (bump c rule.id rule.traffic) with
      | none => simp [ho, he] at h
      | some q =>
        simp only [ho, he] at h
        cases h
        exact .inr ⟨q.1, rfl, rfl, h0, rfl⟩

theorem rulesSyncTraffic_cases {env : RulesTrafficEnv} {rs rs' : List NodeRule} {b : Bool}
    {c c' : IpId → IpSize} (h : rulesSyncTraffic env rs c = some (b, rs', c')) :
    (env.opened = false ∧ b = false ∧ rs' = rs ∧ c' = c) ∨
      (env.opened = true ∧ b = true ∧ exportRules env.exports 0 rs c = some (rs', c')) := by
  rw [rulesSyncTraffic] at h
  cases ho : env.opened with
  | false =>
    simp only [ho] at h
    cases h
    exact .inl ⟨rfl, rfl, rfl, rfl⟩
  | true =>
    simp only [ho, if_true] at h
    cases he : exportRules env.exports 0 rs c with
    | none => simp [he] at h
    | some q =>
      simp only [he] at h
      cases h
      exact .inr ⟨rfl, rfl, rfl⟩

/-- rules_mysql_unload frees the list that the exports left, whatever is still in it. -/
theorem rulesMysqlUnload_cases {env : RulesTrafficEnv} {rs rs' : List NodeRule}
    {c c' : IpId → IpSize} (h : rulesMysqlUnload env rs c = some (rs', c')) :
    (env.opened = false ∧ rs' = rs ∧ c' = c) ∨
      (env.opened = true ∧ rs' = [] ∧
        ∃ freed, exportRules env.exports 0 rs c = some (freed, c')) := by
  rw [rulesMysqlUnload] at h
  rcases hs : rulesSyncTraffic env rs c with _ | ⟨b, rs1, c1⟩
  · simp [hs] at h
  · rcases rulesSyncTraffic_cases hs with ⟨ho, rfl, rfl, rfl⟩ | ⟨ho, rfl, he⟩
    · simp only [hs] at h
      cases h
      exact .inl ⟨ho, rfl, rfl⟩
    · simp only [hs] at h
      cases h
      exact .inr ⟨ho, rfl, rs1, he⟩

theorem copy_frame (row : UsersRecord) (node : NodeUser) :
    (row.copy node).id = node.id ∧ (row.copy node).traffic = node.traffic ∧
      (row.copy node).idRules = node.idRules := by
  unfold UsersRecord.copy
  split_ifs <;> exact ⟨rfl, rfl, rfl⟩

theorem copies_frame (rows : List UsersRecord) (node : NodeUser) :
    (rows.foldl (fun node row => row.copy node) node).id = node.id ∧
      (rows.foldl (fun node row => row.copy node) node).traffic = node.traffic ∧
      (rows.foldl (fun node row => row.copy node) node).idRules = node.idRules := by
  induction rows generalizing node with
  | nil => exact ⟨rfl, rfl, rfl⟩
  | cons row rows ih =>
    rw [List.foldl_cons]
    obtain ⟨hid, htraffic, hrules⟩ := ih (row.copy node)
    obtain ⟨hid', htraffic', hrules'⟩ := copy_frame row node
    exact ⟨hid.trans hid', htraffic.trans htraffic', hrules.trans hrules'⟩

/-- A reload unloads the rules and may load them again; id and counter of the node stay. -/
theorem updateNode_cases {env : UpdateEnv} {node node' : NodeUser} {c c' : IpId → IpSize}
    (h : updateNode env node c = some (node', c')) :
    (env.opened = false ∧ node' = node ∧ c' = c) ∨
      (env.opened = true ∧ node'.id = node.id ∧ node'.traffic = node.traffic ∧
        ∃ rules, rulesMysqlUnload env.unload node.idRules c = some (rules, c') ∧
          (node'.idRules = rules ∨ node'.idRules = rulesMysqlLoad env.load rules)) := by
  rw [updateNode] at h
  cases ho : env.opened with
  | false =>
    simp only [ho] at h
    cases h
    exact .inl ⟨rfl, rfl, rfl⟩
  | true =>
    simp only [ho, if_true] at h
    cases hu : rulesMysqlUnload env.unload node.idRules c with
    | none => simp [hu] at h
    | some q =>
      simp only [hu] at h
      cases hr : env.rows with
      | none =>
        simp only [hr] at h
        cases h
        exact .inr ⟨rfl, rfl, rfl, q.1, rfl, .inl rfl⟩
      | some rows =>
        simp only [hr] at h
        cases h
        obtain ⟨hid, htraffic, hrules⟩ := copies_frame rows { node with idRules := q.1 }
        refine .inr ⟨rfl, hid, htraffic, q.1, rfl, .inr ?_⟩
        rw [hrules]

theorem syncNode_cases {row : ListingRow} {node node' : NodeUser} {c c' : IpId → IpSize}
    (h : syncNode row node c = some (node', c')) :
    ∃ node1, node' = { node1 with timeLive := row.now } ∧
      (((syncCheck row node).2 = false ∧
          node1 = { node with idRules := (syncCheck row node).1 } ∧ c' = c) ∨
        ((syncCheck row node).2 = true ∧
          updateNode row.update { node with idRules := (syncCheck row node).1 } c =
            some (node1, c'))) := by
  rw [syncNode] at h
  cases hf : (syncCheck row node).2 with
  | false =>
    simp only [hf] at h
    cases h
    exact ⟨_, rfl, .inl ⟨rfl, rfl, rfl⟩⟩
  | true =>
    simp only [hf, if_true] at h
    cases hu : updateNode row.update { node with idRules := (syncCheck row node).1 } c with
    | none => simp [hu] at h
    | some q =>
      simp only [hu] at h
      cases h
      exact ⟨q.1, rfl, .inr ⟨rfl, rfl⟩⟩

/-- The listing loop leaves id and counter of the node it found and stamps it. -/
theorem syncNode_frame {row : ListingRow} {node node' : NodeUser} {c c' : IpId → IpSize}
    (h : syncNode row node c = some (node', c')) :
    node'.id = node.id ∧ node'.traffic = node.traffic ∧ node'.timeLive = row.now := by
  obtain ⟨node1, rfl, ⟨-, rfl, -⟩ | ⟨-, hu⟩⟩ := syncNode_cases h
  · exact ⟨rfl, rfl, rfl⟩
  · rcases updateNode_cases hu with ⟨-, rfl, -⟩ | ⟨-, hid, htraffic, -⟩
    · exact ⟨rfl, rfl, rfl⟩
    · exact ⟨hid, htraffic, rfl⟩

theorem usersSyncRow_cases {row : ListingRow} {d d' : Core} (h : usersSyncRow d row = some d') :
    (usersFind d.users row.id = none ∧
        d' = { d with users := usersMysqlInsert row.insert row.id d.users }) ∨
      ∃ node node' c, usersFind d.users row.id = some node ∧
        syncNode row node d.ledger.rulesCommitted = some (node', c) ∧
        d' = { d with users := d.users.modify row.id fun _ => node' }.commit c := by
  rw [usersSyncRow] at h
  cases hu : usersFind d.users row.id with
  | none =>
    simp only [hu] at h
    cases h
    exact .inl ⟨rfl, rfl⟩
  | some node =>
    simp only [hu] at h
    cases hn : syncNode row node d.ledger.rulesCommitted with
    | none => simp [hn] at h
    | some q =>
      simp only [hn] at h
      cases h
      exact .inr ⟨node, q.1, q.2, rfl, hn, rfl⟩

theorem usersFind_id {users : Users} {key : IpId} {node : NodeUser}
    (h : usersFind users key = some node) : node.id = key := by
  unfold usersFind at h
  have hp := List.find?_some h
  exact of_decide_eq_true hp

theorem usersFind_none {users : Users} {key : IpId} (h : usersFind users key = none) :
    ∀ node ∈ users.idUsers, node.id ≠ key := by
  intro node hm
  simpa using List.find?_eq_none.mp h node hm

theorem mem_modify {users : Users} {key : IpId} {e : NodeUser → NodeUser} {node : NodeUser}
    (h : node ∈ (users.modify key e).idUsers) :
    node ∈ users.idUsers ∨ ∃ found, usersFind users key = some found ∧ node = e found := by
  apply Tally.mem_replace
  simpa [Users.modify] using h

theorem modify_map {β : Type*} (f : NodeUser → β) {e : NodeUser → NodeUser}
    (hf : ∀ node, f (e node) = f node) (users : Users) (key : IpId) :
    (users.modify key e).idUsers.map f = users.idUsers.map f := by
  unfold Users.modify
  induction users.idUsers with
  | nil => rfl
  | cons node ns ih =>
    by_cases h : node.id = key
    · simp [List.replaceF, h, hf]
    · simp [List.replaceF, h, ih]

theorem rulesMysqlLoad_zero {env : LoadEnv} {rs : List NodeRule}
    (h : ∀ rule ∈ rs, rule.traffic = 0) : ∀ rule ∈ rulesMysqlLoad env rs, rule.traffic = 0 := by
  unfold rulesMysqlLoad
  split_ifs
  · exact h
  · cases env.rows with
    | none => simp
    | some rows =>
      intro rule hm
      rcases List.mem_append.mp hm with hm | hm
      · exact h rule hm
      · obtain ⟨row, -, rfl⟩ := List.mem_map.mp hm
        rfl
  · exact h

/-- users_mysql_insert appends nodes of the id whose counters are all zero. -/
theorem usersMysqlInsert_new (env : InsertEnv) (id : IpId) (users : Users) :
    ∃ new, (usersMysqlInsert env id users).idUsers = users.idUsers ++ new ∧
      (usersMysqlInsert env id users).cleanList = users.cleanList ∧
      ∀ node ∈ new, node.id = id ∧ node.traffic = 0 ∧
        ∀ rule ∈ node.idRules, rule.traffic = 0 := by
  have nothing (users : Users) : ∃ new, users.idUsers = users.idUsers ++ new ∧
      users.cleanList = users.cleanList ∧ ∀ node ∈ new, node.id = id ∧ node.traffic = 0 ∧
        ∀ rule ∈ node.idRules, rule.traffic = 0 :=
    ⟨[], (List.append_nil users.idUsers).symm, rfl, by simp⟩
  unfold usersMysqlInsert
  cases env.opened with
  | false => exact nothing users
  | true =>
    cases env.rows with
    | none => exact nothing users
    | some rows =>
      simp only [if_true]
      induction rows generalizing users with
      | nil => exact nothing users
      | cons row rows ih =>
        rw [List.foldl_cons]
        split_ifs with h0
        · exact ih users
        · obtain ⟨new, hnew, hclean, hzero⟩ := ih (usersInsert users (newUser id row))
          refine ⟨newUser id row :: new, ?_, hclean, ?_⟩
          · rw [hnew]
            exact List.append_assoc users.idUsers [newUser id row] new
          · intro node hm
            rcases List.mem_cons.mp hm with rfl | hm
            · have hload : ∀ rule ∈ rulesMysqlLoad row.load [], rule.traffic = 0 :=
                rulesMysqlLoad_zero (by simp)
              exact ⟨rfl, rfl, hload⟩
            · exact hzero node hm

/-- A row of the listing in users_sync touches id_users. -/
theorem usersSyncRow_touch {d d' : Core} {row : ListingRow} (h : usersSyncRow d row = some d') :
    Aged.Touch NodeUser.id NodeUser.timeLive row.id row.now d.users.idUsers d'.users.idUsers := by
  rcases usersSyncRow_cases h with ⟨hu, rfl⟩ | ⟨node, node', c, hu, hn, rfl⟩
  · obtain ⟨new, hids, -, hnew⟩ := usersMysqlInsert_new row.insert row.id d.users
    change Aged.Touch _ _ _ _ _ (usersMysqlInsert row.insert row.id d.users).idUsers
    rw [hids]
    apply Aged.Touch.missed new
    · exact usersFind_none hu
    · intro node hm
      exact (hnew node hm).1
  · obtain ⟨hid, -, hstamp⟩ := syncNode_frame hn
    have hkey := usersFind_id hu
    apply Aged.Touch.found fun _ => node'
    · exact ⟨node, List.mem_of_find?_eq_some hu, hkey⟩
    · intro _ _
      exact ⟨hid.trans hkey, hstamp⟩

/-- A row of the listing makes no bytes pending. -/
theorem usersSyncRow_pending {d d' : Core} {row : ListingRow} (h : usersSyncRow d row = some d') :
    ∀ node ∈ d'.users.idUsers, node.traffic ≠ 0 →
      ∃ old ∈ d.users.idUsers, old.id = node.id ∧ old.traffic ≠ 0 := by
  intro node hm hpending
  rcases usersSyncRow_cases h with ⟨-, rfl⟩ | ⟨found, node', c, hu, hn, rfl⟩
  · obtain ⟨new, hids, -, hnew⟩ := usersMysqlInsert_new row.insert row.id d.users
    change node ∈ (usersMysqlInsert row.insert row.id d.users).idUsers at hm
    rw [hids] at hm
    rcases List.mem_append.mp hm with hold | hadded
    · exact ⟨node, hold, rfl, hpending⟩
    · exact absurd (hnew node hadded).2.1 hpending
  · rcases mem_modify hm with hold | ⟨_, hf, rfl⟩
    · exact ⟨node, hold, rfl, hpending⟩
    · obtain ⟨hid, htraffic, -⟩ := syncNode_frame hn
      rw [htraffic] at hpending
      exact ⟨found, List.mem_of_find?_eq_some hu, hid.symm, hpending⟩

/-- One round of users_sync_traffic keeps the node as it was, or empties its counter into the
database and sends its rules after it. -/
theorem exportUsers_cons {nodes : Nat → UserTrafficEnv} {i : Nat} {node : NodeUser}
    {ns ns' : List NodeUser} {l l' : Ledger}
    (h : exportUsers nodes i (node :: ns) l = some (ns', l')) :
    (∃ rest, ns' = node :: rest ∧ exportUsers nodes (i + 1) ns l = some (rest, l') ∧
      (node.traffic = 0 ∨ (nodes i).exported = false)) ∨
    ∃ rest b rules c, ns' = { node with traffic := 0, idRules := rules } :: rest ∧
      rulesSyncTraffic (nodes i).rules node.idRules l.rulesCommitted = some (b, rules, c) ∧
      exportUsers nodes (i + 1) ns { l with
        rulesCommitted := c
        usersExported := bump l.usersExported node.id node.traffic } = some (rest, l') ∧
      node.traffic ≠ 0 ∧ (nodes i).exported = true := by
  rw [exportUsers] at h
  have htaken : node.traffic - node.traffic = 0 := UInt32.sub_self _
  have hback : 0 + node.traffic = node.traffic := UInt32.zero_add _
  simp only [htaken, hback] at h
  split_ifs at h with h0 hx
  · cases he : exportUsers nodes (i + 1) ns l with
    | none => simp [he] at h
    | some q =>
      simp only [he] at h
      cases h
      exact .inl ⟨q.1, rfl, rfl, .inl h0⟩
  · rcases hr : rulesSyncTraffic (nodes i).rules node.idRules l.rulesCommitted with
      _ | ⟨b, rules, c⟩
    · simp [hr] at h
    · simp only [hr] at h
      split at h
      · cases h
      · rename_i he
        cases h
        exact .inr ⟨_, b, rules, c, rfl, rfl, he, h0, hx⟩
  · cases he : exportUsers nodes (i + 1) ns l with
    | none => simp [he] at h
    | some q =>
      simp only [he] at h
      cases h
      exact .inl ⟨q.1, rfl, rfl, .inr (Bool.not_eq_true _ ▸ hx)⟩

/-- An export loop changes nothing but counters. -/
theorem exportUsers_map {β : Type*} (f : NodeUser → β)
    (hf : ∀ node t rules, f { node with traffic := t, idRules := rules } = f node)
    {nodes : Nat → UserTrafficEnv} {i : Nat} {ns ns' : List NodeUser} {l l' : Ledger}
    (h : exportUsers nodes i ns l = some (ns', l')) : ns'.map f = ns.map f := by
  induction ns generalizing i l ns' l' with
  | nil =>
    cases h
    rfl
  | cons node ns ih =>
    rcases exportUsers_cons h with ⟨rest, rfl, he, -⟩ | ⟨rest, b, rules, c, rfl, hs, he, -⟩
    · rw [List.map_cons, List.map_cons, ih he]
    · rw [List.map_cons, List.map_cons, ih he, hf]

theorem usersSyncTraffic_cases {env : TrafficEnv} {d d' : Core}
    (h : usersSyncTraffic env d = some d') :
    (env.opened = false ∧ d' = d) ∨
      (env.opened = true ∧ ∃ ns l, exportUsers env.nodes 0 d.users.idUsers d.ledger =
        some (ns, l) ∧ d' = ⟨{ d.users with idUsers := ns }, l⟩) := by
  rw [usersSyncTraffic] at h
  cases ho : env.opened with
  | false =>
    simp only [ho] at h
    cases h
    exact .inl ⟨rfl, rfl⟩
  | true =>
    simp only [ho, if_true] at h
    cases he : exportUsers env.nodes 0 d.users.idUsers d.ledger with
    | none => simp [he] at h
    | some q =>
      simp only [he] at h
      cases h
      exact .inr ⟨rfl, q.1, q.2, rfl, rfl⟩

theorem usersDelete_idUsers (users : Users) (key : IpId) (now : TimeT) :
    (usersDelete users key now).idUsers = users.idUsers.eraseP (·.id = key) := by
  rw [usersDelete]
  cases hu : usersFind users key with
  | some node => rfl
  | none => exact (List.eraseP_of_forall_not (List.find?_eq_none.mp hu)).symm

theorem sweepUsers_sweep (env : SweepEnv) (i : Nat) (ns : List NodeUser) (users : Users) :
    (sweepUsers env i ns users).idUsers =
      Aged.sweep NodeUser.id (fun i n => expired env.age i n.timeLive) i ns users.idUsers := by
  induction ns generalizing i users with
  | nil => rfl
  | cons node ns ih =>
    rw [sweepUsers, Aged.sweep, ih]
    cases expired env.age i node.timeLive with
    | false => rfl
    | true =>
      rw [if_pos rfl, if_pos rfl, usersDelete_idUsers]

/-- The rows that a pass goes through: none when the store could not be opened. -/
def SyncEnv.listed (env : SyncEnv) : List ListingRow := if env.opened then env.rows.getD [] else []

/-- The stamps that a pass gives to the users it lists. -/
def SyncEnv.touches (env : SyncEnv) : List (IpId × TimeT) :=
  env.listed.map fun row => (row.id, row.now)

theorem usersListing_cases {env : SyncEnv} {d d' : Core} {go : Bool}
    (h : usersListing env d = some (d', go)) :
    (env.opened = true ∧ env.rows = none ∧ go = false ∧ d' = d) ∨
      (go = true ∧ Run.exec usersSyncRow d env.listed = some d') := by
  rw [usersListing] at h
  unfold SyncEnv.listed
  cases ho : env.opened with
  | false =>
    simp only [ho] at h
    cases h
    exact .inr ⟨rfl, rfl⟩
  | true =>
    simp only [ho, if_true] at h
    cases hr : env.rows with
    | none =>
      simp only [hr] at h
      cases h
      exact .inl ⟨rfl, rfl, rfl, rfl⟩
    | some rows =>
      simp only [hr, Option.map_eq_some_iff] at h
      obtain ⟨d1, he, hd⟩ := h
      cases hd
      exact .inr ⟨rfl, he⟩

/-- A pass returns after a failed query, or lists, sweeps and exports. -/
theorem usersSync_cases {env : SyncEnv} {d d' : Core} (h : usersSync env d = some d') :
    (env.opened = true ∧ env.rows = none ∧ d' = d) ∨
      ∃ d1, usersListing env d = some (d1, true) ∧
        Run.exec usersSyncRow d env.listed = some d1 ∧
        usersSyncTraffic env.traffic { d1 with users := usersMysqlDelete env.sweep d1.users } =
          some d' := by
  rw [usersSync] at h
  rcases hl : usersListing env d with _ | ⟨d1, go⟩
  · simp [hl] at h
  · rcases usersListing_cases hl with ⟨ho, hr, rfl, rfl⟩ | ⟨rfl, he⟩
    · simp only [hl] at h
      cases h
      exact .inl ⟨ho, hr, rfl⟩
    · simp only [hl] at h
      exact .inr ⟨d1, rfl, he, h⟩

/-- What the rows, the sweep and the exports of a pass each preserve, the pass preserves. -/
theorem usersSync_invariant {inv : Core → Prop} {guard : Core → ListingRow → Prop}
    {env : SyncEnv} {d d' : Core}
    (hrow : ∀ s row s', inv s → guard s row → usersSyncRow s row = some s' → inv s')
    (hsweep : ∀ s, usersListing env d = some (s, true) → inv s →
      inv { s with users := usersMysqlDelete env.sweep s.users })
    (htraffic : ∀ s s', inv s → usersSyncTraffic env.traffic s = some s' → inv s')
    (hi : inv d) (hg : Run.Guarded usersSyncRow guard d env.listed)
    (h : usersSync env d = some d') : inv d' := by
  rcases usersSync_cases h with ⟨-, -, rfl⟩ | ⟨d1, hl, he, ht⟩
  · exact hi
  · have h1 := Run.exec_invariant hrow hi hg he
    exact htraffic _ d' (hsweep d1 hl h1) ht

/-- The select of every export finds the rule's row, with a Price. -/
def RulesTrafficEnv.FindsRows (env : RulesTrafficEnv) : Prop := ∀ j, (env.exports j).row = true

theorem rulesMysqlExport_returns {env : ExportEnv} (h : env.row = true) (noSum : Bool) :
    ∃ ok, rulesMysqlExport env noSum = some ok := by
  obtain ⟨hrule, hprice⟩ := Bool.and_eq_true_iff.mp h
  simp only [rulesMysqlExport, hrule, hprice, Bool.not_true, Bool.false_eq_true, if_false]
  split_ifs <;> exact ⟨_, rfl⟩

theorem exportRules_returns {exports : Nat → ExportEnv} (h : ∀ j, (exports j).row = true)
    (j : Nat) (rs : List NodeRule) (c : IpId → IpSize) :
    ∃ rs' c', exportRules exports j rs c = some (rs', c') := by
  induction rs generalizing j c with
  | nil => exact ⟨[], c, rfl⟩
  | cons rule rs ih =>
    rw [exportRules]
    split_ifs with h0
    · obtain ⟨rs', c', he⟩ := ih (j + 1) c
      simp [he]
    · obtain ⟨ok, hok⟩ := rulesMysqlExport_returns (h j) rule.noSum
      cases ok with
      | false =>
        obtain ⟨rs', c', he⟩ := ih (j + 1) c
        simp [hok, he]
      | true =>
        obtain ⟨rs', c', he⟩ := ih (j + 1) (bump c rule.id rule.traffic)
        simp [hok, he]

theorem rulesSyncTraffic_returns {env : RulesTrafficEnv} (h : env.FindsRows) (rs : List NodeRule)
    (c : IpId → IpSize) : ∃ q, rulesSyncTraffic env rs c = some q := by
  rw [rulesSyncTraffic]
  split_ifs
  · obtain ⟨rs', c', he⟩ := exportRules_returns h 0 rs c
    simp [he]
  · exact ⟨_, rfl⟩

theorem syncNode_returns {row : ListingRow} (h : row.update.unload.FindsRows) (node : NodeUser)
    (c : IpId → IpSize) : ∃ q, syncNode row node c = some q := by
  have hupdate (node : NodeUser) : ∃ q, updateNode row.update node c = some q := by
    rw [updateNode]
    split_ifs
    · obtain ⟨⟨ok, rs, c'⟩, hs⟩ := rulesSyncTraffic_returns h node.idRules c
      have hunload : ∃ q, rulesMysqlUnload row.update.unload node.idRules c = some q := by
        rw [rulesMysqlUnload, hs]
        cases ok <;> exact ⟨_, rfl⟩
      obtain ⟨q, hq⟩ := hunload
      rw [hq]
      cases row.update.rows <;> exact ⟨_, rfl⟩
    · exact ⟨_, rfl⟩
  obtain ⟨q, hq⟩ := hupdate { node with idRules := (syncCheck row node).1 }
  rw [syncNode]
  cases (syncCheck row node).2 with
  | false => exact ⟨_, rfl⟩
  | true => simp [hq]

theorem usersSyncRow_returns {row : ListingRow} (h : row.update.unload.FindsRows) (d : Core) :
    ∃ d', usersSyncRow d row = some d' := by
  rw [usersSyncRow]
  cases usersFind d.users row.id with
  | none => exact ⟨_, rfl⟩
  | some node =>
    obtain ⟨q, hq⟩ := syncNode_returns h node d.ledger.rulesCommitted
    simp [hq]

theorem exportUsers_returns {nodes : Nat → UserTrafficEnv} (h : ∀ i, (nodes i).rules.FindsRows)
    (i : Nat) (ns : List NodeUser) (l : Ledger) : ∃ q, exportUsers nodes i ns l = some q := by
  induction ns generalizing i l with
  | nil => exact ⟨_, rfl⟩
  | cons node ns ih =>
    rw [exportUsers]
    split_ifs
    · obtain ⟨q, hq⟩ := ih (i + 1) l
      simp [hq]
    · obtain ⟨⟨ok, rules, c⟩, hs⟩ := rulesSyncTraffic_returns (h i) node.idRules l.rulesCommitted
      obtain ⟨q, hq⟩ := ih (i + 1) { l with
        rulesCommitted := c
        usersExported := bump l.usersExported node.id node.traffic }
      simp [hs, hq]
    · obtain ⟨q, hq⟩ := ih (i + 1) l
      simp [hq]

/-- A pass returns where every export finds the row of its rule. -/
theorem usersSync_returns {env : SyncEnv} (hrows : ∀ row ∈ env.listed, row.update.unload.FindsRows)
    (hnodes : ∀ i, (env.traffic.nodes i).rules.FindsRows) (d : Core) :
    ∃ d', usersSync env d = some d' := by
  have htraffic (d : Core) : ∃ d', usersSyncTraffic env.traffic d = some d' := by
    rw [usersSyncTraffic]
    split_ifs
    · obtain ⟨q, hq⟩ := exportUsers_returns hnodes 0 d.users.idUsers d.ledger
      simp [hq]
    · exact ⟨d, rfl⟩
  obtain ⟨d1, he⟩ := Run.exec_returns (fun row hrow s => usersSyncRow_returns (hrows row hrow) s) d
  rw [usersSync, usersListing]
  unfold SyncEnv.listed at he
  split_ifs at he ⊢
  · cases hr : env.rows with
    | none => exact ⟨d, rfl⟩
    | some rows =>
      rw [hr, Option.getD_some] at he
      simp only [he, Option.map_some]
      exact htraffic _
  · exact htraffic _
end IPStat
