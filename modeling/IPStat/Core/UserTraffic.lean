import IPStat.Core.Conservation

namespace IPStat

open Tally

/-- The bytes pending in the nodes of one user. -/
def userBytes (id : IpId) : List NodeUser → IpSize :=
  tally fun node => if node.id = id then node.traffic else 0

/-- Bytes added for a user are bytes exported for it plus those pending in id_users. -/
def UserBalanced (id : IpId) (d : Core) : Prop :=
  d.ledger.usersAdded id = d.ledger.usersExported id + userBytes id d.users.idUsers

open scoped UInt32.CommRing

theorem userBytes_zero {id : IpId} {ns : List NodeUser}
    (h : ∀ node ∈ ns, node.id = id → node.traffic = 0) : userBytes id ns = 0 := by
  apply tally_zero
  intro node hm
  split_ifs with hid
  · exact h node hm hid
  · rfl

theorem coreAcct_user {req : Request} {d d' : Core} {id : IpId} (hb : UserBalanced id d)
    (h : coreAcct req d = some d') : UserBalanced id d' := by
  obtain ⟨rfl, -⟩ | ⟨user, qs, s, hc, -, rfl⟩ := coreAcct_cases h
  · exact hb
  · obtain ⟨test, stop, hv⟩ := hc.visited
    obtain ⟨-, hsum, -, hexported⟩ := charge_sums d.ledger
      fun q hq => (Chain.visited_get hv q hq).2.1
    have hid := usersFind_id hc.found
    have htraffic := hc.traffic
    rw [chargeUser_sum] at htraffic
    have hmod := account_tally (fun n => if n.id = id then n.traffic else 0) s hc.found
    unfold UserBalanced userBytes at *
    rw [hsum, hexported]
    simp only [hid, htraffic] at hmod
    by_cases hk : req.idUser = id
    · simp only [hk, if_true] at hmod ⊢
      grind
    · simp only [hk, if_false] at hmod ⊢
      grind

theorem usersMysqlInsert_user (id : IpId) (env : InsertEnv) (key : IpId) (users : Users) :
    userBytes id (usersMysqlInsert env key users).idUsers = userBytes id users.idUsers := by
  obtain ⟨new, hids, -, hnew⟩ := usersMysqlInsert_new env key users
  have hzero : userBytes id new = 0 := by
    apply userBytes_zero
    intro node hm _
    exact (hnew node hm).2.1
  unfold userBytes at *
  rw [hids, tally_append, hzero, add_zero]

theorem usersSyncRow_user {row : ListingRow} {d d' : Core} {id : IpId} (hb : UserBalanced id d)
    (h : usersSyncRow d row = some d') : UserBalanced id d' := by
  rcases usersSyncRow_cases h with ⟨-, rfl⟩ | ⟨node, node', c, hu, hn, rfl⟩
  · rw [UserBalanced, usersMysqlInsert_user]
    exact hb
  · obtain ⟨hid, htraffic, -⟩ := syncNode_frame hn
    have hmod := modify_tally (fun n => if n.id = id then n.traffic else 0) (fun _ => node') hu
    rw [htraffic, hid] at hmod
    have hsame := add_right_cancel hmod
    unfold UserBalanced userBytes at *
    exact hb.trans (congrArg _ hsame.symm)

/-- The nodes that a sweep would find expired hold no bytes. -/
def SweepIdle (env : SweepEnv) (ns : List NodeUser) : Prop :=
  ∀ q ∈ ns.zipIdx, expired env.age q.2 q.1.timeLive = true →
    ∀ node ∈ ns, node.id = q.1.id → node.traffic = 0

theorem usersDelete_sublist (users : Users) (key : IpId) (now : TimeT) :
    (usersDelete users key now).idUsers.Sublist users.idUsers := by
  rw [usersDelete]
  cases usersFind users key with
  | none => exact List.Sublist.refl _
  | some node => exact List.eraseP_sublist

/-- Deleting a user whose counter is zero takes no bytes along. -/
theorem usersDelete_user {users : Users} {key : IpId} (id : IpId) (now : TimeT)
    (hidle : ∀ node ∈ users.idUsers, node.id = key → node.traffic = 0) :
    userBytes id (usersDelete users key now).idUsers = userBytes id users.idUsers := by
  rw [usersDelete]
  cases hu : usersFind users key with
  | none => rfl
  | some node =>
    have herase := tally_eraseP (f := fun n : NodeUser => if n.id = id then n.traffic else 0) hu
    have hzero : node.traffic = 0 := hidle node (List.mem_of_find?_eq_some hu) (usersFind_id hu)
    rw [hzero, ite_self, zero_add] at herase
    exact herase.symm

theorem sweepUsers_user (id : IpId) (env : SweepEnv) (i : Nat) (ns : List NodeUser)
    (users : Users)
    (hidle : ∀ q ∈ ns.zipIdx i, expired env.age q.2 q.1.timeLive = true →
      ∀ node ∈ users.idUsers, node.id = q.1.id → node.traffic = 0) :
    userBytes id (sweepUsers env i ns users).idUsers = userBytes id users.idUsers := by
  induction ns generalizing i users with
  | nil => rfl
  | cons node ns ih =>
    rw [sweepUsers]
    have hhead := hidle (node, i) (by simp)
    have htail : ∀ q ∈ ns.zipIdx (i + 1), expired env.age q.2 q.1.timeLive = true →
        ∀ node ∈ users.idUsers, node.id = q.1.id → node.traffic = 0 := by
      intro q hq
      exact hidle q (by simp [hq])
    cases hx : expired env.age i node.timeLive with
    | false => exact ih (i + 1) users htail
    | true =>
      rw [if_pos rfl, ih (i + 1)]
      · exact usersDelete_user id (env.stamp i) (hhead hx)
      · intro q hq hqx n hn
        exact htail q hq hqx n ((usersDelete_sublist users node.id (env.stamp i)).subset hn)

theorem usersMysqlDelete_user {users : Users} {env : SweepEnv} (id : IpId)
    (hidle : SweepIdle env users.idUsers) :
    userBytes id (usersMysqlDelete env users).idUsers = userBytes id users.idUsers :=
  sweepUsers_user id env 0 users.idUsers users hidle

theorem userBytes_cons (id : IpId) (node : NodeUser) (ns : List NodeUser) :
    userBytes id (node :: ns) = (if node.id = id then node.traffic else 0) + userBytes id ns :=
  tally_cons _ _

/-- An export loop moves pending bytes to the database and loses none. -/
theorem exportUsers_user {nodes : Nat → UserTrafficEnv} {i : Nat} {ns ns' : List NodeUser}
    {l l' : Ledger} (id : IpId) (h : exportUsers nodes i ns l = some (ns', l')) :
    l'.usersExported id + userBytes id ns' = l.usersExported id + userBytes id ns ∧
      l'.usersAdded = l.usersAdded := by
  induction ns generalizing i l ns' l' with
  | nil =>
    cases h
    exact ⟨rfl, rfl⟩
  | cons node ns ih =>
    rcases exportUsers_cons h with ⟨rest, rfl, he, -⟩ | ⟨rest, b, rules, c, rfl, hs, he, -⟩
    · obtain ⟨hrest, hadded⟩ := ih he
      refine ⟨?_, hadded⟩
      rw [userBytes_cons, userBytes_cons, add_left_comm, hrest, add_left_comm]
    · obtain ⟨hrest, hadded⟩ := ih he
      refine ⟨?_, hadded⟩
      change _ = bump l.usersExported node.id node.traffic id + _ at hrest
      rw [bump_apply] at hrest
      rw [userBytes_cons, userBytes_cons, ite_self, zero_add, hrest, add_assoc]

/-- When the store takes every counter, none is left pending. -/
theorem exportUsers_drained {nodes : Nat → UserTrafficEnv} {i : Nat} {ns ns' : List NodeUser}
    {l l' : Ledger} (hok : ∀ j, (nodes j).exported = true)
    (h : exportUsers nodes i ns l = some (ns', l')) : ∀ node ∈ ns', node.traffic = 0 := by
  induction ns generalizing i l ns' l' with
  | nil =>
    cases h
    simp
  | cons node ns ih =>
    rcases exportUsers_cons h with ⟨rest, rfl, he, h0⟩ | ⟨rest, b, rules, c, rfl, hs, he, -⟩
    · have hzero : node.traffic = 0 := by
        rcases h0 with h0 | hrefused
        · exact h0
        · rw [hok i] at hrefused
          cases hrefused
      exact List.forall_mem_cons.mpr ⟨hzero, ih he⟩
    · exact List.forall_mem_cons.mpr ⟨rfl, ih he⟩

theorem usersSyncTraffic_user {env : TrafficEnv} {d d' : Core} {id : IpId}
    (hb : UserBalanced id d) (h : usersSyncTraffic env d = some d') : UserBalanced id d' := by
  rcases usersSyncTraffic_cases h with ⟨-, rfl⟩ | ⟨-, ns, l, he, rfl⟩
  · exact hb
  · obtain ⟨hbytes, hadded⟩ := exportUsers_user id he
    unfold UserBalanced at *
    rw [hbytes, hadded]
    exact hb

theorem usersSyncTraffic_drained {env : TrafficEnv} {d d' : Core} (ho : env.opened = true)
    (hok : ∀ i, (env.nodes i).exported = true) (h : usersSyncTraffic env d = some d') :
    ∀ node ∈ d'.users.idUsers, node.traffic = 0 := by
  rcases usersSyncTraffic_cases h with ⟨hclosed, -⟩ | ⟨-, ns, l, he, rfl⟩
  · rw [ho] at hclosed
    cases hclosed
  · exact exportUsers_drained hok he

/-- The store answers what users_sync asks for itself: the listing and each user's counter. -/
def CoreOp.Answered : CoreOp → Prop
  | .acct _ => True
  | .sync env => env.opened = true ∧ env.rows ≠ none ∧ env.traffic.opened = true ∧
      ∀ i, (env.traffic.nodes i).exported = true

/-- The condition on an operation: when the sweep of a pass reads the clock for an entry of a
user with bytes pending, the entry is no more than 90 seconds old, by the stamp that this pass
gave it or else by its old one. -/
def CoreOp.SweepsIdle (d : Core) : CoreOp → Prop
  | .acct _ => True
  | .sync env => env.opened = true ∧ env.rows = none ∨
      ∀ node ∈ d.users.idUsers, node.traffic ≠ 0 →
        ∀ q ∈ (Aged.restampBy (Aged.lastTouch node.id env.touches)
          (Aged.stamps NodeUser.id NodeUser.timeLive node.id d.users.idUsers)).zipIdx,
        ∀ t ∈ q.1, expired env.sweep.age q.2 t = false

instance (d : Core) : (op : CoreOp) → Decidable (op.SweepsIdle d)
  | .acct _ => isTrue trivial
  | .sync env => inferInstanceAs (Decidable (env.opened = true ∧ env.rows = none ∨
      ∀ node ∈ d.users.idUsers, node.traffic ≠ 0 →
        ∀ q ∈ (Aged.restampBy (Aged.lastTouch node.id env.touches)
          (Aged.stamps NodeUser.id NodeUser.timeLive node.id d.users.idUsers)).zipIdx,
        ∀ t ∈ q.1, expired env.sweep.age q.2 t = false))

/-- The listing carries the condition over to the nodes that the sweep walks. -/
theorem CoreOp.SweepsIdle.listed {env : SyncEnv} {d d1 : Core}
    (h : (CoreOp.sync env).SweepsIdle d) (hl : usersListing env d = some (d1, true)) :
    SweepIdle env.sweep d1.users.idUsers := by
  rcases usersListing_cases hl with ⟨-, -, hgo, -⟩ | ⟨-, he⟩
  · cases hgo
  rcases h with ⟨ho, hr⟩ | hfresh
  · rw [usersListing, if_pos ho, hr] at hl
    cases hl
  have hpending : ∀ node ∈ d1.users.idUsers, node.traffic ≠ 0 →
      ∃ old ∈ d.users.idUsers, old.id = node.id ∧ old.traffic ≠ 0 := by
    have hstep : ∀ s row s', (∀ node ∈ s.users.idUsers, node.traffic ≠ 0 →
        ∃ old ∈ d.users.idUsers, old.id = node.id ∧ old.traffic ≠ 0) → True →
        usersSyncRow s row = some s' → ∀ node ∈ s'.users.idUsers, node.traffic ≠ 0 →
          ∃ old ∈ d.users.idUsers, old.id = node.id ∧ old.traffic ≠ 0 := by
      intro s row s' hi _ hs node hm hn
      obtain ⟨mid, hmid, hid, hmn⟩ := usersSyncRow_pending hs node hm hn
      obtain ⟨old, hold, hid', hon⟩ := hi mid hmid hmn
      exact ⟨old, hold, hid'.trans hid, hon⟩
    have hinit : ∀ node ∈ d.users.idUsers, node.traffic ≠ 0 →
        ∃ old ∈ d.users.idUsers, old.id = node.id ∧ old.traffic ≠ 0 :=
      fun node hm hn => ⟨node, hm, rfl, hn⟩
    exact Run.exec_invariant hstep hinit (Run.guarded_of_forall (fun _ _ _ => trivial) d) he
  intro q hq hexpired node hm hid
  by_contra hn
  obtain ⟨old, hold, hoid, hon⟩ := hpending node hm hn
  obtain ⟨n, hstamps⟩ := Aged.stamps_exec (fun d : Core => d.users.idUsers)
    (fun row : ListingRow => (row.id, row.now)) (fun _ _ _ hs => usersSyncRow_touch hs)
    ⟨old, hold, rfl⟩ he
  have hat : (Aged.stamps NodeUser.id NodeUser.timeLive old.id d1.users.idUsers)[q.2]? =
      some (some q.1.timeLive) := by
    apply (Aged.stamps_get NodeUser.id).mpr
    exact ⟨q.1, List.mem_zipIdx_iff_getElem?.mp hq, (hoid.trans hid).symm, rfl⟩
  rw [hstamps, Aged.padded_get] at hat
  have hfalse := hfresh old hold hon (some q.1.timeLive, q.2)
    (List.mem_zipIdx_iff_getElem?.mpr hat) q.1.timeLive rfl
  rw [hexpired] at hfalse
  cases hfalse

theorem usersSync_user {env : SyncEnv} {d d' : Core} {id : IpId} (hb : UserBalanced id d)
    (hidle : (CoreOp.sync env).SweepsIdle d) (h : usersSync env d = some d') :
    UserBalanced id d' := by
  have hfree : Run.Guarded usersSyncRow (fun _ _ => True) d env.listed :=
    Run.guarded_of_forall (fun _ _ _ => trivial) d
  apply usersSync_invariant _ _ _ hb hfree h
  · intro s row s' hi _ hs
    exact usersSyncRow_user hi hs
  · intro s hl hi
    have hsweep := usersMysqlDelete_user id (hidle.listed hl)
    rw [UserBalanced, hsweep]
    exact hi
  · intro s s' hi hs
    exact usersSyncTraffic_user hi hs

theorem usersSync_drained {env : SyncEnv} {d d' : Core} (hup : (CoreOp.sync env).Answered)
    (h : usersSync env d = some d') : ∀ node ∈ d'.users.idUsers, node.traffic = 0 := by
  obtain ⟨-, hr, ht, hok⟩ := hup
  rcases usersSync_cases h with ⟨-, hnone, -⟩ | ⟨d1, -, -, hs⟩
  · exact absurd hnone hr
  · exact usersSyncTraffic_drained ht hok hs

/-- users_free exports no user's counter. -/
theorem usersFree_user {env : FreeEnv} {d d' : Core} (h : usersFree env d = some d') :
    d'.ledger.usersAdded = d.ledger.usersAdded ∧
      d'.ledger.usersExported = d.ledger.usersExported := by
  rw [usersFree] at h
  cases hu : freeNodes env.users 0 d.users.idUsers d.ledger.rulesCommitted with
  | none => simp [hu] at h
  | some c =>
    simp only [hu] at h
    cases hc : freeNodes env.clean 0 d.users.cleanList c with
    | none => simp [hc] at h
    | some c' =>
      simp only [hc] at h
      cases h
      exact ⟨rfl, rfl⟩

theorem users_balanced {ops : List CoreOp} {d : Core} (id : IpId)
    (hg : Run.Guarded coreStep CoreOp.SweepsIdle coreInit ops)
    (h : Run.exec coreStep coreInit ops = some d) : UserBalanced id d := by
  have hstep : ∀ d op d', UserBalanced id d → op.SweepsIdle d → coreStep d op = some d' →
      UserBalanced id d' := by
    intro d op d' hb hop hs
    cases op with
    | acct req => exact coreAcct_user hb hs
    | sync env => exact usersSync_user hb hop hs
  have hinit : UserBalanced id coreInit := rfl
  exact Run.exec_invariant hstep hinit hg h

/-- With a store that answers and sweeps that find only idle users expired, every byte added to a
user's counter has been exported once the user is out of id_users, after every pass, and after
a users_free that finds no counter pending. -/
theorem users_flush (ops : List CoreOp) (d : Core) (hup : ∀ op ∈ ops, op.Answered)
    (hg : Run.Guarded coreStep CoreOp.SweepsIdle coreInit ops)
    (h : Run.exec coreStep coreInit ops = some d) :
    (∀ id, (∀ node ∈ d.users.idUsers, node.id ≠ id) →
      d.ledger.usersAdded id = d.ledger.usersExported id) ∧
    (∀ env, ops.getLast? = some (.sync env) →
      ∀ id, d.ledger.usersAdded id = d.ledger.usersExported id) ∧
    ∀ env d', (∀ node ∈ d.users.idUsers, node.traffic = 0) → usersFree env d = some d' →
      ∀ id, d'.ledger.usersAdded id = d'.ledger.usersExported id := by
  have settled (id : IpId) (hz : ∀ node ∈ d.users.idUsers, node.id = id → node.traffic = 0) :
      d.ledger.usersAdded id = d.ledger.usersExported id := by
    have hb := users_balanced id hg h
    rw [UserBalanced, userBytes_zero hz, add_zero] at hb
    exact hb
  refine ⟨?_, ?_, ?_⟩
  · intro id hout
    apply settled id
    intro node hm hid
    exact absurd hid (hout node hm)
  · intro env hlast id
    obtain ⟨init, rfl⟩ := List.getLast?_eq_some_iff.mp hlast
    obtain ⟨d0, -, hs⟩ := Run.exec_concat_some h
    have hdrained := usersSync_drained (hup (.sync env) (by simp)) hs
    apply settled id
    intro node hm _
    exact hdrained node hm
  · intro env d' hz hf id
    obtain ⟨hadded, hexported⟩ := usersFree_user hf
    rw [hadded, hexported]
    apply settled id
    intro node hm _
    exact hz node hm

/-- User 7 is loaded and charged, goes through `pending`, and has left the listing. -/
def leaveRun (pending : List CoreOp) : List CoreOp :=
  [.sync (passOver [listedUser 0 storeUp] 1000),
    .acct (.squid ⟨[], 16777226⟩ ⟨.squid, 7, 1, 10, 1, 0, 1500⟩)] ++ pending ++
  [.sync (passOver [] 1100), .sync (passOver [] 1200)]

theorem passOver_answered (rows : List ListingRow) (now : TimeT) :
    (CoreOp.sync (passOver rows now)).Answered :=
  ⟨rfl, by simp [passOver], rfl, fun _ => rfl⟩

/-- A pass that exports the counter before the user leaves settles it. -/
theorem users_flush_exported :
    ∃ d, Run.exec coreStep coreInit (leaveRun [.sync (passOver [] 1010)]) = some d ∧
      d.ledger.usersExported 7 = 1500 ∧ d.users.idUsers = [] ∧
      ∀ id, d.ledger.usersAdded id = d.ledger.usersExported id := by
  refine ⟨_, rfl, by decide, by decide, ?_⟩
  apply (users_flush (leaveRun [.sync (passOver [] 1010)]) _ _ (by decide) rfl).2.1
    (passOver [] 1200) rfl
  intro op hop
  simp only [leaveRun, List.cons_append, List.nil_append, List.mem_cons, List.not_mem_nil,
    or_false] at hop
  rcases hop with rfl | rfl | rfl | rfl | rfl
  · exact passOver_answered _ _
  · trivial
  · exact passOver_answered _ _
  · exact passOver_answered _ _
  · exact passOver_answered _ _

/-- Otherwise the sweep takes the counter into clean_list, and neither the next pass nor
users_free exports it. -/
theorem users_lose_evicted :
    (∀ op ∈ leaveRun [], op.Answered) ∧
    ∃ d d', Run.exec coreStep coreInit (leaveRun []) = some d ∧ d.users.idUsers = [] ∧
      d.ledger.usersAdded 7 = 1500 ∧ d.ledger.usersExported 7 = 0 ∧
      usersFree ⟨fun _ => ⟨true, fun _ => storeUp⟩, fun _ => ⟨true, fun _ => storeUp⟩⟩ d = some d' ∧
      d'.ledger.usersAdded 7 = 1500 ∧ d'.ledger.usersExported 7 = 0 := by
  constructor
  · intro op hop
    simp only [leaveRun, List.cons_append, List.nil_append, List.append_nil, List.mem_cons,
      List.not_mem_nil, or_false] at hop
    rcases hop with rfl | rfl | rfl | rfl
    · exact passOver_answered _ _
    · trivial
    · exact passOver_answered _ _
    · exact passOver_answered _ _
  · exact ⟨_, _, rfl, by decide, by decide, by decide, rfl, by decide, by decide⟩

end IPStat
