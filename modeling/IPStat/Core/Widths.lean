import IPStat.Core.Chains
import IPStat.Lib.Keyed
import IPStat.Lib.Meter

namespace IPStat

/-- NODE_USER.traffic of a node of id_users, and NODE_RULE.traffic of one of its rules, by their
places. -/
inductive UserCounter where
  | user (i : Nat)
  | rule (i j : Nat)
  deriving DecidableEq, Repr

def Users.count (users : Users) : UserCounter → Nat
  | .user i => (users.idUsers[i]?.map fun node => node.traffic.toNat).getD 0
  | .rule i j =>
    ((users.idUsers[i]?.bind fun node => node.idRules[j]?).map fun rule => rule.traffic.toNat).getD 0

/-- The place of the user that a users_acct call charges. -/
def userPlace (users : Users) (req : Request) : Option Nat :=
  users.idUsers.findIdx? (·.id = req.idUser)

/-- How often a call adds its length to the counter of the user itself. -/
def billed (node : NodeUser) (charged : List Nat) : Nat :=
  charged.countP fun j => node.idRules[j]?.any fun rule => !rule.noSum

/-- The bytes that a users_acct call accounts to a counter. -/
def accounted (users : Users) (req : Request) : UserCounter → Nat
  | .user i =>
    if userPlace users req = some i then
      (users.idUsers[i]?.map fun node => billed node (chargedAt users req)).getD 0 * req.len.toNat
    else 0
  | .rule i j =>
    if userPlace users req = some i ∧ j ∈ chargedAt users req then req.len.toNat else 0

/-- An export that is made and succeeds. -/
def ruleSent (env : ExportEnv) (rule : NodeRule) : Bool :=
  rule.traffic ≠ 0 && rulesMysqlExport env rule.noSum = some true

def userSent (env : UserTrafficEnv) (node : NodeUser) : Bool := node.traffic ≠ 0 && env.exported

def ruleOfUserSent (env : UserTrafficEnv) (node : NodeUser) (j : Nat) (rule : NodeRule) : Bool :=
  userSent env node && env.rules.opened && ruleSent (env.rules.exports j) rule

/-- Whether a users_sync_traffic pass exports a counter successfully. -/
def counterSent (env : TrafficEnv) (users : Users) : UserCounter → Bool
  | .user i => env.opened && users.idUsers[i]?.any (userSent (env.nodes i))
  | .rule i j => env.opened && users.idUsers[i]?.any fun node =>
      node.idRules[j]?.any (ruleOfUserSent (env.nodes i) node j)

/-- The calls that raise the counters and the passes that export them. -/
inductive ChargeOp where
  | acct (req : Request)
  | traffic (env : TrafficEnv)

def chargeStep (d : Core) : ChargeOp → Option Core
  | .acct req => coreAcct req d
  | .traffic env => usersSyncTraffic env d

/-- The exact sums of what was accounted to each counter since its last successful export. -/
def usersBook (d : Core) (op : ChargeOp) (sums : UserCounter → Nat) (a : UserCounter) : Nat :=
  match op with
  | .acct req => sums a + accounted d.users req a
  | .traffic env => if counterSent env d.users a then 0 else sums a

/-- The counters that a call raises stay below 2^32. -/
def UsersFit (d : Core) : ChargeOp → Prop
  | .acct req => ∀ node ∈ usersFind d.users req.idUser,
    node.traffic.toNat + billed node (chargedAt d.users req) * req.len.toNat < 4294967296 ∧
      ∀ j ∈ chargedAt d.users req, ∀ rule ∈ node.idRules[j]?,
        rule.traffic.toNat + req.len.toNat < 4294967296
  | .traffic _ => True

section
variable {d d' : Core} {users : Users} {req : Request}

theorem usersFind_place {i : Nat} (h : userPlace users req = some i) :
    usersFind users req.idUser = users.idUsers[i]? :=
  Keyed.find?_first (Keyed.firstAt_iff_findIdx?.mpr h)

/-- The write of users_acct goes to the place of its user, and to no other. -/
theorem account_at (users : Users) (req : Request) (s : AcctScan) (i : Nat) :
    (users.account req.idUser s).idUsers[i]? =
      if userPlace users req = some i then
        users.idUsers[i]?.map fun node => { node with traffic := s.traffic, idRules := s.rules }
      else users.idUsers[i]? := by
  split_ifs with h
  · exact Keyed.getElem?_replaceF_first _ (Keyed.firstAt_iff_findIdx?.mpr h)
  · apply Keyed.getElem?_replaceF_other
    intro hfirst
    exact h (Keyed.firstAt_iff_findIdx?.mp hfirst)

/-- The rules visited that have no CONST_SUM, counted by their places. -/
theorem billed_visited {node : NodeUser} {qs : List (Nat × NodeRule)}
    (h : ∀ q ∈ qs, node.idRules[q.1]? = some q.2) :
    billed node (qs.map Prod.fst) = qs.countP fun q => !q.2.noSum := by
  rw [billed, List.countP_map]
  apply List.countP_congr
  intro q hq
  simp [h q hq]

/-- A call for no user, or for another service, accounts nothing. -/
theorem accounted_none (h : chargedAt users req = []) (a : UserCounter) :
    accounted users req a = 0 := by
  cases a with
  | user i =>
    rw [accounted, h]
    split_ifs
    · cases users.idUsers[i]? <;> simp [billed]
    · rfl
  | rule i j => simp [accounted, h]

/-- A call that fits raises every counter by what it accounts to it. -/
theorem coreAcct_counts (h : coreAcct req d = some d') (hfit : UsersFit d (.acct req))
    (a : UserCounter) : d'.users.count a = d.users.count a + accounted d.users req a := by
  obtain ⟨rfl, hnone⟩ | ⟨user, qs, s, hc, hat, rfl⟩ := coreAcct_cases h
  · rw [accounted_none hnone, Nat.add_zero]
  obtain ⟨test, stop, hv⟩ := hc.visited
  have hget : ∀ q ∈ qs, user.idRules[q.1]? = some q.2 :=
    fun q hq => (Chain.visited_get hv q hq).2.1
  have hcount := chargeUser_count req.len user.traffic qs
  rw [← hc.traffic, ← billed_visited hget, ← hat] at hcount
  obtain ⟨huser, hrules⟩ := hfit user hc.found
  cases a with
  | user i =>
    rw [Users.count, Users.count, account_at, accounted]
    split_ifs with hplace
    · rw [← usersFind_place hplace, hc.found]
      change s.traffic.toNat = user.traffic.toNat + billed user _ * _
      rw [hcount]
      exact Nat.mod_eq_of_lt huser
    · rfl
  | rule i j =>
    rw [Users.count, Users.count, account_at, accounted]
    by_cases hplace : userPlace d.users req = some i
    · rw [if_pos hplace, ← usersFind_place hplace, hc.found]
      change ((s.rules[j]?).map _).getD 0 = ((user.idRules[j]?).map _).getD 0 + _
      rw [hc.rules, ← hat, Chain.getElem?_applyAt, Nat.zero_add]
      cases hrule : user.idRules[j]? with
      | none =>
        have hnot : j ∉ chargedAt d.users req := by
          intro hm
          rw [hat] at hm
          obtain ⟨q, hq, rfl⟩ := List.mem_map.mp hm
          rw [hget q hq] at hrule
          cases hrule
        simp [hnot]
      | some rule =>
        by_cases hj : j ∈ chargedAt d.users req
        · have hroom := hrules j hj rule hrule
          simp only [hplace, hj, and_self, if_true, Option.map_some, Option.getD_some]
          exact Meter.toNat_add hroom
        · simp [hj]
    · simp [hplace]

theorem exportRules_mapIdx {exports : Nat → ExportEnv} {k : Nat} {rs rs' : List NodeRule}
    {c c' : IpId → IpSize} (h : exportRules exports k rs c = some (rs', c')) :
    rs' = rs.mapIdx fun j rule =>
      if ruleSent (exports (k + j)) rule then { rule with traffic := 0 } else rule := by
  induction rs generalizing k rs' c with
  | nil =>
    cases h
    rfl
  | cons rule rs ih =>
    rw [List.mapIdx_cons]
    obtain ⟨rest, rfl, he, hkept⟩ | ⟨rest, rfl, he, hne, hsent⟩ := exportRules_cons h
    · have hnot : ruleSent (exports (k + 0)) rule = false := by
        obtain h0 | hrefused := hkept
        · simp [ruleSent, h0]
        · simp [ruleSent, hrefused]
      rw [hnot, ih he]
      simp only [Bool.false_eq_true, if_false, Nat.add_assoc, Nat.add_comm 1]
    · have hyes : ruleSent (exports (k + 0)) rule = true := by
        simp [ruleSent, hne, hsent]
      rw [hyes, ih he]
      simp only [if_true, Nat.add_assoc, Nat.add_comm 1]

theorem mapIdx_keep {α : Type} (l : List α) : (l.mapIdx fun _ a => a) = l := by
  apply List.ext_getElem?
  intro i
  simp

/-- A rule of a node after a pass. -/
def ruleAfter (env : UserTrafficEnv) (node : NodeUser) (j : Nat) (rule : NodeRule) : NodeRule :=
  if ruleOfUserSent env node j rule then { rule with traffic := 0 } else rule

/-- A node after a pass. -/
def nodeAfter (env : UserTrafficEnv) (node : NodeUser) : NodeUser :=
  { node with
    traffic := if userSent env node then 0 else node.traffic
    idRules := node.idRules.mapIdx (ruleAfter env node) }

theorem nodeAfter_kept {env : UserTrafficEnv} {node : NodeUser} (h : userSent env node = false) :
    nodeAfter env node = node := by
  have hrule : ruleAfter env node = fun _ rule => rule := by
    funext j rule
    simp [ruleAfter, ruleOfUserSent, h]
  rw [nodeAfter, h, hrule, mapIdx_keep, if_neg (by simp)]

theorem nodeAfter_sent {env : UserTrafficEnv} {node : NodeUser} {b : Bool} {rules : List NodeRule}
    {c c' : IpId → IpSize} (h : userSent env node = true)
    (hs : rulesSyncTraffic env.rules node.idRules c = some (b, rules, c')) :
    nodeAfter env node = { node with traffic := 0, idRules := rules } := by
  have hrules : rules = node.idRules.mapIdx (ruleAfter env node) := by
    obtain ⟨hclosed, -, rfl, -⟩ | ⟨hopened, -, he⟩ := rulesSyncTraffic_cases hs
    · have hrule : ruleAfter env node = fun _ rule => rule := by
        funext j rule
        simp [ruleAfter, ruleOfUserSent, hclosed]
      rw [hrule, mapIdx_keep]
    · rw [exportRules_mapIdx he]
      apply congrArg (fun f => node.idRules.mapIdx f)
      funext j rule
      simp [ruleAfter, ruleOfUserSent, h, hopened]
  rw [nodeAfter, h, hrules, if_pos rfl]

theorem exportUsers_mapIdx {nodes : Nat → UserTrafficEnv} {k : Nat} {ns ns' : List NodeUser}
    {l l' : Ledger} (h : exportUsers nodes k ns l = some (ns', l')) :
    ns' = ns.mapIdx fun i node => nodeAfter (nodes (k + i)) node := by
  induction ns generalizing k ns' l with
  | nil =>
    cases h
    rfl
  | cons node ns ih =>
    rw [List.mapIdx_cons, Nat.add_zero]
    simp only [← Nat.add_assoc, Nat.add_right_comm k _ 1]
    obtain ⟨rest, rfl, he, hkept⟩ | ⟨rest, b, rules, c, rfl, hs, he, hne, hsent⟩ :=
      exportUsers_cons h
    · have hnot : userSent (nodes k) node = false := by
        obtain h0 | hrefused := hkept
        · simp [userSent, h0]
        · simp [userSent, hrefused]
      rw [nodeAfter_kept hnot, ih he]
    · have hyes : userSent (nodes k) node = true := by
        simp [userSent, hne, hsent]
      rw [nodeAfter_sent hyes hs, ih he]

/-- A pass empties the counters that it exports successfully, and leaves the others. -/
theorem usersSyncTraffic_counts {env : TrafficEnv} (h : usersSyncTraffic env d = some d')
    (a : UserCounter) :
    d'.users.count a = if counterSent env d.users a then 0 else d.users.count a := by
  rw [usersSyncTraffic] at h
  cases ho : env.opened with
  | false =>
    simp only [ho, Bool.false_eq_true, if_false] at h
    cases h
    cases a with
    | user i => simp [counterSent, ho]
    | rule i j => simp [counterSent, ho]
  | true =>
    simp only [ho, if_true] at h
    cases he : exportUsers env.nodes 0 d.users.idUsers d.ledger with
    | none => simp [he] at h
    | some q =>
      simp only [he] at h
      cases h
      have hafter := exportUsers_mapIdx he
      simp only [Nat.zero_add] at hafter
      cases a with
      | user i =>
        simp only [Users.count, counterSent, ho, Bool.true_and, hafter, List.getElem?_mapIdx]
        cases d.users.idUsers[i]? with
        | none => rfl
        | some node =>
          cases hsent : userSent (env.nodes i) node with
          | true => simp [nodeAfter, hsent]
          | false => simp [nodeAfter, hsent]
      | rule i j =>
        simp only [Users.count, counterSent, ho, Bool.true_and, hafter, List.getElem?_mapIdx]
        cases d.users.idUsers[i]? with
        | none => rfl
        | some node =>
          simp only [Option.map_some, Option.bind_some, Option.any_some, nodeAfter,
            List.getElem?_mapIdx]
          cases node.idRules[j]? with
          | none => rfl
          | some rule =>
            cases hsent : ruleOfUserSent (env.nodes i) node j rule with
            | true => simp [ruleAfter, hsent]
            | false => simp [ruleAfter, hsent]

theorem chargeStep_counts {op : ChargeOp} (hfit : UsersFit d op) (h : chargeStep d op = some d')
    (a : UserCounter) : d'.users.count a = usersBook d op d.users.count a := by
  cases op with
  | acct req => exact coreAcct_counts h hfit a
  | traffic env => exact usersSyncTraffic_counts h a

end

end IPStat
