import IPStat.Core.Users
import IPStat.Lib.Chain
import Mathlib.Tactic.Set

namespace IPStat

/-- The chain of a packet: the matching rules up to the first without CONST_NEXT. -/
def ruleChain (addr : IpAddr) (port : IpPort) (proto : IpProto) (direct : IpFlag)
    (i : Nat) (rs : List NodeRule) : Option (List (Nat × NodeRule)) :=
  Chain.visited (ruleMatch addr port proto direct) (fun r => !r.next) i rs

@[simp] theorem hit_direct (s : AutzScan PacketDataInfo) (q : Nat × NodeRule) :
    (s.hit q).ret.direct = s.ret.direct := rfl

/-- The traffic loop of users_autz folds its body over the chain. -/
theorem autzTraffic_chain (info : PacketInfo) (addr : IpAddr) (port : IpPort) (i : Nat)
    (rs : List NodeRule) (s : AutzScan PacketDataInfo) :
    autzTraffic info addr port i rs s =
      (ruleChain addr port info.proto s.ret.direct i rs).map (·.foldl .hit s) := by
  induction rs generalizing i s with
  | nil => rfl
  | cons rule rs ih =>
    unfold ruleChain at ih ⊢
    rcases ht : ruleMatch addr port info.proto s.ret.direct rule with _ | _ | _
    · simp [autzTraffic, ht, Chain.visited_undefined i rs ht]
    · simp [autzTraffic, ht, Chain.visited_skip i rs ht, ih]
    · cases hx : rule.next with
      | false => simp [autzTraffic, ht, hx, Chain.visited_stop i rs ht]
      | true =>
        simp [autzTraffic, ht, hx, Chain.visited_go i rs ht, ih, Option.map_map,
          Function.comp_def]

/-- The traffic loop of users_acct charges exactly the chain. -/
theorem acctTraffic_chain (info : PacketInfo) (ret : PacketDataInfo) (addr : IpAddr)
    (port : IpPort) (i : Nat) (rs : List NodeRule) (t : IpSize) :
    acctTraffic info ret addr port i rs t =
      (ruleChain addr port info.proto ret.direct i rs).map fun ps =>
        ⟨Chain.applyAt (·.charge ret.len) (ps.map Prod.fst) i rs,
          ps.foldl (fun t q => chargeUser q.2 ret.len t) t, ps.map Prod.fst⟩ := by
  induction rs generalizing i t with
  | nil => rfl
  | cons rule rs ih =>
    unfold ruleChain at ih ⊢
    rcases ht : ruleMatch addr port info.proto ret.direct rule with _ | _ | _
    · simp [acctTraffic, ht, Chain.visited_undefined i rs ht]
    · rw [Chain.visited_skip i rs ht]
      cases hv : Chain.visited (ruleMatch addr port info.proto ret.direct) (fun r => !r.next)
          (i + 1) rs with
      | none => simp [acctTraffic, ht, ih, hv]
      | some ps =>
        have hmiss := Chain.applyAt_miss (·.charge ret.len) i rule _ rs (Chain.visited_later hv)
        simp [acctTraffic, ht, ih, hv, hmiss]
    · cases hx : rule.next with
      | false => simp [acctTraffic, ht, hx, Chain.visited_stop i rs ht, Chain.applyAt_hit]
      | true =>
        rw [Chain.visited_go i rs ht (by simp [hx])]
        cases hv : Chain.visited (ruleMatch addr port info.proto ret.direct)
            (fun r => !r.next) (i + 1) rs <;>
          simp [acctTraffic, ht, hx, ih, hv, Chain.applyAt_hit]

theorem store_store (ret : PacketDataInfo) (r t : NodeRule) :
    (ret.store r).store t = ret.store t := rfl

theorem foldl_hit_ret (ps : List (Nat × NodeRule)) (s : AutzScan PacketDataInfo) :
    (ps.foldl .hit s).ret = (ps.getLast?.map fun q => s.ret.store q.2).getD s.ret := by
  induction ps using List.reverseRecOn with
  | nil => rfl
  | append_singleton ps q ih =>
    rw [List.foldl_append, List.foldl_cons, List.foldl_nil]
    change ((ps.foldl .hit s).ret).store q.2 = _
    rw [ih]
    cases ps.getLast? <;> simp [store_store]

theorem foldl_hit_stored (ps : List (Nat × NodeRule)) (s : AutzScan PacketDataInfo) :
    (ps.foldl .hit s).stored = (ps.getLast?.map fun q => some q.1).getD s.stored :=
  Chain.foldl_last (fun s q => s.hit q) AutzScan.stored (fun q => some q.1)
    (fun _ _ => rfl) ps s

/-- The remote end of a packet, as both functions pick it. -/
def peer (info : PacketInfo) (direct : IpFlag) : IpAddr × IpPort :=
  if direct = trafficIn then (info.src, info.srcPort) else (info.dest, info.destPort)

theorem autzSquid_find (i : Nat) (rs : List NodeRule) (s : AutzScan SquidDataInfo) :
    autzSquid i rs s =
      (((rs.zipIdx i).find? fun q => q.1.service = .squid && q.1.status = 1).map fun q =>
        ⟨true, s.ret.store q.1, some q.2⟩).getD s := by
  induction rs generalizing i with
  | nil => rfl
  | cons rule rs ih =>
    by_cases h : rule.service = .squid ∧ rule.status = 1
    · simp [autzSquid, h]
    · have hb : (decide (rule.service = .squid) && decide (rule.status = 1)) = false := by
        simpa using h
      simp [autzSquid, h, hb, ih]

theorem acctSquid_find (len : IpSize) (i : Nat) (rs : List NodeRule) (t : IpSize) :
    acctSquid len i rs t =
      let ps := ((rs.zipIdx i).find? fun q => q.1.service = .squid).toList
      ⟨Chain.applyAt (·.charge len) (ps.map Prod.snd) i rs,
        ps.foldl (fun t q => chargeUser q.1 len t) t, ps.map Prod.snd⟩ := by
  induction rs generalizing i with
  | nil => rfl
  | cons rule rs ih =>
    by_cases h : rule.service = .squid
    · simp [acctSquid, h, Chain.applyAt_hit]
    · have later : ∀ p ∈ (((rs.zipIdx (i + 1)).find? fun q => q.1.service = .squid).toList.map
          Prod.snd), i < p := by
        intro p hp
        obtain ⟨q, hq, rfl⟩ := List.mem_map.mp hp
        have hm := List.mem_of_find?_eq_some (Option.mem_toList.mp hq)
        exact (List.mem_zipIdx hm).1
      simp [acctSquid, h, ih, Chain.applyAt_miss _ i rule _ rs later]

/-- `ret` holds this rule's group, type and CONST_SUM bit. -/
def Request.Names (rule : NodeRule) : Request → Prop
  | .traffic _ ret => ret = ret.store rule
  | .squid _ ret => ret = ret.store rule
  | .other _ => False

/-- A TRUE from users_autz was already there before the hooks. -/
theorem autz_true {π : Type} {users : Users} {fl : Bool} {req : Request} {p : π}
    {a : AutzResult π} (h : usersAutz ⟨[], [], []⟩ users fl req p = some a)
    (ht : a.flag = true) :
    ∃ req' stored, autzRules users req = some (true, req', stored) ∧
      a = ⟨true, req', p, stored⟩ := by
  simp only [usersAutz, Option.bind_eq_bind, Option.bind_eq_some_iff] at h
  obtain ⟨⟨flag, req', stored⟩, hr, h⟩ := h
  cases flag with
  | true => exact ⟨req', stored, hr, by simpa using h.symm⟩
  | false =>
    simp at h
    simp [← h] at ht

/-- The traffic branch of users_autz past its tests of the user. -/
theorem autzRules_traffic {users : Users} {info : PacketInfo} {ret : PacketDataInfo}
    {req : Request} {stored : Option Nat}
    (h : autzRules users (.traffic info ret) = some (true, req, stored)) :
    ∃ user s, usersFind users ret.idUser = some user ∧
      autzTraffic info (peer info ret.direct).1 (peer info ret.direct).2 0 user.idRules
        ⟨false, ret, none⟩ = some s ∧ s.flag = true ∧
      req = .traffic info s.ret ∧ stored = s.stored := by
  simp only [autzRules] at h
  cases hu : usersFind users ret.idUser with
  | none => simp [hu] at h
  | some user =>
    by_cases h0 : user.status = 0
    · simp [hu, h0] at h
    by_cases hm : ret.direct = trafficOut ∧ user.mac.headD 0 ≠ 0 ∧
        strncasecmpEq 17 user.mac info.mac = false
    · simp only [hu, h0, if_false, if_pos hm] at h
      simp at h
    simp only [hu, h0, if_false, if_neg hm, Option.bind_eq_bind, Option.bind_eq_some_iff] at h
    obtain ⟨s, hs, he⟩ := h
    simp only [Option.some.injEq, Prod.mk.injEq, pure] at he
    exact ⟨user, s, rfl, hs, he.1, he.2.1.symm, he.2.2.symm⟩

theorem autzRules_squid {users : Users} {info : SquidInfo} {ret : SquidDataInfo}
    {req : Request} {stored : Option Nat}
    (h : autzRules users (.squid info ret) = some (true, req, stored)) :
    ∃ user s, usersFind users ret.idUser = some user ∧
      autzSquid 0 user.idRules ⟨false, ret, none⟩ = s ∧ s.flag = true ∧
      req = .squid info s.ret ∧ stored = s.stored := by
  simp only [autzRules] at h
  cases hu : usersFind users ret.idUser with
  | none => simp [hu] at h
  | some user =>
    by_cases h0 : user.status = 0
    · simp [hu, h0] at h
    simp only [hu, h0, if_false, Option.some.injEq, Prod.mk.injEq] at h
    exact ⟨user, _, rfl, rfl, h.1, h.2.1.symm, h.2.2.symm⟩

/-- The users_acct call that follows an authorisation charges `len` along its chain, and the
last rule charged is the rule that users_autz left in `ret`. -/
def AgreesOnRule {π : Type} (users : Users) (flagAcct : Bool) (a : AutzResult π) : Prop :=
  ∃ c user user' i rule,
    usersAcct ⟨[], [], []⟩ users flagAcct a.req a.plugins = some c ∧
    usersFind users a.req.idUser = some user ∧ usersFind c.users a.req.idUser = some user' ∧
    user'.idRules = Chain.applyAt (·.charge a.req.len) c.charged 0 user.idRules ∧
    c.charged.getLast? = some i ∧ user.idRules[i]? = some rule ∧
    a.stored = some i ∧ a.req.Names rule

/-- users_acct takes a user's first squid rule whatever its status; users_autz takes the
first active one. -/
def SquidRuleActive (users : Users) : Request → Prop
  | .squid _ ret => ∀ user rule, usersFind users ret.idUser = some user →
      user.idRules.find? (·.service = .squid) = some rule → rule.status = 1
  | _ => True

theorem usersFind_account {users : Users} {key : IpId} {user : NodeUser} (s : AcctScan)
    (h : usersFind users key = some user) :
    usersFind (users.account key s) key =
      some { user with traffic := s.traffic, idRules := s.rules } := by
  have hf := usersFind_modify users key
    (fun n => { n with traffic := s.traffic, idRules := s.rules }) (fun _ => rfl)
  rw [h, Option.map_some] at hf
  exact hf

/-- The traffic branch of users_acct writes back the chain, each rule charged. -/
theorem acctRules_traffic {users : Users} {user : NodeUser} {ps : List (Nat × NodeRule)}
    (info : PacketInfo) (ret : PacketDataInfo) (hu : usersFind users ret.idUser = some user)
    (hc : ruleChain (peer info ret.direct).1 (peer info ret.direct).2 info.proto ret.direct 0
      user.idRules = some ps) :
    acctRules users (.traffic info ret) = some (some (users.account ret.idUser
      ⟨Chain.applyAt (·.charge ret.len) (ps.map Prod.fst) 0 user.idRules,
        ps.foldl (fun t q => chargeUser q.2 ret.len t) user.traffic, ps.map Prod.fst⟩,
      ps.map Prod.fst)) := by
  have hs := acctTraffic_chain info ret (peer info ret.direct).1 (peer info ret.direct).2 0
    user.idRules user.traffic
  rw [hc, Option.map_some] at hs
  simp only [acctRules, hu]
  change (acctTraffic info ret (peer info ret.direct).1 (peer info ret.direct).2 0
    user.idRules user.traffic).bind _ = _
  rw [hs]
  rfl

theorem acct_traffic {π : Type} {users : Users} {user : NodeUser}
    {ps : List (Nat × NodeRule)} (fl : Bool) (info : PacketInfo) (ret : PacketDataInfo) (p : π)
    (hu : usersFind users ret.idUser = some user)
    (hc : ruleChain (peer info ret.direct).1 (peer info ret.direct).2 info.proto ret.direct 0
      user.idRules = some ps) :
    ∃ s : AcctScan, s.rules = Chain.applyAt (·.charge ret.len) (ps.map Prod.fst) 0 user.idRules ∧
      usersAcct ⟨[], [], []⟩ users fl (.traffic info ret) p =
        some ⟨true, .traffic info ret, p, users.account ret.idUser s, ps.map Prod.fst⟩ := by
  let s : AcctScan := ⟨Chain.applyAt (·.charge ret.len) (ps.map Prod.fst) 0 user.idRules,
    ps.foldl (fun t q => chargeUser q.2 ret.len t) user.traffic, ps.map Prod.fst⟩
  have hr : acctRules users (.traffic info ret) =
      some (some (users.account ret.idUser s, s.charged)) := acctRules_traffic info ret hu hc
  exact ⟨s, rfl, by simp [usersAcct, hr, s]⟩

theorem acct_squid {π : Type} {users : Users} {user : NodeUser} (fl : Bool) (info : SquidInfo)
    (ret : SquidDataInfo) (p : π) (hu : usersFind users ret.idUser = some user) :
    usersAcct ⟨[], [], []⟩ users fl (.squid info ret) p =
      some ⟨true, .squid info ret, p,
        users.account ret.idUser (acctSquid ret.len 0 user.idRules user.traffic),
        (acctSquid ret.len 0 user.idRules user.traffic).charged⟩ := by
  simp [usersAcct, acctRules, hu]

/-- On a packet both loops follow one chain, so they end at one rule. -/
theorem agrees_traffic {π : Type} {users : Users} {info : PacketInfo} {ret : PacketDataInfo}
    {a : AutzResult π} {req : Request} {stored : Option Nat} (fc : Bool) (p : π)
    (h : autzRules users (.traffic info ret) = some (true, req, stored))
    (ha : a = ⟨true, req, p, stored⟩) : AgreesOnRule users fc a := by
  obtain ⟨user, s, hu, hs, hf, rfl, rfl⟩ := autzRules_traffic h
  subst ha
  rw [autzTraffic_chain, Option.map_eq_some_iff] at hs
  obtain ⟨ps, hc, rfl⟩ := hs
  have hret := foldl_hit_ret ps ⟨false, ret, none⟩
  have hstored := foldl_hit_stored ps ⟨false, ret, none⟩
  rcases hl : ps.getLast? with _ | q
  · rw [List.getLast?_eq_none_iff.mp hl] at hf
    cases hf
  rw [hl] at hret hstored
  simp only [Option.map_some, Option.getD_some] at hret hstored
  rw [hret, hstored]
  have hq : q ∈ ps := List.mem_of_getLast? hl
  obtain ⟨-, hget, -⟩ := Chain.visited_get hc q hq
  obtain ⟨t, ht, hacct⟩ := acct_traffic fc info (ret.store q.2) p hu hc
  exact ⟨_, user, _, q.1, q.2, hacct, hu, usersFind_account t hu, ht, by simp [hl], hget,
    rfl, rfl⟩

/-- The first squid rule, with its position. -/
def firstSquid (rs : List NodeRule) : Option (NodeRule × Nat) :=
  rs.zipIdx.find? fun q => q.1.service = .squid

theorem firstSquid_rule (rs : List NodeRule) :
    rs.find? (·.service = .squid) = (firstSquid rs).map Prod.fst := by
  have hm := List.find?_map (f := Prod.fst) (p := fun r : NodeRule => r.service = .squid)
    (l := rs.zipIdx)
  rw [List.zipIdx_map_fst] at hm
  exact hm

/-- On a proxy request they end at one rule when the first squid rule is active. -/
theorem agrees_squid {π : Type} {users : Users} {info : SquidInfo} {ret : SquidDataInfo}
    {a : AutzResult π} {req : Request} {stored : Option Nat} (fc : Bool) (p : π)
    (h : autzRules users (.squid info ret) = some (true, req, stored))
    (ha : a = ⟨true, req, p, stored⟩) :
    AgreesOnRule users fc a ↔ SquidRuleActive users (.squid info ret) := by
  obtain ⟨user, s, hu, hs, hf, rfl, rfl⟩ := autzRules_squid h
  subst ha
  rw [autzSquid_find] at hs
  cases hq : user.idRules.zipIdx.find?
      (fun q => q.1.service = .squid && q.1.status = 1) with
  | none =>
    rw [hq] at hs
    simp [← hs] at hf
  | some q =>
    rw [hq, Option.map_some, Option.getD_some] at hs
    subst hs
    have hqs := List.find?_some hq
    have hqm := List.mem_of_find?_eq_some hq
    simp only [Bool.and_eq_true, decide_eq_true_eq] at hqs
    -- the wider search cannot fail where the narrower one succeeds
    obtain ⟨q0, h0⟩ : ∃ q0, firstSquid user.idRules = some q0 := by
      apply Option.isSome_iff_exists.mp
      exact List.find?_isSome.mpr ⟨q, hqm, by simpa using hqs.1⟩
    have h0m := List.mem_of_find?_eq_some h0
    have hacct := acct_squid fc info (ret.store q.1) p hu
    have hcharged : (acctSquid (ret.store q.1).len 0 user.idRules user.traffic).charged =
        [q0.2] := by
      rw [acctSquid_find]
      change ((firstSquid user.idRules).toList.map Prod.snd) = [q0.2]
      rw [h0]
      rfl
    have hrules : (acctSquid (ret.store q.1).len 0 user.idRules user.traffic).rules =
        Chain.applyAt (·.charge (ret.store q.1).len) [q0.2] 0 user.idRules := by
      rw [← hcharged, acctSquid_find]
    have hactive : SquidRuleActive users (.squid info ret) ↔ q0.1.status = 1 := by
      have hrule := firstSquid_rule user.idRules
      rw [h0, Option.map_some] at hrule
      constructor
      · intro hall
        exact hall user q0.1 hu hrule
      · intro h1 u rule hfind hr
        obtain rfl : user = u := Option.some.inj (hu.symm.trans hfind)
        rw [← Option.some.inj (hrule.symm.trans hr)]
        exact h1
    have hsame : q0.1.status = 1 ↔ q0 = q := by
      have hn := Chain.find?_narrow (fun q : NodeRule × Nat => decide (q.1.service = .squid))
        (fun q => decide (q.1.status = 1)) user.idRules.zipIdx q0 h0
      rw [hq, Option.some.injEq, decide_eq_true_eq] at hn
      exact hn.symm.trans eq_comm
    rw [hactive, hsame]
    constructor
    · rintro ⟨c, _, _, i, _, hc, -, -, -, hlast, -, hst, -⟩
      rw [hacct, Option.some.injEq] at hc
      subst hc
      rw [hcharged] at hlast
      have hi : q0.2 = q.2 := by
        have h1 : q0.2 = i := by simpa using hlast
        have h2 : q.2 = i := by simpa using hst
        omega
      have hget := List.mem_zipIdx_iff_getElem?.mp h0m
      rw [hi, List.mem_zipIdx_iff_getElem?.mp hqm] at hget
      exact Prod.ext (Option.some.inj hget).symm hi
    · rintro rfl
      refine ⟨_, user, _, q0.2, q0.1, hacct, hu, usersFind_account _ hu, ?_, ?_, ?_, rfl, rfl⟩
      · rw [hcharged]
        exact hrules
      · rw [hcharged]
        rfl
      · exact List.mem_zipIdx_iff_getElem?.mp h0m

/-- Accounting follows authorisation onto the same rule exactly when no inactive squid rule
stands before the one that authorised. -/
theorem usersAcct_agrees_iff {π : Type} (users : Users) (fa fc : Bool) (req : Request) (p : π)
    (a : AutzResult π) (h : usersAutz ⟨[], [], []⟩ users fa req p = some a)
    (ht : a.flag = true) :
    AgreesOnRule users fc a ↔ SquidRuleActive users req := by
  obtain ⟨req', stored, hr, ha⟩ := autz_true h ht
  cases req with
  | traffic info ret => exact iff_of_true (agrees_traffic fc p hr ha) trivial
  | squid info ret => exact agrees_squid fc p hr ha
  | other s => simp [autzRules] at hr

def squidRule (id idGroup : IpId) (status : IpFlag) : NodeRule :=
  ⟨id, 1, idGroup, .squid, trafficAll, protoAll, 0, 0, 0, 0, status, 0, 0, 0⟩

def squidUsers (rules : List NodeRule) : Users := ⟨[⟨7, 1, 16777226, [], 0, rules, 0, 1, 0⟩], [], 1⟩

def squidRequest : Request := .squid ⟨[], 16777226⟩ ⟨.squid, 7, 1, 0, 0, 0, 1500⟩

/-- With both rules active the request is charged where it was authorised. -/
theorem usersAcct_agrees_active :
    AgreesOnRule (squidUsers [squidRule 1 10 1, squidRule 2 20 1]) true
      ⟨true, .squid ⟨[], 16777226⟩ ⟨.squid, 7, 1, 10, 1, 0, 1500⟩, (), some 0⟩ ↔
    SquidRuleActive (squidUsers [squidRule 1 10 1, squidRule 2 20 1]) squidRequest :=
  usersAcct_agrees_iff _ true true squidRequest () _ (by decide) rfl

/-- An inactive squid rule before the active one is charged in its place. -/
theorem usersAcct_charges_inactive :
    ∃ a, usersAutz ⟨[], [], []⟩ (squidUsers [squidRule 1 10 0, squidRule 2 20 1]) true
        squidRequest () = some a ∧
      a.flag = true ∧ a.stored = some 1 ∧
      ¬ AgreesOnRule (squidUsers [squidRule 1 10 0, squidRule 2 20 1]) true a := by
  have hr : autzRules (squidUsers [squidRule 1 10 0, squidRule 2 20 1]) squidRequest =
      some (true, .squid ⟨[], 16777226⟩ ⟨.squid, 7, 1, 20, 1, 0, 1500⟩, some 1) := by decide
  refine ⟨_, by rw [usersAutz, hr]; rfl, rfl, rfl, ?_⟩
  rw [agrees_squid true () hr rfl]
  intro hall
  have h0 := hall _ (squidRule 1 10 0) rfl rfl
  exact absurd h0 (by decide)

end IPStat
