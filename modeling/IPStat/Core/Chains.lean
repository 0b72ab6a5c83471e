import IPStat.Core.Charge
import IPStat.Limits.Group

namespace IPStat

/-- Hooks that only read the data of a request, as those of every module here do. -/
def KeepsRequest {π : Type} (hs : List (Hook π)) : Prop :=
  ∀ func ∈ hs, ∀ req p, (func req p).2.1 = req

/-- The rules that a packet visits: those of its user that match it, up to the first without
CONST_NEXT. -/
def packetChain (users : Users) (info : PacketInfo) (ret : PacketDataInfo) :
    Option (List (Nat × NodeRule)) := do
  let user ← usersFind users ret.idUser
  ruleChain (peer info ret.direct).1 (peer info ret.direct).2 info.proto ret.direct 0 user.idRules

def Request.notSum : Request → IpFlag
  | .traffic _ ret => ret.notSum
  | .squid _ ret => ret.notSum
  | .other _ => 0

section
variable {π : Type} {hooks : Hooks π} {users : Users} {req : Request} {p : π}
  {a : AutzResult π}

theorem callHooks_keeps {hs : List (Hook π)} (h : KeepsRequest hs) (last flag : Bool)
    (req : Request) (p : π) : (callHooks last hs flag req p).2.1 = req := by
  induction hs generalizing flag p with
  | nil => rfl
  | cons func hs ih =>
    have hfunc : (func req p).2.1 = req := h func List.mem_cons_self req p
    have hrest : KeepsRequest hs := fun f hf => h f (List.mem_cons_of_mem func hf)
    rw [callHooks]
    rcases hcall : func req p with ⟨answer, req', p'⟩
    rw [hcall] at hfunc
    obtain rfl : req' = req := hfunc
    dsimp only
    split_ifs
    · rfl
    · exact ih hrest answer p'

/-- A packet that users_autz accepts with its hooks was accepted by the rules, and the hooks
leave `ret` as the rules made it. -/
theorem usersAutz_accepted {fl : Bool} (hkeep : KeepsRequest hooks.externAutz)
    (h : usersAutz hooks users fl req p = some a) (ht : a.flag = true) :
    autzRules users req = some (true, a.req, a.stored) := by
  simp only [usersAutz, Option.bind_eq_bind, Option.bind_eq_some_iff] at h
  obtain ⟨⟨flag, req', stored⟩, hr, h⟩ := h
  cases flag with
  | false =>
    cases h
    cases ht
  | true =>
    have hsame := callHooks_keeps hkeep false true req' p
    rw [if_neg (by simp)] at h
    split_ifs at h
    · cases h
      rw [hr, hsame]
    · cases h
      exact hr

/-- The counters that users_acct leaves do not depend on its hooks. -/
theorem usersAcct_rules {users' : Users} {charged : List Nat} (hooks : Hooks π) (fl : Bool) (p : π)
    (h : acctRules users req = some (some (users', charged))) :
    ∃ c, usersAcct hooks users fl req p = some c ∧ c.users = users' := by
  simp only [usersAcct, h, Option.bind_eq_bind, Option.bind_some]
  split_ifs
  · exact ⟨_, rfl, rfl⟩
  · exact ⟨_, rfl, rfl⟩

theorem foldl_hit_flag (qs : List (Nat × NodeRule)) (s : AutzScan PacketDataInfo) :
    (qs.foldl .hit s).flag = true ↔ s.flag = true ∨ ∃ q ∈ qs, q.2.status = 1 := by
  induction qs generalizing s with
  | nil => simp
  | cons q qs ih =>
    rw [List.foldl_cons, ih]
    simp only [AutzScan.hit, List.mem_cons, exists_eq_or_imp]
    by_cases h1 : q.2.status = 1
    · simp [h1]
    · simp [h1]

/-- What an accepted packet's walk leaves: the group, type and CONST_SUM bit of the last rule
visited, where some rule visited is active. -/
structure Walked (users : Users) (info : PacketInfo) (ret : PacketDataInfo) (a : AutzResult π)
    (user : NodeUser) (qs : List (Nat × NodeRule)) (q : Nat × NodeRule) : Prop where
  found : usersFind users ret.idUser = some user
  chain : ruleChain (peer info ret.direct).1 (peer info ret.direct).2 info.proto ret.direct 0
    user.idRules = some qs
  packet : packetChain users info ret = some qs
  active : ∃ visited ∈ qs, visited.2.status = 1
  last : qs.getLast? = some q
  req : a.req = .traffic info (ret.store q.2)
  stored : a.stored = some q.1
  rule : user.idRules[q.1]? = some q.2

theorem usersAutz_walked {info : PacketInfo} {ret : PacketDataInfo} {fl : Bool}
    (hkeep : KeepsRequest hooks.externAutz)
    (h : usersAutz hooks users fl (.traffic info ret) p = some a) (ht : a.flag = true) :
    ∃ user qs last, Walked users info ret a user qs last := by
  obtain ⟨user, s, hu, hs, hf, hreq, hstored⟩ :=
    autzRules_traffic (usersAutz_accepted hkeep h ht)
  rw [autzTraffic_chain, Option.map_eq_some_iff] at hs
  obtain ⟨qs, hc, rfl⟩ := hs
  obtain hno | hactive := (foldl_hit_flag qs _).mp hf
  · cases hno
  have hret := foldl_hit_ret qs ⟨false, ret, none⟩
  have hpos := foldl_hit_stored qs ⟨false, ret, none⟩
  cases hl : qs.getLast? with
  | none =>
    rw [List.getLast?_eq_none_iff.mp hl] at hactive
    obtain ⟨q, hq, -⟩ := hactive
    cases hq
  | some last =>
    rw [hl, Option.map_some, Option.getD_some] at hret hpos
    obtain ⟨-, hget, -⟩ := Chain.visited_get hc last (List.mem_of_getLast? hl)
    refine ⟨user, qs, last, hu, hc, ?_, hactive, hl, ?_, hstored.trans hpos, hget⟩
    · rw [packetChain, hu]
      exact hc
    · rw [hreq, hret]

/-- The user's counter grows by the length of a counted packet, and by nothing for one that is
not counted. -/
def CountedOnce (hooks : Hooks π) (users : Users) (fl : Bool) (a : AutzResult π) : Prop :=
  ∃ c user user', usersAcct hooks users fl a.req a.plugins = some c ∧
    usersFind users a.req.idUser = some user ∧ usersFind c.users a.req.idUser = some user' ∧
    user'.traffic = user.traffic + if a.req.notSum = 0 then a.req.len else 0

/-- What the rules before the last of a packet's chain add to its user is nothing, modulo the
width of the counter. -/
def CountsLastOnly (users : Users) (info : PacketInfo) (ret : PacketDataInfo) : Prop :=
  ∀ qs, packetChain users info ret = some qs →
    4294967296 ∣ (qs.dropLast.countP fun q => !q.2.noSum) * ret.len.toNat

/-- The rules visited add the length once for each that has no CONST_SUM. -/
theorem chargeUser_count (len t : IpSize) (qs : List (Nat × NodeRule)) :
    (qs.foldl (fun t q => chargeUser q.2 len t) t).toNat =
      (t.toNat + (qs.countP fun q => !q.2.noSum) * len.toNat) % 4294967296 := by
  induction qs generalizing t with
  | nil =>
    have hlt := t.toNat_lt
    simp only [List.foldl_nil, List.countP_nil, Nat.zero_mul, Nat.add_zero]
    omega
  | cons q qs ih =>
    rw [List.foldl_cons, ih, chargeUser, List.countP_cons]
    cases q.2.noSum with
    | true => simp
    | false =>
      simp only [Bool.false_eq_true, if_false, Bool.not_false, if_true, UInt32.toNat_add,
        Nat.add_mul]
      omega

/-- The walk of an accepted packet and the call of users_acct that follows it. -/
theorem Walked.counted_iff {info : PacketInfo} {ret : PacketDataInfo} {user : NodeUser}
    {qs : List (Nat × NodeRule)} {q : Nat × NodeRule} (hw : Walked users info ret a user qs q)
    (fc : Bool) : CountedOnce hooks users fc a ↔ CountsLastOnly users info ret := by
  have hacct := acctRules_traffic info (ret.store q.2) hw.found hw.chain
  rw [← hw.req] at hacct
  obtain ⟨c, hc, hcusers⟩ := usersAcct_rules hooks fc a.plugins hacct
  have hfound : usersFind users a.req.idUser = some user := by
    rw [hw.req]
    exact hw.found
  have hid : a.req.idUser = ret.idUser := by
    rw [hw.req]
    rfl
  have hadded : (if a.req.notSum = 0 then a.req.len else 0) = if q.2.noSum then 0 else ret.len := by
    rw [hw.req]
    change (if (if q.2.noSum = true then (1 : IpFlag) else 0) = 0 then ret.len else 0) = _
    cases q.2.noSum with
    | true => rfl
    | false => rfl
  have hcount := chargeUser_count ret.len user.traffic qs
  have hsplit : qs = qs.dropLast ++ [q] := (List.dropLast_append_getLast? q hw.last).symm
  have hcounted : CountedOnce hooks users fc a ↔
      qs.foldl (fun t q => chargeUser q.2 ret.len t) user.traffic =
        user.traffic + if q.2.noSum then 0 else ret.len := by
    rw [CountedOnce, hadded]
    have hafter := usersFind_account ⟨Chain.applyAt (·.charge ret.len) (qs.map Prod.fst) 0
      user.idRules, qs.foldl (fun t q => chargeUser q.2 ret.len t) user.traffic,
      qs.map Prod.fst⟩ hfound
    rw [hid] at hfound hafter ⊢
    constructor
    · rintro ⟨c', u, u', hc', hu, hu', htraffic⟩
      cases hc.symm.trans hc'
      cases hfound.symm.trans hu
      rw [hcusers] at hu'
      cases hafter.symm.trans hu'
      exact htraffic
    · intro htraffic
      exact ⟨c, user, _, hc, hfound, hcusers ▸ hafter, htraffic⟩
  have honly : CountsLastOnly users info ret ↔
      4294967296 ∣ (qs.dropLast.countP fun q => !q.2.noSum) * ret.len.toNat := by
    rw [CountsLastOnly, hw.packet]
    simp only [Option.some.injEq, forall_eq']
  rw [hcounted, honly, ← UInt32.toNat_inj, hcount, UInt32.toNat_add]
  conv_lhs => rw [hsplit]
  rw [List.countP_append, List.countP_singleton]
  cases q.2.noSum with
  | true =>
    simp only [Bool.not_true, Bool.false_eq_true, if_false, if_true, Nat.add_zero]
    change _ = (_ + 0) % _ ↔ _
    omega
  | false =>
    simp only [Bool.not_false, Bool.false_eq_true, if_false, if_true, Nat.add_mul, Nat.one_mul]
    omega

/-- A packet is added to its user once, or not at all where users_autz says so, exactly when the
rules chained before the last add nothing. -/
theorem usersAcct_counts_iff {info : PacketInfo} {ret : PacketDataInfo} {fa : Bool} (fc : Bool)
    (hkeep : KeepsRequest hooks.externAutz)
    (h : usersAutz hooks users fa (.traffic info ret) p = some a) (ht : a.flag = true) :
    CountedOnce hooks users fc a ↔ CountsLastOnly users info ret := by
  obtain ⟨user, qs, q, hw⟩ := usersAutz_walked hkeep h ht
  exact hw.counted_iff fc

/-- The rule that users_autz left in `ret` is active. -/
def LeftActive (users : Users) (a : AutzResult π) : Prop :=
  ∃ user i rule, usersFind users a.req.idUser = some user ∧ a.stored = some i ∧
    user.idRules[i]? = some rule ∧ a.req.Names rule ∧ rule.status = 1

/-- No packet's chain goes on from an active rule to end at an inactive one. -/
def EndsActive (users : Users) : Request → Prop
  | .traffic info ret => ∀ qs, packetChain users info ret = some qs →
      (∃ q ∈ qs, q.2.status = 1) → ∀ q ∈ qs.getLast?, q.2.status = 1
  | _ => True

theorem Walked.active_iff {info : PacketInfo} {ret : PacketDataInfo} {user : NodeUser}
    {qs : List (Nat × NodeRule)} {q : Nat × NodeRule} (hw : Walked users info ret a user qs q) :
    LeftActive users a ↔ EndsActive users (.traffic info ret) := by
  have hends : EndsActive users (.traffic info ret) ↔ q.2.status = 1 := by
    have hactive := hw.active
    rw [EndsActive, hw.packet]
    simp only [Option.some.injEq, forall_eq', hw.last, Option.mem_def]
    exact ⟨fun hall => hall hactive, fun hlast _ => hlast⟩
  have hfound : usersFind users a.req.idUser = some user := by
    rw [hw.req]
    exact hw.found
  rw [hends]
  constructor
  · rintro ⟨u, i, rule, hu, hi, hget, -, hstatus⟩
    cases hfound.symm.trans hu
    cases hw.stored.symm.trans hi
    cases hw.rule.symm.trans hget
    exact hstatus
  · intro hstatus
    refine ⟨user, q.1, q.2, hfound, hw.stored, hw.rule, ?_, hstatus⟩
    rw [hw.req]
    rfl

/-- A proxy request is only ever left with an active rule. -/
theorem autzRules_squid_active {info : SquidInfo} {ret : SquidDataInfo}
    (h : autzRules users (.squid info ret) = some (true, a.req, a.stored)) :
    LeftActive users a := by
  obtain ⟨user, s, hu, hs, hf, hreq, hstored⟩ := autzRules_squid h
  rw [autzSquid_find] at hs
  cases hq : user.idRules.zipIdx.find? fun q => q.1.service = .squid && q.1.status = 1 with
  | none =>
    rw [hq] at hs
    subst hs
    cases hf
  | some q =>
    rw [hq] at hs
    subst hs
    have hget := List.mem_zipIdx_iff_getElem?.mp (List.mem_of_find?_eq_some hq)
    have hactive := List.find?_some hq
    simp only [Bool.and_eq_true, decide_eq_true_eq] at hactive
    refine ⟨user, q.2, q.1, ?_, hstored, hget, ?_, hactive.2⟩
    · rw [hreq]
      exact hu
    · rw [hreq]
      rfl

/-- The rule that an accepted request is left with is active exactly when its chain does not
drift off an active rule. -/
theorem usersAutz_active_iff {fl : Bool} (hkeep : KeepsRequest hooks.externAutz)
    (h : usersAutz hooks users fl req p = some a) (ht : a.flag = true) :
    LeftActive users a ↔ EndsActive users req := by
  have hrules := usersAutz_accepted hkeep h ht
  cases req with
  | other service => cases hrules
  | squid info ret => exact iff_of_true (autzRules_squid_active hrules) trivial
  | traffic info ret =>
    obtain ⟨user, qs, q, hw⟩ := usersAutz_walked hkeep h ht
    exact hw.active_iff

end

/-- The hooks of the group limits. -/
def limitHooks : Hooks (List NodeGroupLimit) where
  externAuth := []
  externAutz := [fun req limits => (myAutz limits req, req, limits)]
  externAcct := [fun req limits => ((myAcct limits req).2, req, (myAcct limits req).1)]

theorem limitHooks_keep : KeepsRequest limitHooks.externAutz := by
  intro func hm req p
  obtain rfl := List.mem_singleton.mp hm
  rfl

/-- A rule of user 7 that matches every packet. -/
def anyRule (id idGroup : IpId) (action status : IpFlag) : NodeRule :=
  ⟨id, 1, idGroup, .traffic, trafficAll, protoAll, 0, 0, 0, action, status, 0, 0, 0⟩

def chainUsers (rules : List NodeRule) : Users := ⟨[⟨7, 1, 16777226, [], 0, rules, 0, 1, 0⟩], [], 1⟩

def chainInfo : PacketInfo := ⟨[], 6, 16777226, 33554442, 443, 50000⟩

def chainRet (idTrafficGroup : IpId) (notSum : IpFlag) : PacketDataInfo :=
  ⟨.traffic, 1, 7, 1, idTrafficGroup, 1, notSum, 1500⟩

/-- A rule with CONST_NEXT and CONST_SUM before the ordinary one. -/
theorem usersAcct_counts_summed :
    ∃ a, usersAutz limitHooks (chainUsers [anyRule 1 10 3 1, anyRule 2 20 0 1]) true
        (.traffic chainInfo (chainRet 0 0)) [] = some a ∧ a.flag = true ∧
      KeepsRequest limitHooks.externAutz ∧
      (CountedOnce limitHooks (chainUsers [anyRule 1 10 3 1, anyRule 2 20 0 1]) true a ↔
        CountsLastOnly (chainUsers [anyRule 1 10 3 1, anyRule 2 20 0 1]) chainInfo
          (chainRet 0 0)) := by
  have h : usersAutz limitHooks (chainUsers [anyRule 1 10 3 1, anyRule 2 20 0 1]) true
      (.traffic chainInfo (chainRet 0 0)) [] =
      some ⟨true, .traffic chainInfo (chainRet 20 0), [], some 1⟩ := by decide
  exact ⟨_, h, rfl, limitHooks_keep, usersAcct_counts_iff true limitHooks_keep h rfl⟩

/-- An ordinary rule with CONST_NEXT before one with CONST_SUM: users_autz says that the packet
is not counted, and users_acct counts it. -/
theorem usersAcct_counts_chained :
    ∃ a, usersAutz limitHooks (chainUsers [anyRule 1 10 1 1, anyRule 2 20 2 1]) true
        (.traffic chainInfo (chainRet 0 0)) [] = some a ∧ a.flag = true ∧
      a.req.notSum = 1 ∧
      ¬ CountedOnce limitHooks (chainUsers [anyRule 1 10 1 1, anyRule 2 20 2 1]) true a := by
  have h : usersAutz limitHooks (chainUsers [anyRule 1 10 1 1, anyRule 2 20 2 1]) true
      (.traffic chainInfo (chainRet 0 0)) [] =
      some ⟨true, .traffic chainInfo (chainRet 20 1), [], some 1⟩ := by decide
  refine ⟨_, h, rfl, rfl, ?_⟩
  obtain ⟨user, qs, q, hw⟩ := usersAutz_walked limitHooks_keep h rfl
  rw [hw.counted_iff]
  intro honly
  have hchain : packetChain (chainUsers [anyRule 1 10 1 1, anyRule 2 20 2 1]) chainInfo
      (chainRet 0 0) = some [(0, anyRule 1 10 1 1), (1, anyRule 2 20 2 1)] := by decide
  have hdvd := honly _ hchain
  revert hdvd
  decide

/-- An active rule with CONST_NEXT before another. -/
theorem usersAutz_active_chained :
    ∃ a, usersAutz limitHooks (chainUsers [anyRule 1 10 1 1, anyRule 2 20 0 1]) true
        (.traffic chainInfo (chainRet 0 0)) [] = some a ∧ a.flag = true ∧
      KeepsRequest limitHooks.externAutz ∧
      (LeftActive (chainUsers [anyRule 1 10 1 1, anyRule 2 20 0 1]) a ↔
        EndsActive (chainUsers [anyRule 1 10 1 1, anyRule 2 20 0 1])
          (.traffic chainInfo (chainRet 0 0))) := by
  have h : usersAutz limitHooks (chainUsers [anyRule 1 10 1 1, anyRule 2 20 0 1]) true
      (.traffic chainInfo (chainRet 0 0)) [] =
      some ⟨true, .traffic chainInfo (chainRet 20 0), [], some 1⟩ := by decide
  exact ⟨_, h, rfl, limitHooks_keep, usersAutz_active_iff limitHooks_keep h rfl⟩

/-- The second rule has been deactivated, and the packet is accepted under it. -/
theorem usersAutz_leaves_inactive :
    ∃ a, usersAutz limitHooks (chainUsers [anyRule 1 10 1 1, anyRule 2 20 0 0]) true
        (.traffic chainInfo (chainRet 0 0)) [] = some a ∧ a.flag = true ∧
      ¬ LeftActive (chainUsers [anyRule 1 10 1 1, anyRule 2 20 0 0]) a := by
  have h : usersAutz limitHooks (chainUsers [anyRule 1 10 1 1, anyRule 2 20 0 0]) true
      (.traffic chainInfo (chainRet 0 0)) [] =
      some ⟨true, .traffic chainInfo (chainRet 20 0), [], some 1⟩ := by decide
  refine ⟨_, h, rfl, ?_⟩
  obtain ⟨user, qs, q, hw⟩ := usersAutz_walked limitHooks_keep h rfl
  rw [hw.active_iff]
  intro hends
  have hchain : packetChain (chainUsers [anyRule 1 10 1 1, anyRule 2 20 0 0]) chainInfo
      (chainRet 0 0) = some [(0, anyRule 1 10 1 1), (1, anyRule 2 20 0 0)] := by decide
  have hlast := hends _ hchain ⟨_, List.mem_cons_self, rfl⟩ _ rfl
  revert hlast
  decide

end IPStat
