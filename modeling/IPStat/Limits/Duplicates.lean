import IPStat.Limits.Sync

namespace IPStat

/-- The limits of a request's user and traffic group, in the order of st_group_limit. -/
def matchingLimits (limits : List NodeGroupLimit) (req : Request) : List NodeGroupLimit :=
  limits.filter fun node => req.pair = some node.pair

/-- Every limit of the request's pair has its say in my_autz, and gets from my_acct what my_acct
counts of the request. -/
structure Enforces (limits : List NodeGroupLimit) (req : Request) : Prop where
  refuses : (∃ node ∈ matchingLimits limits req, node.onactive = false) → myAutz limits req = false
  charges : ∀ len ∈ req.counted, (myAcct limits req).1 =
    limits.map fun node => if req.pair = some node.pair then node.charge len else node

/-- The first limit of the pair is inactive or none is, and a request that counts finds one limit
at most. -/
structure FirstDecides (limits : List NodeGroupLimit) (req : Request) : Prop where
  refuses : (∀ node ∈ matchingLimits limits req, node.onactive = true) ∨
    ∃ node ∈ (matchingLimits limits req).head?, node.onactive = false
  charges : ∀ len ∈ req.counted, len ≠ 0 → (matchingLimits limits req).length ≤ 1

section
variable {limits : List NodeGroupLimit} {req : Request} {idUser idGroup : IpId}

theorem matchingLimits_pair (limits : List NodeGroupLimit)
    (hpair : req.pair = some (idUser, idGroup)) :
    matchingLimits limits req =
      limits.filter fun node => node.idUser = idUser ∧ node.idGroup = idGroup := by
  rw [matchingLimits, hpair]
  congr 1
  funext node
  simp [NodeGroupLimit.pair, eq_comm]

/-- my_autz asks the first limit of the pair. -/
theorem autzGroup_head (limits : List NodeGroupLimit) (idUser idGroup : IpId) :
    autzGroup limits idUser idGroup =
      (((limits.filter fun node => node.idUser = idUser ∧ node.idGroup = idGroup).head?).map
        NodeGroupLimit.onactive).getD true := by
  rw [autzGroup, findGroupTraffic, List.head?_filter]
  induction limits with
  | nil => rfl
  | cons node limits ih =>
    rw [List.findIdx?_cons, List.find?_cons]
    cases decide (node.idUser = idUser ∧ node.idGroup = idGroup) with
    | true => rfl
    | false =>
      simp only [Bool.false_eq_true, if_false]
      rw [← ih]
      cases limits.findIdx? fun node => decide (node.idUser = idUser ∧ node.idGroup = idGroup) with
      | none => rfl
      | some i => rfl

theorem charge_ne {len : IpSize} (hlen : len ≠ 0) (node : NodeGroupLimit) :
    node.charge len ≠ node := by
  intro h
  have htraffic : node.traffic + len.toUInt64 = node.traffic := congrArg NodeGroupLimit.traffic h
  have hnat := congrArg UInt64.toNat htraffic
  have hpos : len.toNat ≠ 0 := fun h0 => hlen (UInt32.toNat_inj.mp h0)
  have hlt := len.toNat_lt
  have hlt' := node.traffic.toNat_lt
  rw [UInt64.toNat_add, UInt32.toNat_toUInt64] at hnat
  omega

theorem charge_zero (node : NodeGroupLimit) : node.charge 0 = node := by
  have hzero : (0 : IpSize).toUInt64 = 0 := rfl
  simp only [NodeGroupLimit.charge, hzero, UInt64.add_zero]

/-- my_autz refuses for every inactive limit of the pair exactly when the first one is inactive or
none is. -/
theorem myAutz_refuses_iff (limits : List NodeGroupLimit) (req : Request) :
    ((∃ node ∈ matchingLimits limits req, node.onactive = false) → myAutz limits req = false) ↔
      (∀ node ∈ matchingLimits limits req, node.onactive = true) ∨
        ∃ node ∈ (matchingLimits limits req).head?, node.onactive = false := by
  cases hpair : req.pair with
  | none =>
    have hnone : matchingLimits limits req = [] := by
      rw [matchingLimits, hpair]
      simp
    rw [hnone]
    exact iff_of_true (by simp) (.inl (by simp))
  | some pair =>
    obtain ⟨idUser, idGroup⟩ := pair
    have hautz : myAutz limits req = ((matchingLimits limits req).head?.map
        NodeGroupLimit.onactive).getD true := by
      rw [matchingLimits_pair limits hpair, ← autzGroup_head, myAutz, hpair]
    rw [hautz]
    cases hmatch : matchingLimits limits req with
    | nil => simp
    | cons first rest =>
      simp only [List.head?_cons, Option.map_some, Option.getD_some, Option.mem_some_iff,
        exists_eq_left']
      cases hfirst : first.onactive with
      | false => simp
      | true => simp [hfirst]

/-- A request that counts has a pair, and my_acct charges the limit found for it. -/
theorem myAcct_counted (limits : List NodeGroupLimit) {req : Request} {len : IpSize}
    (hcount : req.counted = some len) :
    ∃ idUser idGroup, req.pair = some (idUser, idGroup) ∧
      (myAcct limits req).1 = match findGroupTraffic limits idUser idGroup with
        | none => limits
        | some i => limits.modify i (NodeGroupLimit.charge len) := by
  have hpair : ∃ pair, req.pair = some pair := by
    cases req with
    | other service => cases hcount
    | traffic info ret => exact ⟨_, rfl⟩
    | squid info ret => exact ⟨_, rfl⟩
  obtain ⟨⟨idUser, idGroup⟩, hpair⟩ := hpair
  refine ⟨idUser, idGroup, hpair, ?_⟩
  have hnode : acctNode limits req =
      (findGroupTraffic limits idUser idGroup).map fun i => (i, len) := by
    simp only [acctNode, hpair, hcount, Option.bind_eq_bind, Option.bind_some]
    cases findGroupTraffic limits idUser idGroup <;> rfl
  rw [myAcct, hpair, hnode]
  cases findGroupTraffic limits idUser idGroup with
  | none => rfl
  | some i => rfl

/-- my_acct charges every limit of the pair exactly when there is one at most, or nothing to
charge. -/
theorem myAcct_charges_iff (limits : List NodeGroupLimit) {req : Request} {len : IpSize}
    (hcount : req.counted = some len) :
    (myAcct limits req).1 =
        (limits.map fun node => if req.pair = some node.pair then node.charge len else node) ↔
      (len ≠ 0 → (matchingLimits limits req).length ≤ 1) := by
  obtain ⟨idUser, idGroup, hpair, hacct⟩ := myAcct_counted limits hcount
  let p (node : NodeGroupLimit) : Bool := node.idUser = idUser ∧ node.idGroup = idGroup
  have hmatch : matchingLimits limits req = limits.filter p := matchingLimits_pair limits hpair
  have hmap : (limits.map fun node => if req.pair = some node.pair then node.charge len else node) =
      limits.map fun node => if p node then node.charge len else node := by
    apply List.map_congr_left
    intro node _
    have hiff : req.pair = some node.pair ↔ p node = true := by
      simp only [p, hpair, NodeGroupLimit.pair, Option.some.injEq, Prod.mk.injEq,
        decide_eq_true_eq]
      exact and_congr eq_comm eq_comm
    simp only [hiff]
  rw [hacct, hmap, hmatch]
  by_cases hlen : len = 0
  · subst hlen
    have hsame (node : NodeGroupLimit) : (if p node then node.charge 0 else node) = node := by
      rw [charge_zero, ite_self]
    refine iff_of_true ?_ fun hne => absurd rfl hne
    rw [funext hsame, List.map_id']
    cases findGroupTraffic limits idUser idGroup with
    | none => rfl
    | some i =>
      have hid : NodeGroupLimit.charge 0 = id := funext charge_zero
      dsimp only
      rw [hid, List.modify_id]
  · rw [imp_iff_right hlen]
    cases hfind : findGroupTraffic limits idUser idGroup with
    | none =>
      have hnone : limits.filter p = [] := List.filter_eq_nil_iff.mpr
        fun node hm => Bool.eq_false_iff.mp (List.findIdx?_eq_none_iff.mp hfind node hm)
      have hself := (Keyed.map_matches_eq_self_iff (charge_ne hlen)).mpr hnone
      rw [hnone]
      exact iff_of_true hself.symm (Nat.zero_le 1)
    | some i => exact Keyed.modify_first_eq_map_iff (charge_ne hlen) hfind

/-- Every limit of a request's pair is enforced exactly when the first limit of the pair is
inactive or none is, and a request that counts finds one limit at most. -/
theorem enforces_iff (limits : List NodeGroupLimit) (req : Request) :
    Enforces limits req ↔ FirstDecides limits req := by
  constructor
  · intro h
    refine ⟨(myAutz_refuses_iff limits req).mp h.refuses, ?_⟩
    intro len hlen
    exact (myAcct_charges_iff limits hlen).mp (h.charges len hlen)
  · intro h
    refine ⟨(myAutz_refuses_iff limits req).mpr h.refuses, ?_⟩
    intro len hlen
    exact (myAcct_charges_iff limits hlen).mpr (h.charges len hlen)

end

/-- The row that processingAddRuleGroup inserts for a restriction, whether or not the user has one
for the group; `digest` is what the queries make of its columns. -/
def processingAddRuleGroup (digest : IpId → IpId → IpId → IpBigsize → IpFlag → Md5)
    (table : List GroupLimitRow) (id idUser idGroup type : IpId) (limitation : IpBigsize)
    (onblocked : IpFlag) : List GroupLimitRow :=
  table ++ [⟨id, ⟨idUser, idGroup, type, limitation, 0, onblocked,
    digest idUser idGroup type limitation onblocked⟩⟩]

/-- Two restrictions added for user 7 and group 4: one of a thousand bytes, then a block. -/
def doubledRows : List GroupLimitRow :=
  processingAddRuleGroup (fun _ _ _ _ _ => 0)
    (processingAddRuleGroup (fun _ _ _ _ _ => 0) [] 1 7 4 1 1000 0) 2 7 4 1 1000 1

/-- After the pass that loads both, the blocked one is passed over and its traffic stands still. -/
theorem doubled_not_enforced :
    ∃ limits, (syncLimits (limitsStore doubledRows) []).map Prod.fst = some limits ∧
      myAutz limits (limitPacket 500) = true ∧ ¬ Enforces limits (limitPacket 500) := by
  refine ⟨[⟨1, 7, 4, 1, 1000, 0, 0, 0, 0, 0⟩, ⟨2, 7, 4, 1, 1000, 0, 0, 1, 0, 0⟩], ?_, ?_, ?_⟩
  · decide +kernel
  · decide
  · intro h
    have hrefused := h.refuses ⟨⟨2, 7, 4, 1, 1000, 0, 0, 1, 0, 0⟩, by decide, by decide⟩
    revert hrefused
    decide

end IPStat
