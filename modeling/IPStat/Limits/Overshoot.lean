import IPStat.Limits.Group

namespace IPStat

/-- Whether a collector is authorised for a pair that node `j` is found for. -/
def authorisedFor (limits : List NodeGroupLimit) (j : Nat) (c : Option (IpId × IpId)) : Bool :=
  c.any fun p => findGroupTraffic limits p.1 p.2 = some j

/-- The collectors authorised for node `j` that have not accounted yet. -/
def authorised (s : LimitState) (j : Nat) : Nat :=
  s.collectors.countP (authorisedFor s.limits j)

/-- A collector accounts only what it was authorised for: the same pair, summed, and at most
`M` bytes. The module stays loaded. -/
def Disciplined (M : Nat) (s : LimitState) : LimitOp → Prop
  | .acct i req => req.pair.isSome ∧ s.collectors[i]? = some req.pair ∧
      ∀ len ∈ req.counted, len.toNat ≤ M
  | .unload => False
  | _ => True

/-- The bound kept for node `j`: each authorised collector has `M` bytes of it reserved. -/
structure Reserved (L : IpBigsize) (M k j : Nat) (s : LimitState) : Prop where
  collectors : s.collectors.length = k
  node : ∃ node, s.limits[j]? = some node ∧ node.limitation = L ∧
    node.traffic.toNat + M * authorised s j < L.toNat + k * M ∧
    (findGroupTraffic s.limits node.idUser node.idGroup = some j ∨ node.traffic < L)

section
variable {L : IpBigsize} {M k j i : Nat} {s s' : LimitState}

theorem countP_set_add {α : Type} {l : List α} {p : α → Bool} {a : α} (b : α)
    (h : l[i]? = some a) :
    (l.set i b).countP p + (if p a then 1 else 0) = l.countP p + (if p b then 1 else 0) := by
  induction l generalizing i with
  | nil => cases h
  | cons c l ih =>
    cases i with
    | zero =>
      cases h
      rw [List.set_cons_zero, List.countP_cons, List.countP_cons]
      omega
    | succ i =>
      have hrest := ih (i := i) h
      rw [List.set_cons_succ, List.countP_cons, List.countP_cons]
      omega

theorem authorisedFor_congr {limits limits' : List NodeGroupLimit}
    (h : limits'.map NodeGroupLimit.pair = limits.map NodeGroupLimit.pair) :
    authorisedFor limits' j = authorisedFor limits j := by
  funext c
  simp only [authorisedFor, findGroupTraffic_congr h]

theorem authorised_le (s : LimitState) (j : Nat) : authorised s j ≤ s.collectors.length :=
  List.countP_le_length

/-- A step that moves no collector and raises no traffic keeps the bound. -/
theorem Reserved.of_limits (h : Reserved L M k j s)
    (hpairs : s'.limits.map NodeGroupLimit.pair = s.limits.map NodeGroupLimit.pair)
    (hnode : ∀ node, s.limits[j]? = some node → ∃ node', s'.limits[j]? = some node' ∧
      node'.pair = node.pair ∧ node'.limitation = node.limitation ∧
      node'.traffic.toNat ≤ node.traffic.toNat)
    (hc : s'.collectors = s.collectors) : Reserved L M k j s' := by
  obtain ⟨node, hj, hL, hbound, hfirst⟩ := h.node
  obtain ⟨node', hj', hpair, hL', htraffic⟩ := hnode node hj
  have hcount : authorised s' j = authorised s j := by
    rw [authorised, authorised, hc, authorisedFor_congr hpairs]
  refine ⟨hc ▸ h.collectors, node', hj', hL'.trans hL, ?_, ?_⟩
  · rw [hcount]
    omega
  · have hu : node'.idUser = node.idUser := congrArg Prod.fst hpair
    have hg : node'.idGroup = node.idGroup := congrArg Prod.snd hpair
    rw [findGroupTraffic_congr hpairs, hu, hg]
    apply hfirst.imp_right
    intro hlt
    rw [UInt64.lt_iff_toNat_lt] at hlt ⊢
    omega

theorem Reserved.modify (h : Reserved L M k j s) {f : NodeGroupLimit → NodeGroupLimit}
    (hf : ∀ node, (f node).pair = node.pair ∧ (f node).limitation = node.limitation ∧
      (f node).traffic = node.traffic)
    (hl : s'.limits = s.limits.modify i f) (hc : s'.collectors = s.collectors) :
    Reserved L M k j s' := by
  apply h.of_limits
  · rw [hl]
    exact map_pair_modify fun node => (hf node).1
  · intro node hj
    obtain ⟨hpair, hL, htraffic⟩ := hf node
    by_cases hij : i = j
    · subst hij
      refine ⟨f node, ?_, hpair, hL, ?_⟩
      · rw [hl, List.getElem?_modify_eq, hj]
        rfl
      · exact Nat.le_of_eq (congrArg UInt64.toNat htraffic)
    · refine ⟨node, ?_, rfl, rfl, Nat.le_refl _⟩
      rw [hl, List.getElem?_modify_ne _ _ hij, hj]
  · exact hc

/-- An authorised request finds its node below the limit, and takes a free reservation. -/
theorem Reserved.autz (h : Reserved L M k j s) (hL : L ≠ -1) (i : Nat) (req : Request) :
    Reserved L M k j (limitAutz s i req) := by
  obtain ⟨node, hj, hlim, hbound, hfirst⟩ := h.node
  have hlength : (limitAutz s i req).collectors.length = k := by
    change (s.collectors.set i _).length = k
    rw [List.length_set]
    exact h.collectors
  refine ⟨hlength, node, hj, hlim, ?_, hfirst⟩
  · have hle := authorised_le (limitAutz s i req) j
    rw [hlength] at hle
    have hM : M * authorised (limitAutz s i req) j ≤ k * M := by
      rw [Nat.mul_comm]
      exact Nat.mul_le_mul_right M hle
    cases hnew : authorisedFor s.limits j (if myAutz s.limits req then req.pair else none) with
    | true =>
      have hbelow : node.traffic.toNat < L.toNat := by
        cases hautz : myAutz s.limits req with
        | false =>
          rw [hautz] at hnew
          cases hnew
        | true =>
          rw [hautz, if_pos rfl] at hnew
          cases hpair : req.pair with
          | none =>
            rw [hpair] at hnew
            cases hnew
          | some p =>
            rw [hpair] at hnew
            have hfind : findGroupTraffic s.limits p.1 p.2 = some j := of_decide_eq_true hnew
            have hactive : node.onactive = true := by
              rw [← myAutz_found hpair hfind hj]
              exact hautz
            rw [NodeGroupLimit.onactive, hlim] at hactive
            rw [← UInt64.lt_iff_toNat_lt]
            split_ifs at hactive with hblocked hlimit
            exact UInt64.not_le.mp hlimit
      omega
    | false =>
      have hcount : authorised (limitAutz s i req) j ≤ authorised s j := by
        change (s.collectors.set i (if myAutz s.limits req then req.pair else none)).countP
          (authorisedFor s.limits j) ≤ s.collectors.countP (authorisedFor s.limits j)
        cases hi : s.collectors[i]? with
        | none =>
          have hout := List.getElem?_eq_none_iff.mp hi
          apply Nat.le_of_eq
          rw [List.set_eq_of_length_le hout]
        | some c =>
          have hset := countP_set_add (p := authorisedFor s.limits j)
            (if myAutz s.limits req then req.pair else none) hi
          rw [hnew] at hset
          simp only [Bool.false_eq_true, if_false] at hset
          omega
      have hless := Nat.mul_le_mul_left M hcount
      omega

/-- A call that finds no node of the pair, or another's, gives a reservation back at most. -/
theorem Reserved.acct_other (h : Reserved L M k j s) {c : Option (IpId × IpId)}
    (hi : s.collectors[i]? = some c) (hc : s'.collectors = s.collectors.set i none)
    (hpairs : s'.limits.map NodeGroupLimit.pair = s.limits.map NodeGroupLimit.pair)
    (hj : s'.limits[j]? = s.limits[j]?) : Reserved L M k j s' := by
  obtain ⟨node, hnode, hlim, hbound, hfirst⟩ := h.node
  have hset := countP_set_add (p := authorisedFor s.limits j) none hi
  change _ = s.collectors.countP _ + 0 at hset
  have hless : authorised s' j ≤ authorised s j := by
    rw [authorised, authorised, hc, authorisedFor_congr hpairs]
    omega
  have hspend := Nat.mul_le_mul_left M hless
  refine ⟨?_, node, hj.trans hnode, hlim, by omega, ?_⟩
  · rw [hc, List.length_set]
    exact h.collectors
  · rw [findGroupTraffic_congr hpairs]
    exact hfirst

/-- A call for the node's own pair spends the collector's reservation. -/
theorem Reserved.acct_own (h : Reserved L M k j s)
    (hroom : L.toNat + k * M < 18446744073709551616) {p : IpId × IpId} {len : IpSize}
    (hi : s.collectors[i]? = some (some p)) (hlen : len.toNat ≤ M)
    (hfind : findGroupTraffic s.limits p.1 p.2 = some j)
    (hc : s'.collectors = s.collectors.set i none)
    (hl : s'.limits = s.limits.modify j (NodeGroupLimit.charge len)) :
    Reserved L M k j s' := by
  obtain ⟨node, hj, hlim, hbound, -⟩ := h.node
  have hpairs : s'.limits.map NodeGroupLimit.pair = s.limits.map NodeGroupLimit.pair := by
    rw [hl]
    exact map_pair_modify fun _ => rfl
  obtain ⟨found, hfound, hown⟩ := findGroupTraffic_some hfind
  have heq : found = node := Option.some.inj (hfound.symm.trans hj)
  subst heq
  have hset := countP_set_add (p := authorisedFor s.limits j) none hi
  have hauth : authorisedFor s.limits j (some p) = true := by
    simp [authorisedFor, hfind]
  rw [hauth] at hset
  change _ = s.collectors.countP _ + 0 at hset
  have hspent : authorised s' j + 1 = authorised s j := by
    rw [authorised, authorised, hc, authorisedFor_congr hpairs]
    exact hset
  have hmul : M * authorised s j = M * authorised s' j + M := by
    rw [← hspent, Nat.mul_succ]
  have hsum : (found.traffic + len.toUInt64).toNat = found.traffic.toNat + len.toNat := by
    rw [UInt64.toNat_add, UInt32.toNat_toUInt64]
    apply Nat.mod_eq_of_lt
    omega
  refine ⟨?_, found.charge len, ?_, hlim, ?_, .inl ?_⟩
  · rw [hc, List.length_set]
    exact h.collectors
  · rw [hl, List.getElem?_modify_eq, hj]
    rfl
  · change (found.traffic + len.toUInt64).toNat + _ < _
    omega
  · have hu : found.idUser = p.1 := congrArg Prod.fst hown
    have hgrp : found.idGroup = p.2 := congrArg Prod.snd hown
    change findGroupTraffic _ found.idUser found.idGroup = _
    rw [findGroupTraffic_congr hpairs, hu, hgrp]
    exact hfind

/-- Accounting spends a reservation. -/
theorem Reserved.acct (h : Reserved L M k j s) (hroom : L.toNat + k * M < 18446744073709551616)
    {req : Request} (hg : Disciplined M s (.acct i req)) :
    Reserved L M k j (limitAcct s i req) := by
  obtain ⟨-, hi, hlen⟩ := hg
  have hl : (limitAcct s i req).limits = (myAcct s.limits req).1 := rfl
  obtain ⟨-, hsame⟩ | ⟨idUser, idGroup, len, ptr, hpair, hcount, hfind, -, hmod⟩ :=
    myAcct_cases s.limits req
  · apply h.acct_other hi rfl
    · rw [hl, hsame]
    · rw [hl, hsame]
  · rw [hpair] at hi
    by_cases hptr : ptr = j
    · subst hptr
      exact h.acct_own hroom hi (hlen len hcount) hfind rfl (hl.trans hmod)
    · apply h.acct_other hi rfl
      · rw [hl, hmod]
        exact map_pair_modify fun _ => rfl
      · rw [hl, hmod, List.getElem?_modify_ne _ _ hptr]

theorem Reserved.check (h : Reserved L M k j s) (type : IpId) :
    Reserved L M k j { s with limits := s.limits.map (NodeGroupLimit.check type) } := by
  have hcheck (node : NodeGroupLimit) : (node.check type).pair = node.pair ∧
      (node.check type).limitation = node.limitation ∧
      (node.check type).traffic.toNat ≤ node.traffic.toNat := by
    unfold NodeGroupLimit.check
    split_ifs
    · exact ⟨rfl, rfl, Nat.zero_le _⟩
    · exact ⟨rfl, rfl, Nat.le_refl _⟩
  apply h.of_limits
  · change (s.limits.map (NodeGroupLimit.check type)).map _ = _
    rw [List.map_map]
    apply List.map_congr_left
    intro node hm
    exact (hcheck node).1
  · intro node hj
    refine ⟨node.check type, ?_, hcheck node⟩
    change (s.limits.map (NodeGroupLimit.check type))[j]? = _
    rw [List.getElem?_map, hj]
    rfl
  · rfl

theorem Reserved.of_same (h : Reserved L M k j s) (hl : s'.limits = s.limits)
    (hc : s'.collectors = s.collectors) : Reserved L M k j s' := by
  apply h.of_limits
  · rw [hl]
  · intro node hj
    refine ⟨node, ?_, rfl, rfl, Nat.le_refl _⟩
    rw [hl]
    exact hj
  · exact hc

theorem Reserved.step (h : Reserved L M k j s) (hL : L ≠ -1)
    (hroom : L.toNat + k * M < 18446744073709551616) {op : LimitOp} (hg : Disciplined M s op)
    (hs : limitStep s op = some s') : Reserved L M k j s' := by
  cases op with
  | autz i req =>
    cases hs
    exact h.autz hL i req
  | acct i req =>
    cases hs
    exact h.acct hroom hg
  | enter =>
    cases hs
    exact h.of_same rfl rfl
  | take i =>
    change limitTake s i = some s' at hs
    unfold limitTake at hs
    split at hs
    · split at hs
      · cases hs
        refine h.modify ?_ rfl rfl
        intro node
        exact ⟨rfl, rfl, rfl⟩
      · cases hs
    · cases hs
  | exec i ok =>
    change limitExec s i ok = some s' at hs
    unfold limitExec at hs
    split at hs
    · split_ifs at hs <;>
      · cases hs
        exact h.of_same rfl rfl
    · cases hs
  | giveBack i =>
    change limitGiveBack s i = some s' at hs
    unfold limitGiveBack at hs
    split at hs
    · rename_i ptr copy hpc hloaded
      cases hs
      refine h.modify ?_ rfl rfl
      intro node
      exact ⟨rfl, rfl, rfl⟩
    · cases hs
  | leave i =>
    change limitLeave s i = some s' at hs
    unfold limitLeave at hs
    split at hs
    · split_ifs at hs
      cases hs
      exact h.of_same rfl rfl
    · cases hs
  | check type =>
    cases hs
    exact h.check type
  | unload => exact hg.elim

/-- A limit is overshot by at most one packet of each collector, and while it is reached no
request for its pair is authorised. -/
theorem limit_overshoot (limits : List NodeGroupLimit) (rows : IpId → GroupTrafficRow)
    (M k j : Nat) (node : NodeGroupLimit) (hj : limits[j]? = some node)
    (hL : node.limitation ≠ -1) (hroom : node.limitation.toNat + k * M < 18446744073709551616)
    (hbelow : node.traffic < node.limitation) (ops : List LimitOp) (s : LimitState)
    (hrun : Run.exec limitStep (limitStart limits rows k) ops = some s)
    (hg : Run.Guarded limitStep (Disciplined M) (limitStart limits rows k) ops) :
    ∃ now, s.limits[j]? = some now ∧ now.limitation = node.limitation ∧
      now.traffic.toNat ≤ node.limitation.toNat - 1 + k * M ∧
      (node.limitation ≤ now.traffic → ∀ req, req.pair = some now.pair →
        myAutz s.limits req = false) := by
  have hnone : authorised (limitStart limits rows k) j = 0 := by
    change (List.replicate k none).countP _ = 0
    rw [List.countP_replicate]
    rfl
  have hlt := UInt64.lt_iff_toNat_lt.mp hbelow
  have hstart : Reserved node.limitation M k j (limitStart limits rows k) := by
    refine ⟨List.length_replicate, node, hj, rfl, ?_, .inr hbelow⟩
    rw [hnone]
    omega
  obtain ⟨now, hnow, hlim, hbound, hfirst⟩ :=
    (Run.exec_invariant (fun s op s' h hg hs => Reserved.step h hL hroom hg hs)
      hstart hg hrun).node
  refine ⟨now, hnow, hlim, by omega, ?_⟩
  intro hreached req hpair
  have hfind : findGroupTraffic s.limits now.idUser now.idGroup = some j := by
    apply hfirst.resolve_right
    intro hlow
    exact absurd hreached (UInt64.not_le.mpr hlow)
  have hactive : now.onactive = false := by
    rw [NodeGroupLimit.onactive, hlim, if_pos hL, if_pos hreached, ite_self]
  rw [myAutz_found hpair hfind hnow]
  exact hactive

end

instance (M : Nat) (s : LimitState) : ∀ op, Decidable (Disciplined M s op)
  | .acct i req =>
    -- named, as there are instances that would try every length
    have hlen : Decidable (∀ len ∈ req.counted, len.toNat ≤ M) :=
      decidable_of_iff (req.counted.all fun len => len.toNat ≤ M) (by simp [Option.all_eq_true])
    @instDecidableAnd _ _ _ (@instDecidableAnd _ _ _ hlen)
  | .unload => inferInstanceAs (Decidable False)
  | .autz _ _ | .enter | .take _ | .exec _ _ | .giveBack _ | .leave _ | .check _ =>
    inferInstanceAs (Decidable True)

/-- Two collectors are authorised before either accounts, while a pass fails. -/
def twoCollectors : List LimitOp :=
  [.autz 0 (limitPacket 1500), .autz 1 (limitPacket 1500), .acct 1 (limitPacket 1500), .enter,
    .take 0, .acct 0 (limitPacket 1500), .exec 0 false, .autz 0 (limitPacket 1500), .giveBack 0,
    .check 2, .leave 0]

theorem limit_overshoot_two :
    ∃ now, (limitRun twoCollectors).limits[0]? = some now ∧ now.limitation = 1000 ∧
      now.traffic.toNat ≤ 1000 - 1 + 2 * 1500 ∧
      (1000 ≤ now.traffic → ∀ req, req.pair = some now.pair →
        myAutz (limitRun twoCollectors).limits req = false) :=
  limit_overshoot [nearlyUsed] (fun _ => ⟨990, 0, 0, true⟩) 1500 2 0 nearlyUsed rfl (by decide)
    (by decide) (by decide) twoCollectors _ (by rfl) (by decide)

end IPStat
