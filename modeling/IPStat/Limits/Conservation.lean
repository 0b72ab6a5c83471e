import IPStat.Lib.Tally
import IPStat.Limits.Group

namespace IPStat

open Tally

/-- The alpha in memory for a row. -/
def heldAlpha (limits : List NodeGroupLimit) (id : IpId) : Nat :=
  tally (fun node => if node.id = id then node.alpha.toNat else 0) limits

def TrafficPc.alpha (id : IpId) : TrafficPc → Nat
  | .walking _ => 0
  | .copied _ node | .failed _ node => if node.id = id then node.alpha.toNat else 0

/-- The alpha that passes have taken out for a row and neither sent nor given back. -/
def alphaInFlight (passes : List TrafficPc) (id : IpId) : Nat :=
  tally (TrafficPc.alpha id) passes

def TrafficPc.isWalking : TrafficPc → Bool
  | .walking _ => true
  | .copied _ _ | .failed _ _ => false

/-- The alpha of a copy fits the conversion of the update. -/
def TrafficPc.Narrow : TrafficPc → Prop
  | .copied _ node => node.alpha.toNat < 4294967296
  | .walking _ | .failed _ _ => True

/-- No row's alpha is ever credited 2^64 bytes, an update that succeeds carries less than 2^32,
and unload finds nothing left to send. -/
def Uncut (s : LimitState) : LimitOp → Prop
  | .acct _ req => ∀ p ∈ acctNode s.limits req, ∀ node ∈ s.limits[p.1]?,
      s.added node.id + p.2.toNat < 18446744073709551616
  | .exec i ok => ok = true → ∀ pc ∈ s.passes[i]?, pc.Narrow
  | .unload => (∀ node ∈ s.limits, node.alpha = 0) ∧ ∀ pc ∈ s.passes, pc.isWalking
  | _ => True

/-- A copy in flight is of the node that its pointer points to. -/
def TrafficPc.Points (limits : List NodeGroupLimit) : TrafficPc → Prop
  | .walking _ => True
  | .copied ptr copy | .failed ptr copy =>
    ∃ node, limits[ptr]? = some node ∧ node.id = copy.id

/-- What the table and the module have together of a row's bytes. -/
structure Settled (start : IpId → GroupTrafficRow) (s : LimitState) (id : IpId) : Prop where
  day : (start id).tDay + s.added id =
    (s.rows id).tDay + (heldAlpha s.limits id + alphaInFlight s.passes id)
  month : (start id).tMonth + s.added id =
    (s.rows id).tMonth + (heldAlpha s.limits id + alphaInFlight s.passes id)
  grows : (start id).tDay ≤ (s.rows id).tDay
  room : s.added id < 18446744073709551616

/-- The table has gained all that was added but what is in memory or in flight, and after
unload all of it. -/
def Accounted (start : IpId → GroupTrafficRow) (s : LimitState) : Prop :=
  (∀ id, (start id).tDay + s.added id =
      (s.rows id).tDay + (heldAlpha s.limits id + alphaInFlight s.passes id) ∧
    (start id).tMonth + s.added id =
      (s.rows id).tMonth + (heldAlpha s.limits id + alphaInFlight s.passes id)) ∧
  (s.loaded = false → ∀ id, (s.rows id).tDay = (start id).tDay + s.added id ∧
    (s.rows id).tMonth = (start id).tMonth + s.added id)

structure AlphaInv (start : IpId → GroupTrafficRow) (s : LimitState) : Prop where
  settled : ∀ id, Settled start s id
  points : ∀ pc ∈ s.passes, pc.Points s.limits
  unloaded : s.loaded = false → s.limits = [] ∧ ∀ pc ∈ s.passes, pc.isWalking

section
variable {start : IpId → GroupTrafficRow} {s s' : LimitState} {i : Nat}

/-- An update adds the alpha that its pass took out exactly when it fits 32 bits. -/
theorem trafficUpdate_exact_iff (node : NodeGroupLimit) :
    (trafficUpdate node).tDay.toNat = node.alpha.toNat ↔ node.alpha.toNat < 4294967296 := by
  change node.alpha.toUInt32.toNat = node.alpha.toNat ↔ _
  rw [UInt64.toNat_toUInt32]
  omega

theorem heldAlpha_modify {limits : List NodeGroupLimit} {node : NodeGroupLimit}
    (h : limits[i]? = some node) (f : NodeGroupLimit → NodeGroupLimit) (id : IpId) :
    heldAlpha (limits.modify i f) id + (if node.id = id then node.alpha.toNat else 0) =
      heldAlpha limits id + (if (f node).id = id then (f node).alpha.toNat else 0) :=
  tally_modify f h

theorem alphaInFlight_set {passes : List TrafficPc} {pc : TrafficPc} (h : passes[i]? = some pc)
    (pc' : TrafficPc) (id : IpId) :
    alphaInFlight (passes.set i pc') id + pc.alpha id =
      alphaInFlight passes id + pc'.alpha id :=
  tally_set pc' h

theorem heldAlpha_ge {limits : List NodeGroupLimit} {node : NodeGroupLimit}
    (h : limits[i]? = some node) : node.alpha.toNat ≤ heldAlpha limits node.id := by
  have herase := tally_eraseIdx
    (f := fun n : NodeGroupLimit => if n.id = node.id then n.alpha.toNat else 0) h
  simp only [if_true] at herase
  unfold heldAlpha
  omega

theorem alphaInFlight_ge {passes : List TrafficPc} {pc : TrafficPc} (h : passes[i]? = some pc)
    (id : IpId) : pc.alpha id ≤ alphaInFlight passes id := by
  have herase := tally_eraseIdx (f := TrafficPc.alpha id) h
  unfold alphaInFlight
  omega

theorem points_modify {limits : List NodeGroupLimit} {pc : TrafficPc} (h : pc.Points limits)
    {f : NodeGroupLimit → NodeGroupLimit} (hf : ∀ node, (f node).id = node.id) :
    pc.Points (limits.modify i f) := by
  have hkeep : ∀ (ptr : Nat) (id : IpId),
      (∃ node : NodeGroupLimit, limits[ptr]? = some node ∧ node.id = id) →
      ∃ node : NodeGroupLimit, (limits.modify i f)[ptr]? = some node ∧ node.id = id := by
    intro ptr id hp
    obtain ⟨node, hnode, hid⟩ := hp
    by_cases hptr : i = ptr
    · subst hptr
      refine ⟨f node, ?_, (hf node).trans hid⟩
      rw [List.getElem?_modify_eq, hnode]
      rfl
    · refine ⟨node, ?_, hid⟩
      rw [List.getElem?_modify_ne _ _ hptr, hnode]
  cases pc with
  | walking next => trivial
  | copied ptr copy => exact hkeep ptr copy.id h
  | failed ptr copy => exact hkeep ptr copy.id h

theorem modify_nil {f : NodeGroupLimit → NodeGroupLimit} {limits : List NodeGroupLimit}
    (h : limits = []) : limits.modify i f = [] := by
  subst h
  cases i <;> rfl

theorem AlphaInv.acct (h : AlphaInv start s) {req : Request} (hg : Uncut s (.acct i req)) :
    AlphaInv start (limitAcct s i req) := by
  obtain ⟨hnone, hsame⟩ | ⟨idUser, idGroup, len, ptr, -, -, hfind, hacct, hmod⟩ :=
    myAcct_cases s.limits req
  · have heq : limitAcct s i req = { s with collectors := s.collectors.set i none } := by
      rw [limitAcct, hsame, hnone]
    rw [heq]
    exact ⟨fun id => ⟨(h.settled id).day, (h.settled id).month, (h.settled id).grows,
      (h.settled id).room⟩, h.points, h.unloaded⟩
  · obtain ⟨node, hnode, -⟩ := findGroupTraffic_some hfind
    have hroom : s.added node.id + len.toNat < 18446744073709551616 := hg (ptr, len) hacct node hnode
    have hadded (id : IpId) : (limitAcct s i req).added id =
        s.added id + if node.id = id then len.toNat else 0 := by
      simp only [limitAcct, hacct, hnode, Option.map_some, Option.some.injEq]
      split_ifs <;> rfl
    have hself := h.settled node.id
    have hge := heldAlpha_ge hnode
    have hday := hself.day
    have hgrows := hself.grows
    have hsum : (node.charge len).alpha.toNat = node.alpha.toNat + len.toNat := by
      change (node.alpha + len.toUInt64).toNat = _
      rw [UInt64.toNat_add, UInt32.toNat_toUInt64]
      apply Nat.mod_eq_of_lt
      omega
    refine ⟨?_, ?_, ?_⟩
    · intro id
      have hheld := heldAlpha_modify hnode (NodeGroupLimit.charge len) id
      rw [hsum] at hheld
      change _ = heldAlpha s.limits id + (if node.id = id then _ else 0) at hheld
      have hold := h.settled id
      have hd := hold.day
      have hm := hold.month
      have hlimits : (limitAcct s i req).limits = s.limits.modify ptr (NodeGroupLimit.charge len) :=
        hmod
      have hadd := hadded id
      refine ⟨?_, ?_, hold.grows, ?_⟩
      · rw [hlimits, hadd]
        change _ = (s.rows id).tDay + (_ + alphaInFlight s.passes id)
        split_ifs at hheld ⊢ <;> omega
      · rw [hlimits, hadd]
        change _ = (s.rows id).tMonth + (_ + alphaInFlight s.passes id)
        split_ifs at hheld ⊢ <;> omega
      · have hr := hold.room
        rw [hadd]
        split_ifs with hid
        · rw [← hid]
          exact hroom
        · omega
    · intro pc hpc
      change pc.Points (myAcct s.limits req).1
      rw [hmod]
      exact points_modify (h.points pc hpc) fun node => rfl
    · intro hl
      obtain ⟨hnil, hwalk⟩ := h.unloaded hl
      refine ⟨?_, hwalk⟩
      change (myAcct s.limits req).1 = []
      rw [hmod]
      exact modify_nil hnil

theorem points_set {limits : List NodeGroupLimit} {passes : List TrafficPc}
    (h : ∀ pc ∈ passes, pc.Points limits) (i : Nat) {pc' : TrafficPc} (hpc : pc'.Points limits) :
    ∀ pc ∈ passes.set i pc', pc.Points limits := by
  intro pc hm
  rcases List.mem_or_eq_of_mem_set hm with hm | heq
  · exact h pc hm
  · exact heq ▸ hpc

/-- A step that takes `n` bytes out of nodes and passes and adds them to the row settles what
was settled. -/
theorem Settled.send {id : IpId} (h : Settled start s id) (n : Nat)
    (hadded : s'.added = s.added) (hday : (s'.rows id).tDay = (s.rows id).tDay + n)
    (hmonth : (s'.rows id).tMonth = (s.rows id).tMonth + n)
    (hsum : heldAlpha s'.limits id + alphaInFlight s'.passes id + n =
      heldAlpha s.limits id + alphaInFlight s.passes id) : Settled start s' id := by
  have hd := h.day
  have hm := h.month
  have hgrows := h.grows
  have hroom := h.room
  rw [← hadded] at hd hm hroom
  exact ⟨by omega, by omega, by omega, hroom⟩

/-- A step that leaves the table alone. -/
theorem Settled.keep {id : IpId} (h : Settled start s id) (hadded : s'.added = s.added)
    (hrow : s'.rows id = s.rows id)
    (hsum : heldAlpha s'.limits id + alphaInFlight s'.passes id =
      heldAlpha s.limits id + alphaInFlight s.passes id) : Settled start s' id :=
  h.send 0 hadded (congrArg GroupTrafficRow.tDay hrow) (congrArg GroupTrafficRow.tMonth hrow) hsum

/-- A pass moves a node's alpha into its copy. -/
theorem AlphaInv.take (h : AlphaInv start s) (hs : limitTake s i = some s') :
    AlphaInv start s' := by
  unfold limitTake at hs
  split at hs
  · rename_i next hpc
    split at hs
    · rename_i node hloaded hnode
      cases hs
      refine ⟨?_, ?_, ?_⟩
      · intro id
        have hheld := heldAlpha_modify hnode (fun node => { node with alpha := 0 }) id
        have hflight := alphaInFlight_set hpc (.copied next node) id
        simp only [TrafficPc.alpha, UInt64.toNat_zero, ite_self] at hheld hflight
        refine (h.settled id).keep rfl rfl ?_
        change heldAlpha (s.limits.modify next _) id +
          alphaInFlight (s.passes.set i (.copied next node)) id = _
        omega
      · apply points_set
        · intro pc hm
          exact points_modify (h.points pc hm) fun node => rfl
        · refine ⟨{ node with alpha := 0 }, ?_, rfl⟩
          rw [List.getElem?_modify_eq, hnode]
          rfl
      · intro hl
        rw [hloaded] at hl
        cases hl
    · cases hs
  · cases hs

/-- An update that carries the whole alpha moves it into the table. -/
theorem AlphaInv.exec (h : AlphaInv start s) {ok : Bool} (hg : Uncut s (.exec i ok))
    (hs : limitExec s i ok = some s') : AlphaInv start s' := by
  unfold limitExec at hs
  split at hs
  · rename_i ptr node hpc
    have hmem := List.mem_of_getElem? hpc
    have hfalse : s.loaded ≠ false := by
      intro hl
      have hwalk := (h.unloaded hl).2 _ hmem
      cases hwalk
    split_ifs at hs with hok
    · have hfit : node.alpha.toNat < 4294967296 := hg hok _ hpc
      have hsent := (trafficUpdate_exact_iff node).mpr hfit
      have hmonth : (trafficUpdate node).tMonth.toNat = node.alpha.toNat := hsent
      cases hs
      refine ⟨?_, points_set h.points i trivial, fun hl => absurd hl hfalse⟩
      intro id
      have hflight := alphaInFlight_set hpc (.walking (ptr + 1)) id
      simp only [TrafficPc.alpha] at hflight
      by_cases hid : node.id = id
      · rw [if_pos hid] at hflight
        refine (h.settled id).send node.alpha.toNat ?_ ?_ ?_ ?_
        · rfl
        · rw [← hsent, ← hid]
          exact congrArg GroupTrafficRow.tDay (if_pos rfl)
        · rw [← hmonth, ← hid]
          exact congrArg GroupTrafficRow.tMonth (if_pos rfl)
        · change heldAlpha s.limits id + alphaInFlight (s.passes.set i (.walking (ptr + 1))) id +
            node.alpha.toNat = _
          omega
      · have hrow : (trafficUpdate node).exec s.rows id = s.rows id := if_neg (Ne.symm hid)
        rw [if_neg hid] at hflight
        refine (h.settled id).keep rfl hrow ?_
        change heldAlpha s.limits id + alphaInFlight (s.passes.set i (.walking (ptr + 1))) id = _
        omega
    · have hpoints : TrafficPc.Points s.limits (.failed ptr node) :=
        h.points (.copied ptr node) hmem
      cases hs
      refine ⟨?_, points_set h.points i hpoints, fun hl => absurd hl hfalse⟩
      intro id
      have hflight := alphaInFlight_set hpc (.failed ptr node) id
      have hsame : alphaInFlight (s.passes.set i (.failed ptr node)) id =
          alphaInFlight s.passes id := Nat.add_right_cancel hflight
      refine (h.settled id).keep rfl rfl ?_
      change heldAlpha s.limits id + alphaInFlight (s.passes.set i (.failed ptr node)) id = _
      rw [hsame]
  · cases hs

/-- What a failed update carried goes back to the node it came from. -/
theorem AlphaInv.giveBack (h : AlphaInv start s) (hs : limitGiveBack s i = some s') :
    AlphaInv start s' := by
  unfold limitGiveBack at hs
  split at hs
  · rename_i ptr copy hpc hloaded
    obtain ⟨node, hnode, hid⟩ : ∃ node, s.limits[ptr]? = some node ∧ node.id = copy.id :=
      h.points _ (List.mem_of_getElem? hpc)
    have hself := h.settled node.id
    have hday := hself.day
    have hgrows := hself.grows
    have hroom := hself.room
    have hge := heldAlpha_ge hnode
    have hgeflight : (if copy.id = node.id then copy.alpha.toNat else 0) ≤
        alphaInFlight s.passes node.id := alphaInFlight_ge hpc node.id
    rw [if_pos hid.symm] at hgeflight
    have hsum : (node.alpha + copy.alpha).toNat = node.alpha.toNat + copy.alpha.toNat := by
      rw [UInt64.toNat_add]
      apply Nat.mod_eq_of_lt
      omega
    cases hs
    refine ⟨?_, ?_, ?_⟩
    · intro id
      have hheld := heldAlpha_modify hnode
        (fun node => { node with alpha := node.alpha + copy.alpha }) id
      have hflight := alphaInFlight_set hpc (.walking (ptr + 1)) id
      simp only [TrafficPc.alpha, hsum, hid] at hheld hflight
      refine (h.settled id).keep rfl rfl ?_
      change heldAlpha (s.limits.modify ptr _) id +
        alphaInFlight (s.passes.set i (.walking (ptr + 1))) id = _
      split_ifs at hheld hflight <;> omega
    · apply points_set
      · intro pc hm
        exact points_modify (h.points pc hm) fun node => rfl
      · trivial
    · intro hl
      rw [hloaded] at hl
      cases hl
  · cases hs

theorem AlphaInv.leave (h : AlphaInv start s) (hs : limitLeave s i = some s') :
    AlphaInv start s' := by
  unfold limitLeave at hs
  split at hs
  · rename_i next hpc
    split_ifs at hs
    cases hs
    have hsame (id : IpId) : alphaInFlight s.passes id =
        alphaInFlight (s.passes.eraseIdx i) id := by
      have herase := tally_eraseIdx (f := TrafficPc.alpha id) hpc
      rw [TrafficPc.alpha, zero_add] at herase
      exact herase
    refine ⟨?_, ?_, ?_⟩
    · intro id
      refine (h.settled id).keep rfl rfl ?_
      rw [hsame]
    · intro pc hm
      exact h.points pc (List.mem_of_mem_eraseIdx hm)
    · intro hl
      obtain ⟨hnil, hwalk⟩ := h.unloaded hl
      exact ⟨hnil, fun pc hm => hwalk pc (List.mem_of_mem_eraseIdx hm)⟩
  · cases hs

theorem AlphaInv.enter (h : AlphaInv start s) :
    AlphaInv start { s with passes := s.passes ++ [.walking 0] } := by
  refine ⟨?_, ?_, ?_⟩
  · intro id
    refine (h.settled id).keep rfl rfl ?_
    change heldAlpha s.limits id + tally (TrafficPc.alpha id) (s.passes ++ [.walking 0]) = _
    rw [tally_append]
    rfl
  · intro pc hm
    rcases List.mem_append.mp hm with hm | hm
    · exact h.points pc hm
    · rw [List.mem_singleton.mp hm]
      trivial
  · intro hl
    obtain ⟨hnil, hwalk⟩ := h.unloaded hl
    refine ⟨hnil, ?_⟩
    intro pc hm
    rcases List.mem_append.mp hm with hm | hm
    · exact hwalk pc hm
    · rw [List.mem_singleton.mp hm]
      rfl

theorem check_keeps (type : IpId) (node : NodeGroupLimit) :
    (node.check type).id = node.id ∧ (node.check type).alpha = node.alpha := by
  unfold NodeGroupLimit.check
  split_ifs <;> exact ⟨rfl, rfl⟩

/-- A reset of traffic leaves what is still to be sent. -/
theorem AlphaInv.check (h : AlphaInv start s) (type : IpId) :
    AlphaInv start { s with limits := s.limits.map (NodeGroupLimit.check type) } := by
  have hheld (id : IpId) :
      heldAlpha (s.limits.map (NodeGroupLimit.check type)) id = heldAlpha s.limits id := by
    unfold heldAlpha tally
    rw [List.map_map]
    apply congrArg
    apply List.map_congr_left
    intro node hm
    obtain ⟨hid, halpha⟩ := check_keeps type node
    change (if (node.check type).id = id then (node.check type).alpha.toNat else 0) = _
    rw [hid, halpha]
  refine ⟨?_, ?_, ?_⟩
  · intro id
    refine (h.settled id).keep rfl rfl ?_
    change heldAlpha (s.limits.map (NodeGroupLimit.check type)) id + _ = _
    rw [hheld]
  · have hkeep : ∀ (ptr : Nat) (id : IpId),
        (∃ node : NodeGroupLimit, s.limits[ptr]? = some node ∧ node.id = id) →
        ∃ node : NodeGroupLimit,
          (s.limits.map (NodeGroupLimit.check type))[ptr]? = some node ∧ node.id = id := by
      intro ptr id hp
      obtain ⟨node, hnode, hid⟩ := hp
      refine ⟨node.check type, ?_, (check_keeps type node).1.trans hid⟩
      rw [List.getElem?_map, hnode]
      rfl
    intro pc hm
    have hpc := h.points pc hm
    cases pc with
    | walking next => trivial
    | copied ptr copy => exact hkeep ptr copy.id hpc
    | failed ptr copy => exact hkeep ptr copy.id hpc
  · intro hl
    obtain ⟨hnil, hwalk⟩ := h.unloaded hl
    refine ⟨?_, hwalk⟩
    change s.limits.map (NodeGroupLimit.check type) = []
    rw [hnil]
    rfl

theorem AlphaInv.unload (h : AlphaInv start s) (hg : Uncut s .unload) :
    AlphaInv start { s with limits := [], loaded := false } := by
  obtain ⟨hzero, hwalk⟩ := hg
  have hheld (id : IpId) : heldAlpha s.limits id = 0 := by
    apply tally_zero
    intro node hm
    rw [hzero node hm, UInt64.toNat_zero, ite_self]
  refine ⟨?_, ?_, fun hl => ⟨rfl, hwalk⟩⟩
  · intro id
    refine (h.settled id).keep rfl rfl ?_
    rw [hheld]
    rfl
  · intro pc hm
    have hpc := hwalk pc hm
    cases pc with
    | walking next => trivial
    | copied ptr copy => cases hpc
    | failed ptr copy => cases hpc

theorem AlphaInv.step (h : AlphaInv start s) {op : LimitOp} (hg : Uncut s op)
    (hs : limitStep s op = some s') : AlphaInv start s' := by
  cases op with
  | autz i req =>
    cases hs
    refine ⟨?_, h.points, h.unloaded⟩
    intro id
    exact (h.settled id).keep rfl rfl rfl
  | acct i req =>
    cases hs
    exact h.acct hg
  | enter =>
    cases hs
    exact h.enter
  | take i => exact h.take hs
  | exec i ok => exact h.exec hg hs
  | giveBack i => exact h.giveBack hs
  | leave i => exact h.leave hs
  | check type =>
    cases hs
    exact h.check type
  | unload =>
    cases hs
    exact h.unload hg

theorem walking_alpha {passes : List TrafficPc} (h : ∀ pc ∈ passes, pc.isWalking) (id : IpId) :
    alphaInFlight passes id = 0 := by
  apply tally_zero
  intro pc hm
  have hpc := h pc hm
  cases pc with
  | walking next => rfl
  | copied ptr copy => cases hpc
  | failed ptr copy => cases hpc

/-- While no update is cut and unload finds nothing to send, no byte is lost; an update is
cut exactly from 2^32 bytes on. -/
theorem limits_conserve (limits : List NodeGroupLimit) (rows : IpId → GroupTrafficRow) (k : Nat)
    (hzero : ∀ node ∈ limits, node.alpha = 0) (ops : List LimitOp) (s : LimitState)
    (hrun : Run.exec limitStep (limitStart limits rows k) ops = some s)
    (hg : Run.Guarded limitStep Uncut (limitStart limits rows k) ops) :
    Accounted rows s ∧ ∀ node, (trafficUpdate node).tDay.toNat = node.alpha.toNat ↔
      node.alpha.toNat < 4294967296 := by
  have hnone (id : IpId) : heldAlpha limits id = 0 := by
    apply tally_zero
    intro node hm
    rw [hzero node hm, UInt64.toNat_zero, ite_self]
  have hstart : AlphaInv rows (limitStart limits rows k) := by
    refine ⟨?_, ?_, ?_⟩
    · intro id
      have hheld : heldAlpha (limitStart limits rows k).limits id = 0 := hnone id
      refine ⟨?_, ?_, Nat.le_refl _, by change 0 < _; omega⟩
      · rw [hheld]
        rfl
      · rw [hheld]
        rfl
    · intro pc hm
      cases hm
    · intro hl
      cases hl
  have hinv : AlphaInv rows s :=
    Run.exec_invariant (fun s op s' h hg hs => AlphaInv.step h hg hs) hstart hg hrun
  refine ⟨⟨fun id => ⟨(hinv.settled id).day, (hinv.settled id).month⟩, ?_⟩,
    trafficUpdate_exact_iff⟩
  intro hl id
  obtain ⟨hnil, hwalk⟩ := hinv.unloaded hl
  have hheld : heldAlpha s.limits id = 0 := by
    rw [hnil]
    rfl
  have hflight := walking_alpha hwalk id
  have hd := (hinv.settled id).day
  have hm := (hinv.settled id).month
  omega

end

instance : ∀ pc, Decidable (TrafficPc.Narrow pc)
  | .copied _ node => inferInstanceAs (Decidable (node.alpha.toNat < 4294967296))
  | .walking _ | .failed _ _ => inferInstanceAs (Decidable True)

instance (s : LimitState) : ∀ op, Decidable (Uncut s op)
  | .acct _ req => inferInstanceAs (Decidable (∀ p ∈ acctNode s.limits req,
      ∀ node ∈ s.limits[p.1]?, s.added node.id + p.2.toNat < 18446744073709551616))
  | .exec i ok => inferInstanceAs (Decidable (ok = true → ∀ pc ∈ s.passes[i]?, pc.Narrow))
  | .unload => inferInstanceAs (Decidable
      ((∀ node ∈ s.limits, node.alpha = 0) ∧ ∀ pc ∈ s.passes, pc.isWalking))
  | .autz _ _ | .enter | .take _ | .giveBack _ | .leave _ | .check _ =>
    inferInstanceAs (Decidable True)

/-- A failed update is given back and sent with what came meanwhile, then the module stops. -/
def retried : List LimitOp :=
  [.acct 0 (limitPacket 1500), .enter, .take 0, .acct 1 (limitPacket 1500), .exec 0 false,
    .giveBack 0, .leave 0, .enter, .take 0, .exec 0 true, .leave 0, .unload]

theorem limits_conserve_retried :
    Accounted (fun _ => ⟨990, 0, 0, true⟩) (limitRun retried) ∧
      ∀ node, (trafficUpdate node).tDay.toNat = node.alpha.toNat ↔
        node.alpha.toNat < 4294967296 :=
  limits_conserve [nearlyUsed] (fun _ => ⟨990, 0, 0, true⟩) 2 (by decide) retried _ (by rfl)
    (by decide)

/-- An update of 2^32 bytes adds nothing, and unload drops what came since the last pass. -/
theorem limits_lose :
    (∃ s, Run.exec limitStep (limitStart [nearlyUsed] (fun _ => ⟨990, 0, 0, true⟩) 2)
        [.acct 0 (limitPacket 4294967295), .acct 0 (limitPacket 1), .enter, .take 0,
          .exec 0 true] = some s ∧
      s.added 1 = 4294967296 ∧ (s.rows 1).tDay = 0 ∧
      ¬ Accounted (fun _ => ⟨990, 0, 0, true⟩) s) ∧
    ∃ s, Run.exec limitStep (limitStart [nearlyUsed] (fun _ => ⟨990, 0, 0, true⟩) 2)
        [.acct 0 (limitPacket 1500), .unload] = some s ∧
      s.added 1 = 1500 ∧ (s.rows 1).tDay = 0 ∧
      ¬ Accounted (fun _ => ⟨990, 0, 0, true⟩) s := by
  refine ⟨⟨_, rfl, rfl, rfl, ?_⟩, ⟨_, rfl, rfl, rfl, ?_⟩⟩
  · intro h
    have hrow := (h.1 1).1
    revert hrow
    decide
  · intro h
    have hrow := (h.2 rfl 1).1
    revert hrow
    decide

end IPStat
