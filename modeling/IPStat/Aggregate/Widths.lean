import IPStat.Aggregate.Retry
import IPStat.Aggregate.Time
import IPStat.Core.Widths

namespace IPStat

/-- What a pass holds of a user's bytes. -/
def VisitPc.hand (idUser : IpId) (pc : VisitPc) : Nat := (pc.pending idUser).toNat

/-- The bytes of a user in the time tree, and in the hands of the passes that have taken them out
of it. -/
def TimeState.count (s : TimeState) (idUser : IpId) : Nat :=
  (nodeValue s.cells s.agTime idUser).toNat + Tally.tally (VisitPc.hand idUser) s.passes

/-- The exact sums of what time_acct accounted to each user and time_export has not written. -/
def timeBook (s : TimeState) (op : TimeOp) (sums : IpId → Nat) (id : IpId) : Nat :=
  match op with
  | .finish keyAlloc valueAlloc _ =>
    match s.collector with
    | some (.update idUser _ len) => if id = idUser then sums id + len.toNat else sums id
    | some (.insert idUser len) =>
      if keyAlloc ∧ valueAlloc ∧ id = idUser then sums id + len.toNat else sums id
    | none => sums id
  | .timeExport i ok =>
    match s.passes[i]? with
    | some (.taken idUser _ tmp) => if ok ∧ id = idUser then sums id - tmp.toNat else sums id
    | _ => sums id
  | _ => sums id

/-- The value that a call or a pass raises stays below 2^32. -/
def TimePc.Fits (s : TimeState) : TimePc → Prop
  | .update idUser _ len | .insert idUser len =>
    (nodeValue s.cells s.agTime idUser).toNat + len.toNat < 4294967296

def VisitPc.Fits (s : TimeState) : VisitPc → Prop
  | .failed idUser _ tmp => (nodeValue s.cells s.agTime idUser).toNat + tmp.toNat < 4294967296
  | .walking | .taken _ _ _ => True

def TimeFits (s : TimeState) : TimeOp → Prop
  | .finish _ _ _ => ∀ pc ∈ s.collector, pc.Fits s
  | .giveBack i => ∀ pc ∈ s.passes[i]?, pc.Fits s
  | _ => True

section
variable {s s' : TimeState}

/-- Where no pass is under way, the values are all there is. -/
theorem TimeState.count_idle (h : s.passes = []) (idUser : IpId) :
    s.count idUser = (nodeValue s.cells s.agTime idUser).toNat := by
  rw [count, h, Tally.tally_nil, Nat.add_zero]

theorem hand_set {passes : List VisitPc} {i : Nat} {pc : VisitPc} (h : passes[i]? = some pc)
    (pc' : VisitPc) (idUser : IpId) :
    Tally.tally (VisitPc.hand idUser) (passes.set i pc') + pc.hand idUser =
      Tally.tally (VisitPc.hand idUser) passes + pc'.hand idUser :=
  Tally.tally_set pc' h

theorem hand_walking (idUser : IpId) : VisitPc.hand idUser .walking = 0 := rfl

/-- Bytes that move between a value and a pass, and do not wrap, count as before. -/
theorem TimeInv.count_move (h : TimeInv s) {i size : Nat} {pc : VisitPc} (pc' : VisitPc)
    {idUser : IpId} {val val' : IpSize} (hpc : s.passes[i]? = some pc)
    (hl : iTreeLookup s.agTime idUser = some size) (hval : s.cells[size]? = some val)
    (hbytes : pc.hand idUser + val.toNat = pc'.hand idUser + val'.toNat)
    (hothers : ∀ id, id ≠ idUser → pc.hand id = pc'.hand id) (id : IpId) :
    TimeState.count { s with cells := s.cells.set size val', passes := s.passes.set i pc' } id =
      s.count id := by
  have hset := hand_set hpc pc' id
  change (nodeValue (s.cells.set size val') s.agTime id).toNat +
    Tally.tally (VisitPc.hand id) (s.passes.set i pc') = _
  rw [nodeValue_set h.owns hl, TimeState.count]
  by_cases hid : id = idUser
  · subst hid
    rw [if_pos rfl, nodeValue_some hl, hval, Option.getD_some]
    omega
  · have hsame := hothers id hid
    rw [if_neg hid]
    omega

theorem TimeInv.count_finish (h : TimeInv s) {keyAlloc valueAlloc nodeAlloc : Bool}
    (hg : NodeAllocated s (.finish keyAlloc valueAlloc nodeAlloc))
    (hfit : TimeFits s (.finish keyAlloc valueAlloc nodeAlloc))
    (hs : timeFinish s keyAlloc valueAlloc nodeAlloc = some s') (id : IpId) :
    s'.count id = timeBook s (.finish keyAlloc valueAlloc nodeAlloc) s.count id := by
  unfold timeBook
  obtain ⟨idUser, ptr, len, val, hpc, hval, rfl⟩ | ⟨idUser, len, hpc, hcase⟩ := timeFinish_some hs
  · have hl : iTreeLookup s.agTime idUser = some ptr := h.collector _ hpc
    have hroom : (nodeValue s.cells s.agTime idUser).toNat + len.toNat < 4294967296 := hfit _ hpc
    simp only [hpc]
    change (nodeValue (s.cells.set ptr (val + len)) s.agTime id).toNat +
      Tally.tally (VisitPc.hand id) s.passes = _
    rw [nodeValue_set h.owns hl, TimeState.count]
    split_ifs with hid
    · subst hid
      rw [nodeValue_some hl, hval, Option.getD_some] at hroom ⊢
      rw [Meter.toNat_add hroom]
      omega
    · rfl
  · have hl : iTreeLookup s.agTime idUser = none := h.collector _ hpc
    simp only [hpc]
    obtain ⟨halloc, agTime', inserted', hins', rfl⟩ | ⟨hno, rfl⟩ := hcase
    · have hnode : nodeAlloc = true := by
        apply hg _ halloc.1 halloc.2
        rw [hpc]
        rfl
      obtain ⟨agTime, inserted, hins, -, -, hvalue⟩ := h.owns.insert hl len
      rw [hnode, hins] at hins'
      cases hins'
      change (nodeValue (s.cells ++ [len]) agTime' id).toNat +
        Tally.tally (VisitPc.hand id) s.passes = _
      rw [hvalue, TimeState.count]
      by_cases hid : id = idUser
      · subst hid
        rw [if_pos rfl, if_pos ⟨halloc.1, halloc.2, rfl⟩, nodeValue_none hl]
        change len.toNat + Tally.tally (VisitPc.hand id) s.passes =
          0 + Tally.tally (VisitPc.hand id) s.passes + len.toNat
        omega
      · rw [if_neg hid, if_neg (fun hand => hid hand.2.2)]
    · rw [if_neg (fun hall => hno ⟨hall.1, hall.2.1⟩)]
      rfl

theorem TimeInv.count_take (h : TimeInv s) {i : Nat} {idUser : IpId}
    (hs : timeTake s i idUser = some s') (id : IpId) : s'.count id = s.count id := by
  obtain ⟨size, tmp, hpc, hl, hval, rfl⟩ := timeTake_some hs
  apply h.count_move (.taken idUser size tmp) hpc hl hval
  · simp [VisitPc.hand, VisitPc.pending]
  · intro id hid
    simp [VisitPc.hand, VisitPc.pending, Ne.symm hid]

theorem TimeInv.count_giveBack (h : TimeInv s) {i : Nat} (hfit : TimeFits s (.giveBack i))
    (hs : timeGiveBack s i = some s') (id : IpId) : s'.count id = s.count id := by
  obtain ⟨idUser, size, tmp, val, hpc, hval, rfl⟩ := timeGiveBack_some hs
  have hl : iTreeLookup s.agTime idUser = some size := h.passes _ (List.mem_of_getElem? hpc)
  have hroom : (nodeValue s.cells s.agTime idUser).toNat + tmp.toNat < 4294967296 := hfit _ hpc
  rw [nodeValue_some hl, hval, Option.getD_some] at hroom
  apply h.count_move .walking hpc hl hval
  · simp only [VisitPc.hand, VisitPc.pending, if_true]
    rw [Meter.toNat_add hroom]
    change tmp.toNat + val.toNat = 0 + (val.toNat + tmp.toNat)
    omega
  · intro id hid
    simp [VisitPc.hand, VisitPc.pending, Ne.symm hid]

/-- A successful export takes out of the books what it wrote, a failed one nothing. -/
theorem count_timeExport {i : Nat} {ok : Bool} (hs : timeExport s i ok = some s') (id : IpId) :
    s'.count id = timeBook s (.timeExport i ok) s.count id := by
  unfold timeBook
  obtain ⟨idUser, size, tmp, hpc, ⟨rfl, rfl⟩ | ⟨rfl, rfl⟩⟩ := timeExport_some hs
  · have hset := hand_set hpc .walking id
    rw [hand_walking] at hset
    simp only [hpc]
    change (nodeValue s.cells s.agTime id).toNat +
      Tally.tally (VisitPc.hand id) (s.passes.set i .walking) = _
    rw [TimeState.count]
    by_cases hid : id = idUser
    · subst hid
      simp only [VisitPc.hand, VisitPc.pending, if_true] at hset
      rw [if_pos ⟨trivial, rfl⟩]
      omega
    · have hzero : VisitPc.hand id (.taken idUser size tmp) = 0 := by
        simp [VisitPc.hand, VisitPc.pending, Ne.symm hid]
      rw [if_neg (fun hand => hid hand.2)]
      omega
  · have hset := hand_set hpc (.failed idUser size tmp) id
    have hsame : VisitPc.hand id (.failed idUser size tmp) =
        VisitPc.hand id (.taken idUser size tmp) := rfl
    simp only [hpc]
    change (nodeValue s.cells s.agTime id).toNat +
      Tally.tally (VisitPc.hand id) (s.passes.set i (.failed idUser size tmp)) = _
    rw [if_neg (by simp), TimeState.count]
    omega

theorem count_leave {i : Nat} (hs : timeLeave s i = some s') (id : IpId) :
    s'.count id = s.count id := by
  obtain ⟨hpc, rfl⟩ := timeLeave_some hs
  have hrest := Tally.tally_eraseIdx (f := VisitPc.hand id) hpc
  rw [hand_walking] at hrest
  change (nodeValue s.cells s.agTime id).toNat +
    Tally.tally (VisitPc.hand id) (s.passes.eraseIdx i) = s.count id
  rw [TimeState.count]
  omega

/-- A step whose value does not wrap counts as its book says. -/
theorem timeStep_counts {op : TimeOp} (h : TimeInv s) (hg : NodeAllocated s op ∧ TimeFits s op)
    (hs : timeStep s op = some s') :
    TimeInv s' ∧ ∀ id, s'.count id = timeBook s op s.count id := by
  refine ⟨h.step hg.1 hs, fun id => ?_⟩
  cases op with
  | acct data =>
    obtain ⟨pc, -, rfl⟩ := timeLookup_some hs
    rfl
  | finish keyAlloc valueAlloc nodeAlloc => exact h.count_finish hg.1 hg.2 hs id
  | enter =>
    cases hs
    change _ + Tally.tally (VisitPc.hand id) (s.passes ++ [.walking]) = _
    rw [Tally.tally_append, Tally.tally_cons, Tally.tally_nil, hand_walking]
    rfl
  | take i idUser => exact h.count_take hs id
  | timeExport i ok => exact count_timeExport hs id
  | giveBack i => exact h.count_giveBack hg.2 hs id
  | leave i => exact count_leave hs id

end

theorem bytes16_injective : Function.Injective bytes16 := by
  intro a b h
  simp only [bytes16, List.cons.injEq, and_true, ← UInt8.toNat_inj] at h
  rw [← UInt16.toNat_inj]
  have ha := a.toNat_lt
  have hb := b.toNat_lt
  simp [Nat.shiftRight_eq_div_pow] at h
  omega

theorem StKey.bytes_injective : Function.Injective StKey.bytes := by
  intro a b h
  obtain ⟨h, hpad2⟩ := List.append_inj' h rfl
  obtain ⟨h, hport⟩ := List.append_inj' h rfl
  obtain ⟨h, haddr⟩ := List.append_inj' h rfl
  obtain ⟨h, hpad1⟩ := List.append_inj' h rfl
  obtain ⟨hid, hflags⟩ := List.append_inj' h rfl
  simp only [List.cons.injEq, and_true] at hflags
  cases a
  cases b
  simp only [StKey.mk.injEq]
  exact ⟨bytes32_injective hid, hflags.1, hflags.2, bytes16_injective hpad1,
    bytes32_injective haddr, bytes16_injective hport, bytes16_injective hpad2⟩

theorem ipCompare_strictTotal : Assoc.StrictTotal ipCompare :=
  memcmp_strictTotal StKey.bytes 16 (fun _ => rfl) StKey.bytes_injective

/-- st_value.bytes of a key's node, where the tree has one. -/
def IpModule.count (m : IpModule) (key : StKey) : Nat :=
  match m.state.agIp.lookup ipCompare key with
  | some ptr => bytesAt m.state.cells ptr
  | none => 0

/-- The exact sums of what ip_acct accounted to each key since the last successful export of its
node. -/
def ipBook (m : IpModule) (c : IpCall) (sums : StKey → Nat) (key : StKey) : Nat :=
  match c with
  | .acct info data pad1 pad2 alloc =>
    if (ipAcct m (ipKey info data pad1 pad2) data.len alloc).any Prod.snd ∧
        key = ipKey info data pad1 pad2 then
      sums key + data.len.toNat
    else sums key
  | .sync meets => if key ∈ (ipSent m meets).map Prod.fst then 0 else sums key

/-- The nodes are found by their keys. -/
structure IpOrdered (m : IpModule) : Prop where
  rest : AtRest m
  sorted : Assoc.Sorted ipCompare m.state.agIp.inOrder

section
variable {m m' : IpModule}

theorem IpOrdered.lookup_iff (h : IpOrdered m) (key : StKey) (ptr : Nat) :
    m.state.agIp.lookup ipCompare key = some ptr ↔ (key, ptr) ∈ m.state.agIp.inOrder :=
  (ITreeNode.mem_inOrder_iff ipCompare_strictTotal h.sorted).symm

/-- Two keys have two nodes. -/
theorem IpOrdered.lookup_inj (h : IpOrdered m) {key key' : StKey} {ptr : Nat}
    (hl : m.state.agIp.lookup ipCompare key = some ptr)
    (hl' : m.state.agIp.lookup ipCompare key' = some ptr) : key = key' := by
  have hnodup : (m.state.agIp.inOrder.map Prod.snd).Nodup :=
    (List.nodup_append.mp h.rest.inv.nodup).1
  have hm := (h.lookup_iff key ptr).mp hl
  have hm' := (h.lookup_iff key' ptr).mp hl'
  have hsame := List.inj_on_of_nodup_map hnodup hm hm' rfl
  exact congrArg Prod.fst hsame

theorem IpOrdered.lookup_lt (h : IpOrdered m) {key : StKey} {ptr : Nat}
    (hl : m.state.agIp.lookup ipCompare key = some ptr) : ptr < m.state.cells.length := by
  obtain ⟨cell, hcell, -⟩ := h.rest.inv.live ptr (List.mem_append_left _ (lookup_mem hl))
  exact (List.getElem?_eq_some_iff.mp hcell).1

theorem bytesAt_set_self {cells : List IpCell} {ptr : Nat} (cell : IpCell)
    (h : ptr < cells.length) : bytesAt (cells.set ptr cell) ptr = cell.bytes.toNat := by
  rw [bytesAt, List.getElem?_set_self h]
  rfl

theorem bytesAt_set_ne {cells : List IpCell} {ptr p : Nat} (cell : IpCell) (h : ptr ≠ p) :
    bytesAt (cells.set ptr cell) p = bytesAt cells p := by
  rw [bytesAt, bytesAt, List.getElem?_set_ne h]

/-- A packet for a key that the tree has raises the bytes of its node. -/
theorem IpOrdered.count_charge (h : IpOrdered m) {key : StKey} {ptr : Nat} {cell : IpCell}
    {len : IpSize} (hl : m.state.agIp.lookup ipCompare key = some ptr)
    (hcell : m.state.cells[ptr]? = some cell)
    (hroom : bytesAt m.state.cells ptr + len.toNat < 4294967296) (k : StKey) :
    IpModule.count { m with state := chargeCell m.state ptr cell len } k =
      if k = key then m.count k + len.toNat else m.count k := by
  have hlt := h.lookup_lt hl
  have hbytes : bytesAt m.state.cells ptr = cell.bytes.toNat := bytesAt_some hcell
  rw [hbytes] at hroom
  simp only [IpModule.count, chargeCell]
  split_ifs with hk
  · subst hk
    simp only [hl]
    rw [bytesAt_set_self _ hlt, hbytes]
    exact Meter.toNat_add hroom
  · cases hk' : m.state.agIp.lookup ipCompare k with
    | none => rfl
    | some p =>
      have hne : ptr ≠ p := by
        intro heq
        subst heq
        exact hk (h.lookup_inj hk' hl)
      exact bytesAt_set_ne _ hne

/-- A packet for a new key gets a node of its own. -/
theorem IpOrdered.count_add (h : IpOrdered m) {key : StKey} {agIp : ITreeNode StKey Nat}
    {inserted : Bool} (len : IpSize) (hl : m.state.agIp.lookup ipCompare key = none)
    (hins : m.state.agIp.insert ipCompare true key m.state.cells.length = some (agIp, inserted)) :
    Assoc.Sorted ipCompare agIp.inOrder ∧ ∀ k,
      IpModule.count { m with state := addCell m.state agIp len } k =
        if k = key then m.count k + len.toNat else m.count k := by
  have hvalid : (⟨m.state.agIp, ipCompare⟩ : ITree StKey Nat).Valid := ⟨h.rest.avl, h.sorted⟩
  obtain ⟨tree', inserted', htree, hcmp, hvalid', -, hlook⟩ :=
    iTreeInsert_spec ipCompare_strictTotal hvalid key m.state.cells.length
  rw [iTreeInsert, hins] at htree
  cases htree
  refine ⟨hvalid'.sorted, fun k => ?_⟩
  have hk : agIp.lookup ipCompare k =
      if key = k then some m.state.cells.length else m.state.agIp.lookup ipCompare k := hlook k
  simp only [IpModule.count, addCell, hk]
  by_cases heq : k = key
  · subst heq
    have hnew : bytesAt (m.state.cells ++ [⟨1, len, false⟩]) m.state.cells.length = len.toNat := by
      rw [bytesAt, List.getElem?_concat_length]
      rfl
    simp only [if_true, hl, hnew, Nat.zero_add]
  · simp only [if_neg heq, if_neg (Ne.symm heq)]
    cases hk' : m.state.agIp.lookup ipCompare k with
    | none => rfl
    | some p =>
      have hlt := h.lookup_lt hk'
      change bytesAt (m.state.cells ++ [⟨1, len, false⟩]) p = bytesAt m.state.cells p
      rw [bytesAt, bytesAt, List.getElem?_append_left hlt]

theorem IpOrdered.acct (h : IpOrdered m) {info : PacketInfo} {data : PacketDataInfo}
    {pad1 pad2 : UInt16} {alloc : AcctAlloc} {ok : Bool}
    (hp : Provided m (.acct info data pad1 pad2 alloc))
    (hs : ipAcct m (ipKey info data pad1 pad2) data.len alloc = some (m', ok)) :
    Assoc.Sorted ipCompare m'.state.agIp.inOrder ∧ ∀ key, m'.count key =
      if ok = true ∧ key = ipKey info data pad1 pad2 then m.count key + data.len.toNat
      else m.count key := by
  simp only [Provided] at hp
  obtain ⟨ptr, cell, hl, hcell, rfl, rfl⟩ | ⟨hl, ⟨-, rfl, rfl⟩ | ⟨halloc, agIp, inserted, hins,
    rfl, rfl⟩⟩ := ipAcct_cases h.rest.released.tree hs
  · simp only [hl] at hp
    simp only [true_and]
    exact ⟨h.sorted, h.count_charge hl hcell hp⟩
  · exact ⟨h.sorted, fun key => by simp⟩
  · simp only [hl] at hp
    rw [hp halloc.1 halloc.2] at hins
    simp only [true_and]
    exact h.count_add data.len hl hins

/-- A pass that exports every record leaves none, and any other is refused. -/
theorem IpOrdered.sync (h : IpOrdered m) {meets : SyncMeets} {res : Bool}
    (hp : Provided m (.sync meets)) (hs : ipSync m meets = some (m', res)) :
    Assoc.Sorted ipCompare m'.state.agIp.inOrder ∧ ∀ key,
      m'.count key = if key ∈ (ipSent m meets).map Prod.fst then 0 else m.count key := by
  obtain ⟨rfl, hrefused⟩ | ⟨hreach, hcase⟩ := ipSync_cases hs
  · refine ⟨h.sorted, fun key => ?_⟩
    rw [ipSent_refused hrefused]
    rfl
  obtain ⟨hnew, hexported⟩ := hp hreach.2.1 hreach.2.2
  have hsent : ipSent m meets = m.records := by
    rw [ipSent_walked hreach, hnew, if_pos rfl, sent_eq_iff]
    intro n hn
    rw [IpModule.records, List.length_map] at hn
    rw [Nat.zero_add]
    exact decide_eq_true (exportTries_exported (hexported n hn))
  obtain ⟨hno, -⟩ | ⟨-, exported, -, rfl⟩ := hcase
  · rw [hnew] at hno
    cases hno
  · refine ⟨List.Pairwise.nil, fun key => ?_⟩
    change 0 = _
    rw [hsent]
    split_ifs with hmem
    · rfl
    · rw [IpModule.count]
      cases hl : m.state.agIp.lookup ipCompare key with
      | none => rfl
      | some ptr =>
        -- a key of the tree is among its records
        have hin := (h.lookup_iff key ptr).mp hl
        have hrec : key ∈ m.records.map Prod.fst := by
          rw [IpModule.records, List.map_map]
          exact List.mem_map.mpr ⟨(key, ptr), hin, rfl⟩
        exact absurd hrec hmem

/-- A call that is provided for counts as its book says. -/
theorem ipCall_counts {c : IpCall} (h : IpOrdered m) (hp : Provided m c)
    (hs : ipCall m c = some m') : IpOrdered m' ∧ ∀ key, m'.count key = ipBook m c m.count key := by
  obtain ⟨m₁, hcall, hrest⟩ := h.rest.call hp
  cases hs.symm.trans hcall
  cases c with
  | acct info data pad1 pad2 alloc =>
    obtain ⟨⟨m₂, ok⟩, hacct, hsame⟩ := Option.map_eq_some_iff.mp hs
    cases hsame
    obtain ⟨hsorted, hcount⟩ := h.acct hp hacct
    refine ⟨⟨hrest, hsorted⟩, fun key => ?_⟩
    rw [hcount, ipBook, hacct]
    rfl
  | sync meets =>
    obtain ⟨⟨m₂, res⟩, hsync, hsame⟩ := Option.map_eq_some_iff.mp hs
    cases hsame
    obtain ⟨hsorted, hcount⟩ := h.sync hp hsync
    exact ⟨⟨hrest, hsorted⟩, hcount⟩

end

/-- The time tree shows its sums: with what the passes have taken out of it, and alone while none
is under way. -/
def TimeShows (s : TimeState × (IpId → Nat)) : Prop :=
  Meter.Exact TimeState.count s ∧ (s.1.passes = [] → ∀ idUser,
    (nodeValue s.1.cells s.1.agTime idUser).toNat = s.2 idUser)

/-- In every run whose calls keep every counter below 2^32, and whose memory and exports do not
fail where they lose bytes, every counter shows exactly what was accounted to it. -/
theorem counters_exact (d : Core) (charges : List ChargeOp) (times : List TimeOp)
    (calls : List IpCall) (hcharges : Run.Guarded chargeStep UsersFit d charges)
    (htimes : Run.Guarded timeStep (fun s op => NodeAllocated s op ∧ TimeFits s op) timeInit times)
    (hcalls : Run.Guarded ipCall Provided ipStart calls) :
    Run.Always (Meter.step chargeStep usersBook) (Meter.Exact fun d => d.users.count)
        (d, d.users.count) charges ∧
      Run.Always (Meter.step timeStep timeBook) TimeShows (timeInit, fun _ => 0) times ∧
      Run.Always (Meter.step ipCall ipBook) (Meter.Exact IpModule.count)
        (ipStart, fun _ => 0) calls := by
  refine ⟨?_, ?_, ?_⟩
  · apply Meter.always_exact (fun _ => True) _ trivial (fun a => rfl) hcharges
    intro d op d' _ hfit hs
    exact ⟨trivial, chargeStep_counts hfit hs⟩
  · have hshows : Run.Always (Meter.step timeStep timeBook) (Meter.Exact TimeState.count)
        (timeInit, fun _ => 0) times := by
      apply Meter.always_exact TimeInv _ timeInit_inv (fun a => rfl) htimes
      intro s op s' hi hg hs
      exact timeStep_counts hi hg hs
    apply hshows.imp
    intro s hexact
    refine ⟨hexact, fun hidle idUser => ?_⟩
    rw [← TimeState.count_idle hidle]
    exact hexact idUser
  · have hstart : IpOrdered ipStart := ⟨AtRest.start, List.Pairwise.nil⟩
    apply Meter.always_exact IpOrdered _ hstart (fun a => rfl) hcalls
    intro m c m' hi hp hs
    exact ipCall_counts hi hp hs

instance (d : Core) : ∀ op, Decidable (UsersFit d op)
  | .acct req => inferInstanceAs (Decidable (∀ node ∈ usersFind d.users req.idUser,
      node.traffic.toNat + billed node (chargedAt d.users req) * req.len.toNat < 4294967296 ∧
        ∀ j ∈ chargedAt d.users req, ∀ rule ∈ node.idRules[j]?,
          rule.traffic.toNat + req.len.toNat < 4294967296))
  | .traffic _ => inferInstanceAs (Decidable True)

instance (s : TimeState) : ∀ pc : TimePc, Decidable (pc.Fits s)
  | .update _ _ _ => Nat.decLt _ _
  | .insert _ _ => Nat.decLt _ _

instance (s : TimeState) : ∀ pc : VisitPc, Decidable (pc.Fits s)
  | .failed _ _ _ => Nat.decLt _ _
  | .walking | .taken _ _ _ => inferInstanceAs (Decidable True)

instance (s : TimeState) : ∀ op, Decidable (TimeFits s op)
  | .finish _ _ _ => inferInstanceAs (Decidable (∀ pc ∈ s.collector, pc.Fits s))
  | .giveBack i => inferInstanceAs (Decidable (∀ pc ∈ s.passes[i]?, pc.Fits s))
  | .acct _ | .enter | .take _ _ | .timeExport _ _ | .leave _ => inferInstanceAs (Decidable True)

/-- A packet of user 7, and the tables that charge it to one rule. -/
def sizedPacket (len : IpSize) : Request := .traffic chainInfo ⟨.traffic, 1, 7, 1, 0, 1, 0, len⟩

def sizedCore : Core := ⟨chainUsers [anyRule 1 10 0 1],
  ⟨fun _ => 0, fun _ => 0, fun _ => 0, fun _ => 0⟩⟩

def sizedCall (len : IpSize) : IpCall :=
  .acct chainInfo ⟨.traffic, 1, 7, 1, 0, 0, 0, len⟩ 0 0 ⟨true, true, true⟩

def sizedTime (len : IpSize) : List TimeOp :=
  [.acct ⟨.traffic, 1, 7, 1, 0, 0, 0, len⟩, .finish true true true]

/-- A pass that cannot connect, and one that exports everything. -/
def trafficPass (opened : Bool) : ChargeOp :=
  .traffic ⟨opened, fun _ => ⟨true, true, fun _ => ⟨true, true, true, true, true, true, true, true⟩⟩⟩

theorem counters_exact_exported :
    Run.Always (Meter.step chargeStep usersBook) (Meter.Exact fun d => d.users.count)
        (sizedCore, sizedCore.users.count)
        [.acct (sizedPacket 1500), trafficPass false, .acct (sizedPacket 1500), trafficPass true] ∧
      Run.Always (Meter.step timeStep timeBook) TimeShows (timeInit, fun _ => 0) exportedTwice ∧
      Run.Always (Meter.step ipCall ipBook) (Meter.Exact IpModule.count) (ipStart, fun _ => 0)
        [packet1500, packet1500, thirdTry, packet1500] :=
  counters_exact sizedCore _ exportedTwice _ (by decide) (by decide) (by decide)

/-- While the database is down, two packets of 2^31 bytes bring every counter to zero. -/
theorem counters_wrap :
    (∃ s, Run.exec (Meter.step chargeStep usersBook) (sizedCore, sizedCore.users.count)
        [.acct (sizedPacket 2147483648), trafficPass false, .acct (sizedPacket 2147483648)] =
          some s ∧
      s.1.users.count (.user 0) = 0 ∧ s.2 (.user 0) = 4294967296 ∧
        s.1.users.count (.rule 0 0) = 0 ∧ s.2 (.rule 0 0) = 4294967296) ∧
      (∃ s, Run.exec (Meter.step timeStep timeBook) (timeInit, fun _ => 0)
          (sizedTime 2147483648 ++ sizedTime 2147483648) = some s ∧
        s.1.passes = [] ∧ nodeValue s.1.cells s.1.agTime 7 = 0 ∧ s.2 7 = 4294967296) ∧
      ∃ s, Run.exec (Meter.step ipCall ipBook) (ipStart, fun _ => 0)
          [sizedCall 2147483648, sizedCall 2147483648] = some s ∧
        s.1.state.cells.map IpCell.bytes = [0] ∧
          s.2 (ipKey chainInfo ⟨.traffic, 1, 7, 1, 0, 0, 0, 2147483648⟩ 0 0) = 4294967296 := by
  refine ⟨⟨_, rfl, ?_, ?_, ?_, ?_⟩, ⟨_, rfl, rfl, ?_, ?_⟩, ⟨_, rfl, ?_, ?_⟩⟩
  all_goals decide

end IPStat
