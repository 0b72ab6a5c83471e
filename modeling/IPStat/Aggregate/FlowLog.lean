import IPStat.Aggregate.Pipeline
import IPStat.Aggregate.Widths

/-! The traffic of func_ip.c on its way from the tree of ip_acct by the passes of ip_sync into
Log_IP. -/

namespace IPStat

open Rows

/-- The columns of a row of Log_IP without its date. -/
def LogIpKey.dateless {δ : Type} (k : LogIpKey δ) : LogIpKey Unit :=
  ⟨k.idUser, k.proto, k.direct, k.addr, k.port, ()⟩

/-- The columns that a node's key is written to. -/
def StKey.columns (key : StKey) : LogIpKey Unit := (logIp Unit).key key ()

/-- The bytes of the records of a kind. -/
def recordSum (p : LogIpKey Unit → Bool) (records : List (StKey × Nat)) : Nat :=
  Tally.tally (fun q => if p q.1.columns then q.2 else 0) records

/-- The bytes of the rows of a kind, on all dates. -/
def loggedSum {δ : Type} (p : LogIpKey Unit → Bool) (rows : List (Row (LogIpKey δ))) : Nat :=
  sumOf (fun k => p k.dateless = true) rows

section
variable {δ : Type} [DecidableEq δ] (today : Nat → δ)

/-- The successful tries of ip_export, one record after the other; `today n` is what CURDATE()
answers to the statements of the n-th. -/
def exportRecords : Nat → List (StKey × Nat) → List (Row (LogIpKey δ)) → List (Row (LogIpKey δ))
  | _, [], rows => rows
  | n, (key, bytes) :: records, rows =>
    let k := (logIp δ).key key (today n)
    exportRecords (n + 1) records (writeRow ((logIp δ).flag (count k rows)) k bytes rows)

/-- The column of Log_IP has room at each of these writes. -/
def HasRoom : Nat → List (StKey × Nat) → List (Row (LogIpKey δ)) → Prop
  | _, [], _ => True
  | n, (key, bytes) :: records, rows =>
    let k := (logIp δ).key key (today n)
    (∀ row ∈ rows, row.key = k → row.value + bytes < 4294967296) ∧
      HasRoom (n + 1) records (writeRow ((logIp δ).flag (count k rows)) k bytes rows)

end

instance {δ : Type} [DecidableEq δ] (today : Nat → δ) :
    ∀ n records rows, Decidable (HasRoom today n records rows)
  | _, [], _ => isTrue trivial
  | n, (key, bytes) :: records, rows =>
    have := instDecidableHasRoom today (n + 1) records (writeRow
      ((logIp δ).flag (count ((logIp δ).key key (today n)) rows)) ((logIp δ).key key (today n))
      bytes rows)
    instDecidableAnd

/-- The module and the table, and the packets that ip_acct has taken, newest first. -/
structure FlowLog (δ : Type) where
  ip : IpModule
  logIp : List (Row (LogIpKey δ))
  accounted : List (StKey × Nat)

inductive FlowEvent (δ : Type) where
  | acct (info : PacketInfo) (data : PacketDataInfo) (pad1 pad2 : UInt16) (alloc : AcctAlloc)
  | sync (meets : SyncMeets) (today : Nat → δ)

namespace FlowLog

variable {δ : Type} [DecidableEq δ]

def start (rows : List (Row (LogIpKey δ))) : FlowLog δ := ⟨ipStart, rows, []⟩

def acct (s : FlowLog δ) (key : StKey) (len : IpSize) (alloc : AcctAlloc) : Option (FlowLog δ) :=
  (ipAcct s.ip key len alloc).map fun (ip, ok) =>
    { s with ip := ip, accounted := if ok then (key, len.toNat) :: s.accounted else s.accounted }

def sync (s : FlowLog δ) (meets : SyncMeets) (today : Nat → δ) : Option (FlowLog δ) :=
  (ipSync s.ip meets).map fun (ip, _) =>
    { s with ip := ip, logIp := exportRecords today 0 (ipSent s.ip meets) s.logIp }

def step (s : FlowLog δ) : FlowEvent δ → Option (FlowLog δ)
  | .acct info data pad1 pad2 alloc => s.acct (ipKey info data pad1 pad2) data.len alloc
  | .sync meets today => s.sync meets today

/-- What a call needs is provided for, and the column of Log_IP has room for what is exported. -/
def Careful (s : FlowLog δ) : FlowEvent δ → Prop
  | .acct info data pad1 pad2 alloc => Provided s.ip (.acct info data pad1 pad2 alloc)
  | .sync meets today => Provided s.ip (.sync meets) ∧ HasRoom today 0 (ipSent s.ip meets) s.logIp

instance (s : FlowLog δ) : ∀ e, Decidable (Careful s e)
  | .acct info data pad1 pad2 alloc =>
    inferInstanceAs (Decidable (Provided s.ip (.acct info data pad1 pad2 alloc)))
  | .sync meets today => inferInstanceAs (Decidable (Provided s.ip (.sync meets) ∧
      HasRoom today 0 (ipSent s.ip meets) s.logIp))

/-- Whatever columns are selected, tree and table have what was accounted, on top of what the
table had. -/
structure Sound (rows : List (Row (LogIpKey δ))) (s : FlowLog δ) : Prop where
  ip : IpOrdered s.ip
  unique : (keys s.logIp).Nodup
  balance : ∀ p, loggedSum p s.logIp + recordSum p s.ip.records =
    loggedSum p rows + recordSum p s.accounted

end FlowLog

section
variable {δ : Type} [DecidableEq δ] {rows : List (Row (LogIpKey δ))} {today : Nat → δ}
  {p : LogIpKey Unit → Bool}

theorem logIp_flag (h : (keys rows).Nodup) (k : LogIpKey δ) :
    (logIp δ).flag (count k rows) = decide (k ∈ keys rows) := by
  rw [count_of_nodup h]
  split_ifs with hmem
  · exact (decide_eq_true hmem).symm
  · exact (decide_eq_false hmem).symm

theorem recordSum_cons (key : StKey) (n : Nat) (records : List (StKey × Nat)) :
    recordSum p ((key, n) :: records) = (if p key.columns then n else 0) + recordSum p records :=
  Tally.tally_cons (key, n) records

theorem recordSum_append (records records' : List (StKey × Nat)) :
    recordSum p (records ++ records') = recordSum p records + recordSum p records' :=
  Tally.tally_append records records'

theorem recordSum_perm {records records' : List (StKey × Nat)} (h : records.Perm records') :
    recordSum p records = recordSum p records' :=
  (h.map _).sum_eq

/-- Every record arrives in the columns of its key. -/
theorem exportRecords_sum (n : Nat) (records : List (StKey × Nat)) (h : (keys rows).Nodup)
    (hroom : HasRoom today n records rows) :
    (keys (exportRecords today n records rows)).Nodup ∧
      ∀ p, loggedSum p (exportRecords today n records rows) =
        loggedSum p rows + recordSum p records := by
  induction records generalizing n rows with
  | nil => exact ⟨h, fun _ => rfl⟩
  | cons q records ih =>
    obtain ⟨key, bytes⟩ := q
    obtain ⟨hkey, hrest⟩ := hroom
    rw [exportRecords]
    simp only [logIp_flag h] at hrest ⊢
    obtain ⟨hunique, hsum⟩ := ih (n + 1) (keys_writeRow h _ bytes) hrest
    refine ⟨hunique, fun p => ?_⟩
    have hwrite := sumOf_writeRow (fun k => p k.dateless = true) h hkey
    rw [hsum, recordSum_cons, loggedSum, hwrite, loggedSum]
    exact Nat.add_assoc _ _ _

end

section
variable {m : IpModule} {p : LogIpKey Unit → Bool}

/-- What a node adds to the bytes of a kind. -/
def nodeBytes (p : LogIpKey Unit → Bool) (cells : List IpCell) (node : StKey × Nat) : Nat :=
  if p node.1.columns then bytesAt cells node.2 else 0

theorem recordSum_records (m : IpModule) :
    recordSum p m.records = Tally.tally (nodeBytes p m.state.cells) m.state.agIp.inOrder := by
  rw [recordSum, IpModule.records, Tally.tally, Tally.tally, List.map_map]
  rfl

theorem nodeBytes_congr {cells cells' : List IpCell} {nodes : List (StKey × Nat)}
    (h : ∀ node ∈ nodes, bytesAt cells' node.2 = bytesAt cells node.2) :
    Tally.tally (nodeBytes p cells') nodes = Tally.tally (nodeBytes p cells) nodes := by
  rw [Tally.tally, Tally.tally]
  congr 1
  apply List.map_congr_left
  intro node hnode
  rw [nodeBytes, nodeBytes, h node hnode]

/-- A packet for a key that the tree has goes to its node. -/
theorem recordSum_charge (h : IpOrdered m) {key : StKey} {ptr : Nat} {cell : IpCell}
    {len : IpSize} (hl : m.state.agIp.lookup ipCompare key = some ptr)
    (hcell : m.state.cells[ptr]? = some cell)
    (hroom : bytesAt m.state.cells ptr + len.toNat < 4294967296) :
    recordSum p (IpModule.records { m with state := chargeCell m.state ptr cell len }) =
      recordSum p m.records + if p key.columns then len.toNat else 0 := by
  have hlt := h.lookup_lt hl
  have hbytes : bytesAt m.state.cells ptr = cell.bytes.toNat := bytesAt_some hcell
  have hraised : bytesAt (m.state.cells.set ptr ⟨cell.pkt + 1, cell.bytes + len, cell.freed⟩) ptr =
      bytesAt m.state.cells ptr + len.toNat := by
    rw [bytesAt_set_self _ hlt, hbytes]
    rw [hbytes] at hroom
    exact Meter.toNat_add hroom
  have hnodup : (m.state.agIp.inOrder.map Prod.snd).Nodup :=
    (List.nodup_append.mp h.rest.inv.nodup).1
  obtain ⟨l₁, l₂, hsplit⟩ := List.append_of_mem ((h.lookup_iff key ptr).mp hl)
  rw [hsplit, List.map_append, List.map_cons, List.nodup_middle, List.nodup_cons,
    List.mem_append] at hnodup
  have hother : ∀ node ∈ l₁ ++ l₂,
      bytesAt (m.state.cells.set ptr ⟨cell.pkt + 1, cell.bytes + len, cell.freed⟩) node.2 =
        bytesAt m.state.cells node.2 := by
    intro node hnode
    apply bytesAt_set_ne
    intro heq
    apply hnodup.1
    rw [heq, ← List.mem_append, ← List.map_append]
    exact List.mem_map.mpr ⟨node, hnode, rfl⟩
  have hnode : nodeBytes p (m.state.cells.set ptr ⟨cell.pkt + 1, cell.bytes + len, cell.freed⟩)
      (key, ptr) = nodeBytes p m.state.cells (key, ptr) + if p key.columns then len.toNat else 0 := by
    simp only [nodeBytes, hraised]
    split_ifs <;> rfl
  rw [recordSum_records, recordSum_records]
  show Tally.tally (nodeBytes p (m.state.cells.set ptr _)) m.state.agIp.inOrder = _
  rw [hsplit, Tally.tally_append, Tally.tally_append, Tally.tally_cons, Tally.tally_cons,
    nodeBytes_congr fun node hnode => hother node (List.mem_append_left l₂ hnode),
    nodeBytes_congr fun node hnode => hother node (List.mem_append_right l₁ hnode), hnode]
  omega

/-- A packet for a new key goes to a node of its own. -/
theorem recordSum_add (h : IpOrdered m) {key : StKey} {agIp : ITreeNode StKey Nat}
    {inserted : Bool} (len : IpSize) (hl : m.state.agIp.lookup ipCompare key = none)
    (hins : m.state.agIp.insert ipCompare true key m.state.cells.length = some (agIp, inserted)) :
    recordSum p (IpModule.records { m with state := addCell m.state agIp len }) =
      recordSum p m.records + if p key.columns then len.toNat else 0 := by
  obtain ⟨l₁, l₂, hold, hnew⟩ := ITreeNode.insert_inOrder hins hl
  have hother : ∀ node ∈ m.state.agIp.inOrder,
      bytesAt (m.state.cells ++ [⟨1, len, false⟩]) node.2 = bytesAt m.state.cells node.2 := by
    intro node hnode
    have hlt := h.lookup_lt ((h.lookup_iff node.1 node.2).mpr hnode)
    rw [bytesAt, bytesAt, List.getElem?_append_left hlt]
  have hown : bytesAt (m.state.cells ++ [⟨1, len, false⟩]) m.state.cells.length = len.toNat := by
    rw [bytesAt, List.getElem?_concat_length]
    rfl
  rw [recordSum_records, recordSum_records]
  show Tally.tally (nodeBytes p (m.state.cells ++ [⟨1, len, false⟩])) agIp.inOrder = _
  have hsum := nodeBytes_congr (p := p) hother
  rw [hold, Tally.tally_append, Tally.tally_append] at hsum
  have hnode : nodeBytes p (m.state.cells ++ [⟨1, len, false⟩]) (key, m.state.cells.length) =
      if p key.columns then len.toNat else 0 := by
    rw [nodeBytes, hown]
  rw [hnew, hold, Tally.tally_append, Tally.tally_append, Tally.tally_cons, hnode]
  omega

end

namespace FlowLog

variable {δ : Type} {rows : List (Row (LogIpKey δ))} {s s' : FlowLog δ}

/-- What ip_acct takes is in the tree. -/
theorem Sound.acct (h : Sound rows s) {info : PacketInfo} {data : PacketDataInfo}
    {pad1 pad2 : UInt16} {alloc : AcctAlloc}
    (hp : Provided s.ip (.acct info data pad1 pad2 alloc))
    (hs : s.acct (ipKey info data pad1 pad2) data.len alloc = some s') : Sound rows s' := by
  obtain ⟨⟨ip, ok⟩, hacct, rfl⟩ := Option.map_eq_some_iff.mp hs
  have hcall : ipCall s.ip (.acct info data pad1 pad2 alloc) = some ip := by
    rw [ipCall, hacct]
    rfl
  refine ⟨(ipCall_counts h.ip hp hcall).1, h.unique, fun p => ?_⟩
  have hbal := h.balance p
  simp only [Provided] at hp
  show loggedSum p s.logIp + recordSum p ip.records = loggedSum p rows +
    recordSum p (if ok then (ipKey info data pad1 pad2, data.len.toNat) :: s.accounted
      else s.accounted)
  obtain ⟨ptr, cell, hl, hcell, rfl, rfl⟩ | ⟨hl, ⟨-, rfl, rfl⟩ | ⟨halloc, agIp, inserted, hins,
    rfl, rfl⟩⟩ := ipAcct_cases h.ip.rest.released.tree hacct
  · simp only [hl] at hp
    rw [recordSum_charge h.ip hl hcell hp, if_pos rfl, recordSum_cons]
    omega
  · exact hbal
  · simp only [hl] at hp
    rw [hp halloc.1 halloc.2] at hins
    rw [recordSum_add h.ip data.len hl hins, if_pos rfl, recordSum_cons]
    omega

variable [DecidableEq δ]

/-- What ip_sync takes out of the tree is in the table. -/
theorem Sound.sync (h : Sound rows s) {meets : SyncMeets} {today : Nat → δ}
    (hp : Provided s.ip (.sync meets))
    (hroom : HasRoom today 0 (ipSent s.ip meets) s.logIp)
    (hs : s.sync meets today = some s') : Sound rows s' := by
  obtain ⟨⟨ip, res⟩, hsync, rfl⟩ := Option.map_eq_some_iff.mp hs
  have hcall : ipCall s.ip (.sync meets) = some ip := by
    rw [ipCall, hsync]
    rfl
  obtain ⟨hunique, hsum⟩ := exportRecords_sum 0 (ipSent s.ip meets) h.unique hroom
  refine ⟨(ipCall_counts h.ip hp hcall).1, hunique, fun p => ?_⟩
  have hkeeps : IpKeeps s.ip meets := fun _ hstore hopened => .inr (hp hstore hopened)
  have hmoved := recordSum_perm (p := p) ((ipSync_keeps_iff hsync).mpr hkeeps)
  have hbal := h.balance p
  rw [recordSum_append] at hmoved
  show loggedSum p (exportRecords today 0 (ipSent s.ip meets) s.logIp) + recordSum p ip.records = _
  rw [hsum]
  show _ = loggedSum p rows + recordSum p s.accounted
  omega

theorem Sound.step (h : Sound rows s) {e : FlowEvent δ} (hg : Careful s e)
    (hs : s.step e = some s') : Sound rows s' := by
  cases e with
  | acct info data pad1 pad2 alloc => exact h.acct hg hs
  | sync meets today => exact h.sync hg.1 hg.2 hs

end FlowLog

end IPStat
