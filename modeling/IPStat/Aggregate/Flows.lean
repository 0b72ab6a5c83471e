import IPStat.Aggregate.Widths

namespace IPStat

namespace ITreeNode

variable {κ ν : Type} {compare : κ → κ → Int} {key : κ} {value : ν}

/-- What an insertion of a new key makes of the lookups, with its node or without. -/
theorem insert_lookup [DecidableEq κ] (hc : Assoc.StrictTotal compare) {alloc : Bool}
    {t t' : ITreeNode κ ν} {inserted : Bool} (hs : Assoc.Sorted compare t.inOrder)
    (h : insert compare alloc key value t = some (t', inserted))
    (hl : lookup compare key t = none) :
    Assoc.Sorted compare t'.inOrder ∧ ∀ k, lookup compare k t' =
      if k = key ∧ alloc = true then some value else lookup compare k t := by
  cases alloc with
  | false =>
    have hsame := insert_lost_inOrder h hl
    have hs' : Assoc.Sorted compare t'.inOrder := hsame ▸ hs
    refine ⟨hs', fun k => ?_⟩
    rw [lookup_refines hc hs', hsame, ← lookup_refines hc hs]
    simp
  | true =>
    obtain ⟨hentries, -⟩ := insert_refines hc hs h
    have hs' : Assoc.Sorted compare t'.inOrder := hentries ▸ hs.insert hc
    refine ⟨hs', fun k => ?_⟩
    rw [lookup_refines hc hs', hentries]
    by_cases hk : k = key
    · subst hk
      rw [Assoc.lookup_insert_self hc hs, if_pos ⟨rfl, rfl⟩]
    · rw [Assoc.lookup_insert_of_ne hc hk, if_neg (fun hand => hk hand.1), lookup_refines hc hs]

end ITreeNode

/-- What an aggregate is meant to be of. -/
structure Flow where
  idUser : IpId
  proto : IpProto
  direct : IpFlag
  addr : IpAddr
  port : IpPort
  deriving DecidableEq, Repr

/-- An ip_acct call whose g_malloc0 calls return, with what the stack holds between the fields of
its key, and the malloc of i_tree_node_new. -/
structure FlowCall where
  info : PacketInfo
  data : PacketDataInfo
  pad1 : UInt16
  pad2 : UInt16
  node : Bool

namespace FlowCall

def call (c : FlowCall) : IpCall := .acct c.info c.data c.pad1 c.pad2 ⟨true, true, c.node⟩

def key (c : FlowCall) : StKey := ipKey c.info c.data c.pad1 c.pad2

def flow (c : FlowCall) : Flow where
  idUser := c.data.idUser
  proto := c.info.proto
  direct := c.data.direct
  addr := if c.data.direct = 1 then c.info.src else c.info.dest
  port := if c.data.direct = 1 then c.info.srcPort else c.info.destPort

def len (c : FlowCall) : Nat := c.data.len.toNat

/-- The packets of a flow. -/
def packets (calls : List FlowCall) (flow : Flow) : List FlowCall :=
  calls.filter fun c => c.flow = flow

/-- The calls that a padded key's node counts: those from the first that got the node. -/
def kept (calls : List FlowCall) (key : StKey) : List FlowCall :=
  (calls.filter fun c => c.key = key).dropWhile fun c => !c.node

/-- The st_value that counts them. -/
def summary : List FlowCall → Option IpCell
  | [] => none
  | c :: calls => some ⟨UInt32.ofNat (c :: calls).length,
      UInt32.ofNat (Tally.tally len (c :: calls)), false⟩

end FlowCall

def StKey.flow (key : StKey) : Flow := ⟨key.idUser, key.proto, key.direct, key.addr, key.port⟩

namespace IpModule

def flows (m : IpModule) : List Flow := m.state.agIp.inOrder.map fun node => node.1.flow

/-- The st_value that ip_acct finds for a key. -/
def cellAt (m : IpModule) (key : StKey) : Option IpCell :=
  (m.state.agIp.lookup ipCompare key).bind fun ptr => m.state.cells[ptr]?

end IpModule

open FlowCall

section
variable {c c' : FlowCall} {calls : List FlowCall} {key : StKey}

theorem key_flow (c : FlowCall) : c.key.flow = c.flow := by
  rw [FlowCall.key, ipKey, StKey.flow, FlowCall.flow]
  split_ifs <;> rfl

theorem key_eq_iff : c.key = c'.key ↔ c.flow = c'.flow ∧ c.pad1 = c'.pad1 ∧ c.pad2 = c'.pad2 := by
  have hkey (c : FlowCall) : c.key = ⟨c.flow.idUser, c.flow.proto, c.flow.direct, c.pad1,
      c.flow.addr, c.flow.port, c.pad2⟩ := by
    rw [FlowCall.key, ipKey, FlowCall.flow]
    split_ifs <;> rfl
  rw [hkey c, hkey c']
  cases c.flow
  cases c'.flow
  simp only [StKey.mk.injEq, Flow.mk.injEq]
  tauto

theorem kept_concat (calls : List FlowCall) (c : FlowCall) (key : StKey) :
    kept (calls ++ [c]) key =
      if c.key = key ∧ (c.node = true ∨ kept calls key ≠ []) then kept calls key ++ [c]
      else kept calls key := by
  rw [kept, kept, List.filter_append, List.dropWhile_append]
  by_cases hkey : c.key = key
  · cases hrest : (calls.filter fun c => c.key = key).dropWhile fun c => !c.node with
    | nil => cases hnode : c.node <;> simp [hkey, hnode]
    | cons d rest => simp [hkey]
  · cases hrest : (calls.filter fun c => c.key = key).dropWhile fun c => !c.node with
    | nil => simp [hkey]
    | cons d rest => simp [hkey]

theorem summary_eq_none_iff : summary calls = none ↔ calls = [] := by
  cases calls <;> simp [summary]

theorem summary_singleton (c : FlowCall) : summary [c] = some ⟨1, c.data.len, false⟩ := by
  rw [summary, Tally.tally_cons, Tally.tally_nil, Nat.add_zero, FlowCall.len, UInt32.ofNat_toNat]
  rfl

theorem summary_concat {cell : IpCell} (h : summary calls = some cell) (c : FlowCall) :
    summary (calls ++ [c]) = some ⟨cell.pkt + 1, cell.bytes + c.data.len, cell.freed⟩ := by
  cases calls with
  | nil => cases h
  | cons d calls =>
    cases h
    have hone : Tally.tally len [c] = c.data.len.toNat := Nat.add_zero _
    rw [List.cons_append, summary, ← List.cons_append, List.length_append, Tally.tally_append,
      hone, UInt32.ofNat_add, UInt32.ofNat_add, UInt32.ofNat_toNat]
    rfl

end

/-- After the calls the tree has one node for each padded key that keeps a call, and the node
counts what its key keeps. -/
structure Aggregates (m : IpModule) (calls : List FlowCall) : Prop where
  tree : m.agNull = false
  sorted : Assoc.Sorted ipCompare m.state.agIp.inOrder
  inj : ∀ key key' ptr, m.state.agIp.lookup ipCompare key = some ptr →
    m.state.agIp.lookup ipCompare key' = some ptr → key = key'
  live : ∀ key ptr, m.state.agIp.lookup ipCompare key = some ptr → ptr < m.state.cells.length
  cell : ∀ key, m.cellAt key = summary (kept calls key)

section
variable {m m' : IpModule} {c : FlowCall} {calls : List FlowCall} {key : StKey} {ptr : Nat}

theorem Aggregates.start : Aggregates ipStart [] where
  tree := rfl
  sorted := List.Pairwise.nil
  inj key key' ptr h := by cases h
  live key ptr h := by cases h
  cell key := rfl

/-- A key has a node when it keeps a call. -/
theorem Aggregates.lookup_none_iff (h : Aggregates m calls) :
    m.state.agIp.lookup ipCompare key = none ↔ kept calls key = [] := by
  rw [← summary_eq_none_iff, ← h.cell, IpModule.cellAt]
  cases hl : m.state.agIp.lookup ipCompare key with
  | none => simp
  | some ptr => simpa using h.live key ptr hl

theorem cellAt_charge (h : Aggregates m calls) {cell : IpCell} {len : IpSize}
    (hl : m.state.agIp.lookup ipCompare key = some ptr) (k : StKey) :
    IpModule.cellAt { m with state := chargeCell m.state ptr cell len } k =
      if k = key then some ⟨cell.pkt + 1, cell.bytes + len, cell.freed⟩ else m.cellAt k := by
  simp only [IpModule.cellAt, chargeCell]
  split_ifs with hk
  · subst hk
    rw [hl, Option.bind_some, List.getElem?_set_self (h.live k ptr hl)]
  · cases hk' : m.state.agIp.lookup ipCompare k with
    | none => rfl
    | some p =>
      have hne : ptr ≠ p := by
        intro heq
        subst heq
        exact hk (h.inj k key ptr hk' hl)
      rw [Option.bind_some, Option.bind_some, List.getElem?_set_ne hne]

/-- A call for a key that keeps others. -/
theorem Aggregates.charge (h : Aggregates m calls) {cell : IpCell}
    (hl : m.state.agIp.lookup ipCompare c.key = some ptr)
    (hcell : m.state.cells[ptr]? = some cell) :
    Aggregates { m with state := chargeCell m.state ptr cell c.data.len } (calls ++ [c]) := by
  have hfound : m.cellAt c.key = some cell := by rw [IpModule.cellAt, hl, Option.bind_some, hcell]
  have hkept : kept calls c.key ≠ [] := by
    intro hnil
    rw [← h.lookup_none_iff, hl] at hnil
    cases hnil
  refine ⟨h.tree, h.sorted, h.inj, ?_, ?_⟩
  · intro k p hk
    rw [chargeCell, List.length_set]
    exact h.live k p hk
  · intro k
    rw [cellAt_charge h hl, kept_concat]
    by_cases hk : k = c.key
    · subst hk
      rw [if_pos rfl, if_pos ⟨rfl, .inr hkept⟩]
      exact (summary_concat ((h.cell c.key).symm.trans hfound) c).symm
    · rw [if_neg hk, if_neg (fun hand => hk hand.1.symm), h.cell]

/-- The first call of a key, with its node or without. -/
theorem Aggregates.add (h : Aggregates m calls) {agIp : ITreeNode StKey Nat} {inserted : Bool}
    (hl : m.state.agIp.lookup ipCompare c.key = none)
    (hins : m.state.agIp.insert ipCompare c.node c.key m.state.cells.length =
      some (agIp, inserted)) :
    Aggregates { m with state := addCell m.state agIp c.data.len } (calls ++ [c]) := by
  obtain ⟨hsorted, hlook⟩ := ITreeNode.insert_lookup ipCompare_strictTotal h.sorted hins hl
  have hnil : kept calls c.key = [] := h.lookup_none_iff.mp hl
  have hcell (k : StKey) (hk : ¬ (k = c.key ∧ c.node = true)) :
      IpModule.cellAt { m with state := addCell m.state agIp c.data.len } k = m.cellAt k := by
    simp only [IpModule.cellAt, addCell, hlook, if_neg hk]
    cases hk' : m.state.agIp.lookup ipCompare k with
    | none => rfl
    | some p =>
      rw [Option.bind_some, Option.bind_some, List.getElem?_append_left (h.live k p hk')]
  refine ⟨h.tree, hsorted, ?_, ?_, ?_⟩
  · intro k k' p hk hk'
    change agIp.lookup ipCompare k = some p at hk
    change agIp.lookup ipCompare k' = some p at hk'
    rw [hlook] at hk hk'
    split_ifs at hk hk' with hnew hnew' hnew'
    · rw [hnew.1, hnew'.1]
    · cases hk
      exact absurd (h.live k' _ hk') (Nat.lt_irrefl _)
    · cases hk'
      exact absurd (h.live k _ hk) (Nat.lt_irrefl _)
    · exact h.inj k k' p hk hk'
  · intro k p hk
    change agIp.lookup ipCompare k = some p at hk
    rw [hlook] at hk
    rw [addCell, List.length_append, List.length_singleton]
    split_ifs at hk
    · cases hk
      exact Nat.lt_succ_self _
    · exact Nat.lt_succ_of_lt (h.live k p hk)
  · intro k
    rw [kept_concat]
    by_cases hnew : k = c.key ∧ c.node = true
    · obtain ⟨rfl, hnode⟩ := hnew
      rw [if_pos ⟨rfl, .inl hnode⟩, hnil, List.nil_append, summary_singleton]
      simp only [IpModule.cellAt, addCell, hlook, hnode, and_self, if_true, Option.bind_some]
      exact List.getElem?_concat_length
    · have hout : ¬ (c.key = k ∧ (c.node = true ∨ kept calls k ≠ [])) := by
        intro hin
        obtain ⟨rfl, hnode | hkept⟩ := hin
        · exact hnew ⟨rfl, hnode⟩
        · exact hkept hnil
      rw [hcell k hnew, if_neg hout, h.cell]

theorem Aggregates.step (h : Aggregates m calls) (hs : ipCall m c.call = some m') :
    Aggregates m' (calls ++ [c]) := by
  obtain ⟨⟨m₁, ok⟩, hacct, hm⟩ := Option.map_eq_some_iff.mp hs
  cases hm
  obtain ⟨ptr, cell, hl, hcell, rfl, -⟩ | ⟨hl, ⟨hfail, -, -⟩ | ⟨-, agIp, inserted, hins, rfl, -⟩⟩ :=
    ipAcct_cases h.tree hacct
  · exact h.charge hl hcell
  · cases hfail with
    | inl hkey => cases hkey
    | inr hvalue => cases hvalue
  · exact h.add hl hins

theorem Aggregates.run {rest : List FlowCall} (h : Aggregates m calls)
    (hrun : Run.exec ipCall m (rest.map FlowCall.call) = some m') :
    Aggregates m' (calls ++ rest) := by
  induction rest generalizing m calls with
  | nil =>
    cases hrun
    rwa [List.append_nil]
  | cons c rest ih =>
    obtain ⟨m₁, hs, hrest⟩ := Run.exec_cons_some hrun
    have hnext := ih (h.step hs) hrest
    rwa [List.append_assoc, List.singleton_append] at hnext

end

/-- One node for each flow accounted, which counts its packets, and its bytes modulo 2^32. -/
def OneAggregate (calls : List FlowCall) : Prop :=
  ∃ m, Run.exec ipCall ipStart (calls.map FlowCall.call) = some m ∧
    m.flows.Nodup ∧ (∀ flow, flow ∈ m.flows ↔ ∃ c ∈ calls, c.flow = flow) ∧
    ∀ key ptr, (key, ptr) ∈ m.state.agIp.inOrder → ∃ cell, m.state.cells[ptr]? = some cell ∧
      cell.pkt.toNat = (packets calls key.flow).length ∧
      cell.bytes.toNat = Tally.tally len (packets calls key.flow) % 4294967296

/-- Every flow's calls find the same bytes between the fields, the first of them gets its node,
and they are fewer than 2^32. -/
structure FlowsCounted (calls : List FlowCall) : Prop where
  padding : ∀ c ∈ calls, ∀ c' ∈ calls, c.flow = c'.flow → c.pad1 = c'.pad1 ∧ c.pad2 = c'.pad2
  node : ∀ c ∈ calls, ∀ first ∈ (packets calls c.flow).head?, first.node = true
  fits : ∀ c ∈ calls, (packets calls c.flow).length < 4294967296

section
variable {m m' : IpModule} {c : FlowCall} {calls done rest : List FlowCall} {key : StKey}
  {ptr : Nat}

theorem Aggregates.mem_iff (h : Aggregates m calls) :
    (key, ptr) ∈ m.state.agIp.inOrder ↔ m.state.agIp.lookup ipCompare key = some ptr :=
  ITreeNode.mem_inOrder_iff ipCompare_strictTotal h.sorted

/-- The node of a key, read off the calls it keeps. -/
theorem Aggregates.shows (h : Aggregates m calls)
    (hl : m.state.agIp.lookup ipCompare key = some ptr) :
    kept calls key ≠ [] ∧ ∃ cell, m.state.cells[ptr]? = some cell ∧
      cell.pkt.toNat = (kept calls key).length % 4294967296 ∧
      cell.bytes.toNat = Tally.tally len (kept calls key) % 4294967296 := by
  have hcell := h.cell key
  rw [IpModule.cellAt, hl, Option.bind_some] at hcell
  cases hkept : kept calls key with
  | nil =>
    rw [← h.lookup_none_iff, hl] at hkept
    cases hkept
  | cons c rest =>
    rw [hkept] at hcell
    exact ⟨by simp, _, hcell, rfl, rfl⟩

theorem kept_sublist (calls : List FlowCall) (key : StKey) :
    (kept calls key).Sublist (calls.filter fun c => c.key = key) :=
  List.dropWhile_sublist _

theorem filter_key_sublist (calls : List FlowCall) (key : StKey) :
    (calls.filter fun c => c.key = key).Sublist (packets calls key.flow) := by
  apply List.monotone_filter_right
  intro c hc
  rw [decide_eq_true_iff] at hc ⊢
  rw [← hc, key_flow]

theorem exists_of_kept (h : kept calls key ≠ []) : ∃ c ∈ calls, c.key = key := by
  obtain ⟨c, hc⟩ := List.exists_mem_of_ne_nil _ h
  have hmem := (kept_sublist calls key).subset hc
  rw [List.mem_filter, decide_eq_true_iff] at hmem
  exact ⟨c, hmem.1, hmem.2⟩

/-- Where a flow has one padding, its calls are those of one key. -/
theorem FlowsCounted.filter_key (h : FlowsCounted calls) (hc : c ∈ calls) (hdone : done ⊆ calls) :
    (done.filter fun d => d.key = c.key) = packets done c.flow := by
  apply List.filter_congr
  intro d hd
  rw [decide_eq_decide, key_eq_iff]
  constructor
  · intro hkey
    exact hkey.1
  · intro hflow
    exact ⟨hflow, h.padding d (hdone hd) c hc hflow⟩

/-- No call of a flow is lost. -/
theorem FlowsCounted.kept_eq (h : FlowsCounted calls) (hc : c ∈ calls)
    (hcalls : calls = done ++ rest) : kept done c.key = packets done c.flow := by
  have hdone : done ⊆ calls := by
    rw [hcalls]
    exact List.subset_append_left done rest
  rw [kept, h.filter_key hc hdone]
  cases hpackets : packets done c.flow with
  | nil => rfl
  | cons first others =>
    have hfirst : first.node = true := by
      apply h.node c hc first
      have happend : packets calls c.flow = packets done c.flow ++ packets rest c.flow := by
        rw [hcalls, packets, List.filter_append]
        rfl
      rw [happend, hpackets]
      rfl
    rw [List.dropWhile_cons_of_neg (by simp [hfirst])]

/-- Each call returns and leaves a balanced tree. -/
theorem FlowsCounted.run_returns (h : FlowsCounted calls) (hcalls : calls = done ++ rest)
    (hm : Aggregates m done) (hlocked : m.locked = false) (havl : m.state.agIp.Avl) :
    ∃ m', Run.exec ipCall m (rest.map FlowCall.call) = some m' := by
  induction rest generalizing m done with
  | nil => exact ⟨m, rfl⟩
  | cons c rest ih =>
    have hc : c ∈ calls := by
      rw [hcalls]
      exact List.mem_append_right _ List.mem_cons_self
    have hstep : ∃ m₁, ipCall m c.call = some m₁ ∧ m₁.locked = false ∧ m₁.state.agIp.Avl := by
      have htree := hm.tree
      rw [FlowCall.call, ipCall, ipAcct, htree, hlocked]
      cases hl : m.state.agIp.lookup ipCompare c.key with
      | some ptr =>
        have hcell := List.getElem?_eq_getElem (hm.live c.key ptr hl)
        rw [FlowCall.key] at hl
        simp only [hl, hcell]
        exact ⟨_, rfl, rfl, havl⟩
      | none =>
        have hnone := hm.lookup_none_iff.mp hl
        rw [h.kept_eq hc hcalls] at hnone
        have hnode : c.node = true := by
          apply h.node c hc c
          rw [hcalls, packets, List.filter_append]
          rw [packets] at hnone
          rw [hnone, List.nil_append, List.filter_cons_of_pos (by simp)]
          rfl
        obtain ⟨agIp, inserted, hins, havl', -⟩ :=
          ITreeNode.insert_avl ipCompare c.key m.state.cells.length havl
        rw [FlowCall.key] at hl hins
        simp only [hl, hnode, hins]
        exact ⟨_, rfl, rfl, havl'⟩
    obtain ⟨m₁, hs, hlocked₁, havl₁⟩ := hstep
    have hcalls' : calls = (done ++ [c]) ++ rest := by
      rw [hcalls, List.append_assoc, List.singleton_append]
    obtain ⟨m', hrun⟩ := ih hcalls' (hm.step hs) hlocked₁ havl₁
    rw [List.map_cons, Run.exec_cons _ _ hs]
    exact ⟨m', hrun⟩

end

/-- The first direction: no padding, lost node or wrapped counter spoils an aggregate. -/
theorem FlowsCounted.oneAggregate {calls : List FlowCall} (h : FlowsCounted calls) :
    OneAggregate calls := by
  obtain ⟨m, hrun⟩ := h.run_returns rfl Aggregates.start rfl trivial
  have hm : Aggregates m calls := Aggregates.start.run hrun
  have hcall {key : StKey} {ptr : Nat} (hmem : (key, ptr) ∈ m.state.agIp.inOrder) :
      ∃ c ∈ calls, c.key = key := exists_of_kept (hm.shows (hm.mem_iff.mp hmem)).1
  refine ⟨m, hrun, ?_, ?_, ?_⟩
  · apply List.Nodup.map_on
    · intro node hnode node' hnode' hflow
      obtain ⟨c, hc, hkey⟩ := hcall hnode
      obtain ⟨c', hc', hkey'⟩ := hcall hnode'
      rw [← hkey, ← hkey', key_flow, key_flow] at hflow
      have hsame : node.1 = node'.1 := by
        rw [← hkey, ← hkey', key_eq_iff]
        exact ⟨hflow, h.padding c hc c' hc' hflow⟩
      have hl := hm.mem_iff.mp hnode
      rw [hsame, hm.mem_iff.mp hnode'] at hl
      exact Prod.ext hsame (Option.some.inj hl).symm
    · apply List.Pairwise.imp _ hm.sorted
      intro node node' hlt heq
      rw [heq, ipCompare_strictTotal.refl] at hlt
      exact absurd hlt (Int.lt_irrefl 0)
  · intro flow
    rw [IpModule.flows, List.mem_map]
    constructor
    · intro hnode
      obtain ⟨node, hnode, rfl⟩ := hnode
      obtain ⟨c, hc, hkey⟩ := hcall hnode
      exact ⟨c, hc, by rw [← hkey, key_flow]⟩
    · intro hc
      obtain ⟨c, hc, rfl⟩ := hc
      have hkept : kept calls c.key ≠ [] := by
        rw [h.kept_eq hc (List.append_nil calls).symm]
        exact List.ne_nil_of_mem (List.mem_filter.mpr ⟨hc, decide_eq_true rfl⟩)
      obtain ⟨ptr, hl⟩ := Option.ne_none_iff_exists'.mp (mt hm.lookup_none_iff.mp hkept)
      exact ⟨(c.key, ptr), hm.mem_iff.mpr hl, key_flow c⟩
  · intro key ptr hmem
    obtain ⟨c, hc, rfl⟩ := hcall hmem
    obtain ⟨-, cell, hcell, hpkt, hbytes⟩ := hm.shows (hm.mem_iff.mp hmem)
    rw [h.kept_eq hc (List.append_nil calls).symm] at hpkt hbytes
    rw [Nat.mod_eq_of_lt (h.fits c hc)] at hpkt
    rw [key_flow]
    exact ⟨cell, hcell, hpkt, hbytes⟩

/-- The other one: a node that counts a flow's packets keeps every call of the flow. -/
theorem OneAggregate.counted {calls : List FlowCall} (h : OneAggregate calls) :
    FlowsCounted calls := by
  obtain ⟨m, hrun, -, hflows, hcells⟩ := h
  have hm : Aggregates m calls := Aggregates.start.run hrun
  have hall (c : FlowCall) (hc : c ∈ calls) : ∃ key, kept calls key = packets calls c.flow ∧
      (packets calls c.flow).length < 4294967296 ∧
      (calls.filter fun d => d.key = key) = packets calls c.flow := by
    obtain ⟨⟨key, ptr⟩, hnode, hkey⟩ := List.mem_map.mp ((hflows c.flow).mpr ⟨c, hc, rfl⟩)
    obtain ⟨-, cell, hcell, hpkt, -⟩ := hm.shows (hm.mem_iff.mp hnode)
    obtain ⟨cell', hcell', hpkt', -⟩ := hcells key ptr hnode
    cases hcell.symm.trans hcell'
    change key.flow = c.flow at hkey
    have hkept := kept_sublist calls key
    have hfilter := filter_key_sublist calls key
    rw [hkey] at hpkt' hfilter
    have hle := hkept.length_le
    have hle' := hfilter.length_le
    have hmod := Nat.mod_le (kept calls key).length 4294967296
    have hlt := Nat.mod_lt (kept calls key).length (show 0 < 4294967296 by decide)
    have hsame := hfilter.eq_of_length (by omega)
    have hsame' := hkept.eq_of_length (by omega)
    exact ⟨key, hsame'.trans hsame, by omega, hsame⟩
  refine ⟨?_, ?_, ?_⟩
  · intro c hc c' hc' hflow
    obtain ⟨key, -, -, hkeys⟩ := hall c hc
    have hkey {d : FlowCall} (hd : d ∈ calls) (hdflow : d.flow = c.flow) : d.key = key := by
      have hmem : d ∈ packets calls c.flow := List.mem_filter.mpr ⟨hd, decide_eq_true hdflow⟩
      rw [← hkeys, List.mem_filter, decide_eq_true_iff] at hmem
      exact hmem.2
    have hsame := (hkey hc rfl).trans (hkey hc' hflow.symm).symm
    exact (key_eq_iff.mp hsame).2
  · intro c hc first hfirst
    obtain ⟨key, hkept, -, hkeys⟩ := hall c hc
    rw [kept, hkeys] at hkept
    cases hpackets : packets calls c.flow with
    | nil => simp [hpackets] at hfirst
    | cons d others =>
      rw [hpackets] at hfirst hkept
      cases hfirst
      by_contra hnode
      have hlen := congrArg List.length hkept
      rw [List.dropWhile_cons_of_pos (by simpa using hnode)] at hlen
      have hle := (List.dropWhile_sublist (fun c : FlowCall => !c.node) (l := others)).length_le
      rw [List.length_cons] at hlen
      omega
  · intro c hc
    obtain ⟨-, -, hfits, -⟩ := hall c hc
    exact hfits

/-- There is one aggregate for each flow exactly when each flow's calls are padded alike, keep
their node, and fit its counter. -/
theorem one_aggregate_iff (calls : List FlowCall) : OneAggregate calls ↔ FlowsCounted calls :=
  ⟨OneAggregate.counted, FlowsCounted.oneAggregate⟩

/-- Two packets of one flow, with other bytes of the stack behind the first fields. -/
def paddedTwice : List FlowCall :=
  [⟨⟨[], 6, 16777226, 33554442, 443, 50000⟩, ⟨.traffic, 1, 7, 1, 0, 0, 0, 1500⟩, 0, 0, true⟩,
    ⟨⟨[], 6, 16777226, 33554442, 443, 50000⟩, ⟨.traffic, 1, 7, 1, 0, 0, 0, 1500⟩, 1, 0, true⟩]

/-- They get a node each. -/
theorem one_aggregate_padded : (∃ m, Run.exec ipCall ipStart (paddedTwice.map FlowCall.call) =
      some m ∧ m.flows = [⟨7, 6, 1, 16777226, 443⟩, ⟨7, 6, 1, 16777226, 443⟩]) ∧
    ¬ OneAggregate paddedTwice := by
  refine ⟨⟨_, rfl, by decide⟩, ?_⟩
  intro hone
  obtain ⟨m, hrun, hnodup, -, -⟩ := hone
  cases hrun
  revert hnodup
  decide

end IPStat
