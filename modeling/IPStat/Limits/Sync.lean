import IPStat.Lib.Keyed
import IPStat.Limits.Group

namespace IPStat

/-- The columns of a Rules_GroupTraffic row that insert_limit and update_limit read, with the
digest of the row. -/
structure LimitRecord where
  idUser : IpId
  idGroup : IpId
  type : IpId
  limitation : IpBigsize
  traffic : IpBigsize
  onblocked : IpFlag
  md5 : Md5
  deriving DecidableEq, Repr

/-- What the store answers to an insert or update: `none` when the query fails, `some none`
when it has no row. -/
structure LimitQuery where
  opened : Bool
  row : Option (Option LimitRecord)

/-- One row of the listing in sync_limits, with the query that may follow. -/
structure LimitListing where
  id : IpId
  md5 : Md5
  query : LimitQuery

/-- The answers of one sync_traffic: the connection and each update. -/
structure LimitTrafficEnv where
  opened : Bool
  exec : Nat → Bool

structure LimitsEnv where
  opened : Bool
  rows : Option (List LimitListing)
  traffic : LimitTrafficEnv

def findLimit (limits : List NodeGroupLimit) (id : IpId) : Option NodeGroupLimit :=
  limits.find? (·.id = id)

/-- Write through the pointer that find_limit returns. -/
def modifyLimit (id : IpId) (f : NodeGroupLimit → NodeGroupLimit) (limits : List NodeGroupLimit) :
    List NodeGroupLimit :=
  limits.replaceF fun node => if node.id = id then some (f node) else none

/-- What traverse_mark does to every node. -/
def markDelete (limits : List NodeGroupLimit) : List NodeGroupLimit :=
  limits.map fun node => { node with status := 1 }

/-- atoll of the text of a `bigint unsigned`: it stops at LLONG_MAX. -/
def atoll (n : IpBigsize) : IpBigsize := if n < 0x8000000000000000 then n else 0x7fffffffffffffff

/-- The node that insert_limit appends. -/
def LimitRecord.node (row : LimitRecord) (id : IpId) : NodeGroupLimit where
  id := id
  idUser := row.idUser
  idGroup := row.idGroup
  type := row.type
  limitation := row.limitation
  traffic := atoll row.traffic
  alpha := 0
  onblocked := row.onblocked
  status := 0
  md5 := row.md5

/-- The columns that update_limit copies; the traffic is not among them. -/
def LimitRecord.copy (row : LimitRecord) (node : NodeGroupLimit) : NodeGroupLimit :=
  { node with
    idUser := row.idUser
    idGroup := row.idGroup
    type := row.type
    limitation := row.limitation
    onblocked := row.onblocked
    md5 := row.md5 }

/-- insert_limit; the outer `none` is the read through a NULL row. -/
def insertLimit (query : LimitQuery) (id : IpId) (limits : List NodeGroupLimit) :
    Option (List NodeGroupLimit × Bool) :=
  if query.opened then
    match query.row with
    | none => some (limits, false)
    | some none => none
    | some (some row) => some (limits ++ [row.node id], true)
  else some (limits, false)

def updateLimit (query : LimitQuery) (id : IpId) (limits : List NodeGroupLimit) :
    Option (List NodeGroupLimit × Bool) :=
  match findLimit limits id with
  | none => some (limits, false)
  | some _ =>
    if query.opened then
      match query.row with
      | none => some (limits, false)
      | some none => none
      | some (some row) => some (modifyLimit id row.copy limits, true)
    else some (limits, false)

def deleteLimit (id : IpId) (limits : List NodeGroupLimit) : List NodeGroupLimit × Bool :=
  (limits.eraseP (·.id = id), (findLimit limits id).isSome)

/-- The body of the listing loop. -/
def syncLimitRow (limits : List NodeGroupLimit) (row : LimitListing) :
    Option (List NodeGroupLimit) :=
  match findLimit limits row.id with
  | some node =>
    let limits := modifyLimit row.id (fun node => { node with status := 0 }) limits
    if node.md5 ≠ row.md5 then (updateLimit row.query row.id limits).map Prod.fst
    else some limits
  | none => (insertLimit row.query row.id limits).map Prod.fst

/-- The walk of limits_delete over the nodes it started with. -/
def sweepLimits : List NodeGroupLimit → List NodeGroupLimit → List NodeGroupLimit
  | [], limits => limits
  | node :: ns, limits =>
    sweepLimits ns (if node.status = 1 then (deleteLimit node.id limits).1 else limits)

def limitsDelete (limits : List NodeGroupLimit) : List NodeGroupLimit := sweepLimits limits limits

/-- The loop of sync_traffic with nothing running beside it, and the updates executed. -/
def sendLimits (exec : Nat → Bool) :
    Nat → List NodeGroupLimit → List NodeGroupLimit × List TrafficUpdate
  | _, [] => ([], [])
  | i, node :: ns =>
    let ptr := { node with alpha := 0 }
    let rest := sendLimits exec (i + 1) ns
    if exec i then (ptr :: rest.1, trafficUpdate node :: rest.2)
    else ({ ptr with alpha := ptr.alpha + node.alpha } :: rest.1, rest.2)

def syncTraffic (env : LimitTrafficEnv) (limits : List NodeGroupLimit) :
    List NodeGroupLimit × List TrafficUpdate :=
  if env.opened then sendLimits env.exec 0 limits else (limits, [])

/-- Mark, list and sweep. -/
def reconcileLimits (rows : List LimitListing) (limits : List NodeGroupLimit) :
    Option (List NodeGroupLimit) :=
  (Run.exec syncLimitRow (markDelete limits) rows).map limitsDelete

/-- sync_limits with nothing running beside it: the list, the updates and the answer. -/
def syncLimits (env : LimitsEnv) (limits : List NodeGroupLimit) :
    Option (List NodeGroupLimit × List TrafficUpdate × Bool) :=
  if env.opened then
    match env.rows with
    | none => some (limits, [], false)
    | some rows =>
      match reconcileLimits rows limits with
      | none => none
      | some limits =>
        let (limits, sent) := syncTraffic env.traffic limits
        some (limits, sent, true)
  else some (limits, [], true)

/-- A row of Rules_GroupTraffic under its id. -/
structure GroupLimitRow where
  id : IpId
  record : LimitRecord
  deriving DecidableEq, Repr

/-- What the store says of the row with an id. -/
def readLimit (table : List GroupLimitRow) (id : IpId) : Option LimitRecord :=
  (table.find? (·.id = id)).map GroupLimitRow.record

def listLimit (table : List GroupLimitRow) (row : GroupLimitRow) : LimitListing :=
  ⟨row.id, row.record.md5, ⟨true, some (readLimit table row.id)⟩⟩

/-- A store that answers every call from one table, which does not change. -/
def limitsStore (table : List GroupLimitRow) : LimitsEnv where
  opened := true
  rows := some (table.map (listLimit table))
  traffic := ⟨true, fun _ => true⟩

section
variable {limits limits' : List NodeGroupLimit} {id : IpId} {node : NodeGroupLimit}
  {row : LimitListing}

theorem findLimit_none (h : findLimit limits id = none) : ∀ node ∈ limits, node.id ≠ id := by
  intro node hm
  have hp := List.find?_eq_none.mp h node hm
  exact fun heq => hp (decide_eq_true heq)

theorem findLimit_some (h : findLimit limits id = some node) : node ∈ limits ∧ node.id = id := by
  constructor
  · exact List.mem_of_find?_eq_some h
  · have hp := List.find?_some h
    exact of_decide_eq_true hp

theorem modifyLimit_put {f : NodeGroupLimit → NodeGroupLimit}
    (h : findLimit limits id = some node) :
    modifyLimit id f limits = Keyed.put NodeGroupLimit.id id (f node) limits := by
  induction limits with
  | nil => cases h
  | cons n limits ih =>
    unfold modifyLimit Keyed.put at ih ⊢
    by_cases hn : n.id = id
    · rw [findLimit, List.find?_cons_of_pos (by simpa using hn)] at h
      cases h
      simp only [List.replaceF, hn, if_true]
    · rw [findLimit, List.find?_cons_of_neg (by simpa using hn)] at h
      simp only [List.replaceF, hn, if_false, ih h]

theorem modifyLimit_modifyLimit {f g : NodeGroupLimit → NodeGroupLimit}
    (hf : ∀ node, (f node).id = node.id) :
    modifyLimit id g (modifyLimit id f limits) = modifyLimit id (fun node => g (f node)) limits := by
  induction limits with
  | nil => rfl
  | cons n limits ih =>
    unfold modifyLimit at ih ⊢
    by_cases hn : n.id = id
    · simp only [List.replaceF, hn, hf, if_true]
    · simp only [List.replaceF, hn, if_false, ih]

theorem findLimit_modifyLimit {f : NodeGroupLimit → NodeGroupLimit}
    (hf : ∀ node, (f node).id = node.id) :
    findLimit (modifyLimit id f limits) id = (findLimit limits id).map f := by
  induction limits with
  | nil => rfl
  | cons n limits ih =>
    unfold findLimit modifyLimit at ih ⊢
    by_cases hn : n.id = id
    · simp [List.replaceF, hn, hf]
    · simp [List.replaceF, hn, ih]

/-- What a listed row leaves of the node found for it. -/
structure Unmarked (node node' : NodeGroupLimit) : Prop where
  id : node'.id = node.id
  status : node'.status = 0
  traffic : node'.traffic = node.traffic
  alpha : node'.alpha = node.alpha

/-- The body of the listing loop unmarks the node found, or appends the row read. -/
theorem syncLimitRow_cases (h : syncLimitRow limits row = some limits') :
    (∃ node node', findLimit limits row.id = some node ∧ Unmarked node node' ∧
        limits' = Keyed.put NodeGroupLimit.id row.id node' limits) ∨
      findLimit limits row.id = none ∧
        (limits' = limits ∧ (row.query.opened = false ∨ row.query.row = none) ∨
          ∃ rec, row.query.row = some (some rec) ∧ limits' = limits ++ [rec.node row.id]) := by
  rw [syncLimitRow] at h
  cases hf : findLimit limits row.id with
  | some node =>
    simp only [hf] at h
    have hstatus : ∀ node : NodeGroupLimit, { node with status := 0 : NodeGroupLimit }.id = node.id := by
      intro node
      rfl
    have hunmarked : limits' = modifyLimit row.id (fun node => { node with status := 0 }) limits ∨
        ∃ rec : LimitRecord, limits' =
          modifyLimit row.id (fun node => rec.copy { node with status := 0 }) limits := by
      split_ifs at h with hmd5
      · rw [updateLimit, findLimit_modifyLimit hstatus, hf] at h
        simp only [Option.map_some] at h
        split_ifs at h with ho
        · rcases hr : row.query.row with _ | _ | rec
          · simp only [hr, Option.map_some] at h
            cases h
            exact .inl rfl
          · simp [hr] at h
          · simp only [hr, Option.map_some] at h
            cases h
            exact .inr ⟨rec, modifyLimit_modifyLimit hstatus⟩
        · cases h
          exact .inl rfl
      · cases h
        exact .inl rfl
    obtain rfl | ⟨rec, rfl⟩ := hunmarked
    · exact .inl ⟨node, { node with status := 0 }, rfl, ⟨rfl, rfl, rfl, rfl⟩, modifyLimit_put hf⟩
    · exact .inl ⟨node, rec.copy { node with status := 0 }, rfl, ⟨rfl, rfl, rfl, rfl⟩,
        modifyLimit_put hf⟩
  | none =>
    refine .inr ⟨rfl, ?_⟩
    simp only [hf, insertLimit] at h
    cases ho : row.query.opened with
    | false =>
      simp only [ho, Bool.false_eq_true, if_false, Option.map_some] at h
      cases h
      exact .inl ⟨rfl, .inl rfl⟩
    | true =>
      rcases hr : row.query.row with _ | _ | rec
      · simp only [ho, hr, if_true, Option.map_some] at h
        cases h
        exact .inl ⟨rfl, .inr rfl⟩
      · simp [ho, hr] at h
      · simp only [ho, hr, if_true, Option.map_some] at h
        cases h
        exact .inr ⟨rec, rfl, rfl⟩

/-- A listed row keeps the traffic and the alpha of every node that is there. -/
def KeepsCounters (limits limits' : List NodeGroupLimit) : Prop :=
  ∀ old ∈ limits, ∃ node ∈ limits', node.id = old.id ∧ node.traffic = old.traffic ∧
    node.alpha = old.alpha

theorem syncLimitRow_keeps (h : syncLimitRow limits row = some limits') :
    KeepsCounters limits limits' := by
  intro old hm
  obtain ⟨node, node', hf, hun, rfl⟩ | ⟨-, ⟨rfl, -⟩ | ⟨rec, -, rfl⟩⟩ := syncLimitRow_cases h
  · obtain hkept | ⟨rfl, hwritten⟩ := Keyed.mem_put_or (b := node') hm hf
    · exact ⟨old, hkept, rfl, rfl, rfl⟩
    · exact ⟨node', hwritten, hun.id, hun.traffic, hun.alpha⟩
  · exact ⟨old, hm, rfl, rfl, rfl⟩
  · exact ⟨old, List.mem_append_left _ hm, rfl, rfl, rfl⟩

theorem exec_keeps {rows : List LimitListing} (h : Run.exec syncLimitRow limits rows = some limits') :
    KeepsCounters limits limits' := by
  have hstep : ∀ l (row : LimitListing) l', KeepsCounters limits l → True →
      syncLimitRow l row = some l' → KeepsCounters limits l' := by
    intro l row l' hl _ hs old hm
    obtain ⟨node, hnode, hid, htraffic, halpha⟩ := hl old hm
    obtain ⟨node', hnode', hid', htraffic', halpha'⟩ := syncLimitRow_keeps hs node hnode
    exact ⟨node', hnode', hid'.trans hid, htraffic'.trans htraffic, halpha'.trans halpha⟩
  have hstart : KeepsCounters limits limits := by
    intro old hm
    exact ⟨old, hm, rfl, rfl, rfl⟩
  apply Run.exec_invariant hstep hstart _ h
  apply Run.guarded_of_forall
  intro _ _ _
  trivial

/-- A node of a listed row: unmarked, with the counters of the node it was found as or those
of a new one. -/
def ListedNode (limits : List NodeGroupLimit) (id : IpId) (rec : LimitRecord)
    (node : NodeGroupLimit) : Prop :=
  node.status = 0 ∧
    ((∃ old ∈ limits, old.id = id) ∨ node.alpha = 0 ∧ node.traffic = atoll rec.traffic)

/-- A row that is read back unmarks the node of its id, or adds one. -/
theorem syncLimitRow_puts {rec : LimitRecord} (hopened : row.query.opened = true)
    (hrow : row.query.row = some (some rec)) (hnodup : (limits.map NodeGroupLimit.id).Nodup)
    (h : syncLimitRow limits row = some limits') :
    Keyed.Puts NodeGroupLimit.id row.id (ListedNode limits row.id rec) True limits limits' := by
  obtain ⟨node, node', hf, hun, rfl⟩ | ⟨hf, hread⟩ := syncLimitRow_cases h
  · obtain ⟨hm, hid⟩ := findLimit_some hf
    apply Keyed.Puts.put hnodup ⟨node, hm, hid⟩ (hun.id.trans hid)
    exact ⟨hun.status, .inl ⟨node, hm, hid⟩⟩
  · obtain ⟨-, hclosed | hfailed⟩ | ⟨rec', hrec, rfl⟩ := hread
    · rw [hopened] at hclosed
      cases hclosed
    · rw [hrow] at hfailed
      cases hfailed
    · rw [hrow] at hrec
      cases hrec
      apply Keyed.Puts.append hnodup (findLimit_none hf) rfl
      exact ⟨rfl, .inr ⟨rfl, rfl⟩⟩

theorem sweepLimits_sweep (ns limits : List NodeGroupLimit) (i : Nat) :
    sweepLimits ns limits =
      Aged.sweep NodeGroupLimit.id (fun _ node => decide (node.status = 1)) i ns limits := by
  induction ns generalizing i limits with
  | nil => rfl
  | cons node ns ih =>
    rw [sweepLimits, ih _ (i + 1), Aged.sweep]
    simp only [decide_eq_true_eq]
    rfl

/-- What the list holds after a pass over a table: the nodes of its rows and no other, once
each; those that were there keep their counters, new ones start from what is read of their row's
Traffic. -/
structure Reconciled (read : IpBigsize → IpBigsize) (table : List GroupLimitRow)
    (limits swept : List NodeGroupLimit) : Prop where
  nodup : (swept.map NodeGroupLimit.id).Nodup
  listed : ∀ id, (∃ node ∈ swept, node.id = id) ↔ ∃ row ∈ table, row.id = id
  kept : ∀ old ∈ limits, ∀ node ∈ swept, node.id = old.id →
    node.traffic = old.traffic ∧ node.alpha = old.alpha
  fresh : ∀ node ∈ swept, (∀ old ∈ limits, old.id ≠ node.id) →
    ∃ row ∈ table, row.id = node.id ∧ node.alpha = 0 ∧ node.traffic = read row.record.traffic

/-- The condition: the Traffic of each row that is new in memory fits a `long long`. -/
def NewTrafficFits (table : List GroupLimitRow) (limits : List NodeGroupLimit) : Prop :=
  ∀ row ∈ table, (∀ old ∈ limits, old.id ≠ row.id) → row.record.traffic < 0x8000000000000000

end

section
variable {table : List GroupLimitRow} {limits limits' : List NodeGroupLimit}

/-- With distinct ids, a row that is re-read is the row that was listed. -/
theorem readLimit_mem (hids : (table.map GroupLimitRow.id).Nodup) {row : GroupLimitRow}
    (hm : row ∈ table) : readLimit table row.id = some row.record := by
  have hself : ∃ found, table.find? (·.id = row.id) = some found := by
    rw [← Option.isSome_iff_exists, List.find?_isSome]
    exact ⟨row, hm, decide_eq_true rfl⟩
  obtain ⟨found, hfound⟩ := hself
  have hp := List.find?_some hfound
  have hid : found.id = row.id := of_decide_eq_true hp
  have heq : found = row :=
    List.inj_on_of_nodup_map hids (List.mem_of_find?_eq_some hfound) hm hid
  rw [readLimit, hfound, heq, Option.map_some]

theorem insertLimit_returns {query : LimitQuery} {rec : LimitRecord}
    (hrow : query.row = some (some rec)) (id : IpId) :
    ∃ p, insertLimit query id limits = some p := by
  rw [insertLimit, hrow]
  split_ifs
  · exact ⟨_, rfl⟩
  · exact ⟨_, rfl⟩

theorem updateLimit_returns {query : LimitQuery} {rec : LimitRecord}
    (hrow : query.row = some (some rec)) (id : IpId) :
    ∃ p, updateLimit query id limits = some p := by
  rw [updateLimit, hrow]
  split
  · exact ⟨_, rfl⟩
  · split_ifs
    · exact ⟨_, rfl⟩
    · exact ⟨_, rfl⟩

theorem syncLimitRow_returns {row : LimitListing} {rec : LimitRecord}
    (hrow : row.query.row = some (some rec)) : ∃ l, syncLimitRow limits row = some l := by
  rw [syncLimitRow]
  split
  · dsimp only
    split_ifs
    · obtain ⟨p, hp⟩ := updateLimit_returns hrow row.id
      exact ⟨p.1, congrArg (Option.map Prod.fst) hp⟩
    · exact ⟨_, rfl⟩
  · obtain ⟨p, hp⟩ := insertLimit_returns hrow row.id
    exact ⟨p.1, congrArg (Option.map Prod.fst) hp⟩

/-- Marking, listing and sweeping against one table. -/
theorem reconcileLimits_reconciles (hnodup : (limits.map NodeGroupLimit.id).Nodup)
    (hids : (table.map GroupLimitRow.id).Nodup) :
    ∃ swept, reconcileLimits (table.map (listLimit table)) limits = some swept ∧
      Reconciled atoll table limits swept := by
  have hread : ∀ row ∈ table, (listLimit table row).query.row = some (some row.record) := by
    intro row hm
    show some (readLimit table row.id) = _
    rw [readLimit_mem hids hm]
  have hmark : (markDelete limits).map NodeGroupLimit.id = limits.map NodeGroupLimit.id := by
    rw [markDelete, List.map_map]
    rfl
  obtain ⟨l, hl⟩ : ∃ l, Run.exec (fun l row => syncLimitRow l (listLimit table row))
      (markDelete limits) table = some l := by
    apply Run.exec_returns
    intro row hm l
    exact syncLimitRow_returns (hread row hm)
  have hexec : Run.exec syncLimitRow (markDelete limits) (table.map (listLimit table)) = some l := by
    rw [Run.exec_map, hl]
  -- the nodes that a row finds are those the pass started with
  have hstep : ∀ row ∈ table, ∀ l l' : List NodeGroupLimit, (l.map NodeGroupLimit.id).Nodup →
      (∀ node ∈ l, node.id = row.id → node ∈ markDelete limits) →
      syncLimitRow l (listLimit table row) = some l' →
      Keyed.Puts NodeGroupLimit.id row.id (ListedNode (markDelete limits) row.id row.record) True
        l l' := by
    intro row hm l l' hnd hbefore hs
    have hputs := syncLimitRow_puts rfl (hread row hm) hnd hs
    apply hputs.imp
    rintro node ⟨hstatus, ⟨old, hold, hid⟩ | hnew⟩
    · exact ⟨hstatus, .inl ⟨old, hbefore old hold hid, hid⟩⟩
    · exact ⟨hstatus, .inr hnew⟩
  obtain ⟨hnodup', -, hothers, hright, hshown⟩ :=
    Keyed.exec_puts id GroupLimitRow.id hstep (hmark ▸ hnodup) hids (fun _ _ _ hm _ => hm) hl
  have hkeeps := exec_keeps hexec
  refine ⟨limitsDelete l, by rw [reconcileLimits, hexec, Option.map_some], ?_⟩
  have hsweep := sweepLimits_sweep l l 0
  have hsub : (limitsDelete l).Sublist l := by
    rw [limitsDelete, hsweep]
    exact Aged.sweep_sublist _ 0 l l
  have hlisted : ∀ id, (∃ node ∈ limitsDelete l, node.id = id) ↔ ∃ row ∈ table, row.id = id := by
    intro id
    rw [limitsDelete, hsweep, Aged.exists_mem_sweep_iff]
    constructor
    · -- a node that no row listed is still marked
      rintro ⟨i, node, hi, rfl, hstale⟩
      by_contra hno
      have hunlisted : ∀ row ∈ table, node.id ≠ row.id := by
        intro row hm heq
        exact hno ⟨row, hm, heq.symm⟩
      have hmem : node ∈ markDelete limits :=
        (hothers node hunlisted).mp (List.mem_of_getElem? hi)
      obtain ⟨old, -, rfl⟩ := List.mem_map.mp hmem
      cases hstale
    · rintro ⟨row, hm, rfl⟩
      obtain ⟨node, hnode, hid⟩ := hshown row hm trivial
      have hstatus := (hright row hm node hnode hid).1
      obtain ⟨i, hi⟩ := List.mem_iff_getElem?.mp hnode
      refine ⟨i, node, hi, hid, ?_⟩
      rw [hstatus]
      rfl
  refine ⟨hnodup'.sublist (hsub.map _), hlisted, ?_, ?_⟩
  · intro old hold node hnode hid
    obtain ⟨node', hnode', hid', htraffic, halpha⟩ :=
      hkeeps { old with status := 1 } (List.mem_map.mpr ⟨old, hold, rfl⟩)
    have heq : node' = node :=
      List.inj_on_of_nodup_map hnodup' hnode' (hsub.subset hnode) (hid'.trans hid.symm)
    rw [← heq]
    exact ⟨htraffic, halpha⟩
  · intro node hnode hnew
    obtain ⟨row, hm, hid⟩ := (hlisted node.id).mp ⟨node, hnode, rfl⟩
    obtain ⟨-, ⟨old, hold, hoid⟩ | ⟨halpha, htraffic⟩⟩ :=
      hright row hm node (hsub.subset hnode) hid.symm
    · obtain ⟨old', hold', rfl⟩ := List.mem_map.mp hold
      exact absurd (hoid.trans hid) (hnew old' hold')
    · exact ⟨row, hm, hid, halpha, htraffic⟩

/-- What sync_traffic leaves of a node. -/
def sentNode (ok : Bool) (node : NodeGroupLimit) : NodeGroupLimit :=
  if ok then { node with alpha := 0 } else { node with alpha := 0 + node.alpha }

/-- The sections of one sync_traffic on a list of `n` more nodes, with nothing between them. -/
def passOps (exec : Nat → Bool) (k : Nat) : Nat → Nat → List LimitOp
  | _, 0 => [.leave k]
  | i, n + 1 =>
    .take k :: .exec k (exec i) ::
      (if exec i then passOps exec k (i + 1) n else .giveBack k :: passOps exec k (i + 1) n)

section
variable {exec : Nat → Bool} {s : LimitState} {passes : List TrafficPc}
  {done rest : List NodeGroupLimit} {node : NodeGroupLimit}

/-- The sections of one node. -/
theorem exec_passNode (hloaded : s.loaded = true) (hlimits : s.limits = done ++ node :: rest)
    (hpasses : s.passes = passes ++ [.walking done.length]) (ok : Bool) (ops : List LimitOp) :
    Run.exec limitStep s (.take passes.length :: .exec passes.length ok ::
        (if ok then ops else .giveBack passes.length :: ops)) =
      Run.exec limitStep { s with
        limits := (done ++ [sentNode ok node]) ++ rest
        rows := if ok then (trafficUpdate node).exec s.rows else s.rows
        passes := passes ++ [.walking (done ++ [sentNode ok node]).length] } ops := by
  let ptr : NodeGroupLimit := { node with alpha := 0 }
  let taken : LimitState := { s with
    limits := done ++ ptr :: rest
    passes := passes ++ [.copied done.length node] }
  have hmodify (f : NodeGroupLimit → NodeGroupLimit) (n : NodeGroupLimit) :
      (done ++ n :: rest).modify done.length f = done ++ f n :: rest := by
    simp [List.modify_eq_take_cons_drop]
  have hset (pc pc' : TrafficPc) : (passes ++ [pc]).set passes.length pc' = passes ++ [pc'] := by
    simp
  have hget (pc : TrafficPc) : (passes ++ [pc])[passes.length]? = some pc := by simp
  have hnode : (done ++ node :: rest)[done.length]? = some node := by simp
  have htake : limitStep s (.take passes.length) = some taken := by
    simp only [limitStep, limitTake, hpasses, hget, hloaded, hlimits, hset, hnode, hmodify, taken]
    rfl
  rw [Run.exec_cons _ _ htake, List.append_assoc, List.length_append, List.length_singleton]
  cases ok with
  | true =>
    have hexec : limitStep taken (.exec passes.length true) = some { s with
        limits := done ++ ptr :: rest
        rows := (trafficUpdate node).exec s.rows
        passes := passes ++ [.walking (done.length + 1)] } := by
      simp only [limitStep, limitExec, taken, hget, hset, if_true]
    rw [Run.exec_cons _ _ hexec]
    rfl
  | false =>
    let failed : LimitState := { taken with passes := passes ++ [.failed done.length node] }
    have hexec : limitStep taken (.exec passes.length false) = some failed := by
      simp only [limitStep, limitExec, taken, hget, hset, Bool.false_eq_true, if_false]
      rfl
    have hgive : limitStep failed (.giveBack passes.length) = some { s with
        limits := done ++ { ptr with alpha := ptr.alpha + node.alpha } :: rest
        passes := passes ++ [.walking (done.length + 1)] } := by
      simp only [limitStep, limitGiveBack, failed, taken, hget, hset, hloaded, hmodify]
    simp only [Bool.false_eq_true, if_false]
    rw [Run.exec_cons _ _ hexec, Run.exec_cons _ _ hgive]
    rfl

/-- The sections of a pass, run one after the other, do what its loop does. -/
theorem exec_passOps (hloaded : s.loaded = true) (hlimits : s.limits = done ++ rest)
    (hpasses : s.passes = passes ++ [.walking done.length]) :
    Run.exec limitStep s (passOps exec passes.length done.length rest.length) =
      some { s with
        limits := done ++ (sendLimits exec done.length rest).1
        rows := (sendLimits exec done.length rest).2.foldl TrafficUpdate.exec s.rows
        passes := passes } := by
  induction rest generalizing s done with
  | nil =>
    have hleave : limitStep s (.leave passes.length) = some { s with passes := passes } := by
      simp [limitStep, limitLeave, hpasses, hlimits, List.eraseIdx_append_of_length_le]
    rw [List.length_nil, passOps, Run.exec_cons _ _ hleave, Run.exec_nil, sendLimits]
    rw [← hlimits]
    rfl
  | cons node rest ih =>
    have hlength : (done ++ [sentNode (exec done.length) node]).length = done.length + 1 := by simp
    rw [List.length_cons, passOps, exec_passNode hloaded hlimits hpasses, ← hlength, ih, hlength,
      sendLimits, List.append_assoc]
    · cases exec done.length with
      | true => rfl
      | false => rfl
    · exact hloaded
    · rfl
    · rfl

/-- So sync_traffic with nothing beside it is a run of the module's sections. -/
theorem exec_syncTraffic (hloaded : s.loaded = true) :
    Run.exec limitStep s (.enter :: passOps exec s.passes.length 0 s.limits.length) =
      some { s with
        limits := (syncTraffic ⟨true, exec⟩ s.limits).1
        rows := (syncTraffic ⟨true, exec⟩ s.limits).2.foldl TrafficUpdate.exec s.rows } := by
  let entered : LimitState := { s with passes := s.passes ++ [.walking 0] }
  have henter : limitStep s .enter = some entered := rfl
  have hlimits : entered.limits = [] ++ s.limits := rfl
  have hpasses : entered.passes = s.passes ++ [.walking ([] : List NodeGroupLimit).length] := rfl
  rw [Run.exec_cons _ _ henter]
  have hentered : entered.loaded = true := hloaded
  exact exec_passOps hentered hlimits hpasses

end

/-- A sync_traffic whose updates all succeed sends every node as it is and clears its alpha. -/
theorem sendLimits_all (i : Nat) (limits : List NodeGroupLimit) :
    sendLimits (fun _ => true) i limits =
      (limits.map fun node => { node with alpha := 0 }, limits.map trafficUpdate) := by
  induction limits generalizing i with
  | nil => rfl
  | cons node limits ih =>
    rw [sendLimits, ih (i + 1)]
    rfl

theorem atoll_eq_iff (n : IpBigsize) : atoll n = n ↔ n < 0x8000000000000000 := by
  unfold atoll
  split_ifs with h
  · exact iff_of_true rfl h
  · refine iff_of_false ?_ h
    intro heq
    rw [← heq] at h
    exact h (by decide)

/-- New nodes start with their rows' Traffic exactly where that fits. -/
theorem Reconciled.exact_iff {swept : List NodeGroupLimit} (h : Reconciled atoll table limits swept)
    (hids : (table.map GroupLimitRow.id).Nodup) :
    Reconciled id table limits swept ↔ NewTrafficFits table limits := by
  constructor
  · intro hexact row hrow hnew
    obtain ⟨node, hnode, hid⟩ := (h.listed row.id).mpr ⟨row, hrow, rfl⟩
    have hnew' : ∀ old ∈ limits, old.id ≠ node.id := by
      rw [hid]
      exact hnew
    obtain ⟨row₁, hrow₁, hid₁, -, hread⟩ := h.fresh node hnode hnew'
    obtain ⟨row₂, hrow₂, hid₂, -, htraffic⟩ := hexact.fresh node hnode hnew'
    have hsame₁ : row₁ = row := List.inj_on_of_nodup_map hids hrow₁ hrow (hid₁.trans hid)
    have hsame₂ : row₂ = row := List.inj_on_of_nodup_map hids hrow₂ hrow (hid₂.trans hid)
    rw [hsame₁] at hread
    rw [hsame₂] at htraffic
    exact (atoll_eq_iff row.record.traffic).mp (hread.symm.trans htraffic)
  · intro hfits
    refine ⟨h.nodup, h.listed, h.kept, ?_⟩
    intro node hnode hnew
    obtain ⟨row, hrow, hid, halpha, hread⟩ := h.fresh node hnode hnew
    have hlt := hfits row hrow (by rw [hid]; exact hnew)
    exact ⟨row, hrow, hid, halpha, hread.trans ((atoll_eq_iff row.record.traffic).mpr hlt)⟩

/-- A pass against a store that answers from one table reconciles the list with it, new nodes
starting from what atoll makes of their rows' Traffic: from the Traffic itself exactly where that
fits. The alpha of each node leaves the list only in the update that carries it, and in the
module's sections the updates are one run of sync_traffic. -/
theorem syncLimits_reconciles_iff (hnodup : (limits.map NodeGroupLimit.id).Nodup)
    (hids : (table.map GroupLimitRow.id).Nodup) :
    ∃ swept, reconcileLimits (table.map (listLimit table)) limits = some swept ∧
      Reconciled atoll table limits swept ∧
      (Reconciled id table limits swept ↔ NewTrafficFits table limits) ∧
      syncLimits (limitsStore table) limits =
        some (swept.map fun node => { node with alpha := 0 }, swept.map trafficUpdate, true) ∧
      ∀ s : LimitState, s.loaded = true → s.limits = swept →
        Run.exec limitStep s
            (.enter :: passOps (fun _ => true) s.passes.length 0 swept.length) =
          some { s with
            limits := swept.map fun node => { node with alpha := 0 }
            rows := (swept.map trafficUpdate).foldl TrafficUpdate.exec s.rows } := by
  obtain ⟨swept, hswept, hrec⟩ := reconcileLimits_reconciles hnodup hids
  refine ⟨swept, hswept, hrec, hrec.exact_iff hids, ?_, ?_⟩
  · rw [syncLimits, limitsStore]
    simp only [if_true, hswept]
    rw [syncTraffic, if_pos rfl, sendLimits_all]
  · intro s hloaded hlimits
    have hrun := @exec_syncTraffic (fun _ => true) s hloaded
    rw [syncTraffic, if_pos rfl, sendLimits_all, hlimits] at hrun
    exact hrun

/-- A limit of user 7 with traffic that no update has carried yet. -/
def halfSent (id : IpId) : NodeGroupLimit := ⟨id, 7, 4, 1, 1000, 990, 40, 0, 0, 0⟩

/-- Rows of the table for a limit that has changed and for one that is new. -/
def changedRows : List GroupLimitRow :=
  [⟨2, ⟨7, 4, 1, 5000, 100, 0, 6⟩⟩, ⟨3, ⟨8, 4, 1, 1000, 200, 0, 9⟩⟩]

theorem syncLimits_reconciles_changed :
    ∃ swept, reconcileLimits (changedRows.map (listLimit changedRows))
        [halfSent 1, halfSent 2] = some swept ∧
      Reconciled id changedRows [halfSent 1, halfSent 2] swept := by
  obtain ⟨swept, hswept, -, hexact, -⟩ := @syncLimits_reconciles_iff changedRows
    [halfSent 1, halfSent 2] (by decide) (by decide)
  refine ⟨swept, hswept, hexact.mpr ?_⟩
  unfold NewTrafficFits
  decide

/-- The first limit is gone, the second keeps its counters, the third starts from its row. -/
example : (reconcileLimits (changedRows.map (listLimit changedRows))
    [halfSent 1, halfSent 2]).map (List.map fun node => (node.id, node.traffic, node.alpha)) =
    some [(2, 990, 40), (3, 200, 0)] := by
  decide +kernel

/-- A new limit whose Traffic is 2 ^ 63. -/
def hugeRow : GroupLimitRow := ⟨3, ⟨8, 4, 1, 1000, 0x8000000000000000, 0, 9⟩⟩

/-- Its node starts one byte short. -/
theorem syncLimits_saturates :
    ∃ swept, reconcileLimits ([hugeRow].map (listLimit [hugeRow])) [] = some swept ∧
      (swept.map fun node => (node.id, node.traffic)) = [(3, 0x7fffffffffffffff)] ∧
      ¬ Reconciled id [hugeRow] [] swept := by
  refine ⟨[hugeRow.record.node 3], by decide +kernel, by decide, ?_⟩
  intro hexact
  obtain ⟨row, hrow, -, -, htraffic⟩ := hexact.fresh _ List.mem_cons_self (by simp)
  rw [List.mem_singleton.mp hrow] at htraffic
  exact absurd htraffic (by decide)

end

end IPStat
