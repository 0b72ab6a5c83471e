import IPStat.Aggregate.Calls
import IPStat.Lib.Tally
import IPStat.System.Modules

namespace IPStat

open Tally

/-- The variables of func_squid.c, and the rows that its inserts have put into Log_Squid. -/
structure SquidModule where
  agSquid : List AcctSquidNode
  flagExport : Bool
  totalAcctQuery : IpSize
  logSquid : List AcctSquidNode
  deriving DecidableEq, Repr

def squidAcct (m : SquidModule) (url : List UInt8) (idUser : IpId) (len : IpSize) (alloc : Bool) :
    SquidModule × Bool :=
  if !alloc then (m, false)
  else
    let ptr : AcctSquidNode := ⟨idUser, url.take 1023, len⟩
    ({ m with agSquid := ptr :: m.agSquid, totalAcctQuery := m.totalAcctQuery + 1 }, true)

/-- What one squid_export meets: its malloc, and the answer to its insert. -/
structure SquidTry where
  buffer : Bool
  exec : Bool
  deriving DecidableEq, Repr

def SquidTry.succeeds (t : SquidTry) : Bool := t.buffer && t.exec

def squidExport (t : SquidTry) (node : AcctSquidNode) (logSquid : List AcctSquidNode) :
    List AcctSquidNode × Bool :=
  if !t.buffer then (logSquid, false)
  else if !t.exec then (logSquid, false)
  else (logSquid ++ [node], true)

/-- squid_traverse_sync from its try `i` on, with nRepeat more to come. -/
def squidTraverseSync (tries : Nat → SquidTry) (node : AcctSquidNode) (i : Nat) :
    Nat → List AcctSquidNode → List AcctSquidNode
  | 0, logSquid => (squidExport (tries i) node logSquid).1
  | nRepeat + 1, logSquid =>
    match squidExport (tries i) node logSquid with
    | (logSquid, true) => logSquid
    | (logSquid, false) => squidTraverseSync tries node (i + 1) nRepeat logSquid

/-- The g_list_foreach of squid_sync. -/
def squidExports (tries : Nat → Nat → SquidTry) :
    Nat → List AcctSquidNode → List AcctSquidNode → List AcctSquidNode
  | _, [], logSquid => logSquid
  | n, node :: backup, logSquid =>
    squidExports tries (n + 1) backup (squidTraverseSync (tries n) node 0 3 logSquid)

structure SquidMeets where
  store : Bool
  opened : Bool
  tries : Nat → Nat → SquidTry

def squidSync (m : SquidModule) (meets : SquidMeets) : SquidModule × Bool :=
  if m.flagExport then (m, false)
  else if !meets.store then (m, false)
  else if !meets.opened then (m, true)
  else ({ m with
    agSquid := []
    flagExport := false
    logSquid := squidExports meets.tries 0 m.agSquid m.logSquid }, true)

/-- The records of a container whose export succeeds, in their order. -/
def sent {ρ : Type} (ok : Nat → Bool) : Nat → List ρ → List ρ
  | _, [] => []
  | n, r :: rs => if ok n then r :: sent ok (n + 1) rs else sent ok (n + 1) rs

section
variable {ρ : Type} {ok : Nat → Bool}

theorem sent_sublist (n : Nat) (rs : List ρ) : (sent ok n rs).Sublist rs := by
  induction rs generalizing n with
  | nil => exact List.Sublist.refl []
  | cons r rs ih =>
    rw [sent]
    split_ifs
    · exact (ih (n + 1)).cons_cons r
    · exact (ih (n + 1)).cons r

theorem sent_eq_iff (n : Nat) (rs : List ρ) :
    sent ok n rs = rs ↔ ∀ i < rs.length, ok (n + i) = true := by
  induction rs generalizing n with
  | nil => simp [sent]
  | cons r rs ih =>
    rw [List.length_cons, Nat.forall_lt_succ_left, sent]
    have hnext : (∀ i < rs.length, ok (n + (i + 1)) = true) ↔ sent ok (n + 1) rs = rs := by
      rw [ih (n + 1)]
      simp only [Nat.add_assoc, Nat.add_comm 1]
    rw [hnext, Nat.add_zero]
    cases hok : ok n with
    | true => simp
    | false =>
      have hlen : (sent ok (n + 1) rs).length ≤ rs.length := (sent_sublist (n + 1) rs).length_le
      simp only [Bool.false_eq_true, if_false, false_and, iff_false]
      intro heq
      have hlong := congrArg List.length heq
      rw [List.length_cons] at hlong
      omega

/-- Nothing of a container is lost exactly where every record of it is sent. -/
theorem sent_perm_iff (rs : List ρ) :
    (sent ok 0 rs).Perm rs ↔ ∀ i < rs.length, ok i = true := by
  have heq : (sent ok 0 rs).Perm rs ↔ sent ok 0 rs = rs := by
    constructor
    · intro h
      exact (sent_sublist 0 rs).eq_of_length h.length_eq
    · intro h
      rw [h]
  rw [heq, sent_eq_iff]
  simp only [Nat.zero_add]

end

/-- One of a record's four tries succeeds. -/
def SquidExported (tries : Nat → SquidTry) : Prop := ∃ i ≤ 3, (tries i).succeeds = true

instance (tries : Nat → SquidTry) : Decidable (SquidExported tries) :=
  decidable_of_iff (∃ i ∈ List.range 4, (tries i).succeeds = true) (by
    simp only [List.mem_range, SquidExported, Nat.lt_succ_iff])

theorem squidExport_eq (t : SquidTry) (node : AcctSquidNode) (logSquid : List AcctSquidNode) :
    squidExport t node logSquid =
      (if t.succeeds then logSquid ++ [node] else logSquid, t.succeeds) := by
  obtain ⟨buffer, exec⟩ := t
  cases buffer with
  | false => rfl
  | true => cases exec <;> rfl

/-- The tries write their record once where one of them succeeds. -/
theorem squidTraverseSync_eq (tries : Nat → SquidTry) (node : AcctSquidNode) (i nRepeat : Nat)
    (logSquid : List AcctSquidNode) :
    squidTraverseSync tries node i nRepeat logSquid =
      if ∃ j ≤ nRepeat, (tries (i + j)).succeeds = true then logSquid ++ [node]
      else logSquid := by
  induction nRepeat generalizing i with
  | zero =>
    rw [squidTraverseSync, squidExport_eq]
    simp
  | succ nRepeat ih =>
    rw [squidTraverseSync, squidExport_eq]
    have hsplit : (∃ j ≤ nRepeat + 1, (tries (i + j)).succeeds = true) ↔
        (tries i).succeeds = true ∨ ∃ j ≤ nRepeat, (tries (i + 1 + j)).succeeds = true := by
      constructor
      · rintro ⟨j, hj, h⟩
        cases j with
        | zero => exact .inl h
        | succ j => exact .inr ⟨j, by omega, by rwa [Nat.add_assoc, Nat.add_comm 1]⟩
      · rintro (h | ⟨j, hj, h⟩)
        · exact ⟨0, by omega, h⟩
        · exact ⟨j + 1, by omega, by rwa [Nat.add_comm j, ← Nat.add_assoc]⟩
    cases h : (tries i).succeeds with
    | true =>
      simp only [if_true]
      rw [if_pos (hsplit.mpr (.inl h))]
    | false =>
      simp only [Bool.false_eq_true, if_false]
      rw [ih]
      simp only [hsplit, h, Bool.false_eq_true, false_or]

/-- What a squid_sync adds to Log_Squid. -/
theorem squidExports_eq (tries : Nat → Nat → SquidTry) (n : Nat)
    (backup logSquid : List AcctSquidNode) :
    squidExports tries n backup logSquid =
      logSquid ++ sent (fun n => decide (SquidExported (tries n))) n backup := by
  induction backup generalizing n logSquid with
  | nil => rw [squidExports, sent, List.append_nil]
  | cons node backup ih =>
    rw [squidExports, ih, squidTraverseSync_eq, sent]
    simp only [Nat.zero_add]
    by_cases h : SquidExported (tries n)
    · have hsome : ∃ j ≤ 3, (tries n j).succeeds = true := h
      rw [if_pos hsome, if_pos (decide_eq_true h), List.append_assoc]
      rfl
    · have hnone : ¬∃ j ≤ 3, (tries n j).succeeds = true := h
      rw [if_neg hnone, if_neg (by simpa using h)]

section
variable {m : SquidModule} {meets : SquidMeets}

/-- A sync that comes to its list finds every record of it exported. -/
def SquidKeeps (m : SquidModule) (meets : SquidMeets) : Prop :=
  m.flagExport = false → meets.store = true → meets.opened = true →
    ∀ n < m.agSquid.length, SquidExported (meets.tries n)

theorem squidSync_keeps_iff (m : SquidModule) (meets : SquidMeets) :
    ((squidSync m meets).1.logSquid ++ (squidSync m meets).1.agSquid).Perm
        (m.logSquid ++ m.agSquid) ↔
      SquidKeeps m meets := by
  rw [squidSync, SquidKeeps]
  cases m.flagExport with
  | true => simp
  | false =>
    cases meets.store with
    | false => simp
    | true =>
      cases meets.opened with
      | false => simp
      | true =>
        simp only [Bool.false_eq_true, if_false, Bool.not_true, forall_const, squidExports_eq,
          List.append_nil, List.perm_append_left_iff, sent_perm_iff, decide_eq_true_eq]

end

/-- The nodes of the tree with their bytes. -/
def IpModule.records (m : IpModule) : List (StKey × Nat) :=
  m.state.agIp.inOrder.map fun q => (q.1, bytesAt m.state.cells q.2)

/-- The records that an ip_sync exports, in its order. -/
def ipSent (m : IpModule) (meets : SyncMeets) : List (StKey × Nat) :=
  if m.state.flagExport || !meets.store || !meets.opened || !meets.tree then []
  else sent (fun n => decide (exportTries (meets.answer n) 0 3 = some true)) 0 m.records

section
variable {m m' : IpModule} {meets : SyncMeets} {res : Bool}

/-- A sync that comes to its tree, where there is a node in it, gets its new tree and finds every
node exported by one of its four tries. -/
def IpKeeps (m : IpModule) (meets : SyncMeets) : Prop :=
  m.state.flagExport = false → meets.store = true → meets.opened = true →
    m.state.agIp.inOrder = [] ∨
      meets.tree = true ∧ ∀ n < m.state.agIp.inOrder.length, Exported (meets.answer n)

/-- The bytes that a sync counts as exported are those of the records it sends. -/
theorem exportTree_sent {cells : List IpCell} {answer : Nat → Nat → Option Bool} (n : Nat)
    (rest : List (StKey × Nat)) (exported exported' : Nat)
    (h : exportTree cells answer n rest exported = some exported') :
    exported' = exported +
      tally Prod.snd (sent (fun n => decide (exportTries (answer n) 0 3 = some true)) n
        (rest.map fun q => (q.1, bytesAt cells q.2))) := by
  induction rest generalizing n exported with
  | nil =>
    cases h
    rfl
  | cons node rest ih =>
    obtain ⟨key, ptr⟩ := node
    rw [exportTree] at h
    rw [List.map_cons, sent]
    split at h
    · rename_i cell hcell htry
      have hbytes : bytesAt cells ptr = cell.bytes.toNat := bytesAt_some hcell
      rw [ih _ _ h, htry, hbytes]
      simp [Nat.add_assoc]
    · rename_i cell hcell htry
      rw [ih _ _ h, htry]
      simp
    · cases h

theorem ipSent_refused
    (h : m.state.flagExport = true ∨ meets.store = false ∨ meets.opened = false) :
    ipSent m meets = [] := by
  rw [ipSent]
  obtain h | h | h := h
  · simp [h]
  · simp [h]
  · simp [h]

theorem ipSent_walked
    (h : m.state.flagExport = false ∧ meets.store = true ∧ meets.opened = true) :
    ipSent m meets = if meets.tree then
      sent (fun n => decide (exportTries (meets.answer n) 0 3 = some true)) 0 m.records else [] := by
  rw [ipSent, h.1, h.2.1, h.2.2]
  cases meets.tree with
  | true => rfl
  | false => rfl

theorem ipSync_exported (h : ipSync m meets = some (m', res)) :
    m'.state.exported = m.state.exported + tally Prod.snd (ipSent m meets) := by
  obtain ⟨rfl, hrefused⟩ | ⟨hreach, ⟨htree, rfl⟩ | ⟨htree, exported, he, rfl⟩⟩ := ipSync_cases h
  · rw [ipSent_refused hrefused]
    rfl
  · rw [ipSent_walked hreach, htree]
    rfl
  · rw [ipSent_walked hreach, htree]
    exact exportTree_sent 0 m.state.agIp.inOrder m.state.exported exported he

theorem ipSync_keeps_iff (h : ipSync m meets = some (m', res)) :
    (ipSent m meets ++ m'.records).Perm m.records ↔ IpKeeps m meets := by
  have hlen : m.records.length = m.state.agIp.inOrder.length := List.length_map _
  have hnil : m.records = [] ↔ m.state.agIp.inOrder = [] := List.map_eq_nil_iff
  rw [IpKeeps]
  obtain ⟨rfl, hrefused⟩ | ⟨hreach, hcase⟩ := ipSync_cases h
  · rw [ipSent_refused hrefused]
    apply iff_of_true (List.Perm.refl _)
    intro hflag hstore hopened
    simp [hflag, hstore, hopened] at hrefused
  obtain ⟨hflag, hstore, hopened⟩ := hreach
  have hkeeps : (m.state.flagExport = false → meets.store = true → meets.opened = true →
      m.state.agIp.inOrder = [] ∨
        meets.tree = true ∧ ∀ n < m.state.agIp.inOrder.length, Exported (meets.answer n)) ↔
      m.state.agIp.inOrder = [] ∨
        meets.tree = true ∧ ∀ n < m.state.agIp.inOrder.length, Exported (meets.answer n) := by
    simp only [hflag, hstore, hopened, forall_const]
  rw [hkeeps, ipSent_walked ⟨hflag, hstore, hopened⟩]
  obtain ⟨htree, rfl⟩ | ⟨htree, exported, -, rfl⟩ := hcase
  · -- The new tree is missing: what the old one held is nowhere.
    change ((if meets.tree then _ else []) ++ []).Perm m.records ↔ _
    simp [htree, hnil]
  · change ((if meets.tree then _ else []) ++ []).Perm m.records ↔ _
    simp only [htree, if_true, List.append_nil, sent_perm_iff, hlen, decide_eq_true_eq,
      exportTries_iff, Nat.zero_add, true_and]
    constructor
    · intro hall
      exact .inr hall
    · intro hcases
      obtain hnone | hall := hcases
      · intro i hi
        rw [hnone] at hi
        cases hi
      · exact hall

/-- After a sync that returns, the records it was called with are those in the database and those
still in memory, each once, exactly where one of each record's four tries succeeds. -/
theorem syncs_keep_iff (h : ipSync m meets = some (m', res)) (n : SquidModule)
    (squidMeets : SquidMeets) :
    ((ipSent m meets ++ m'.records).Perm m.records ↔ IpKeeps m meets) ∧
      (((squidSync n squidMeets).1.logSquid ++ (squidSync n squidMeets).1.agSquid).Perm
          (n.logSquid ++ n.agSquid) ↔
        SquidKeeps n squidMeets) := by
  apply And.intro
  · exact ipSync_keeps_iff h
  · exact squidSync_keeps_iff n squidMeets

end

/-- The ip module with 1500 bytes of user 7, and the squid module with one request. -/
def ipHolding : IpModule := (ipCall ipStart packet1500).getD ipStart

def squidHolding : SquidModule := (squidAcct ⟨[], false, 0, []⟩ [104, 116, 116, 112] 7 1500 true).1

/-- Every try before the given one fails. -/
def ipTriesUntil (i : Nat) : SyncMeets := ⟨true, true, true, fun _ j => some (decide (i ≤ j))⟩

def squidTriesUntil (i : Nat) : SquidMeets := ⟨true, true, fun _ j => ⟨true, decide (i ≤ j)⟩⟩

theorem syncs_keep_third_try :
    ∃ m', ipSync ipHolding (ipTriesUntil 2) = some (m', true) ∧
      ((ipSent ipHolding (ipTriesUntil 2) ++ m'.records).Perm ipHolding.records ↔
        IpKeeps ipHolding (ipTriesUntil 2)) ∧
      (((squidSync squidHolding (squidTriesUntil 2)).1.logSquid ++
            (squidSync squidHolding (squidTriesUntil 2)).1.agSquid).Perm
          (squidHolding.logSquid ++ squidHolding.agSquid) ↔
        SquidKeeps squidHolding (squidTriesUntil 2)) := by
  have hrun : ipSync ipHolding (ipTriesUntil 2) =
      some ((ipSync ipHolding (ipTriesUntil 2)).get (by decide)) := (Option.some_get _).symm
  refine ⟨_, hrun, ?_⟩
  exact syncs_keep_iff hrun squidHolding (squidTriesUntil 2)

/-- Where all four tries fail, both records are freed, and neither log has got them. -/
theorem syncs_drop_after_fourth_try :
    (∃ m', ipSync ipHolding (ipTriesUntil 4) = some (m', true) ∧
      ipHolding.records.map Prod.snd = [1500] ∧ ipSent ipHolding (ipTriesUntil 4) = [] ∧
        m'.records = [] ∧ m'.state.exported = 0) ∧
      squidHolding.agSquid.map AcctSquidNode.traffic = [1500] ∧
        (squidSync squidHolding (squidTriesUntil 4)).1.logSquid = [] ∧
        (squidSync squidHolding (squidTriesUntil 4)).1.agSquid = [] := by
  refine ⟨⟨_, rfl, ?_, ?_, ?_, ?_⟩, ?_, ?_, ?_⟩
  · decide
  · decide
  · rfl
  · rfl
  · decide
  · decide
  · rfl

end IPStat
