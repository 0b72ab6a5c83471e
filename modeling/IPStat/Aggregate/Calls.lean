import IPStat.Aggregate.Balance
import IPStat.Aggregate.Ip
import IPStat.System.Log

namespace IPStat

/-- The mallocs of an ip_acct call for a new key: of the key, of the value, of the tree's node. -/
structure AcctAlloc where
  key : Bool
  value : Bool
  node : Bool
  deriving DecidableEq, Repr

/-- What an ip_sync call meets: the store, its connection, the malloc of the new tree, and the
answers of ip_export to each node's tries; `none` is a count that comes without a row. -/
structure SyncMeets where
  store : Bool
  opened : Bool
  tree : Bool
  answer : Nat → Nat → Option Bool

/-- The module between two calls: its variables, whether ag_ip is NULL, and ip_mutex. -/
structure IpModule where
  state : IpState
  agNull : Bool
  locked : Bool

inductive IpCall where
  | acct (info : PacketInfo) (data : PacketDataInfo) (pad1 pad2 : UInt16) (alloc : AcctAlloc)
  | sync (meets : SyncMeets)

/-- The second section of ip_acct on a node found, or on a new one. -/
def chargeCell (s : IpState) (ptr : Nat) (cell : IpCell) (len : IpSize) : IpState :=
  { s with
    cells := s.cells.set ptr ⟨cell.pkt + 1, cell.bytes + len, cell.freed⟩
    returned := s.returned + len.toNat
    wroteFreed := s.wroteFreed || cell.freed }

def addCell (s : IpState) (agIp : ITreeNode StKey Nat) (len : IpSize) : IpState :=
  { s with
    cells := s.cells ++ [⟨1, len, false⟩]
    agIp := agIp
    returned := s.returned + len.toNat }

/-- ip_acct with no other call under way; `none` is a call that does not return. -/
def ipAcct (m : IpModule) (key : StKey) (len : IpSize) (alloc : AcctAlloc) :
    Option (IpModule × Bool) :=
  if m.agNull then some (m, false)
  else if m.locked then none
  else match m.state.agIp.lookup ipCompare key with
    | some ptr =>
      match m.state.cells[ptr]? with
      | none => none
      | some cell => some ({ m with state := chargeCell m.state ptr cell len }, true)
    | none =>
      if !alloc.key then some (m, false)
      else if !alloc.value then some (m, false)
      else match m.state.agIp.insert ipCompare alloc.node key m.state.cells.length with
        | none => none
        | some (agIp, _) => some ({ m with state := addCell m.state agIp len }, true)

/-- ip_traverse_sync: the first try of `i`, and as many again as `nRepeat` says. -/
def exportTries (answer : Nat → Option Bool) (i : Nat) : Nat → Option Bool
  | 0 => answer i
  | nRepeat + 1 =>
    match answer i with
    | some false => exportTries answer (i + 1) nRepeat
    | res => res

/-- The traversal of the swapped-out tree: the bytes exported by its end. -/
def exportTree (cells : List IpCell) (answer : Nat → Nat → Option Bool) :
    Nat → List (StKey × Nat) → Nat → Option Nat
  | _, [], exported => some exported
  | n, (_, ptr) :: rest, exported =>
    match cells[ptr]?, exportTries (answer n) 0 3 with
    | some cell, some true => exportTree cells answer (n + 1) rest (exported + cell.bytes.toNat)
    | some _, some false => exportTree cells answer (n + 1) rest exported
    | _, _ => none

/-- ip_clean and i_tree_destroy of the swapped-out tree. -/
def freeTree (backup : ITreeNode StKey Nat) (cells : List IpCell) : List IpCell :=
  cells.mapIdx fun p cell => if p ∈ backup.pointers then { cell with freed := true } else cell

/-- ip_sync with no other call under way. -/
def ipSync (m : IpModule) (meets : SyncMeets) : Option (IpModule × Bool) :=
  if m.state.flagExport then some (m, false)
  else if !meets.store then some (m, false)
  else if !meets.opened then some (m, true)
  else if m.locked then none
  else if !meets.tree then
    some (⟨{ m.state with flagExport := true, agIp := .null }, true, true⟩, false)
  else if m.agNull then none
  else match exportTree m.state.cells meets.answer 0 m.state.agIp.inOrder m.state.exported with
    | none => none
    | some exported => some (⟨{ m.state with
        cells := freeTree m.state.agIp m.state.cells
        agIp := .null
        flagExport := false
        exported := exported }, false, false⟩, true)

def ipCall (m : IpModule) : IpCall → Option IpModule
  | .acct info data pad1 pad2 alloc =>
    (ipAcct m (ipKey info data pad1 pad2) data.len alloc).map Prod.fst
  | .sync meets => (ipSync m meets).map Prod.fst

/-- After ip_init. -/
def ipStart : IpModule := ⟨ipInit, false, false⟩

/-- The mutex is free, no export is flagged, and the bytes that calls have accepted are those
exported and those that the tree, which is there, holds. -/
structure Released (m : IpModule) : Prop where
  unlocked : m.locked = false
  flag : m.state.flagExport = false
  tree : m.agNull = false
  balance : m.state.returned = m.state.exported + heldBytes m.state.cells m.state.agIp.pointers

/-- One of the four tries succeeds, and those before it fail. -/
def Exported (answer : Nat → Option Bool) : Prop :=
  ∃ i ≤ 3, answer i = some true ∧ ∀ j < i, answer j = some false

/-- A counter that is raised stays below 2^32; a node that is needed is allocated once the key
and the value are; a sync that opens gets its new tree and exports every node. -/
def Provided (m : IpModule) : IpCall → Prop
  | .acct info data pad1 pad2 alloc =>
    match m.state.agIp.lookup ipCompare (ipKey info data pad1 pad2) with
    | some ptr => bytesAt m.state.cells ptr + data.len.toNat < 4294967296
    | none => alloc.key = true → alloc.value = true → alloc.node = true
  | .sync meets => meets.store = true → meets.opened = true → meets.tree = true ∧
      ∀ n < m.state.agIp.inOrder.length, Exported (meets.answer n)

/-- What the calls keep. -/
structure AtRest (m : IpModule) : Prop where
  released : Released m
  inv : IpInv m.state
  idle : m.state.passes = []
  avl : m.state.agIp.Avl

theorem lookup_mem {key : StKey} {ptr : Nat} {t : ITreeNode StKey Nat}
    (h : t.lookup ipCompare key = some ptr) : ptr ∈ t.pointers := by
  induction t with
  | null => cases h
  | node b k v l r ihl ihr =>
    rw [ITreeNode.lookup] at h
    unfold ITreeNode.pointers at ihl ihr ⊢
    simp only [ITreeNode.inOrder, List.map_append, List.map_cons, List.mem_append, List.mem_cons]
    split_ifs at h
    · cases h
      exact .inr (.inl rfl)
    · exact .inl (ihl h)
    · exact .inr (.inr (ihr h))

theorem exportTries_zero (answer : Nat → Option Bool) (i : Nat) :
    exportTries answer i 0 = answer i := by
  rw [exportTries]

/-- One of the tries from `i` on succeeds after others that failed. -/
theorem exportTries_iff (answer : Nat → Option Bool) (i nRepeat : Nat) :
    exportTries answer i nRepeat = some true ↔
      ∃ j ≤ nRepeat, answer (i + j) = some true ∧ ∀ k < j, answer (i + k) = some false := by
  induction nRepeat generalizing i with
  | zero =>
    rw [exportTries_zero]
    constructor
    · intro h
      exact ⟨0, Nat.le_refl 0, h, fun k hk => absurd hk (Nat.not_lt_zero k)⟩
    · intro htries
      obtain ⟨j, hj, h, -⟩ := htries
      rwa [Nat.le_zero.mp hj] at h
  | succ nRepeat ih =>
    rw [exportTries]
    constructor
    · intro h
      cases hi : answer i with
      | none => simp [hi] at h
      | some done =>
        cases done with
        | true => exact ⟨0, by omega, hi, fun k hk => absurd hk (Nat.not_lt_zero k)⟩
        | false =>
          rw [hi] at h
          obtain ⟨j, hj, htrue, hfalse⟩ := (ih (i + 1)).mp h
          refine ⟨j + 1, by omega, by rwa [Nat.add_comm j, ← Nat.add_assoc], ?_⟩
          intro k hk
          cases k with
          | zero => exact hi
          | succ k =>
            rw [Nat.add_comm k, ← Nat.add_assoc]
            exact hfalse k (by omega)
    · intro htries
      obtain ⟨j, hj, htrue, hfalse⟩ := htries
      cases j with
      | zero =>
        rw [Nat.add_zero] at htrue
        simp [htrue]
      | succ j =>
        have hi := hfalse 0 (by omega)
        rw [Nat.add_zero] at hi
        simp only [hi]
        refine (ih (i + 1)).mpr ⟨j, by omega, ?_, ?_⟩
        · rwa [Nat.add_assoc, Nat.add_comm 1]
        · intro k hk
          rw [Nat.add_assoc, Nat.add_comm 1]
          exact hfalse (k + 1) (by omega)

theorem exportTries_exported {answer : Nat → Option Bool} (h : Exported answer) :
    exportTries answer 0 3 = some true := by
  rw [exportTries_iff]
  simp only [Nat.zero_add]
  exact h

section
variable {m m' : IpModule} {meets : SyncMeets} {key : StKey} {len : IpSize} {alloc : AcctAlloc}
  {res : Bool}

/-- An ip_acct with its tree there charges the node it finds, lacks the memory for a new one, or
inserts it. -/
theorem ipAcct_cases (hn : m.agNull = false) (h : ipAcct m key len alloc = some (m', res)) :
    (∃ ptr cell, m.state.agIp.lookup ipCompare key = some ptr ∧ m.state.cells[ptr]? = some cell ∧
        m' = { m with state := chargeCell m.state ptr cell len } ∧ res = true) ∨
      m.state.agIp.lookup ipCompare key = none ∧
        ((alloc.key = false ∨ alloc.value = false) ∧ m' = m ∧ res = false ∨
          (alloc.key = true ∧ alloc.value = true) ∧ ∃ agIp inserted,
            m.state.agIp.insert ipCompare alloc.node key m.state.cells.length =
              some (agIp, inserted) ∧
            m' = { m with state := addCell m.state agIp len } ∧ res = true) := by
  have hunlocked : m.locked = false := by
    by_contra hlocked
    simp [ipAcct, hn, hlocked] at h
  simp only [ipAcct, hn, hunlocked, Bool.false_eq_true, if_false] at h
  cases hl : m.state.agIp.lookup ipCompare key with
  | some ptr =>
    simp only [hl] at h
    cases hcell : m.state.cells[ptr]? with
    | none => simp [hcell] at h
    | some cell =>
      simp only [hcell] at h
      cases h
      exact .inl ⟨ptr, cell, rfl, hcell, by rw [hn, hunlocked], rfl⟩
  | none =>
    simp only [hl] at h
    refine .inr ⟨rfl, ?_⟩
    split_ifs at h with hkey hvalue
    · cases h
      exact .inl ⟨.inl (by simpa using hkey), rfl, rfl⟩
    · cases h
      exact .inl ⟨.inr (by simpa using hvalue), rfl, rfl⟩
    · cases hins : m.state.agIp.insert ipCompare alloc.node key m.state.cells.length with
      | none => simp [hins] at h
      | some q =>
        simp only [hins] at h
        cases h
        exact .inr ⟨⟨by simpa using hkey, by simpa using hvalue⟩, q.1, q.2, rfl,
          by rw [hn, hunlocked], rfl⟩

/-- An ip_sync is refused, or it gives up its tree for one that it does not get, or it walks the
tree and frees it. -/
theorem ipSync_cases (h : ipSync m meets = some (m', res)) :
    m' = m ∧ (m.state.flagExport = true ∨ meets.store = false ∨ meets.opened = false) ∨
      (m.state.flagExport = false ∧ meets.store = true ∧ meets.opened = true) ∧
        (meets.tree = false ∧ m' = ⟨{ m.state with flagExport := true, agIp := .null }, true, true⟩ ∨
          meets.tree = true ∧ ∃ exported,
            exportTree m.state.cells meets.answer 0 m.state.agIp.inOrder m.state.exported =
              some exported ∧
            m' = ⟨{ m.state with
              cells := freeTree m.state.agIp m.state.cells
              agIp := .null
              flagExport := false
              exported := exported }, false, false⟩) := by
  rw [ipSync] at h
  split_ifs at h with hflag hstore hopened hlocked htree hnull
  · cases h
    exact .inl ⟨rfl, .inl hflag⟩
  · cases h
    exact .inl ⟨rfl, .inr (.inl (by simpa using hstore))⟩
  · cases h
    exact .inl ⟨rfl, .inr (.inr (by simpa using hopened))⟩
  · cases h
    have hreach : m.state.flagExport = false ∧ meets.store = true ∧ meets.opened = true :=
      ⟨by simpa using hflag, by simpa using hstore, by simpa using hopened⟩
    exact .inr ⟨hreach, .inl ⟨by simpa using htree, rfl⟩⟩
  · have hreach : m.state.flagExport = false ∧ meets.store = true ∧ meets.opened = true :=
      ⟨by simpa using hflag, by simpa using hstore, by simpa using hopened⟩
    cases he : exportTree m.state.cells meets.answer 0 m.state.agIp.inOrder m.state.exported with
    | none => simp [he] at h
    | some exported =>
      simp only [he] at h
      cases h
      exact .inr ⟨hreach, .inr ⟨by simpa using htree, exported, rfl, rfl⟩⟩

end

section
variable {s : IpState}

theorem held_idle (hp : s.passes = []) : s.held = s.agIp.pointers := by
  simp [IpState.held, hp]

/-- The walk of a swapped-out tree whose nodes are all exported. -/
theorem exportTree_inv {answer : Nat → Nat → Option Bool} {backup : ITreeNode StKey Nat}
    (n : Nat) (rest : List (StKey × Nat)) (exported : Nat)
    (h : IpInv { s with
      agIp := .null, flagExport := true, passes := [.exporting backup rest], exported := exported })
    (hanswer : ∀ i < rest.length, Exported (answer (n + i))) :
    ∃ exported', exportTree s.cells answer n rest exported = some exported' ∧
      IpInv { s with
        agIp := .null
        flagExport := true
        passes := [.exporting backup []]
        exported := exported' } := by
  induction rest generalizing n exported with
  | nil => exact ⟨exported, rfl, h⟩
  | cons node rest ih =>
    obtain ⟨key, ptr⟩ := node
    have howned : ptr ∈ backup.pointers :=
      (h.rest _ List.mem_cons_self).subset (by simp [SyncPc.rest])
    obtain ⟨cell, hcell, -⟩ := h.live ptr (by simp [IpState.owned, SyncPc.backup, howned])
    have hdone := exportTries_exported (hanswer 0 (by simp))
    have hnext := h.exportNode (i := 0) rfl hcell
    have hanswer' : ∀ i < rest.length, Exported (answer (n + 1 + i)) := by
      intro i hi
      have := hanswer (i + 1) (by simpa using hi)
      rwa [show n + 1 + i = n + (i + 1) by omega]
    have hcell' : s.cells[ptr]? = some cell := hcell
    rw [Nat.add_zero] at hdone
    simp only [exportTree, hcell', hdone]
    exact ih (n + 1) (exported + cell.bytes.toNat) hnext hanswer'

end

section
variable {m : IpModule}

theorem AtRest.of_inv {s : IpState} (hinv : IpInv s) (hflag : s.flagExport = false)
    (hidle : s.passes = []) (havl : s.agIp.Avl) : AtRest ⟨s, false, false⟩ := by
  have hbal := hinv.balance
  rw [held_idle hidle] at hbal
  exact ⟨⟨rfl, hflag, rfl, hbal⟩, hinv, hidle, havl⟩

theorem AtRest.acct (h : AtRest m) {info : PacketInfo} {data : PacketDataInfo}
    {pad1 pad2 : UInt16} {alloc : AcctAlloc}
    (hp : Provided m (.acct info data pad1 pad2 alloc)) :
    ∃ m', ipCall m (.acct info data pad1 pad2 alloc) = some m' ∧ AtRest m' := by
  obtain ⟨hreleased, hinv, hidle, havl⟩ := h
  obtain ⟨s, agNull, locked⟩ := m
  obtain ⟨rfl, hflag, rfl, -⟩ := hreleased
  simp only [Provided] at hp
  simp only [ipCall, ipAcct, if_false, Bool.false_eq_true]
  cases hl : s.agIp.lookup ipCompare (ipKey info data pad1 pad2) with
  | some ptr =>
    simp only [hl] at hp ⊢
    have hptr : ptr ∈ s.held := by
      rw [held_idle hidle]
      exact lookup_mem hl
    obtain ⟨cell, hcell, -⟩ := hinv.live ptr (hinv.held_sublist.subset hptr)
    have hcharged : IpInv (chargeCell s ptr cell data.len) :=
      (hinv.update (i := 0) hcell hptr hp).of_same rfl rfl (.inl rfl) rfl rfl rfl
    simp only [hcell, Option.map_some, Option.some.injEq, exists_eq_left']
    exact AtRest.of_inv hcharged hflag hidle havl
  | none =>
    simp only [hl] at hp ⊢
    have hsame : AtRest ⟨s, false, false⟩ := AtRest.of_inv hinv hflag hidle havl
    cases hkey : alloc.key with
    | false => exact ⟨_, rfl, hsame⟩
    | true =>
      cases hvalue : alloc.value with
      | false => exact ⟨_, rfl, hsame⟩
      | true =>
        have hnode := hp hkey hvalue
        obtain ⟨agIp, inserted, hins, havl', -⟩ :=
          ITreeNode.insert_avl ipCompare (ipKey info data pad1 pad2) s.cells.length havl
        have hinserted : IpInv { s with
            cells := s.cells ++ [⟨1, data.len, false⟩]
            agIp := agIp
            accts := s.accts.eraseIdx 0
            returned := s.returned + data.len.toNat } := hinv.insert hins hl
        have hadded : IpInv (addCell s agIp data.len) :=
          hinserted.of_same rfl rfl (.inl rfl) rfl rfl rfl
        simp only [hnode, hins, Bool.not_true, Bool.false_eq_true, if_false, Option.map_some,
          Option.some.injEq, exists_eq_left']
        exact AtRest.of_inv hadded hflag hidle havl'

theorem AtRest.sync (h : AtRest m) {meets : SyncMeets} (hp : Provided m (.sync meets)) :
    ∃ m', ipCall m (.sync meets) = some m' ∧ AtRest m' := by
  obtain ⟨hreleased, hinv, hidle, havl⟩ := h
  obtain ⟨s, agNull, locked⟩ := m
  obtain ⟨rfl, hflag, rfl, -⟩ := hreleased
  have hflag' : s.flagExport = false := hflag
  have hsame : AtRest ⟨s, false, false⟩ := AtRest.of_inv hinv hflag hidle havl
  simp only [ipCall, ipSync, hflag', Bool.false_eq_true, if_false]
  cases hstore : meets.store with
  | false => exact ⟨_, rfl, hsame⟩
  | true =>
    cases hopened : meets.opened with
    | false => exact ⟨_, rfl, hsame⟩
    | true =>
      obtain ⟨htree, hanswer⟩ := hp hstore hopened
      have hentered : IpInv { s with passes := [.entered] } :=
        hinv.of_same rfl rfl (.inr (by simp [show s.passes = [] from hidle])) rfl rfl rfl
      have hswapped := hentered.swap (i := 0) rfl
      have hwalk : ∀ i < s.agIp.inOrder.length, Exported (meets.answer (0 + i)) := by
        intro i hi
        rw [Nat.zero_add]
        exact hanswer i hi
      obtain ⟨exported, hexported, hwalked⟩ :=
        exportTree_inv (s := s) 0 s.agIp.inOrder s.exported hswapped hwalk
      have hfreed : IpInv { s with
          cells := freeTree s.agIp s.cells
          agIp := .null
          flagExport := false
          exported := exported } :=
        (hwalked.free (i := 0) rfl).of_same rfl rfl (.inl (by simp [show s.passes = [] from hidle]))
          rfl rfl rfl
      simp only [htree, hexported, Bool.not_true, Bool.false_eq_true, if_false, Option.map_some,
        Option.some.injEq, exists_eq_left']
      exact AtRest.of_inv hfreed rfl hidle trivial

end

theorem AtRest.start : AtRest ipStart :=
  AtRest.of_inv ipInit_inv rfl rfl trivial

theorem AtRest.call {m : IpModule} (h : AtRest m) {c : IpCall} (hp : Provided m c) :
    ∃ m', ipCall m c = some m' ∧ AtRest m' := by
  cases c with
  | acct info data pad1 pad2 alloc => exact h.acct hp
  | sync meets => exact h.sync hp

/-- print_log keeps its mutex exactly when the log does not open; where memory and the store
provide what a call needs, every ip_acct and ip_sync returns with everything released and
nothing lost. -/
theorem calls_release (logCalls : List LogCall) (calls : List IpCall)
    (hprovided : Run.Guarded ipCall Provided ipStart calls) :
    (((∃ u, Run.exec printLog ⟨false, []⟩ logCalls = some u) ∧
        Run.Always printLog (fun s => s.locked = false) ⟨false, []⟩ logCalls) ↔
      ∀ call ∈ logCalls, call.opened = true) ∧
    (∃ u, Run.exec ipCall ipStart calls = some u) ∧
      Run.Always ipCall Released ipStart calls := by
  refine ⟨print_log_releases_iff ⟨false, []⟩ logCalls rfl, ?_⟩
  have hrun := Run.exec_returns_always (fun _ _ hi hg => AtRest.call hi hg) AtRest.start hprovided
  exact ⟨hrun.1, hrun.2.imp fun _ h => h.released⟩

instance (answer : Nat → Option Bool) : Decidable (Exported answer) :=
  decidable_of_iff (∃ i ∈ List.range 4, answer i = some true ∧
      ∀ j ∈ List.range i, answer j = some false) (by
    simp only [List.mem_range, Exported]
    constructor
    · rintro ⟨i, hi, h⟩
      exact ⟨i, by omega, h⟩
    · rintro ⟨i, hi, h⟩
      exact ⟨i, by omega, h⟩)

instance (m : IpModule) (info : PacketInfo) (data : PacketDataInfo) (pad1 pad2 : UInt16)
    (alloc : AcctAlloc) : Decidable (Provided m (.acct info data pad1 pad2 alloc)) :=
  match h : m.state.agIp.lookup ipCompare (ipKey info data pad1 pad2) with
  | some ptr => decidable_of_iff (bytesAt m.state.cells ptr + data.len.toNat < 4294967296)
      (by simp [Provided, h])
  | none => decidable_of_iff (alloc.key = true → alloc.value = true → alloc.node = true)
      (by simp [Provided, h])

instance (m : IpModule) (meets : SyncMeets) : Decidable (Provided m (.sync meets)) :=
  inferInstanceAs (Decidable (meets.store = true → meets.opened = true → meets.tree = true ∧
    ∀ n < m.state.agIp.inOrder.length, Exported (meets.answer n)))

instance (m : IpModule) : ∀ c, Decidable (Provided m c)
  | .acct .. => inferInstance
  | .sync _ => inferInstance

/-- A packet of 1500 bytes, with all memory there. -/
def packet1500 : IpCall :=
  .acct ⟨[], 6, 16777226, 33554442, 443, 50000⟩ ⟨.traffic, 1, 7, 1, 0, 0, 0, 1500⟩ 0 0
    ⟨true, true, true⟩

/-- An export whose first two tries fail. -/
def thirdTry : IpCall := .sync ⟨true, true, true, fun _ i => some (decide (2 ≤ i))⟩

theorem calls_release_third_try :
    (((∃ u, Run.exec printLog ⟨false, []⟩ [⟨true, [105]⟩] = some u) ∧
        Run.Always printLog (fun s => s.locked = false) ⟨false, []⟩ [⟨true, [105]⟩]) ↔
      ∀ call ∈ ([⟨true, [105]⟩] : List LogCall), call.opened = true) ∧
    (∃ u, Run.exec ipCall ipStart [packet1500, packet1500, thirdTry, packet1500] = some u) ∧
      Run.Always ipCall Released ipStart [packet1500, packet1500, thirdTry, packet1500] :=
  calls_release [⟨true, [105]⟩] [packet1500, packet1500, thirdTry, packet1500] (by decide)

/-- The new tree cannot be allocated. -/
def noTree : IpCall := .sync ⟨true, true, false, fun _ _ => some true⟩

/-- After one failed fopen the next line waits for ever; after one failed allocation ip_mutex is
kept, ag_ip is NULL, every later sync and packet is refused, and the packet's bytes are gone. -/
theorem locks_kept :
    printLog ⟨false, []⟩ ⟨false, [105]⟩ = some ⟨true, []⟩ ∧
      printLog ⟨true, []⟩ ⟨true, [105]⟩ = none ∧
      ∃ m, Run.exec ipCall ipStart [packet1500, noTree] = some m ∧ m.locked = true ∧
        m.state.flagExport = true ∧ m.agNull = true ∧ m.state.returned = 1500 ∧
        m.state.exported = 0 ∧ m.state.agIp.pointers = [] ∧ ¬ Released m ∧
        (∀ meets, ipSync m meets = some (m, false)) ∧
        ∀ key len alloc, ipAcct m key len alloc = some (m, false) := by
  refine ⟨by decide, by decide, _, rfl, rfl, rfl, rfl, rfl, rfl, rfl, ?_, fun _ => rfl,
    fun _ _ _ => rfl⟩
  intro h
  cases h.unlocked

end IPStat
