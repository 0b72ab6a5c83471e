import IPStat.Aggregate.Tree
import IPStat.Lib.Run
import IPStat.Types
import Mathlib.Data.List.Count
import Mathlib.Data.List.Nodup
import Mathlib.Tactic.Set

namespace IPStat

/-- st_key with the bytes that its layout pads it with. -/
structure StKey where
  idUser : IpId
  proto : IpProto
  direct : IpFlag
  pad1 : UInt16
  addr : IpAddr
  port : IpPort
  pad2 : UInt16
  deriving DecidableEq, Repr

def bytes16 (w : UInt16) : List UInt8 := [w.toUInt8, (w >>> 8).toUInt8]
def bytes32 (w : UInt32) : List UInt8 := bytes16 w.toUInt16 ++ bytes16 (w >>> 16).toUInt16

/-- The sixteen bytes of a key in memory. -/
def StKey.bytes (k : StKey) : List UInt8 :=
  bytes32 k.idUser ++ [k.proto, k.direct] ++ bytes16 k.pad1 ++ bytes32 k.addr ++
    bytes16 k.port ++ bytes16 k.pad2

def memcmp : List UInt8 → List UInt8 → Int
  | a :: as, b :: bs => if a < b then -1 else if b < a then 1 else memcmp as bs
  | _, _ => 0

def ipCompare (a b : StKey) : Int := memcmp a.bytes b.bytes

/-- The key_ptr of ip_acct; only its five fields are assigned, the padding is the stack's. -/
def ipKey (info : PacketInfo) (data : PacketDataInfo) (pad1 pad2 : UInt16) : StKey :=
  let (addr, port) :=
    if data.direct = 1 then (info.src, info.srcPort) else (info.dest, info.destPort)
  ⟨data.idUser, info.proto, data.direct, pad1, addr, port, pad2⟩

/-- An st_value on the heap. -/
structure IpCell where
  pkt : IpSize
  bytes : IpSize
  freed : Bool
  deriving DecidableEq, Repr

/-- An ip_acct call between its two critical sections. -/
inductive AcctPc where
  | update (ptr : Nat) (len : IpSize)
  | insert (key : StKey) (len : IpSize)
  deriving DecidableEq, Repr

/-- An ip_sync pass: past its flag test, or walking the tree it swapped out. -/
inductive SyncPc where
  | entered
  | exporting (backup : ITreeNode StKey Nat) (rest : List (StKey × Nat))
  deriving DecidableEq, Repr

/-- The module's variables, the calls under way, and the sums for the statements: bytes of
returned calls, bytes exported, and whether freed memory was written. -/
structure IpState where
  cells : List IpCell
  agIp : ITreeNode StKey Nat
  flagExport : Bool
  accts : List AcctPc
  passes : List SyncPc
  returned : Nat
  exported : Nat
  wroteFreed : Bool

def ipInit : IpState := ⟨[], .null, false, [], [], 0, 0, false⟩

inductive IpOp where
  | acct (info : PacketInfo) (data : PacketDataInfo) (pad1 pad2 : UInt16)
  | finish (i : Nat)
  | enter
  | swap (i : Nat)
  | exportNode (i : Nat)
  | free (i : Nat)

def ITreeNode.pointers (t : ITreeNode StKey Nat) : List Nat := t.inOrder.map Prod.snd

/-- The lookup section of ip_acct. -/
def ipLookup (s : IpState) (key : StKey) (len : IpSize) : IpState :=
  match s.agIp.lookup ipCompare key with
  | some ptr => { s with accts := s.accts ++ [.update ptr len] }
  | none => { s with accts := s.accts ++ [.insert key len] }

/-- The second section of ip_acct, and its return. -/
def ipFinish (s : IpState) (i : Nat) : Option IpState :=
  match s.accts[i]? with
  | none => none
  | some (.update ptr len) =>
    match s.cells[ptr]? with
    | none => none
    | some cell => some { s with
        cells := s.cells.set ptr ⟨cell.pkt + 1, cell.bytes + len, cell.freed⟩
        accts := s.accts.eraseIdx i
        returned := s.returned + len.toNat
        wroteFreed := s.wroteFreed || cell.freed }
  | some (.insert key len) =>
    match s.agIp.insert ipCompare true key s.cells.length with
    | none => none
    | some (agIp, _) => some { s with
        cells := s.cells ++ [⟨1, len, false⟩]
        agIp := agIp
        accts := s.accts.eraseIdx i
        returned := s.returned + len.toNat }

/-- The swap section of ip_sync. -/
def ipSwap (s : IpState) (i : Nat) : Option IpState :=
  match s.passes[i]? with
  | some .entered => some { s with
      agIp := .null
      flagExport := true
      passes := s.passes.set i (.exporting s.agIp s.agIp.inOrder) }
  | _ => none

/-- ip_traverse_sync on the next node. -/
def ipExport (s : IpState) (i : Nat) : Option IpState :=
  match s.passes[i]? with
  | some (.exporting backup ((_, ptr) :: rest)) =>
    match s.cells[ptr]? with
    | none => none
    | some cell => some { s with
        passes := s.passes.set i (.exporting backup rest)
        exported := s.exported + cell.bytes.toNat }
  | _ => none

/-- ip_clean and i_tree_destroy on the swapped-out tree, and the end of the pass. -/
def ipFree (s : IpState) (i : Nat) : Option IpState :=
  match s.passes[i]? with
  | some (.exporting backup []) => some { s with
      cells := s.cells.mapIdx fun p cell =>
        if p ∈ backup.pointers then { cell with freed := true } else cell
      flagExport := false
      passes := s.passes.eraseIdx i }
  | _ => none

def ipStep (s : IpState) : IpOp → Option IpState
  | .acct info data pad1 pad2 => some (ipLookup s (ipKey info data pad1 pad2) data.len)
  | .finish i => ipFinish s i
  | .enter => some (if s.flagExport then s else { s with passes := s.passes ++ [.entered] })
  | .swap i => ipSwap s i
  | .exportNode i => ipExport s i
  | .free i => ipFree s i

def SyncPc.rest : SyncPc → List Nat
  | .entered => []
  | .exporting _ rest => rest.map Prod.snd

def SyncPc.backup : SyncPc → List Nat
  | .entered => []
  | .exporting backup _ => backup.pointers

/-- The nodes whose bytes are still to be exported. -/
def IpState.held (s : IpState) : List Nat := s.agIp.pointers ++ s.passes.flatMap (·.rest)

/-- The nodes of the trees that are not freed yet. -/
def IpState.owned (s : IpState) : List Nat := s.agIp.pointers ++ s.passes.flatMap (·.backup)

def bytesAt (cells : List IpCell) (ptr : Nat) : Nat := (cells[ptr]?.map (·.bytes.toNat)).getD 0

def heldBytes (cells : List IpCell) : List Nat → Nat
  | [] => 0
  | p :: ps => bytesAt cells p + heldBytes cells ps

/-- The counter that a call is about to raise stays below 2^32. -/
def AcctPc.Fits (s : IpState) : AcctPc → Prop
  | .update ptr len => bytesAt s.cells ptr + len.toNat < 4294967296
  | .insert _ _ => True

/-- What a call looked up still holds: the node is still to be exported, or the key is still
absent. -/
def AcctPc.Current (s : IpState) : AcctPc → Prop
  | .update ptr _ => ptr ∈ s.held
  | .insert key _ => s.agIp.lookup ipCompare key = none

def NoOverflow (s : IpState) : IpOp → Prop
  | .finish i => ∀ pc ∈ s.accts[i]?, pc.Fits s
  | _ => True

def LookupHolds (s : IpState) : IpOp → Prop
  | .finish i => ∀ pc ∈ s.accts[i]?, pc.Current s
  | _ => True

/-- What every state of a run keeps. -/
structure IpInv (s : IpState) : Prop where
  nodup : s.owned.Nodup
  live : ∀ p ∈ s.owned, ∃ cell, s.cells[p]? = some cell ∧ cell.freed = false
  rest : ∀ pc ∈ s.passes, pc.rest.Sublist pc.backup
  balance : s.returned = s.exported + heldBytes s.cells s.held
  clean : s.wroteFreed = false

theorem getElem?_split {α : Type} {l : List α} {i : Nat} {a : α} (h : l[i]? = some a) :
    ∃ l₁ l₂, l = l₁ ++ a :: l₂ ∧ (∀ b, l.set i b = l₁ ++ b :: l₂) ∧
      l.eraseIdx i = l₁ ++ l₂ := by
  obtain ⟨hi, ha⟩ := List.getElem?_eq_some_iff.mp h
  refine ⟨l.take i, l.drop (i + 1), ?_, fun b => List.set_eq_take_append_cons_drop.trans
    (if_pos hi), List.eraseIdx_eq_take_drop_succ l i⟩
  rw [← ha, List.getElem_cons_drop hi, List.take_append_drop]

section
variable {cells cells' : List IpCell} {ps qs : List Nat} {ptr n : Nat}

theorem heldBytes_cons (p : Nat) :
    heldBytes cells (p :: ps) = bytesAt cells p + heldBytes cells ps := rfl

theorem heldBytes_perm (cells : List IpCell) (h : ps.Perm qs) :
    heldBytes cells ps = heldBytes cells qs := by
  induction h with
  | nil => rfl
  | cons p _ ih => rw [heldBytes_cons, heldBytes_cons, ih]
  | swap p q ps =>
    simp only [heldBytes_cons]
    omega
  | trans _ _ ih ih' => exact ih.trans ih'

theorem heldBytes_congr (h : ∀ p ∈ ps, bytesAt cells' p = bytesAt cells p) :
    heldBytes cells' ps = heldBytes cells ps := by
  induction ps with
  | nil => rfl
  | cons p ps ih =>
    have hrest := ih fun q hq => h q (List.mem_cons_of_mem p hq)
    rw [heldBytes_cons, heldBytes_cons, h p List.mem_cons_self, hrest]

/-- Bytes added to one node are added once to what is held. -/
theorem heldBytes_add (cells cells' : List IpCell) (hnd : ps.Nodup) (hm : ptr ∈ ps)
    (hat : bytesAt cells' ptr = bytesAt cells ptr + n)
    (hne : ∀ p, p ≠ ptr → bytesAt cells' p = bytesAt cells p) :
    heldBytes cells' ps = heldBytes cells ps + n := by
  have hperm := List.perm_cons_erase hm
  have hrest : heldBytes cells' (ps.erase ptr) = heldBytes cells (ps.erase ptr) := by
    apply heldBytes_congr
    intro p hp
    apply hne
    rintro rfl
    exact (List.Nodup.not_mem_erase hnd) hp
  rw [heldBytes_perm cells' hperm, heldBytes_perm cells hperm, heldBytes_cons,
    heldBytes_cons, hat, hrest]
  omega

end

theorem flatMap_sublist {α β : Type} {f g : α → List β} {l : List α}
    (h : ∀ a ∈ l, (f a).Sublist (g a)) : (l.flatMap f).Sublist (l.flatMap g) := by
  induction l with
  | nil => exact List.Sublist.refl _
  | cons a l ih =>
    rw [List.flatMap_cons, List.flatMap_cons]
    exact (h a List.mem_cons_self).append (ih fun b hb => h b (List.mem_cons_of_mem a hb))

theorem bytesAt_some {cells : List IpCell} {ptr : Nat} {cell : IpCell}
    (h : cells[ptr]? = some cell) : bytesAt cells ptr = cell.bytes.toNat := by
  simp [bytesAt, h]

section
variable {s s' : IpState}

theorem IpInv.held_sublist (h : IpInv s) : s.held.Sublist s.owned :=
  (List.Sublist.refl _).append (flatMap_sublist h.rest)

theorem IpInv.held_nodup (h : IpInv s) : s.held.Nodup := h.nodup.sublist h.held_sublist

theorem ipInit_inv : IpInv ipInit where
  nodup := List.nodup_nil
  live := by simp [ipInit, IpState.owned, ITreeNode.pointers, ITreeNode.inOrder]
  rest := by simp [ipInit]
  balance := rfl
  clean := rfl

/-- Only the calls under way, the flag and the memory-free part of the passes differ. -/
theorem IpInv.of_same (h : IpInv s) (hc : s'.cells = s.cells) (ha : s'.agIp = s.agIp)
    (hp : s'.passes = s.passes ∨ s'.passes = s.passes ++ [.entered])
    (hr : s'.returned = s.returned) (he : s'.exported = s.exported)
    (hw : s'.wroteFreed = s.wroteFreed) : IpInv s' := by
  have howned : s'.owned = s.owned := by
    rcases hp with hp | hp <;> simp [IpState.owned, ha, hp, SyncPc.backup]
  have hheld : s'.held = s.held := by
    rcases hp with hp | hp <;> simp [IpState.held, ha, hp, SyncPc.rest]
  refine ⟨howned ▸ h.nodup, ?_, ?_, ?_, hw ▸ h.clean⟩
  · rw [howned, hc]
    exact h.live
  · rcases hp with hp | hp
    · rw [hp]
      exact h.rest
    · intro pc hpc
      rw [hp] at hpc
      rcases List.mem_append.mp hpc with hpc | hpc
      · exact h.rest pc hpc
      · rw [List.mem_singleton.mp hpc]
        exact List.Sublist.refl _
  · rw [hr, he, hc, hheld]
    exact h.balance

theorem IpInv.update (h : IpInv s) {i ptr : Nat} {len : IpSize} {cell : IpCell}
    (hcell : s.cells[ptr]? = some cell) (hheld : ptr ∈ s.held)
    (hlt : bytesAt s.cells ptr + len.toNat < 4294967296) :
    IpInv { s with
      cells := s.cells.set ptr ⟨cell.pkt + 1, cell.bytes + len, cell.freed⟩
      accts := s.accts.eraseIdx i
      returned := s.returned + len.toNat
      wroteFreed := s.wroteFreed || cell.freed } := by
  have hlen : ptr < s.cells.length := (List.getElem?_eq_some_iff.mp hcell).1
  have hlive : cell.freed = false := by
    obtain ⟨c, hc, hf⟩ := h.live ptr (h.held_sublist.subset hheld)
    rw [hcell] at hc
    exact (Option.some.inj hc) ▸ hf
  have hbytes := bytesAt_some hcell
  refine ⟨h.nodup, ?_, h.rest, ?_, ?_⟩
  · intro p hp
    obtain ⟨c, hc, hf⟩ := h.live p hp
    by_cases he : p = ptr
    · subst he
      exact ⟨_, List.getElem?_set_self hlen, hlive⟩
    · exact ⟨c, by rw [List.getElem?_set_ne (Ne.symm he)]; exact hc, hf⟩
  · have hsum := heldBytes_add (n := len.toNat) s.cells
      (s.cells.set ptr ⟨cell.pkt + 1, cell.bytes + len, cell.freed⟩) h.held_nodup hheld
      (by
        rw [bytesAt_some (List.getElem?_set_self hlen), hbytes, UInt32.toNat_add]
        exact Nat.mod_eq_of_lt (hbytes ▸ hlt))
      (fun p hp => by rw [bytesAt, List.getElem?_set_ne (Ne.symm hp), bytesAt])
    have hbal := h.balance
    change s.returned + len.toNat = s.exported + heldBytes _ s.held
    rw [hsum]
    omega
  · change (s.wroteFreed || cell.freed) = false
    rw [h.clean, hlive]
    rfl

theorem insert_pointers {key : StKey} {ptr : Nat} {t : ITreeNode StKey Nat}
    {p : ITreeNode StKey Nat × Bool} (h : t.insert ipCompare true key ptr = some p)
    (hl : t.lookup ipCompare key = none) : p.1.pointers.Perm (ptr :: t.pointers) := by
  obtain ⟨l₁, l₂, he, he'⟩ := ITreeNode.insert_inOrder h hl
  unfold ITreeNode.pointers
  rw [he, he', List.map_append, List.map_cons, List.map_append]
  exact List.perm_middle

theorem IpInv.insert (h : IpInv s) {i : Nat} {key : StKey} {len : IpSize}
    {agIp : ITreeNode StKey Nat} {b : Bool}
    (hins : s.agIp.insert ipCompare true key s.cells.length = some (agIp, b))
    (habsent : s.agIp.lookup ipCompare key = none) :
    IpInv { s with
      cells := s.cells ++ [⟨1, len, false⟩]
      agIp := agIp
      accts := s.accts.eraseIdx i
      returned := s.returned + len.toNat } := by
  have hptrs : agIp.pointers.Perm (s.cells.length :: s.agIp.pointers) :=
    insert_pointers hins habsent
  have howned := hptrs.append_right (s.passes.flatMap (·.backup))
  have hheld := hptrs.append_right (s.passes.flatMap (·.rest))
  have hlt : ∀ p ∈ s.owned, p < s.cells.length := by
    intro p hp
    obtain ⟨c, hc, -⟩ := h.live p hp
    exact (List.getElem?_eq_some_iff.mp hc).1
  have hfresh : s.cells.length ∉ s.owned := fun hm => Nat.lt_irrefl _ (hlt _ hm)
  have hnew : (s.cells ++ [(⟨1, len, false⟩ : IpCell)])[s.cells.length]? =
      some ⟨1, len, false⟩ := by simp
  have hold (p : Nat) (hp : p < s.cells.length) :
      (s.cells ++ [(⟨1, len, false⟩ : IpCell)])[p]? = s.cells[p]? :=
    List.getElem?_append_left hp
  refine ⟨howned.nodup_iff.mpr (List.nodup_cons.mpr ⟨hfresh, h.nodup⟩), ?_, h.rest, ?_, h.clean⟩
  · intro p hp
    rcases List.mem_cons.mp (howned.mem_iff.mp hp) with rfl | hp
    · exact ⟨_, hnew, rfl⟩
    · obtain ⟨c, hc, hf⟩ := h.live p hp
      exact ⟨c, by rw [hold p (hlt p hp)]; exact hc, hf⟩
  · have hsame : heldBytes (s.cells ++ [⟨1, len, false⟩]) s.held = heldBytes s.cells s.held := by
      apply heldBytes_congr
      intro p hp
      rw [bytesAt, hold p (hlt p (h.held_sublist.subset hp)), bytesAt]
    have hbal := h.balance
    change s.returned + len.toNat = s.exported + heldBytes _ (agIp.pointers ++ _)
    rw [heldBytes_perm _ hheld, List.cons_append, heldBytes_cons, bytesAt_some hnew]
    change _ = s.exported + (len.toNat + heldBytes _ s.held)
    rw [hsame]
    omega

theorem IpInv.swap (h : IpInv s) {i : Nat} (hpc : s.passes[i]? = some .entered) :
    IpInv { s with
      agIp := .null
      flagExport := true
      passes := s.passes.set i (.exporting s.agIp s.agIp.inOrder) } := by
  obtain ⟨l₁, l₂, hsplit, hset, -⟩ := getElem?_split hpc
  have hnd := h.nodup
  have hbal := h.balance
  have hrest := h.rest
  have hlive := h.live
  rw [IpState.owned, hsplit, List.flatMap_append, List.flatMap_cons] at hnd hlive
  rw [IpState.held, hsplit, List.flatMap_append, List.flatMap_cons] at hbal
  rw [hsplit] at hrest
  have howned : (l₁.flatMap (·.backup) ++ (s.agIp.pointers ++ l₂.flatMap (·.backup))).Perm
      (s.agIp.pointers ++ (l₁.flatMap (·.backup) ++ ([] ++ l₂.flatMap (·.backup)))) :=
    List.perm_append_comm_assoc _ _ _
  have hheld : (l₁.flatMap (·.rest) ++ (s.agIp.pointers ++ l₂.flatMap (·.rest))).Perm
      (s.agIp.pointers ++ (l₁.flatMap (·.rest) ++ ([] ++ l₂.flatMap (·.rest)))) :=
    List.perm_append_comm_assoc _ _ _
  have howned' : IpState.owned { s with
      agIp := .null
      flagExport := true
      passes := s.passes.set i (.exporting s.agIp s.agIp.inOrder) } =
      l₁.flatMap (·.backup) ++ (s.agIp.pointers ++ l₂.flatMap (·.backup)) := by
    simp [IpState.owned, hset, ITreeNode.pointers, ITreeNode.inOrder, SyncPc.backup]
  have hheld' : IpState.held { s with
      agIp := .null
      flagExport := true
      passes := s.passes.set i (.exporting s.agIp s.agIp.inOrder) } =
      l₁.flatMap (·.rest) ++ (s.agIp.pointers ++ l₂.flatMap (·.rest)) := by
    simp [IpState.held, hset, ITreeNode.pointers, ITreeNode.inOrder, SyncPc.rest]
  refine ⟨?_, ?_, ?_, ?_, h.clean⟩
  · rw [howned']
    exact howned.nodup_iff.mpr hnd
  · rw [howned']
    intro p hp
    exact hlive p (howned.mem_iff.mp hp)
  · intro pc hm
    change pc ∈ s.passes.set i _ at hm
    rw [hset] at hm
    rcases List.mem_append.mp hm with hm | hm
    · exact hrest pc (List.mem_append_left _ hm)
    · rcases List.mem_cons.mp hm with rfl | hm
      · exact List.Sublist.refl _
      · exact hrest pc (List.mem_append_right _ (List.mem_cons_of_mem _ hm))
  · rw [hheld', heldBytes_perm _ hheld]
    exact hbal

theorem IpInv.exportNode (h : IpInv s) {i ptr : Nat} {key : StKey} {cell : IpCell}
    {backup : ITreeNode StKey Nat} {rest : List (StKey × Nat)}
    (hpc : s.passes[i]? = some (.exporting backup ((key, ptr) :: rest)))
    (hcell : s.cells[ptr]? = some cell) :
    IpInv { s with
      passes := s.passes.set i (.exporting backup rest)
      exported := s.exported + cell.bytes.toNat } := by
  obtain ⟨l₁, l₂, hsplit, hset, -⟩ := getElem?_split hpc
  have hbal := h.balance
  have hrest := h.rest
  rw [IpState.held, hsplit, List.flatMap_append, List.flatMap_cons] at hbal
  rw [hsplit] at hrest
  have hheld : (s.agIp.pointers ++ (l₁.flatMap (·.rest) ++
      (SyncPc.rest (.exporting backup ((key, ptr) :: rest)) ++ l₂.flatMap (·.rest)))).Perm
      (ptr :: (s.agIp.pointers ++ (l₁.flatMap (·.rest) ++
        (SyncPc.rest (.exporting backup rest) ++ l₂.flatMap (·.rest))))) := by
    have hfront (A B C : List Nat) : (A ++ (B ++ ptr :: C)).Perm (ptr :: (A ++ (B ++ C))) := by
      rw [← List.append_assoc, ← List.append_assoc]
      exact List.perm_middle
    exact hfront _ _ _
  have howned : IpState.owned { s with
      passes := s.passes.set i (.exporting backup rest)
      exported := s.exported + cell.bytes.toNat } = s.owned := by
    change s.agIp.pointers ++ (s.passes.set i _).flatMap _ = s.agIp.pointers ++ _
    rw [hset, hsplit]
    simp [SyncPc.backup]
  refine ⟨howned ▸ h.nodup, howned ▸ h.live, ?_, ?_, h.clean⟩
  · intro pc hm
    change pc ∈ s.passes.set i _ at hm
    rw [hset] at hm
    have hwas := hrest (.exporting backup ((key, ptr) :: rest)) (by simp)
    rcases List.mem_append.mp hm with hm | hm
    · exact hrest pc (List.mem_append_left _ hm)
    · rcases List.mem_cons.mp hm with rfl | hm
      · exact (List.sublist_cons_self _ _).trans hwas
      · exact hrest pc (List.mem_append_right _ (List.mem_cons_of_mem _ hm))
  · rw [heldBytes_perm _ hheld, heldBytes_cons, bytesAt_some hcell] at hbal
    have hheld' : IpState.held { s with
        passes := s.passes.set i (.exporting backup rest)
        exported := s.exported + cell.bytes.toNat } =
        s.agIp.pointers ++ (l₁.flatMap (·.rest) ++
          (SyncPc.rest (.exporting backup rest) ++ l₂.flatMap (·.rest))) := by
      simp [IpState.held, hset]
    rw [hheld']
    change s.returned = s.exported + cell.bytes.toNat + heldBytes s.cells _
    omega

/-- Freeing a walked tree touches no node of another. -/
theorem IpInv.free (h : IpInv s) {i : Nat} {backup : ITreeNode StKey Nat}
    (hpc : s.passes[i]? = some (.exporting backup [])) :
    IpInv { s with
      cells := s.cells.mapIdx fun p cell =>
        if p ∈ backup.pointers then { cell with freed := true } else cell
      flagExport := false
      passes := s.passes.eraseIdx i } := by
  obtain ⟨l₁, l₂, hsplit, -, herase⟩ := getElem?_split hpc
  have hnd := h.nodup
  have hbal := h.balance
  have hrest := h.rest
  have hlive := h.live
  rw [IpState.owned, hsplit, List.flatMap_append, List.flatMap_cons] at hnd hlive
  rw [IpState.held, hsplit, List.flatMap_append, List.flatMap_cons] at hbal
  rw [hsplit] at hrest
  set freed := s.cells.mapIdx fun p cell =>
    if p ∈ backup.pointers then { cell with freed := true } else cell with hfreed
  have howned : (s.agIp.pointers ++ (l₁.flatMap (·.backup) ++
      (SyncPc.backup (.exporting backup []) ++ l₂.flatMap (·.backup)))).Perm
      (backup.pointers ++
        (s.agIp.pointers ++ (l₁.flatMap (·.backup) ++ l₂.flatMap (·.backup)))) := by
    rw [← List.append_assoc, ← List.append_assoc s.agIp.pointers]
    exact List.perm_append_comm_assoc _ _ _
  have hnd' := howned.nodup_iff.mp hnd
  have hbytes (p : Nat) : bytesAt freed p = bytesAt s.cells p := by
    unfold bytesAt
    rw [hfreed, List.getElem?_mapIdx]
    cases s.cells[p]? with
    | none => rfl
    | some c =>
      simp only [Option.map_some]
      split_ifs <;> rfl
  have howned' : IpState.owned { s with
      cells := freed
      flagExport := false
      passes := s.passes.eraseIdx i } =
      s.agIp.pointers ++ (l₁.flatMap (·.backup) ++ l₂.flatMap (·.backup)) := by
    simp [IpState.owned, herase]
  have hheld' : IpState.held { s with
      cells := freed
      flagExport := false
      passes := s.passes.eraseIdx i } =
      s.agIp.pointers ++ (l₁.flatMap (·.rest) ++ l₂.flatMap (·.rest)) := by
    simp [IpState.held, herase]
  refine ⟨?_, ?_, ?_, ?_, h.clean⟩
  · rw [howned']
    exact (List.nodup_append.mp hnd').2.1
  · rw [howned']
    intro p hp
    obtain ⟨c, hc, hf⟩ := hlive p (howned.mem_iff.mpr (List.mem_append_right _ hp))
    have hnot : p ∉ backup.pointers := by
      intro hm
      exact (List.nodup_append.mp hnd').2.2 p hm p hp rfl
    refine ⟨c, ?_, hf⟩
    change freed[p]? = some c
    rw [hfreed, List.getElem?_mapIdx, hc, Option.map_some, if_neg hnot]
  · intro pc hm
    change pc ∈ s.passes.eraseIdx i at hm
    rw [herase] at hm
    rcases List.mem_append.mp hm with hm | hm
    · exact hrest pc (List.mem_append_left _ hm)
    · exact hrest pc (List.mem_append_right _ (List.mem_cons_of_mem _ hm))
  · rw [hheld']
    change s.returned = s.exported + heldBytes freed _
    rw [heldBytes_congr fun p _ => hbytes p]
    simpa [SyncPc.rest] using hbal

/-- What one step keeps, when a finishing call's lookup still holds. -/
theorem IpInv.step (h : IpInv s) {op : IpOp} (hno : NoOverflow s op) (hl : LookupHolds s op)
    (hs : ipStep s op = some s') : IpInv s' := by
  cases op with
  | acct info data pad1 pad2 =>
    simp only [ipStep, Option.some.injEq] at hs
    subst hs
    unfold ipLookup
    split <;> exact h.of_same rfl rfl (.inl rfl) rfl rfl rfl
  | finish i =>
    simp only [ipStep, ipFinish] at hs
    split at hs
    · cases hs
    · rename_i ptr len hpc
      split at hs
      · cases hs
      · rename_i cell hcell
        cases hs
        exact h.update hcell (hl _ hpc) (hno _ hpc)
    · rename_i key len hpc
      split at hs
      · cases hs
      · rename_i agIp b hins
        cases hs
        exact h.insert hins (hl _ hpc)
  | enter =>
    simp only [ipStep, Option.some.injEq] at hs
    subst hs
    split
    · exact h
    · exact h.of_same rfl rfl (.inr rfl) rfl rfl rfl
  | swap i =>
    simp only [ipStep, ipSwap] at hs
    split at hs
    · rename_i hpc
      cases hs
      exact h.swap hpc
    · cases hs
  | exportNode i =>
    simp only [ipStep, ipExport] at hs
    split at hs
    · rename_i hpc
      split at hs
      · cases hs
      · rename_i hcell
        cases hs
        exact h.exportNode hpc hcell
    · cases hs
  | free i =>
    simp only [ipStep, ipFree] at hs
    split at hs
    · rename_i hpc
      cases hs
      exact h.free hpc
    · cases hs

/-- While every call finishes on what it looked up, no freed node is written and, with no
call or pass under way, the bytes of returned calls are those exported and those held. -/
theorem ip_conserves (ops : List IpOp) (s : IpState)
    (hrun : Run.exec ipStep ipInit ops = some s)
    (hno : Run.Guarded ipStep NoOverflow ipInit ops)
    (hl : Run.Guarded ipStep LookupHolds ipInit ops) :
    s.wroteFreed = false ∧
      (s.accts = [] → s.passes = [] →
        s.returned = s.exported + heldBytes s.cells s.agIp.pointers) := by
  have hinv : IpInv s :=
    Run.exec_invariant (fun s op s' h hg hs => IpInv.step h hg.1 hg.2 hs) ipInit_inv
      (hno.and hl) hrun
  refine ⟨hinv.clean, fun _ hp => ?_⟩
  have hbal := hinv.balance
  rwa [IpState.held, hp, List.flatMap_nil, List.append_nil] at hbal

end

instance (s : IpState) : ∀ pc, Decidable (AcctPc.Fits s pc)
  | .update ptr len => inferInstanceAs (Decidable (bytesAt s.cells ptr + len.toNat < 4294967296))
  | .insert _ _ => inferInstanceAs (Decidable True)

instance (s : IpState) : ∀ pc, Decidable (AcctPc.Current s pc)
  | .update ptr _ => inferInstanceAs (Decidable (ptr ∈ s.held))
  | .insert key _ => inferInstanceAs (Decidable (s.agIp.lookup ipCompare key = none))

instance (s : IpState) : ∀ op, Decidable (NoOverflow s op)
  | .finish i => inferInstanceAs (Decidable (∀ pc ∈ s.accts[i]?, pc.Fits s))
  | .acct .. | .enter | .swap _ | .exportNode _ | .free _ => inferInstanceAs (Decidable True)

instance (s : IpState) : ∀ op, Decidable (LookupHolds s op)
  | .finish i => inferInstanceAs (Decidable (∀ pc ∈ s.accts[i]?, pc.Current s))
  | .acct .. | .enter | .swap _ | .exportNode _ | .free _ => inferInstanceAs (Decidable True)

/-- One call with a packet of 1500 bytes. -/
def acct1500 : IpOp :=
  .acct ⟨[], 6, 16777226, 33554442, 443, 50000⟩ ⟨.traffic, 1, 7, 1, 0, 0, 0, 1500⟩ 0 0

/-- A call returns, a second one is charged while its tree is being exported. -/
def chargedInTime : List IpOp :=
  [acct1500, .finish 0, acct1500, .enter, .swap 0, .finish 0, .exportNode 0, .free 0]

/-- The second call comes back after its tree was exported and freed. -/
def chargedLate : List IpOp :=
  [acct1500, .finish 0, acct1500, .enter, .swap 0, .exportNode 0, .free 0, .finish 0]

/-- The state a run ends in, where it has one. -/
def ipRun (ops : List IpOp) : IpState := (Run.exec ipStep ipInit ops).getD ipInit

theorem ip_conserves_in_time :
    (ipRun chargedInTime).wroteFreed = false ∧
      ((ipRun chargedInTime).accts = [] → (ipRun chargedInTime).passes = [] →
        (ipRun chargedInTime).returned = (ipRun chargedInTime).exported +
          heldBytes (ipRun chargedInTime).cells (ipRun chargedInTime).agIp.pointers) :=
  ip_conserves chargedInTime _ (by rfl) (by decide) (by decide)

/-- 1500 of the 3000 bytes are written into freed memory and lost. -/
theorem ip_loses_late :
    (Run.exec ipStep ipInit chargedLate).isSome ∧
      Run.Guarded ipStep NoOverflow ipInit chargedLate ∧
      (ipRun chargedLate).accts = [] ∧ (ipRun chargedLate).passes = [] ∧
      (ipRun chargedLate).wroteFreed = true ∧ (ipRun chargedLate).returned = 3000 ∧
      (ipRun chargedLate).exported = 1500 ∧
      heldBytes (ipRun chargedLate).cells (ipRun chargedLate).agIp.pointers = 0 := by
  decide

end IPStat
