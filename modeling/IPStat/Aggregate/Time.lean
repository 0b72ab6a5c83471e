import IPStat.Aggregate.FiniteMap
import IPStat.Aggregate.Ip
import IPStat.Core.Sync
import IPStat.Lib.Tally
import Mathlib.Data.UInt

namespace IPStat

def timeCompare (a b : IpId) : Int := memcmp (bytes32 a) (bytes32 b)

section
variable {as bs cs : List UInt8}

theorem memcmp_neg_iff : memcmp as bs < 0 ↔ 0 < memcmp bs as := by
  induction as generalizing bs with
  | nil => cases bs <;> simp [memcmp]
  | cons a as ih =>
    cases bs with
    | nil => simp [memcmp]
    | cons b bs =>
      simp only [memcmp, UInt8.lt_iff_toNat_lt]
      split_ifs <;> first | omega | exact ih

theorem memcmp_zero_iff (h : as.length = bs.length) : memcmp as bs = 0 ↔ as = bs := by
  induction as generalizing bs with
  | nil =>
    cases bs with
    | nil => simp [memcmp]
    | cons b bs => cases h
  | cons a as ih =>
    cases bs with
    | nil => cases h
    | cons b bs =>
      have hlen : as.length = bs.length := Nat.succ.inj h
      simp only [memcmp, List.cons.injEq, ← ih hlen, ← UInt8.toNat_inj, UInt8.lt_iff_toNat_lt]
      split_ifs with hlt hgt
      · have hne : a.toNat ≠ b.toNat := by omega
        simp [hne]
      · have hne : a.toNat ≠ b.toNat := by omega
        simp [hne]
      · have heq : a.toNat = b.toNat := by omega
        simp [heq]

theorem memcmp_trans (h : as.length = bs.length) (h' : bs.length = cs.length)
    (hab : memcmp as bs < 0) (hbc : memcmp bs cs < 0) : memcmp as cs < 0 := by
  induction as generalizing bs cs with
  | nil => simp [memcmp] at hab
  | cons a as ih =>
    cases bs with
    | nil => cases h
    | cons b bs =>
      cases cs with
      | nil => cases h'
      | cons c cs =>
        simp only [memcmp, UInt8.lt_iff_toNat_lt] at hab hbc ⊢
        have hrest : memcmp as bs < 0 → memcmp bs cs < 0 → memcmp as cs < 0 :=
          ih (Nat.succ.inj h) (Nat.succ.inj h')
        split_ifs at * <;> omega

end

/-- memcmp on the images of keys of one size orders the keys. -/
theorem memcmp_strictTotal {κ : Type} (bytes : κ → List UInt8) (n : Nat)
    (hlen : ∀ k, (bytes k).length = n) (hinj : Function.Injective bytes) :
    Assoc.StrictTotal fun a b => memcmp (bytes a) (bytes b) where
  zero_iff := by
    intro a b
    rw [memcmp_zero_iff ((hlen a).trans (hlen b).symm)]
    exact hinj.eq_iff
  neg_iff := by
    intro a b
    exact memcmp_neg_iff
  trans := by
    intro a b c hab hbc
    have hab' := (hlen a).trans (hlen b).symm
    have hbc' := (hlen b).trans (hlen c).symm
    exact memcmp_trans hab' hbc' hab hbc

theorem bytes32_injective : Function.Injective bytes32 := by
  intro a b h
  simp only [bytes32, bytes16, List.cons_append, List.nil_append, List.cons.injEq, and_true,
    ← UInt8.toNat_inj] at h
  rw [← UInt32.toNat_inj]
  have ha := a.toNat_lt
  have hb := b.toNat_lt
  simp [Nat.shiftRight_eq_div_pow] at h
  omega

theorem timeCompare_strictTotal : Assoc.StrictTotal timeCompare :=
  memcmp_strictTotal bytes32 4 (fun _ => rfl) bytes32_injective

/-- time_acct past its lookup, with the address of the value it found. -/
inductive TimePc where
  | update (idUser : IpId) (ptr : Nat) (len : IpSize)
  | insert (idUser : IpId) (len : IpSize)
  deriving DecidableEq, Repr

/-- time_traverse_sync between its sections: `tmp` taken out, or its export failed. -/
inductive VisitPc where
  | walking
  | taken (idUser : IpId) (size : Nat) (tmp : IpSize)
  | failed (idUser : IpId) (size : Nat) (tmp : IpSize)
  deriving DecidableEq, Repr

/-- The module's variables, the call and the passes under way, and for each user the bytes of
calls that answered TRUE and the bytes of exports that did. -/
structure TimeState where
  cells : List IpSize
  agTime : ITree IpId Nat
  collector : Option TimePc
  passes : List VisitPc
  accounted : IpId → IpSize
  exported : IpId → IpSize

def timeInit : TimeState := ⟨[], iTreeNew timeCompare, none, [], fun _ => 0, fun _ => 0⟩

/-- The walk of time_sync takes no lock, so that it can meet any node of the live tree. -/
inductive TimeOp where
  | acct (data : PacketDataInfo)
  | finish (keyAlloc valueAlloc nodeAlloc : Bool)
  | enter
  | take (i : Nat) (idUser : IpId)
  | timeExport (i : Nat) (ok : Bool)
  | giveBack (i : Nat)
  | leave (i : Nat)

def timeLookup (s : TimeState) (idUser : IpId) (len : IpSize) : Option TimeState :=
  match s.collector with
  | some _ => none
  | none =>
    match iTreeLookup s.agTime idUser with
    | some ptr => some { s with collector := some (.update idUser ptr len) }
    | none => some { s with collector := some (.insert idUser len) }

/-- The locked section of time_acct, and its return. -/
def timeFinish (s : TimeState) (keyAlloc valueAlloc nodeAlloc : Bool) : Option TimeState :=
  match s.collector with
  | none => none
  | some (.update idUser ptr len) =>
    match s.cells[ptr]? with
    | none => none
    | some val => some { s with
        cells := s.cells.set ptr (val + len)
        collector := none
        accounted := bump s.accounted idUser len }
  | some (.insert idUser len) =>
    if keyAlloc ∧ valueAlloc then
      match iTreeInsert nodeAlloc s.agTime idUser s.cells.length with
      | none => none
      | some (agTime, _) => some { s with
          cells := s.cells ++ [len]
          agTime := agTime
          collector := none
          accounted := bump s.accounted idUser len }
    else some { s with collector := none }

/-- The first section of time_traverse_sync. -/
def timeTake (s : TimeState) (i : Nat) (idUser : IpId) : Option TimeState :=
  match s.passes[i]?, iTreeLookup s.agTime idUser with
  | some .walking, some size =>
    match s.cells[size]? with
    | none => none
    | some tmp => some { s with
        cells := s.cells.set size (tmp - tmp)
        passes := s.passes.set i (.taken idUser size tmp) }
  | _, _ => none

/-- time_export, with what its statements answer. -/
def timeExport (s : TimeState) (i : Nat) (ok : Bool) : Option TimeState :=
  match s.passes[i]? with
  | some (.taken idUser size tmp) =>
    if ok then some { s with
        passes := s.passes.set i .walking
        exported := bump s.exported idUser tmp }
    else some { s with passes := s.passes.set i (.failed idUser size tmp) }
  | _ => none

/-- The section of time_traverse_sync after a failed export. -/
def timeGiveBack (s : TimeState) (i : Nat) : Option TimeState :=
  match s.passes[i]? with
  | some (.failed _ size tmp) =>
    match s.cells[size]? with
    | none => none
    | some val => some { s with
        cells := s.cells.set size (val + tmp)
        passes := s.passes.set i .walking }
  | _ => none

def timeLeave (s : TimeState) (i : Nat) : Option TimeState :=
  match s.passes[i]? with
  | some .walking => some { s with passes := s.passes.eraseIdx i }
  | _ => none

def timeStep (s : TimeState) : TimeOp → Option TimeState
  | .acct data => timeLookup s data.idUser data.len
  | .finish keyAlloc valueAlloc nodeAlloc => timeFinish s keyAlloc valueAlloc nodeAlloc
  | .enter => some { s with passes := s.passes ++ [.walking] }
  | .take i idUser => timeTake s i idUser
  | .timeExport i ok => timeExport s i ok
  | .giveBack i => timeGiveBack s i
  | .leave i => timeLeave s i

/-- The value in a user's node. -/
def nodeValue (cells : List IpSize) (agTime : ITree IpId Nat) (idUser : IpId) : IpSize :=
  match iTreeLookup agTime idUser with
  | none => 0
  | some ptr => cells[ptr]?.getD 0

/-- What a pass has taken out of a user's node and not yet exported or given back. -/
def VisitPc.pending (idUser : IpId) : VisitPc → IpSize
  | .walking => 0
  | .taken id _ tmp | .failed id _ tmp => if id = idUser then tmp else 0

def inFlight (passes : List VisitPc) (idUser : IpId) : IpSize :=
  Tally.tally (VisitPc.pending idUser) passes

/-- The books of every user are balanced, modulo 2^32. -/
def TimeState.Conserved (s : TimeState) : Prop :=
  ∀ idUser, s.accounted idUser =
    s.exported idUser + nodeValue s.cells s.agTime idUser + inFlight s.passes idUser

def TimePc.needsNode : TimePc → Bool
  | .update .. => false
  | .insert .. => true

/-- The allocation that time_acct does not check, the one for a user with no node yet. -/
def NodeAllocated (s : TimeState) : TimeOp → Prop
  | .finish keyAlloc valueAlloc nodeAlloc =>
    s.collector.any TimePc.needsNode → keyAlloc → valueAlloc → nodeAlloc
  | _ => True

/-- A value that a call or a pass points to is the one in its user's node. -/
def TimePc.Holds (agTime : ITree IpId Nat) : TimePc → Prop
  | .update idUser ptr _ => iTreeLookup agTime idUser = some ptr
  | .insert idUser _ => iTreeLookup agTime idUser = none

def VisitPc.Holds (agTime : ITree IpId Nat) : VisitPc → Prop
  | .walking => True
  | .taken idUser size _ | .failed idUser size _ => iTreeLookup agTime idUser = some size

/-- Every node has a value of its own. -/
structure ITree.Owns (agTime : ITree IpId Nat) (n : Nat) : Prop where
  valid : agTime.Valid
  cmp : agTime.cmpFunc = timeCompare
  bounded : ∀ idUser ptr, iTreeLookup agTime idUser = some ptr → ptr < n
  distinct : ∀ idUser id ptr, iTreeLookup agTime idUser = some ptr →
    iTreeLookup agTime id = some ptr → idUser = id

structure TimeInv (s : TimeState) : Prop where
  owns : s.agTime.Owns s.cells.length
  collector : ∀ pc ∈ s.collector, pc.Holds s.agTime
  passes : ∀ pc ∈ s.passes, pc.Holds s.agTime
  conserved : s.Conserved

open scoped UInt32.CommRing

section
variable {cells : List IpSize} {agTime : ITree IpId Nat} {idUser : IpId} {ptr : Nat}

theorem nodeValue_some (h : iTreeLookup agTime idUser = some ptr) :
    nodeValue cells agTime idUser = cells[ptr]?.getD 0 := by
  rw [nodeValue, h]

theorem nodeValue_none (h : iTreeLookup agTime idUser = none) :
    nodeValue cells agTime idUser = 0 := by
  rw [nodeValue, h]

/-- Writing one user's value changes no other's. -/
theorem nodeValue_set (ho : agTime.Owns cells.length)
    (h : iTreeLookup agTime idUser = some ptr) (val : IpSize) (id : IpId) :
    nodeValue (cells.set ptr val) agTime id =
      if id = idUser then val else nodeValue cells agTime id := by
  by_cases hid : id = idUser
  · subst hid
    have hlt := ho.bounded id ptr h
    rw [if_pos rfl, nodeValue_some h, List.getElem?_set_self hlt]
    rfl
  rw [if_neg hid]
  cases hl : iTreeLookup agTime id with
  | none => rw [nodeValue_none hl, nodeValue_none hl]
  | some ptr' =>
    have hne : ptr ≠ ptr' := by
      intro heq
      subst heq
      exact hid (ho.distinct id idUser ptr hl h)
    rw [nodeValue_some hl, nodeValue_some hl, List.getElem?_set_ne hne]

/-- A new node takes the next value and leaves the others where they are. -/
theorem ITree.Owns.insert (ho : agTime.Owns cells.length)
    (h : iTreeLookup agTime idUser = none) (len : IpSize) :
    ∃ agTime' inserted, iTreeInsert true agTime idUser cells.length = some (agTime', inserted) ∧
      agTime'.Owns (cells ++ [len]).length ∧
      (∀ id, iTreeLookup agTime' id =
        if idUser = id then some cells.length else iTreeLookup agTime id) ∧
      ∀ id, nodeValue (cells ++ [len]) agTime' id =
        if id = idUser then len else nodeValue cells agTime id := by
  have hc : Assoc.StrictTotal agTime.cmpFunc := ho.cmp ▸ timeCompare_strictTotal
  obtain ⟨agTime', inserted, hins, hcmp, hv, -, hl⟩ :=
    iTreeInsert_spec hc ho.valid idUser cells.length
  have hfresh : ∀ id ptr, iTreeLookup agTime' id = some ptr →
      (idUser = id ∧ ptr = cells.length) ∨
        (idUser ≠ id ∧ iTreeLookup agTime id = some ptr ∧ ptr < cells.length) := by
    intro id ptr hp
    rw [hl] at hp
    split_ifs at hp with hid
    · exact .inl ⟨hid, (Option.some.inj hp).symm⟩
    · exact .inr ⟨hid, hp, ho.bounded id ptr hp⟩
  refine ⟨agTime', inserted, hins, ⟨hv, hcmp.trans ho.cmp, ?_, ?_⟩, hl, ?_⟩
  · intro id ptr hp
    have hlen : (cells ++ [len]).length = cells.length + 1 := List.length_append
    obtain ⟨-, hptr⟩ | ⟨-, -, hptr⟩ := hfresh id ptr hp <;> omega
  · intro id id' ptr hp hp'
    obtain ⟨hid, hptr⟩ | ⟨-, hold, hptr⟩ := hfresh id ptr hp
    · obtain ⟨hid', -⟩ | ⟨-, -, hptr'⟩ := hfresh id' ptr hp'
      · exact hid.symm.trans hid'
      · omega
    · obtain ⟨-, hptr'⟩ | ⟨-, hold', -⟩ := hfresh id' ptr hp'
      · omega
      · exact ho.distinct id id' ptr hold hold'
  · intro id
    by_cases hid : id = idUser
    · subst hid
      have hself : iTreeLookup agTime' id = some cells.length := by rw [hl, if_pos rfl]
      rw [if_pos rfl, nodeValue_some hself, List.getElem?_concat_length]
      rfl
    have hother : iTreeLookup agTime' id = iTreeLookup agTime id := by
      rw [hl, if_neg (Ne.symm hid)]
    rw [if_neg hid]
    cases hp : iTreeLookup agTime id with
    | none => rw [nodeValue_none (hother.trans hp), nodeValue_none hp]
    | some ptr =>
      have hlt := ho.bounded id ptr hp
      rw [nodeValue_some (hother.trans hp), nodeValue_some hp, List.getElem?_append_left hlt]

end

section
variable {s s' : TimeState}

theorem timeInit_inv : TimeInv timeInit where
  owns := {
    valid := iTreeNew_valid timeCompare
    cmp := rfl
    bounded := by
      intro idUser ptr h
      cases h
    distinct := by
      intro idUser id ptr h
      cases h }
  collector := by
    intro pc h
    cases h
  passes := by
    intro pc h
    cases h
  conserved := by
    intro idUser
    rfl

theorem inFlight_set {passes : List VisitPc} {i : Nat} {pc : VisitPc} (h : passes[i]? = some pc)
    (pc' : VisitPc) (idUser : IpId) :
    inFlight (passes.set i pc') idUser + pc.pending idUser =
      inFlight passes idUser + pc'.pending idUser :=
  Tally.tally_set pc' h

theorem VisitPc.Holds.mono {agTime agTime' : ITree IpId Nat} {pc : VisitPc}
    (h : pc.Holds agTime)
    (hkeep : ∀ id size, iTreeLookup agTime id = some size → iTreeLookup agTime' id = some size) :
    pc.Holds agTime' := by
  cases pc with
  | walking => trivial
  | taken id size tmp => exact hkeep id size h
  | failed id size tmp => exact hkeep id size h

theorem passes_set (h : ∀ pc ∈ s.passes, pc.Holds s.agTime) (i : Nat) {pc' : VisitPc}
    (hpc : pc'.Holds s.agTime) : ∀ pc ∈ s.passes.set i pc', pc.Holds s.agTime := by
  intro pc hm
  rcases List.mem_or_eq_of_mem_set hm with hm | heq
  · exact h pc hm
  · exact heq ▸ hpc

/-- time_acct goes on with what its lookup found. -/
theorem timeLookup_some {idUser : IpId} {len : IpSize} (hs : timeLookup s idUser len = some s') :
    ∃ pc : TimePc, pc.Holds s.agTime ∧ s' = { s with collector := some pc } := by
  unfold timeLookup at hs
  split at hs
  · cases hs
  · split at hs
    · rename_i ptr hl
      cases hs
      exact ⟨.update idUser ptr len, hl, rfl⟩
    · rename_i hl
      cases hs
      exact ⟨.insert idUser len, hl, rfl⟩

/-- time_acct raises the value it found, gives a new user a node, or lacks the memory for one. -/
theorem timeFinish_some {keyAlloc valueAlloc nodeAlloc : Bool}
    (hs : timeFinish s keyAlloc valueAlloc nodeAlloc = some s') :
    (∃ idUser ptr len val, s.collector = some (.update idUser ptr len) ∧
        s.cells[ptr]? = some val ∧ s' = { s with
          cells := s.cells.set ptr (val + len)
          collector := none
          accounted := bump s.accounted idUser len }) ∨
      ∃ idUser len, s.collector = some (.insert idUser len) ∧
        ((keyAlloc = true ∧ valueAlloc = true) ∧ (∃ agTime inserted,
            iTreeInsert nodeAlloc s.agTime idUser s.cells.length = some (agTime, inserted) ∧
            s' = { s with
              cells := s.cells ++ [len]
              agTime := agTime
              collector := none
              accounted := bump s.accounted idUser len }) ∨
          ¬(keyAlloc = true ∧ valueAlloc = true) ∧ s' = { s with collector := none }) := by
  unfold timeFinish at hs
  split at hs
  · cases hs
  · rename_i idUser ptr len hpc
    split at hs
    · cases hs
    · rename_i val hval
      cases hs
      exact .inl ⟨idUser, ptr, len, val, hpc, hval, rfl⟩
  · rename_i idUser len hpc
    refine .inr ⟨idUser, len, hpc, ?_⟩
    split_ifs at hs with halloc
    · split at hs
      · cases hs
      · rename_i agTime inserted hins
        cases hs
        exact .inl ⟨halloc, agTime, inserted, hins, rfl⟩
    · cases hs
      exact .inr ⟨halloc, rfl⟩

theorem timeTake_some {i : Nat} {idUser : IpId} (hs : timeTake s i idUser = some s') :
    ∃ size tmp, s.passes[i]? = some .walking ∧ iTreeLookup s.agTime idUser = some size ∧
      s.cells[size]? = some tmp ∧ s' = { s with
        cells := s.cells.set size 0
        passes := s.passes.set i (.taken idUser size tmp) } := by
  unfold timeTake at hs
  split at hs
  · rename_i size hpc hl
    split at hs
    · cases hs
    · rename_i tmp hval
      rw [UInt32.sub_self] at hs
      cases hs
      exact ⟨size, tmp, hpc, hl, hval, rfl⟩
  · cases hs

theorem timeExport_some {i : Nat} {ok : Bool} (hs : timeExport s i ok = some s') :
    ∃ idUser size tmp, s.passes[i]? = some (.taken idUser size tmp) ∧
      (ok = true ∧ s' = { s with
          passes := s.passes.set i .walking
          exported := bump s.exported idUser tmp } ∨
        ok = false ∧ s' = { s with passes := s.passes.set i (.failed idUser size tmp) }) := by
  unfold timeExport at hs
  split at hs
  · rename_i idUser size tmp hpc
    refine ⟨idUser, size, tmp, hpc, ?_⟩
    cases ok with
    | true =>
      rw [if_pos rfl] at hs
      cases hs
      exact .inl ⟨rfl, rfl⟩
    | false =>
      rw [if_neg (by simp)] at hs
      cases hs
      exact .inr ⟨rfl, rfl⟩
  · cases hs

theorem timeGiveBack_some {i : Nat} (hs : timeGiveBack s i = some s') :
    ∃ idUser size tmp val, s.passes[i]? = some (.failed idUser size tmp) ∧
      s.cells[size]? = some val ∧ s' = { s with
        cells := s.cells.set size (val + tmp)
        passes := s.passes.set i .walking } := by
  unfold timeGiveBack at hs
  split at hs
  · rename_i idUser size tmp hpc
    split at hs
    · cases hs
    · rename_i val hval
      cases hs
      exact ⟨idUser, size, tmp, val, hpc, hval, rfl⟩
  · cases hs

theorem timeLeave_some {i : Nat} (hs : timeLeave s i = some s') :
    s.passes[i]? = some .walking ∧ s' = { s with passes := s.passes.eraseIdx i } := by
  unfold timeLeave at hs
  split at hs
  · rename_i hpc
    cases hs
    exact ⟨hpc, rfl⟩
  · cases hs

theorem TimeInv.lookup (h : TimeInv s) {idUser : IpId} {len : IpSize}
    (hs : timeLookup s idUser len = some s') : TimeInv s' := by
  obtain ⟨pc, hholds, rfl⟩ := timeLookup_some hs
  refine ⟨h.owns, ?_, h.passes, h.conserved⟩
  intro pc' hpc
  cases hpc
  exact hholds

/-- The bytes of a call go to its user's node. -/
theorem TimeInv.finish (h : TimeInv s) {keyAlloc valueAlloc nodeAlloc : Bool}
    (hg : NodeAllocated s (.finish keyAlloc valueAlloc nodeAlloc))
    (hs : timeFinish s keyAlloc valueAlloc nodeAlloc = some s') : TimeInv s' := by
  have hnone : ∀ agTime, ∀ pc ∈ (none : Option TimePc), pc.Holds agTime := by
    intro agTime pc hm
    cases hm
  obtain ⟨idUser, ptr, len, val, hpc, hval, rfl⟩ | ⟨idUser, len, hpc, hcase⟩ := timeFinish_some hs
  · have hl : iTreeLookup s.agTime idUser = some ptr := h.collector _ hpc
    refine ⟨?_, hnone _, h.passes, ?_⟩
    · rw [List.length_set]
      exact h.owns
    · intro id
      have hbal := h.conserved id
      change bump s.accounted idUser len id =
        s.exported id + nodeValue (s.cells.set ptr (val + len)) s.agTime id +
          inFlight s.passes id
      rw [nodeValue_set h.owns hl, bump]
      split_ifs with hid
      · subst hid
        rw [nodeValue_some hl, hval, Option.getD_some] at hbal
        grind
      · exact hbal
  · have hl : iTreeLookup s.agTime idUser = none := h.collector _ hpc
    obtain ⟨halloc, agTime', inserted', hins', rfl⟩ | ⟨-, rfl⟩ := hcase
    · have hnode : nodeAlloc = true := by
        apply hg _ halloc.1 halloc.2
        rw [hpc]
        rfl
      obtain ⟨agTime, inserted, hins, howns, hlook, hvalue⟩ := h.owns.insert hl len
      rw [hnode, hins] at hins'
      cases hins'
      refine ⟨howns, hnone _, ?_, ?_⟩
      · intro pc hm
        apply (h.passes pc hm).mono
        intro id size hsome
        have hne : idUser ≠ id := by
          intro heq
          rw [← heq, hl] at hsome
          cases hsome
        rw [hlook, if_neg hne]
        exact hsome
      · intro id
        have hbal := h.conserved id
        change bump s.accounted idUser len id =
          s.exported id + nodeValue (s.cells ++ [len]) agTime' id + inFlight s.passes id
        rw [hvalue, bump]
        split_ifs with hid
        · subst hid
          rw [nodeValue_none hl] at hbal
          grind
        · exact hbal
    · exact ⟨h.owns, hnone _, h.passes, h.conserved⟩

/-- A walk moves bytes between the value of a user and its own hands. -/
theorem TimeInv.move (h : TimeInv s) {i size : Nat} {pc : VisitPc} (pc' : VisitPc)
    {idUser : IpId} {val val' : IpSize} (hpc : s.passes[i]? = some pc)
    (hl : iTreeLookup s.agTime idUser = some size) (hval : s.cells[size]? = some val)
    (hholds : pc'.Holds s.agTime)
    (hbytes : pc.pending idUser + val = pc'.pending idUser + val')
    (hothers : ∀ id, id ≠ idUser → pc.pending id = pc'.pending id) :
    TimeInv { s with cells := s.cells.set size val', passes := s.passes.set i pc' } := by
  refine ⟨?_, h.collector, passes_set h.passes i hholds, ?_⟩
  · rw [List.length_set]
    exact h.owns
  · intro id
    have hbal := h.conserved id
    have hflight := inFlight_set hpc pc' id
    change s.accounted id =
      s.exported id + nodeValue (s.cells.set size val') s.agTime id +
        inFlight (s.passes.set i pc') id
    rw [nodeValue_set h.owns hl]
    by_cases hid : id = idUser
    · subst hid
      rw [nodeValue_some hl, hval, Option.getD_some] at hbal
      rw [if_pos rfl]
      grind
    · rw [hothers id hid] at hflight
      rw [if_neg hid, add_right_cancel hflight]
      exact hbal

theorem TimeInv.take (h : TimeInv s) {i : Nat} {idUser : IpId}
    (hs : timeTake s i idUser = some s') : TimeInv s' := by
  obtain ⟨size, tmp, hpc, hl, hval, rfl⟩ := timeTake_some hs
  apply h.move (.taken idUser size tmp) hpc hl hval hl
  · simp [VisitPc.pending]
  · intro id hid
    simp [VisitPc.pending, Ne.symm hid]

theorem TimeInv.timeExport (h : TimeInv s) {i : Nat} {ok : Bool}
    (hs : timeExport s i ok = some s') : TimeInv s' := by
  obtain ⟨idUser, size, tmp, hpc, hcase⟩ := timeExport_some hs
  have hl : iTreeLookup s.agTime idUser = some size := h.passes _ (List.mem_of_getElem? hpc)
  obtain ⟨-, rfl⟩ | ⟨-, rfl⟩ := hcase
  · refine ⟨h.owns, h.collector, passes_set h.passes i trivial, ?_⟩
    intro id
    have hbal := h.conserved id
    have hflight := inFlight_set hpc .walking id
    change s.accounted id =
      bump s.exported idUser tmp id + nodeValue s.cells s.agTime id +
        inFlight (s.passes.set i .walking) id
    simp only [VisitPc.pending] at hflight
    rw [bump]
    by_cases hid : id = idUser
    · rw [if_pos hid.symm] at hflight
      rw [if_pos hid]
      grind
    · rw [if_neg (Ne.symm hid)] at hflight
      rw [if_neg hid]
      grind
  · refine ⟨h.owns, h.collector, passes_set h.passes i hl, ?_⟩
    intro id
    have hbal := h.conserved id
    have hflight := inFlight_set hpc (.failed idUser size tmp) id
    change s.accounted id = s.exported id + nodeValue s.cells s.agTime id +
      inFlight (s.passes.set i (.failed idUser size tmp)) id
    have hsame : inFlight (s.passes.set i (.failed idUser size tmp)) id =
        inFlight s.passes id := add_right_cancel hflight
    rw [hsame]
    exact hbal

theorem TimeInv.giveBack (h : TimeInv s) {i : Nat} (hs : timeGiveBack s i = some s') :
    TimeInv s' := by
  obtain ⟨idUser, size, tmp, val, hpc, hval, rfl⟩ := timeGiveBack_some hs
  have hl : iTreeLookup s.agTime idUser = some size := h.passes _ (List.mem_of_getElem? hpc)
  apply h.move .walking hpc hl hval trivial
  · simp [VisitPc.pending, UInt32.add_comm]
  · intro id hid
    simp [VisitPc.pending, Ne.symm hid]

theorem TimeInv.leave (h : TimeInv s) {i : Nat} (hs : timeLeave s i = some s') : TimeInv s' := by
  obtain ⟨hpc, rfl⟩ := timeLeave_some hs
  refine ⟨h.owns, h.collector, ?_, ?_⟩
  · intro pc hm
    exact h.passes pc (List.mem_of_mem_eraseIdx hm)
  · intro id
    have hflight : inFlight s.passes id =
        VisitPc.pending id .walking + inFlight (s.passes.eraseIdx i) id :=
      Tally.tally_eraseIdx hpc
    rw [VisitPc.pending, zero_add] at hflight
    have hbal := h.conserved id
    rw [hflight] at hbal
    exact hbal

theorem TimeInv.enter (h : TimeInv s) :
    TimeInv { s with passes := s.passes ++ [.walking] } := by
  refine ⟨h.owns, h.collector, ?_, ?_⟩
  · intro pc hm
    rcases List.mem_append.mp hm with hm | hm
    · exact h.passes pc hm
    · rw [List.mem_singleton.mp hm]
      trivial
  · intro id
    have hflight : inFlight (s.passes ++ [.walking]) id = inFlight s.passes id := by
      rw [inFlight, Tally.tally_append, Tally.tally_cons, Tally.tally_nil, VisitPc.pending,
        add_zero, add_zero, inFlight]
    have hbal := h.conserved id
    rw [← hflight] at hbal
    exact hbal

theorem TimeInv.step (h : TimeInv s) {op : TimeOp} (hg : NodeAllocated s op)
    (hs : timeStep s op = some s') : TimeInv s' := by
  cases op with
  | acct data => exact h.lookup hs
  | finish keyAlloc valueAlloc nodeAlloc => exact h.finish hg hs
  | enter =>
    cases hs
    exact h.enter
  | take i idUser => exact h.take hs
  | timeExport i ok => exact h.timeExport hs
  | giveBack i => exact h.giveBack hs
  | leave i => exact h.leave hs

/-- While every node it needs is allocated, time aggregation conserves each user's traffic. -/
theorem time_conserves (ops : List TimeOp) (s : TimeState)
    (hrun : Run.exec timeStep timeInit ops = some s)
    (hg : Run.Guarded timeStep NodeAllocated timeInit ops) : s.Conserved := by
  have hinv : TimeInv s :=
    Run.exec_invariant (fun _ _ _ h hg hs => TimeInv.step h hg hs) timeInit_inv hg hrun
  exact hinv.conserved

end

instance (s : TimeState) : ∀ op, Decidable (NodeAllocated s op)
  | .finish keyAlloc valueAlloc nodeAlloc => inferInstanceAs (Decidable
      (s.collector.any TimePc.needsNode → keyAlloc → valueAlloc → nodeAlloc))
  | .acct _ | .enter | .take _ _ | .timeExport _ _ | .giveBack _ | .leave _ =>
    inferInstanceAs (Decidable True)

/-- A packet of 1500 bytes of a user. -/
def timePacket (idUser : IpId) : PacketDataInfo := ⟨.traffic, 1, idUser, 1, 0, 0, 0, 1500⟩

/-- A failed export whose value is given back after more traffic, then a good one. -/
def exportedTwice : List TimeOp :=
  [.acct (timePacket 7), .finish true true true, .acct (timePacket 9), .finish true true true,
    .enter, .take 0 7, .acct (timePacket 7), .timeExport 0 false, .finish true true true,
    .giveBack 0, .take 0 7, .timeExport 0 true, .take 0 9]

/-- The state a run ends in, where it has one. -/
def timeRun (ops : List TimeOp) : TimeState := (Run.exec timeStep timeInit ops).getD timeInit

theorem time_conserves_given_back : (timeRun exportedTwice).Conserved :=
  time_conserves exportedTwice _ (by rfl) (by decide)

/-- The first packet of a user, with no memory for the tree's node: the call answers TRUE and
the 1500 bytes are nowhere. -/
theorem time_loses_node :
    ∃ s, Run.exec timeStep timeInit [.acct (timePacket 7), .finish true true false] = some s ∧
      s.accounted 7 = 1500 ∧ ¬ s.Conserved := by
  refine ⟨_, rfl, rfl, ?_⟩
  intro h
  have h7 := h 7
  revert h7
  decide

end IPStat
