import IPStat.Lib.Run
import IPStat.Types
import Mathlib.Data.List.Basic

namespace IPStat

abbrev IpBigsize := UInt64

structure NodeGroupLimit where
  id : IpId
  idUser : IpId
  idGroup : IpId
  type : IpId
  limitation : IpBigsize
  traffic : IpBigsize
  alpha : IpBigsize
  onblocked : IpFlag
  status : IpFlag
  md5 : Md5
  deriving DecidableEq, Repr

/-- The `onactive` that my_autz and sync_traffic both compute. -/
def NodeGroupLimit.onactive (node : NodeGroupLimit) : Bool :=
  if node.onblocked ≠ 0 then false
  else if node.limitation ≠ -1 then
    if node.limitation ≤ node.traffic then false else true
  else true

/-- The two additions of my_acct. -/
def NodeGroupLimit.charge (len : IpSize) (node : NodeGroupLimit) : NodeGroupLimit :=
  { node with traffic := node.traffic + len.toUInt64, alpha := node.alpha + len.toUInt64 }

/-- What traverse_check does to one node. -/
def NodeGroupLimit.check (type : IpId) (node : NodeGroupLimit) : NodeGroupLimit :=
  if node.type = type then { node with traffic := 0 } else node

/-- The place in st_group_limit of the node that the returned pointer points to. -/
def findGroupTraffic (limits : List NodeGroupLimit) (idUser idGroup : IpId) : Option Nat :=
  limits.findIdx? fun node => node.idUser = idUser ∧ node.idGroup = idGroup

/-- The user and the traffic group of a request; a request of no known service has none. -/
def Request.pair : Request → Option (IpId × IpId)
  | .traffic _ ret => some (ret.idUser, ret.idTrafficGroup)
  | .squid _ ret => some (ret.idUser, ret.idTrafficGroup)
  | .other _ => none

/-- The bytes of a request that my_acct counts, if any. -/
def Request.counted : Request → Option IpSize
  | .traffic _ ret => if ret.notSum = 0 then some ret.len else none
  | .squid _ ret => if ret.notSum = 0 then some ret.len else none
  | .other _ => none

/-- The locked section of my_autz; it is the same for both services. -/
def autzGroup (limits : List NodeGroupLimit) (idUser idGroup : IpId) : Bool :=
  match findGroupTraffic limits idUser idGroup with
  | none => true
  | some i => (limits[i]?.map NodeGroupLimit.onactive).getD true

def myAutz (limits : List NodeGroupLimit) (req : Request) : Bool :=
  match req.pair with
  | none => false
  | some (idUser, idGroup) => autzGroup limits idUser idGroup

/-- The node that my_acct charges, and the bytes. -/
def acctNode (limits : List NodeGroupLimit) (req : Request) : Option (Nat × IpSize) := do
  let (idUser, idGroup) ← req.pair
  let len ← req.counted
  let i ← findGroupTraffic limits idUser idGroup
  return (i, len)

def myAcct (limits : List NodeGroupLimit) (req : Request) : List NodeGroupLimit × Bool :=
  match req.pair, acctNode limits req with
  | none, _ => (limits, false)
  | some _, none => (limits, true)
  | some _, some (i, len) => (limits.modify i (NodeGroupLimit.charge len), true)

/-- The update that sync_traffic sends. -/
structure TrafficUpdate where
  traffic : IpBigsize
  tDay : UInt32
  tMonth : UInt32
  onActive : Bool
  id : IpId
  deriving DecidableEq, Repr

/-- Both increments are `(int)node.alpha` printed with `%u`. -/
def trafficUpdate (node : NodeGroupLimit) : TrafficUpdate :=
  ⟨node.traffic, node.alpha.toUInt32, node.alpha.toUInt32, node.onactive, node.id⟩

/-- The columns of a Rules_GroupTraffic row that sync_traffic writes. -/
structure GroupTrafficRow where
  traffic : IpBigsize
  tDay : Nat
  tMonth : Nat
  onActive : Bool
  deriving DecidableEq, Repr

/-- Execute an update; the table's ids are its primary key. -/
def TrafficUpdate.exec (rows : IpId → GroupTrafficRow) (q : TrafficUpdate) :
    IpId → GroupTrafficRow := fun id =>
  if id = q.id then
    ⟨q.traffic, (rows id).tDay + q.tDay.toNat, (rows id).tMonth + q.tMonth.toNat, q.onActive⟩
  else rows id

/-- A sync_traffic pass: about to take a node, with its copy, or past a failed update. -/
inductive TrafficPc where
  | walking (next : Nat)
  | copied (ptr : Nat) (node : NodeGroupLimit)
  | failed (ptr : Nat) (node : NodeGroupLimit)
  deriving DecidableEq, Repr

/-- The module between load and unload, the table behind it, each collector with the pair it
is authorised for, and the bytes added to the alpha of each row's node. -/
structure LimitState where
  limits : List NodeGroupLimit
  loaded : Bool
  rows : IpId → GroupTrafficRow
  collectors : List (Option (IpId × IpId))
  passes : List TrafficPc
  added : IpId → Nat

inductive LimitOp where
  | autz (i : Nat) (req : Request)
  | acct (i : Nat) (req : Request)
  | enter
  | take (i : Nat)
  | exec (i : Nat) (ok : Bool)
  | giveBack (i : Nat)
  | leave (i : Nat)
  | check (type : IpId)
  | unload

def limitAutz (s : LimitState) (i : Nat) (req : Request) : LimitState :=
  { s with collectors := s.collectors.set i (if myAutz s.limits req then req.pair else none) }

def limitAcct (s : LimitState) (i : Nat) (req : Request) : LimitState :=
  { s with
    limits := (myAcct s.limits req).1
    collectors := s.collectors.set i none
    added :=
      match acctNode s.limits req with
      | none => s.added
      | some (ptr, len) => fun id =>
        if (s.limits[ptr]?.map NodeGroupLimit.id) = some id then s.added id + len.toNat
        else s.added id }

/-- The first section of sync_traffic; past unload the list it walks is freed. -/
def limitTake (s : LimitState) (i : Nat) : Option LimitState :=
  match s.passes[i]? with
  | some (.walking next) =>
    match s.loaded, s.limits[next]? with
    | true, some node => some { s with
        limits := s.limits.modify next fun node => { node with alpha := 0 }
        passes := s.passes.set i (.copied next node) }
    | _, _ => none
  | _ => none

def limitExec (s : LimitState) (i : Nat) (ok : Bool) : Option LimitState :=
  match s.passes[i]? with
  | some (.copied ptr node) =>
    if ok then some { s with
        rows := (trafficUpdate node).exec s.rows
        passes := s.passes.set i (.walking (ptr + 1)) }
    else some { s with passes := s.passes.set i (.failed ptr node) }
  | _ => none

/-- The section of sync_traffic after a failed update. -/
def limitGiveBack (s : LimitState) (i : Nat) : Option LimitState :=
  match s.passes[i]?, s.loaded with
  | some (.failed ptr copy), true => some { s with
      limits := s.limits.modify ptr fun node => { node with alpha := node.alpha + copy.alpha }
      passes := s.passes.set i (.walking (ptr + 1)) }
  | _, _ => none

def limitLeave (s : LimitState) (i : Nat) : Option LimitState :=
  match s.passes[i]? with
  | some (.walking next) =>
    if s.limits.length ≤ next then some { s with passes := s.passes.eraseIdx i } else none
  | _ => none

def limitStep (s : LimitState) : LimitOp → Option LimitState
  | .autz i req => some (limitAutz s i req)
  | .acct i req => some (limitAcct s i req)
  | .enter => some { s with passes := s.passes ++ [.walking 0] }
  | .take i => limitTake s i
  | .exec i ok => limitExec s i ok
  | .giveBack i => limitGiveBack s i
  | .leave i => limitLeave s i
  | .check type => some { s with limits := s.limits.map (NodeGroupLimit.check type) }
  | .unload => some { s with limits := [], loaded := false }

/-- The module with its limits loaded and `k` collectors, none of them authorised. -/
def limitStart (limits : List NodeGroupLimit) (rows : IpId → GroupTrafficRow) (k : Nat) :
    LimitState :=
  ⟨limits, true, rows, List.replicate k none, [], fun _ => 0⟩

/-- What no step of the module changes in a node. -/
def NodeGroupLimit.pair (node : NodeGroupLimit) : IpId × IpId := (node.idUser, node.idGroup)

section
variable {limits limits' : List NodeGroupLimit} {idUser idGroup : IpId} {i : Nat}

theorem findGroupTraffic_congr
    (h : limits'.map NodeGroupLimit.pair = limits.map NodeGroupLimit.pair) :
    findGroupTraffic limits' idUser idGroup = findGroupTraffic limits idUser idGroup := by
  have hkey (l : List NodeGroupLimit) : findGroupTraffic l idUser idGroup =
      (l.map NodeGroupLimit.pair).findIdx? fun p => p.1 = idUser ∧ p.2 = idGroup := by
    rw [List.findIdx?_map]
    rfl
  rw [hkey, hkey, h]

theorem findGroupTraffic_some (h : findGroupTraffic limits idUser idGroup = some i) :
    ∃ node, limits[i]? = some node ∧ node.pair = (idUser, idGroup) := by
  obtain ⟨hi, hp, -⟩ := List.findIdx?_eq_some_iff_getElem.mp h
  have hpair := of_decide_eq_true hp
  exact ⟨limits[i], List.getElem?_eq_getElem hi, Prod.ext hpair.1 hpair.2⟩

/-- The answer for a pair with a limit is that of the node found first. -/
theorem myAutz_found {req : Request} {node : NodeGroupLimit}
    (hpair : req.pair = some (idUser, idGroup))
    (hfind : findGroupTraffic limits idUser idGroup = some i) (hi : limits[i]? = some node) :
    myAutz limits req = node.onactive := by
  unfold myAutz autzGroup
  simp only [hpair, hfind, hi, Option.map_some, Option.getD_some]

theorem map_pair_modify {f : NodeGroupLimit → NodeGroupLimit}
    (hf : ∀ node, (f node).pair = node.pair) :
    (limits.modify i f).map NodeGroupLimit.pair = limits.map NodeGroupLimit.pair := by
  induction limits generalizing i with
  | nil => cases i <;> rfl
  | cons node limits ih =>
    cases i with
    | zero =>
      change (f node).pair :: limits.map NodeGroupLimit.pair = _
      rw [hf, List.map_cons]
    | succ i => rw [List.modify_succ_cons, List.map_cons, List.map_cons, ih]

/-- my_acct charges at most one node, the first of its pair. -/
theorem myAcct_cases (limits : List NodeGroupLimit) (req : Request) :
    (acctNode limits req = none ∧ (myAcct limits req).1 = limits) ∨
      ∃ idUser idGroup len i, req.pair = some (idUser, idGroup) ∧ req.counted = some len ∧
        findGroupTraffic limits idUser idGroup = some i ∧ acctNode limits req = some (i, len) ∧
        (myAcct limits req).1 = limits.modify i (NodeGroupLimit.charge len) := by
  cases hacct : acctNode limits req with
  | none =>
    refine .inl ⟨rfl, ?_⟩
    rw [myAcct, hacct]
    cases req.pair <;> rfl
  | some p =>
    obtain ⟨i, len⟩ := p
    have hsplit := hacct
    simp only [acctNode, Option.bind_eq_bind, Option.bind_eq_some_iff] at hsplit
    obtain ⟨⟨idUser, idGroup⟩, hpair, l, hcount, ptr, hfind, heq⟩ := hsplit
    cases heq
    refine .inr ⟨idUser, idGroup, len, i, hpair, hcount, hfind, rfl, ?_⟩
    rw [myAcct, hpair, hacct]

end

/-- A limit of a thousand bytes for user 7 in traffic group 4, nearly used up. -/
def nearlyUsed : NodeGroupLimit := ⟨1, 7, 4, 1, 1000, 990, 0, 0, 0, 0⟩

/-- A packet of user 7 in traffic group 4. -/
def limitPacket (len : IpSize) : Request :=
  .traffic ⟨[], 6, 16777226, 33554442, 443, 50000⟩ ⟨.traffic, 1, 7, 1, 4, 0, 0, len⟩

/-- The state that a run with this limit and two collectors ends in, where it has one. -/
def limitRun (ops : List LimitOp) : LimitState :=
  (Run.exec limitStep (limitStart [nearlyUsed] (fun _ => ⟨990, 0, 0, true⟩) 2) ops).getD
    (limitStart [] (fun _ => ⟨0, 0, 0, true⟩) 0)

end IPStat
