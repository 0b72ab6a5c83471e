import IPStat.Core.Sync

namespace IPStat

/-- A node of a policy list; the lists differ in the columns that `data` holds. -/
structure PolicyNode (δ : Type) where
  id : IpId
  data : δ
  md5 : Md5
  timeLive : TimeT
  deriving DecidableEq, Repr

/-- The row that an insert or update reads back for an id. -/
structure PolicyRecord (δ : Type) where
  data : δ
  md5 : Md5
  deriving DecidableEq, Repr

/-- What the store answers to an insert or update: `none` when the query fails, `some none`
when it has no row. -/
structure PolicyQuery (δ : Type) where
  opened : Bool
  row : Option (Option (PolicyRecord δ))
  now : TimeT

/-- One row of the listing, with the query that may follow and the clock read for it. -/
structure PolicyRow (δ : Type) where
  id : IpId
  md5 : Md5
  query : PolicyQuery δ
  now : TimeT

structure PolicyEnv (δ : Type) where
  opened : Bool
  rows : Option (List (PolicyRow δ))
  age : Nat → TimeT

section
variable {δ : Type}

def policyFind (l : List (PolicyNode δ)) (id : IpId) : Option (PolicyNode δ) := l.find? (·.id = id)

/-- update_policy_*; the outer `none` is the read through a NULL row. -/
def updatePolicy (env : PolicyQuery δ) (node : PolicyNode δ) : Option (PolicyNode δ) :=
  if env.opened then
    match env.row with
    | none => some node
    | some none => none
    | some (some row) => some { node with data := row.data, md5 := row.md5, timeLive := env.now }
  else some node

/-- insert_policy_*; a node whose data is not accepted is freed again. -/
def insertPolicy (accepts : δ → Bool) (env : PolicyQuery δ) (id : IpId)
    (l : List (PolicyNode δ)) : Option (List (PolicyNode δ)) :=
  if env.opened then
    match env.row with
    | none => some l
    | some none => none
    | some (some row) =>
      if accepts row.data then some (l ++ [⟨id, row.data, row.md5, env.now⟩]) else some l
  else some l

def deletePolicy (id : IpId) (l : List (PolicyNode δ)) : List (PolicyNode δ) :=
  l.eraseP (·.id = id)

/-- The body of the listing loop. -/
def syncPolicyRow (accepts : δ → Bool) (l : List (PolicyNode δ)) (row : PolicyRow δ) :
    Option (List (PolicyNode δ)) :=
  match policyFind l row.id with
  | some node =>
    match if node.md5 ≠ row.md5 then updatePolicy row.query node else some node with
    | none => none
    | some node => some (l.replaceF fun n =>
        if n.id = row.id then some { node with timeLive := row.now } else none)
  | none => insertPolicy accepts row.query row.id l

/-- The sweep over the nodes it started with. -/
def sweepPolicy (age : Nat → TimeT) : Nat → List (PolicyNode δ) → List (PolicyNode δ) →
    List (PolicyNode δ)
  | _, [], l => l
  | i, node :: ns, l =>
    sweepPolicy age (i + 1) ns (if expired age i node.timeLive then deletePolicy node.id l else l)

/-- The common body of the list passes: unlike users_sync, they sweep only after a listing. -/
def syncPolicyList (accepts : δ → Bool) (env : PolicyEnv δ) (l : List (PolicyNode δ)) :
    Option (List (PolicyNode δ)) :=
  if env.opened then
    match env.rows with
    | none => some l
    | some rows => (Run.exec (syncPolicyRow accepts) l rows).map fun l => sweepPolicy env.age 0 l l
  else some l

end

/-- The columns of NODE_POLICY_USER, NODE_POLICY_GROUP_USER, NODE_POLICY_TYPE_TRAFFIC and
NODE_POLICY_GROUP_TRAFFIC. -/
structure PolicyRef where
  idPolicy : IpId
  defTarget : UInt8
  deriving DecidableEq, Repr

/-- The columns of NODE_POLICY_TIME. -/
structure TimeDef where
  idPolicy : IpId
  weekDay : UInt8
  timeBegin : UInt32
  timeEnd : UInt32
  target : UInt8
  deriving DecidableEq, Repr

/-- The columns of NODE_POLICY_PATTERN. -/
structure PatternDef where
  idPolicy : IpId
  pattern : List UInt8
  target : UInt8
  deriving DecidableEq, Repr

structure TimePolicy where
  policyTime : List (PolicyNode TimeDef)
  policyUsers : List (PolicyNode PolicyRef)
  policyGroupUsers : List (PolicyNode PolicyRef)
  policyTypeTraffic : List (PolicyNode PolicyRef)
  policyGroupTraffic : List (PolicyNode PolicyRef)
  deriving DecidableEq, Repr

namespace TimePolicy

def syncUsersList (env : PolicyEnv PolicyRef) (s : TimePolicy) : Option TimePolicy :=
  (syncPolicyList (fun _ => true) env s.policyUsers).map fun l => { s with policyUsers := l }

def syncGroupUsersList (env : PolicyEnv PolicyRef) (s : TimePolicy) : Option TimePolicy :=
  (syncPolicyList (fun _ => true) env s.policyGroupUsers).map fun l =>
    { s with policyGroupUsers := l }

def syncTypeTrafficList (env : PolicyEnv PolicyRef) (s : TimePolicy) : Option TimePolicy :=
  (syncPolicyList (fun _ => true) env s.policyTypeTraffic).map fun l =>
    { s with policyTypeTraffic := l }

def syncGroupTrafficList (env : PolicyEnv PolicyRef) (s : TimePolicy) : Option TimePolicy :=
  (syncPolicyList (fun _ => true) env s.policyGroupTraffic).map fun l =>
    { s with policyGroupTraffic := l }

def syncTimeList (env : PolicyEnv TimeDef) (s : TimePolicy) : Option TimePolicy :=
  (syncPolicyList (fun _ => true) env s.policyTime).map fun l => { s with policyTime := l }

end TimePolicy

structure UrlPolicy where
  policyPattern : List (PolicyNode PatternDef)
  policyUsers : List (PolicyNode PolicyRef)
  deriving DecidableEq, Repr

namespace UrlPolicy

def syncUsersList (env : PolicyEnv PolicyRef) (s : UrlPolicy) : Option UrlPolicy :=
  (syncPolicyList (fun _ => true) env s.policyUsers).map fun l => { s with policyUsers := l }

/-- `regcomp` says which patterns compile; update_policy_pattern has copied the row before it
finds out. -/
def syncPatternList (regcomp : List UInt8 → Bool) (env : PolicyEnv PatternDef) (s : UrlPolicy) :
    Option UrlPolicy :=
  (syncPolicyList (fun d => regcomp d.pattern) env s.policyPattern).map fun l =>
    { s with policyPattern := l }

end UrlPolicy

end IPStat
