import IPStat.Core.Users
import IPStat.Lib.Run
import Mathlib.Tactic.SplitIfs

namespace IPStat

/-- What the store answers to the statements of one rules_mysql_export; `rule` is whether fetch_row
gives a row after the select, `price` whether its Price is there: the select is a LEFT JOIN, and
the rule's type may be gone. -/
structure ExportEnv where
  autocommit : Bool
  start : Bool
  updateRules : Bool
  select : Bool
  rule : Bool
  price : Bool
  updateUsers : Bool
  commit : Bool
  deriving DecidableEq, Repr

/-- A row with a Price. -/
def ExportEnv.row (env : ExportEnv) : Bool := env.rule && env.price

/-- The outcome of one export transaction; `none` is the read through a NULL row, or atof of a
NULL Price. A failed one is rolled back and leaves nothing in the database. -/
def rulesMysqlExport (env : ExportEnv) (noSum : Bool) : Option Bool :=
  if !env.autocommit then some false
  else if !env.start then some false
  else if !env.updateRules then some false
  else if noSum then some env.commit
  else if !env.select then some false
  else if !env.rule then none
  else if !env.price then none
  else if !env.updateUsers then some false
  else some env.commit

/-- Sums kept for the statements: bytes charged by users_acct and bytes the database took,
for each rule and each user. -/
structure Ledger where
  rulesCharged : IpId → IpSize
  rulesCommitted : IpId → IpSize
  usersAdded : IpId → IpSize
  usersExported : IpId → IpSize

def bump (f : IpId → IpSize) (id : IpId) (n : IpSize) : IpId → IpSize :=
  fun i => if i = id then f i + n else f i

/-- The loop of rules_sync_traffic over a rule list, with the bytes committed. -/
def exportRules (exports : Nat → ExportEnv) :
    Nat → List NodeRule → (IpId → IpSize) → Option (List NodeRule × (IpId → IpSize))
  | _, [], c => some ([], c)
  | j, rule :: rs, c =>
    if rule.traffic = 0 then
      match exportRules exports (j + 1) rs c with
      | none => none
      | some (rs, c) => some (rule :: rs, c)
    else
      let taken := { rule with traffic := rule.traffic - rule.traffic }
      match rulesMysqlExport (exports j) rule.noSum with
      | none => none
      | some false =>
        match exportRules exports (j + 1) rs c with
        | none => none
        | some (rs, c) => some ({ taken with traffic := taken.traffic + rule.traffic } :: rs, c)
      | some true =>
        match exportRules exports (j + 1) rs (bump c rule.id rule.traffic) with
        | none => none
        | some (rs, c) => some (taken :: rs, c)

structure RulesTrafficEnv where
  opened : Bool
  exports : Nat → ExportEnv

/-- rules_sync_traffic answers TRUE whenever it could connect, whatever its exports did. -/
def rulesSyncTraffic (env : RulesTrafficEnv) (rules : List NodeRule) (c : IpId → IpSize) :
    Option (Bool × List NodeRule × (IpId → IpSize)) :=
  if env.opened then
    match exportRules env.exports 0 rules c with
    | none => none
    | some (rules, c) => some (true, rules, c)
  else some (false, rules, c)

def rulesMysqlUnload (env : RulesTrafficEnv) (rules : List NodeRule) (c : IpId → IpSize) :
    Option (List NodeRule × (IpId → IpSize)) :=
  match rulesSyncTraffic env rules c with
  | none => none
  | some (true, _, c) => some ([], c)
  | some (false, rules, c) => some (rules, c)

/-- A row of the query in rules_mysql_load. -/
structure RulesRecord where
  id : IpId
  direct : IpFlag
  proto : IpProto
  net : IpAddr
  mask : IpMask
  ports : IpPorts
  action : IpFlag
  status : IpFlag
  idType : IpId
  idGroup : IpId
  md5 : Md5
  deriving DecidableEq, Repr

def RulesRecord.node (row : RulesRecord) : NodeRule where
  id := row.id
  idType := row.idType
  idGroup := row.idGroup
  service := if row.proto = 254 then .squid else .traffic
  direct := row.direct
  proto := row.proto
  net := row.net
  mask := row.mask
  ports := row.ports
  action := row.action
  status := row.status
  traffic := 0
  md5 := row.md5
  timeLive := 0

structure LoadEnv where
  opened : Bool
  rows : Option (List RulesRecord)

/-- rules_mysql_load; rules_init refuses a list that is not empty. -/
def rulesMysqlLoad (env : LoadEnv) (rules : List NodeRule) : List NodeRule :=
  if rules ≠ [] then rules
  else if env.opened then
    match env.rows with
    | none => []
    | some rows => rules ++ rows.map (·.node)
  else rules

/-- One row of the listing in rules_sync, with the clock read for it. -/
structure RulesSyncRow where
  id : IpId
  md5 : Md5
  now : TimeT
  deriving DecidableEq, Repr

structure RulesSyncEnv where
  opened : Bool
  rows : Option (List RulesSyncRow)
  age : Nat → TimeT

def rulesFind (rules : List NodeRule) (key : IpId) : Option NodeRule := rules.find? (·.id = key)

/-- Stamp the node that rules_find returns. -/
def stampRule (key : IpId) (now : TimeT) (rules : List NodeRule) : List NodeRule :=
  rules.replaceF fun rule => if rule.id = key then some { rule with timeLive := now } else none

/-- The listing loop of rules_sync: the rules with their stamps, and flag_update. -/
def rulesSyncRows : List RulesSyncRow → List NodeRule → Bool → List NodeRule × Bool
  | [], rules, flag => (rules, flag)
  | row :: rows, rules, flag =>
    match rulesFind rules row.id with
    | some rule =>
      if rule.md5 ≠ row.md5 then rulesSyncRows rows rules true
      else rulesSyncRows rows (stampRule row.id row.now rules) flag
    | none => rulesSyncRows rows rules true

/-- `time(NULL) - time_live > 90` for the element at a position. -/
def expired (clock : Nat → TimeT) (i : Nat) (timeLive : TimeT) : Bool := 90 < clock i - timeLive

theorem expired_eq_false_iff {clock : Nat → TimeT} {i : Nat} {timeLive : TimeT} :
    expired clock i timeLive = false ↔ clock i - timeLive ≤ 90 := by
  simp [expired]

def rulesSync (env : RulesSyncEnv) (rules : List NodeRule) : List NodeRule × Bool :=
  if env.opened then
    match env.rows with
    | none => (rules, false)
    | some rows =>
      let (rules, flag) := rulesSyncRows rows rules false
      (rules, flag || rules.zipIdx.any fun q => expired env.age q.2 q.1.timeLive)
  else (rules, false)

/-- A row of the queries in users_mysql_insert and users_mysql_update. -/
structure UsersRecord where
  addr : IpAddr
  mac : Mac
  status : IpFlag
  idGroup : IpId
  md5 : Md5
  deriving DecidableEq, Repr

structure UpdateEnv where
  opened : Bool
  unload : RulesTrafficEnv
  rows : Option (List UsersRecord)
  load : LoadEnv

/-- A row copied into a node; address 0 is skipped. -/
def UsersRecord.copy (row : UsersRecord) (node : NodeUser) : NodeUser :=
  if row.addr = 0 then node
  else { node with
    addr := row.addr
    status := row.status
    idGroup := row.idGroup
    md5 := row.md5
    mac := row.mac }

/-- users_mysql_update on the node it finds. -/
def updateNode (env : UpdateEnv) (node : NodeUser) (c : IpId → IpSize) :
    Option (NodeUser × (IpId → IpSize)) :=
  if env.opened then
    match rulesMysqlUnload env.unload node.idRules c with
    | none => none
    | some (rules, c) =>
      match env.rows with
      | none => some ({ node with idRules := rules }, c)
      | some rows =>
        let node := rows.foldl (fun node row => row.copy node) { node with idRules := rules }
        some ({ node with idRules := rulesMysqlLoad env.load node.idRules }, c)
  else some (node, c)

/-- A row of users_mysql_insert, with the clock and the load that follow it. -/
structure InsertRow where
  record : UsersRecord
  now : TimeT
  load : LoadEnv

structure InsertEnv where
  opened : Bool
  rows : Option (List InsertRow)

def newUser (id : IpId) (row : InsertRow) : NodeUser where
  id := id
  idGroup := row.record.idGroup
  addr := row.record.addr
  mac := row.record.mac
  traffic := 0
  idRules := rulesMysqlLoad row.load []
  md5 := row.record.md5
  status := row.record.status
  timeLive := row.now

def usersInsert (users : Users) (node : NodeUser) : Users :=
  { users with idUsers := users.idUsers ++ [node], curUsers := users.curUsers + 1 }

def usersMysqlInsert (env : InsertEnv) (id : IpId) (users : Users) : Users :=
  if env.opened then
    match env.rows with
    | none => users
    | some rows => rows.foldl (fun users row =>
        if row.record.addr = 0 then users else usersInsert users (newUser id row)) users
  else users

/-- The tables and the ledger. -/
structure Core where
  users : Users
  ledger : Ledger

def Core.commit (d : Core) (c : IpId → IpSize) : Core :=
  { d with ledger := { d.ledger with rulesCommitted := c } }

/-- One row of the listing in users_sync, with what happens while it is handled. -/
structure ListingRow where
  id : IpId
  md5 : Md5
  rulesSync : RulesSyncEnv
  update : UpdateEnv
  insert : InsertEnv
  now : TimeT

/-- The test that decides on a reload: another fingerprint, or else what rules_sync answers. -/
def syncCheck (row : ListingRow) (node : NodeUser) : List NodeRule × Bool :=
  if node.md5 ≠ row.md5 then (node.idRules, true) else rulesSync row.rulesSync node.idRules

/-- The body of the listing loop on the node found for a row. -/
def syncNode (row : ListingRow) (node : NodeUser) (c : IpId → IpSize) :
    Option (NodeUser × (IpId → IpSize)) :=
  let checked := syncCheck row node
  let node := { node with idRules := checked.1 }
  match if checked.2 then updateNode row.update node c else some (node, c) with
  | none => none
  | some (node, c) => some ({ node with timeLive := row.now }, c)

def usersSyncRow (d : Core) (row : ListingRow) : Option Core :=
  match usersFind d.users row.id with
  | some node =>
    match syncNode row node d.ledger.rulesCommitted with
    | none => none
    | some (node, c) => some ({ d with users := d.users.modify row.id fun _ => node }.commit c)
  | none => some { d with users := usersMysqlInsert row.insert row.id d.users }

/-- The clock readings of the sweep: the age tests, and the stamps of users_delete. -/
structure SweepEnv where
  age : Nat → TimeT
  stamp : Nat → TimeT

/-- users_delete: the first node with the id moves to the clean list. -/
def usersDelete (users : Users) (key : IpId) (now : TimeT) : Users :=
  match usersFind users key with
  | none => users
  | some node =>
    { idUsers := users.idUsers.eraseP (·.id = key)
      cleanList := users.cleanList ++ [{ node with timeLive := now }]
      curUsers := users.curUsers - 1 }

/-- The walk of users_mysql_delete over the nodes it started with. -/
def sweepUsers (env : SweepEnv) : Nat → List NodeUser → Users → Users
  | _, [], users => users
  | i, node :: ns, users =>
    sweepUsers env (i + 1) ns
      (if expired env.age i node.timeLive then usersDelete users node.id (env.stamp i) else users)

def usersMysqlDelete (env : SweepEnv) (users : Users) : Users :=
  sweepUsers env 0 users.idUsers users

/-- What happens to one node in users_sync_traffic. -/
structure UserTrafficEnv where
  exported : Bool
  rules : RulesTrafficEnv

structure TrafficEnv where
  opened : Bool
  nodes : Nat → UserTrafficEnv

/-- The loop of users_sync_traffic, with the bytes committed and exported. -/
def exportUsers (nodes : Nat → UserTrafficEnv) : Nat → List NodeUser → Ledger →
    Option (List NodeUser × Ledger)
  | _, [], l => some ([], l)
  | i, node :: ns, l =>
    if node.traffic = 0 then
      match exportUsers nodes (i + 1) ns l with
      | none => none
      | some (ns, l) => some (node :: ns, l)
    else
      let taken := { node with traffic := node.traffic - node.traffic }
      if (nodes i).exported then
        match rulesSyncTraffic (nodes i).rules taken.idRules l.rulesCommitted with
        | none => none
        | some (_, rules, c) =>
          match exportUsers nodes (i + 1) ns { l with
              rulesCommitted := c
              usersExported := bump l.usersExported node.id node.traffic } with
          | none => none
          | some (ns, l) => some ({ taken with idRules := rules } :: ns, l)
      else
        match exportUsers nodes (i + 1) ns l with
        | none => none
        | some (ns, l) => some ({ taken with traffic := taken.traffic + node.traffic } :: ns, l)

def usersSyncTraffic (env : TrafficEnv) (d : Core) : Option Core :=
  if env.opened then
    match exportUsers env.nodes 0 d.users.idUsers d.ledger with
    | none => none
    | some (ns, l) => some ⟨{ d.users with idUsers := ns }, l⟩
  else some d

/-- One pass: what the store answers and the clock reads at each point of it. -/
structure SyncEnv where
  opened : Bool
  rows : Option (List ListingRow)
  sweep : SweepEnv
  traffic : TrafficEnv

/-- The part of users_sync before its sweep; `false` is the early return of a failed query. -/
def usersListing (env : SyncEnv) (d : Core) : Option (Core × Bool) :=
  if env.opened then
    match env.rows with
    | none => some (d, false)
    | some rows => (Run.exec usersSyncRow d rows).map fun d => (d, true)
  else some (d, true)

def usersSync (env : SyncEnv) (d : Core) : Option Core :=
  match usersListing env d with
  | none => none
  | some (d, false) => some d
  | some (d, true) =>
    usersSyncTraffic env.traffic { d with users := usersMysqlDelete env.sweep d.users }

/-- The two loops of users_free: only the rules of a node are exported before it is freed. -/
def freeNodes (unloads : Nat → RulesTrafficEnv) :
    Nat → List NodeUser → (IpId → IpSize) → Option (IpId → IpSize)
  | _, [], c => some c
  | i, node :: ns, c =>
    match rulesMysqlUnload (unloads i) node.idRules c with
    | none => none
    | some (_, c) => freeNodes unloads (i + 1) ns c

structure FreeEnv where
  users : Nat → RulesTrafficEnv
  clean : Nat → RulesTrafficEnv

def usersFree (env : FreeEnv) (d : Core) : Option Core :=
  match freeNodes env.users 0 d.users.idUsers d.ledger.rulesCommitted with
  | none => none
  | some c =>
    match freeNodes env.clean 0 d.users.cleanList c with
    | none => none
    | some c => some ({ d with users := { d.users with idUsers := [], cleanList := [] } }.commit c)

/-- The ledger after users_acct charged the rules at these positions. -/
def Ledger.charge (key : IpId) (rules : List NodeRule) (len : IpSize) (l : Ledger) :
    List Nat → Ledger
  | [] => l
  | p :: ps =>
    match rules[p]? with
    | none => Ledger.charge key rules len l ps
    | some rule => Ledger.charge key rules len { l with
        rulesCharged := bump l.rulesCharged rule.id len
        usersAdded := if rule.noSum then l.usersAdded else bump l.usersAdded key len } ps

/-- users_acct, its hooks aside, with the bytes it charges. -/
def coreAcct (req : Request) (d : Core) : Option Core :=
  match acctRules d.users req with
  | none => none
  | some none => some d
  | some (some (users, charged)) =>
    match usersFind d.users req.idUser with
    | none => some { d with users := users }
    | some user =>
      some ⟨users, d.ledger.charge req.idUser user.idRules req.len charged⟩

inductive CoreOp where
  | acct (req : Request)
  | sync (env : SyncEnv)

def coreStep (d : Core) : CoreOp → Option Core
  | .acct req => coreAcct req d
  | .sync env => usersSync env d

/-- The tables that users_init leaves, and an empty ledger. -/
def coreInit : Core :=
  ⟨⟨[], [], 0⟩, ⟨fun _ => 0, fun _ => 0, fun _ => 0, fun _ => 0⟩⟩

end IPStat
