import IPStat.Core.Tables

namespace IPStat

/-- A hook registered by a module; `π` is the state the modules keep for themselves. -/
abbrev Hook (π : Type) := Request → π → Bool × Request × π

structure Hooks (π : Type) where
  externAuth : List (Hook π)
  externAutz : List (Hook π)
  externAcct : List (Hook π)

/-- The hook loops of users_auth, users_autz and users_acct: the call that answers
`last` is the last one made. -/
def callHooks {π : Type} (last : Bool) : List (Hook π) → Bool → Request → π → Bool × Request × π
  | [], flag, req, p => (flag, req, p)
  | func :: hs, _, req, p =>
    match func req p with
    | (flag, req', p') => if flag = last then (flag, req', p') else callHooks last hs flag req' p'

def Request.idUser : Request → IpId
  | .traffic _ ret => ret.idUser
  | .squid _ ret => ret.idUser
  | .other _ => 0

def Request.len : Request → IpSize
  | .traffic _ ret => ret.len
  | .squid _ ret => ret.len
  | .other _ => 0

section
variable {π : Type} (hooks : Hooks π) (users : Users)

structure AuthResult (π : Type) where
  flag : Bool
  req : Request
  plugins : π

def authTraffic (info : PacketInfo) (ret : PacketDataInfo) : Bool × PacketDataInfo :=
  let tSrc := addrFind users info.src
  let tDest := addrFind users info.dest
  let ret := { ret with service := .traffic, idTrafficGroup := 0, idTrafficType := 0 }
  match tSrc, tDest with
  | some u, none =>
    (true, { ret with direct := trafficOut, idUser := u.id, idGroupUser := u.idGroup })
  | none, some u =>
    (true, { ret with direct := trafficIn, idUser := u.id, idGroupUser := u.idGroup })
  | _, _ => (false, ret)

def authSquid (info : SquidInfo) (ret : SquidDataInfo) : Bool × SquidDataInfo :=
  let ret := { ret with service := .squid, idTrafficGroup := 0, idTrafficType := 0 }
  match addrFind users info.ip with
  | some u => (true, { ret with idUser := u.id, idGroupUser := u.idGroup })
  | none => (false, ret)

/-- users_auth with a result buffer. -/
def usersAuth (flagExtern : Bool) (req : Request) (p : π) : AuthResult π :=
  let (flag, req, p) :=
    if hooks.externAuth ≠ [] ∧ flagExtern then callHooks true hooks.externAuth false req p
    else (false, req, p)
  if flag then ⟨true, req, p⟩
  else match req with
    | .traffic info ret => let (flag, ret) := authTraffic users info ret; ⟨flag, .traffic info ret, p⟩
    | .squid info ret => let (flag, ret) := authSquid users info ret; ⟨flag, .squid info ret, p⟩
    | .other s => ⟨flag, .other s, p⟩

/-- The nested tests that users_autz and users_acct make on a traffic rule. -/
def ruleMatch (addr : IpAddr) (port : IpPort) (proto : IpProto) (direct : IpFlag)
    (rule : NodeRule) : Option Bool :=
  if rule.service = .traffic then do
    if ← compareWithMask addr rule.net rule.mask then
      if rule.proto = protoAll ∨ rule.proto = proto then
        if comparePorts port rule.ports.toUInt16 then
          return rule.direct = trafficAll ∨ direct = rule.direct
        else return false
      else return false
    else return false
  else some false

/-- What the rule loops of users_autz leave behind; `stored` is the position of the rule
last copied into `ret`, kept for the statements only. -/
structure AutzScan (ρ : Type) where
  flag : Bool
  ret : ρ
  stored : Option Nat
  deriving DecidableEq, Repr

/-- Copy a rule into a traffic `ret`. -/
def PacketDataInfo.store (ret : PacketDataInfo) (rule : NodeRule) : PacketDataInfo :=
  { ret with
    idTrafficGroup := rule.idGroup
    idTrafficType := rule.idType
    notSum := if rule.noSum then 1 else 0 }

def SquidDataInfo.store (ret : SquidDataInfo) (rule : NodeRule) : SquidDataInfo :=
  { ret with
    idTrafficGroup := rule.idGroup
    idTrafficType := rule.idType
    notSum := if rule.noSum then 1 else 0 }

/-- The body of the traffic loop on a matching rule. -/
def AutzScan.hit (s : AutzScan PacketDataInfo) (q : Nat × NodeRule) : AutzScan PacketDataInfo :=
  { flag := if q.2.status = 1 then true else s.flag
    ret := s.ret.store q.2
    stored := some q.1 }

def autzTraffic (info : PacketInfo) (addr : IpAddr) (port : IpPort) :
    Nat → List NodeRule → AutzScan PacketDataInfo → Option (AutzScan PacketDataInfo)
  | _, [], s => some s
  | i, rule :: rs, s => do
    if ← ruleMatch addr port info.proto s.ret.direct rule then
      if rule.next then autzTraffic info addr port (i + 1) rs (s.hit (i, rule))
      else return s.hit (i, rule)
    else autzTraffic info addr port (i + 1) rs s

def autzSquid : Nat → List NodeRule → AutzScan SquidDataInfo → AutzScan SquidDataInfo
  | _, [], s => s
  | i, rule :: rs, s =>
    if rule.service = .squid ∧ rule.status = 1 then ⟨true, s.ret.store rule, some i⟩
    else autzSquid (i + 1) rs s

structure AutzResult (π : Type) where
  flag : Bool
  req : Request
  plugins : π
  stored : Option Nat
  deriving DecidableEq, Repr

/-- users_autz up to its `if (!flag) return FALSE`. -/
def autzRules (req : Request) : Option (Bool × Request × Option Nat) :=
  match req with
  | .traffic info ret =>
    match usersFind users ret.idUser with
    | none => some (false, req, none)
    | some user =>
      if user.status = 0 then some (false, req, none)
      else if ret.direct = trafficOut ∧ user.mac.headD 0 ≠ 0 ∧
          strncasecmpEq 17 user.mac info.mac = false then some (false, req, none)
      else do
        let (addr, port) :=
          if ret.direct = trafficIn then (info.src, info.srcPort) else (info.dest, info.destPort)
        let s ← autzTraffic info addr port 0 user.idRules ⟨false, ret, none⟩
        return (s.flag, .traffic info s.ret, s.stored)
  | .squid info ret =>
    match usersFind users ret.idUser with
    | none => some (false, req, none)
    | some user =>
      if user.status = 0 then some (false, req, none)
      else
        let s := autzSquid 0 user.idRules ⟨false, ret, none⟩
        some (s.flag, .squid info s.ret, s.stored)
  | .other _ => some (false, req, none)

def usersAutz (flagExtern : Bool) (req : Request) (p : π) : Option (AutzResult π) := do
  let (flag, req, stored) ← autzRules users req
  if flag = false then return ⟨false, req, p, stored⟩
  else if hooks.externAutz ≠ [] ∧ flagExtern then
    let (flag, req, p) := callHooks false hooks.externAutz flag req p
    return ⟨flag, req, p, stored⟩
  else return ⟨flag, req, p, stored⟩

/-- The two counter updates of users_acct. -/
def NodeRule.charge (len : IpSize) (r : NodeRule) : NodeRule := { r with traffic := r.traffic + len }

def chargeUser (rule : NodeRule) (len t : IpSize) : IpSize := if rule.noSum then t else t + len

/-- What the rule loops of users_acct leave behind: the rules, the user's counter, and,
for the statements only, the positions of the rules charged. -/
structure AcctScan where
  rules : List NodeRule
  traffic : IpSize
  charged : List Nat
  deriving DecidableEq, Repr

def acctTraffic (info : PacketInfo) (ret : PacketDataInfo) (addr : IpAddr) (port : IpPort) :
    Nat → List NodeRule → IpSize → Option AcctScan
  | _, [], t => some ⟨[], t, []⟩
  | i, rule :: rs, t => do
    if ← ruleMatch addr port info.proto ret.direct rule then
      let t := chargeUser rule ret.len t
      if rule.next then
        let s ← acctTraffic info ret addr port (i + 1) rs t
        return ⟨rule.charge ret.len :: s.rules, s.traffic, i :: s.charged⟩
      else return ⟨rule.charge ret.len :: rs, t, [i]⟩
    else
      let s ← acctTraffic info ret addr port (i + 1) rs t
      return ⟨rule :: s.rules, s.traffic, s.charged⟩

def acctSquid (len : IpSize) : Nat → List NodeRule → IpSize → AcctScan
  | _, [], t => ⟨[], t, []⟩
  | i, rule :: rs, t =>
    if rule.service = .squid then ⟨rule.charge len :: rs, chargeUser rule len t, [i]⟩
    else
      let s := acctSquid len (i + 1) rs t
      ⟨rule :: s.rules, s.traffic, s.charged⟩

structure AcctResult (π : Type) where
  flag : Bool
  req : Request
  plugins : π
  users : Users
  charged : List Nat
  deriving DecidableEq, Repr

/-- Write the counters of a scan back into the user's node. -/
def Users.account (key : IpId) (s : AcctScan) : Users :=
  users.modify key fun n => { n with traffic := s.traffic, idRules := s.rules }

/-- users_acct up to its hooks; `none` inside is the early `return FALSE`. -/
def acctRules (req : Request) : Option (Option (Users × List Nat)) :=
  match req with
  | .traffic info ret =>
    match usersFind users ret.idUser with
    | none => some none
    | some user => do
      let (addr, port) :=
        if ret.direct = 1 then (info.src, info.srcPort) else (info.dest, info.destPort)
      let s ← acctTraffic info ret addr port 0 user.idRules user.traffic
      return some (users.account ret.idUser s, s.charged)
  | .squid _ ret =>
    match usersFind users ret.idUser with
    | none => some none
    | some user =>
      let s := acctSquid ret.len 0 user.idRules user.traffic
      some (some (users.account ret.idUser s, s.charged))
  | .other _ => some (some (users, []))

/-- users_acct; as in the source, it is the autz list that guards the acct hooks. -/
def usersAcct (flagExtern : Bool) (req : Request) (p : π) : Option (AcctResult π) := do
  match ← acctRules users req with
  | none => return ⟨false, req, p, users, []⟩
  | some (users, charged) =>
    if hooks.externAutz ≠ [] ∧ flagExtern then
      let (flag, req, p) := callHooks false hooks.externAcct true req p
      return ⟨flag, req, p, users, charged⟩
    else return ⟨true, req, p, users, charged⟩

end

end IPStat
