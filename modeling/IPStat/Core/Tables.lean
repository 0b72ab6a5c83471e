import IPStat.Inet
import Mathlib.Data.List.Basic

namespace IPStat

structure NodeRule where
  id : IpId
  idType : IpId
  idGroup : IpId
  service : Service
  direct : IpFlag
  proto : IpProto
  net : IpAddr
  mask : IpMask
  ports : IpPorts
  action : IpFlag
  status : IpFlag
  traffic : IpSize
  md5 : Md5
  timeLive : TimeT
  deriving DecidableEq, Repr

def NodeRule.next (r : NodeRule) : Bool := r.action &&& constNext = constNext
def NodeRule.noSum (r : NodeRule) : Bool := r.action &&& constSum = constSum

structure NodeUser where
  id : IpId
  idGroup : IpId
  addr : IpAddr
  mac : Mac
  traffic : IpSize
  idRules : List NodeRule
  md5 : Md5
  status : IpFlag
  timeLive : TimeT
  deriving DecidableEq, Repr

/-- The static tables of core_users.c between users_init and users_free. -/
structure Users where
  idUsers : List NodeUser
  cleanList : List NodeUser
  curUsers : Int
  deriving DecidableEq, Repr

def usersFind (u : Users) (key : IpId) : Option NodeUser := u.idUsers.find? (·.id = key)

def addrFind (u : Users) (addr : IpAddr) : Option NodeUser :=
  if addr = 0 then none else u.idUsers.find? (·.addr = addr)

/-- Write through the pointer that users_find returns. -/
def Users.modify (u : Users) (key : IpId) (f : NodeUser → NodeUser) : Users :=
  { u with idUsers := u.idUsers.replaceF fun n => if n.id = key then some (f n) else none }

@[simp] theorem usersFind_modify (u : Users) (key : IpId) (f : NodeUser → NodeUser)
    (hf : ∀ n, (f n).id = n.id) : usersFind (u.modify key f) key = (usersFind u key).map f := by
  unfold usersFind Users.modify
  induction u.idUsers with
  | nil => rfl
  | cons n ns ih => by_cases h : n.id = key <;> simp [List.replaceF, h, hf, ih]

end IPStat
