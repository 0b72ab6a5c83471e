import Mathlib.Init

namespace IPStat

/-- types.h: addresses and ports keep their C widths; an address is the word whose
memory bytes, lowest first, are its octets in network order. -/
abbrev IpAddr := UInt32
abbrev IpMask := UInt8
abbrev IpPorts := UInt32
abbrev IpPort := UInt16
abbrev IpProto := UInt8
abbrev IpSize := UInt32
abbrev IpFlag := UInt8
abbrev IpId := UInt32
abbrev TimeT := Int

/-- The 32 hex digits that the loaders copy and compare with memcmp. -/
abbrev Md5 := BitVec 128

def protoAll : IpProto := 255
def constNext : IpFlag := 1
def constSum : IpFlag := 2
def trafficIn : IpFlag := 1
def trafficOut : IpFlag := 2
def trafficAll : IpFlag := 3

inductive Service where
  | traffic
  | squid
  | mail
  | dns
  | login
  deriving DecidableEq, Repr

/-- The eighteen bytes of a `mac` field, terminator included. -/
abbrev Mac := List UInt8

structure PacketInfo where
  mac : Mac
  proto : IpProto
  src : IpAddr
  dest : IpAddr
  srcPort : IpPort
  destPort : IpPort
  deriving DecidableEq, Repr

structure PacketDataInfo where
  service : Service
  direct : IpFlag
  idUser : IpId
  idGroupUser : IpId
  idTrafficGroup : IpId
  idTrafficType : IpId
  notSum : IpFlag
  len : IpSize
  deriving DecidableEq, Repr

structure SquidInfo where
  mac : Mac
  ip : IpAddr
  deriving DecidableEq, Repr

structure SquidDataInfo where
  service : Service
  idUser : IpId
  idGroupUser : IpId
  idTrafficGroup : IpId
  idTrafficType : IpId
  notSum : IpFlag
  len : IpSize
  deriving DecidableEq, Repr

/-- The `service`, `data` and `ret` arguments of auth, autz and acct; the service fixes
the types behind the two void pointers. -/
inductive Request where
  | traffic (info : PacketInfo) (ret : PacketDataInfo)
  | squid (info : SquidInfo) (ret : SquidDataInfo)
  | other (service : Service)
  deriving DecidableEq, Repr

end IPStat
