import IPStat.Types

namespace IPStat

/-- Byte `i` of an address in memory. -/
def octet (a : IpAddr) (i : Nat) : UInt8 := (a >>> (8 * i).toUInt32).toUInt8

def recByPorts (rec : IpPorts) : IpPort × IpPort :=
  ((rec &&& 65535).toUInt16, ((rec &&& 0xFFFF0000) >>> 16).toUInt16)

/-- The second parameter is an `IP_port`: a caller's 32-bit record is cut to its low word. -/
def comparePorts (port recPorts : IpPort) : Bool :=
  let (loword, hiword) := recByPorts recPorts.toUInt32
  if hiword = 0 ∧ loword = 0 then true
  else if hiword = 0 ∧ loword ≠ 0 then port = loword
  else if hiword ≠ 0 ∧ loword ≠ 0 then loword < port ∧ port < hiword
  else port < hiword

/-- The bits of the byte at the boundary that a mask of `mask` bits keeps. -/
def boundaryBits (mask : IpMask) : UInt8 := 255 <<< (8 - mask % 8)

/-- `none` is a read past the four bytes of an address, which C leaves undefined. -/
def compareWithMask (ip net : IpAddr) (mask : IpMask) : Option Bool :=
  let n := mask.toNat / 8
  if 4 < n then none
  else if (List.range n).all fun i => octet ip i == octet net i then
    if mask % 8 = 0 then some true
    else if n = 4 then none
    else some (octet ip n &&& boundaryBits mask == octet net n &&& boundaryBits mask)
  else some false

def toLower (c : UInt8) : UInt8 := if 65 ≤ c ∧ c ≤ 90 then c + 32 else c

/-- `strncasecmp(a, b, n) == 0` on byte arrays that a missing byte ends. -/
def strncasecmpEq : Nat → List UInt8 → List UInt8 → Bool
  | 0, _, _ => true
  | n + 1, a, b =>
    if toLower (a.headD 0) ≠ toLower (b.headD 0) then false
    else if a.headD 0 = 0 then true
    else strncasecmpEq n a.tail b.tail

end IPStat
