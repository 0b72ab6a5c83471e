import IPStat.Collect.Decode

namespace IPStat

/-- The bytes of a packet: memory from its first byte on, and its length. -/
structure Window where
  bytes : Buffer
  len : Nat

namespace Window

/-- A read of the packet; `none` is a read behind it. -/
def byte (w : Window) (i : Nat) : Option UInt8 := if i < w.len then some (w.bytes i) else none

def ntohs (w : Window) (i : Nat) : Option UInt16 := do
  let high ← w.byte i
  let low ← w.byte (i + 1)
  return high.toUInt16 * 256 + low.toUInt16

def inAddr (w : Window) (i : Nat) : Option IpAddr := do
  let b0 ← w.byte i
  let b1 ← w.byte (i + 1)
  let b2 ← w.byte (i + 2)
  let b3 ← w.byte (i + 3)
  return b0.toUInt32 ||| b1.toUInt32 <<< 8 ||| b2.toUInt32 <<< 16 ||| b3.toUInt32 <<< 24

/-- The two ports of a transport header at `ip_hl * 4`. -/
def transportPorts (w : Window) : Option (IpPort × IpPort) := do
  let hl ← w.byte 0
  let transport := (hl &&& 15).toNat * 4
  let srcPort ← w.ntohs transport
  let destPort ← w.ntohs (transport + 2)
  return (srcPort, destPort)

def ports (w : Window) : Option (IpPort × IpPort) := do
  let off ← w.ntohs 6
  if off &&& (ipMf ||| ipOffmask) ≠ 0 then return (0, 0)
  else
    let p ← w.byte 9
    if p = ipprotoTcp then w.transportPorts
    else if p = ipprotoUdp then w.transportPorts
    else return (0, 0)

end Window

/-- The bytes of a message that are the packet's. -/
def IpqPacketMsg.window (hp : IpqPacketMsg) : Window := ⟨hp.payload, hp.dataLen⟩

/-- ipq_grep_packet with each of its reads held against data_len. -/
def ipqGrepWithin (hp : IpqPacketMsg) : Option (PacketInfo × IpSize) := do
  let (srcPort, destPort) ← hp.window.ports
  let proto ← hp.window.byte 9
  let src ← hp.window.inAddr 12
  let dest ← hp.window.inAddr 16
  return (⟨sprintfMac hp.hwAddr, proto, src, dest, srcPort, destPort⟩, hp.dataLen.toUInt32)

/-- The ports of a packet are read: it is no later fragment, and TCP or UDP. -/
def ReadsPorts (ip : Buffer) : Prop :=
  ipOff ip &&& (ipMf ||| ipOffmask) = 0 ∧ (ipP ip = ipprotoTcp ∨ ipP ip = ipprotoUdp)

/-- The packet has the fixed part of its header, and its ports where they are read. -/
def HeadersWithin (hp : IpqPacketMsg) : Prop :=
  20 ≤ hp.dataLen ∧ (ReadsPorts hp.payload → ipHl hp.payload * 4 + 4 ≤ hp.dataLen)

instance (ip : Buffer) : Decidable (ReadsPorts ip) := inferInstanceAs (Decidable (_ ∧ _))

instance (hp : IpqPacketMsg) : Decidable (HeadersWithin hp) :=
  inferInstanceAs (Decidable (_ ∧ (_ → _)))

/-- Another message with the same packet, whatever the buffer holds behind it. -/
structure IpqPacketMsg.SamePacket (hp hp' : IpqPacketMsg) : Prop where
  hwAddr : hp'.hwAddr = hp.hwAddr
  dataLen : hp'.dataLen = hp.dataLen
  payload : ∀ i, i < hp.dataLen → hp'.payload i = hp.payload i

/-- What is decoded depends on the packet alone. -/
def DependsOnPacket (hp : IpqPacketMsg) : Prop :=
  ∀ hp', hp.SamePacket hp' → ipqGrepPacket hp' = ipqGrepPacket hp

section
variable {w : Window}

theorem Window.ntohs_eq (w : Window) (i : Nat) :
    w.ntohs i = if i + 1 < w.len then some (ntohsAt w.bytes i) else none := by
  rw [Window.ntohs, Window.byte, Window.byte]
  by_cases h : i + 1 < w.len
  · have hi : i < w.len := by omega
    simp [h, hi, ntohsAt]
  · by_cases hi : i < w.len <;> simp [h, hi]

theorem Window.inAddr_eq (w : Window) (i : Nat) :
    w.inAddr i = if i + 3 < w.len then some (inAddrAt w.bytes i) else none := by
  rw [Window.inAddr, Window.byte, Window.byte, Window.byte, Window.byte]
  by_cases h : i + 3 < w.len
  · have h0 : i < w.len := by omega
    have h1 : i + 1 < w.len := by omega
    have h2 : i + 2 < w.len := by omega
    simp [h, h0, h1, h2, inAddrAt]
  · by_cases h0 : i < w.len <;> by_cases h1 : i + 1 < w.len <;> by_cases h2 : i + 2 < w.len <;>
      simp [h, h0, h1, h2]

theorem Window.transportPorts_eq (w : Window) (hlen : 20 ≤ w.len) :
    w.transportPorts = if ipHl w.bytes * 4 + 4 ≤ w.len then
      some (ntohsAt w.bytes (ipHl w.bytes * 4), ntohsAt w.bytes (ipHl w.bytes * 4 + 2))
    else none := by
  have h0 : 0 < w.len := by omega
  simp only [Window.transportPorts, Window.byte, if_pos h0, Option.bind_eq_bind,
    Option.bind_some, Window.ntohs_eq]
  rw [← ipHl]
  by_cases h : ipHl w.bytes * 4 + 4 ≤ w.len
  · have h1 : ipHl w.bytes * 4 + 1 < w.len := by omega
    have h3 : ipHl w.bytes * 4 + 2 + 1 < w.len := by omega
    rw [if_pos h1, if_pos h3, if_pos h]
    rfl
  · have h3 : ¬ ipHl w.bytes * 4 + 2 + 1 < w.len := by omega
    rw [if_neg h3, if_neg h]
    split_ifs <;> rfl

theorem Window.ports_eq (w : Window) (hlen : 20 ≤ w.len) :
    w.ports = if ReadsPorts w.bytes → ipHl w.bytes * 4 + 4 ≤ w.len then
      some (portsAt w.bytes (ipHl w.bytes * 4)) else none := by
  have h7 : 6 + 1 < w.len := by omega
  have h9 : 9 < w.len := by omega
  rw [Window.ports, Window.ntohs_eq, if_pos h7, Window.transportPorts_eq w hlen, Window.byte,
    if_pos h9]
  simp only [Option.bind_eq_bind, Option.bind_some]
  rw [← ipOff, show w.bytes 9 = ipP w.bytes from rfl, portsAt]
  by_cases hoff : ipOff w.bytes &&& (ipMf ||| ipOffmask) = 0
  · by_cases htcp : ipP w.bytes = ipprotoTcp
    · simp [ReadsPorts, hoff, htcp]
    · by_cases hudp : ipP w.bytes = ipprotoUdp
      · simp [ReadsPorts, hoff, hudp]
      · simp [ReadsPorts, hoff, htcp, hudp]
  · simp [ReadsPorts, hoff]

/-- A packet without its fixed header is read past its end. -/
theorem ipqGrepWithin_short {hp : IpqPacketMsg} (hshort : hp.dataLen < 20) :
    ipqGrepWithin hp = none := by
  have hdest : hp.window.inAddr 16 = none := by
    rw [Window.inAddr_eq, if_neg]
    show ¬ 16 + 3 < hp.dataLen
    omega
  rw [ipqGrepWithin, hdest]
  cases hp.window.ports <;> cases hp.window.byte 9 <;> cases hp.window.inAddr 12 <;> rfl

theorem ipqGrepWithin_eq (hp : IpqPacketMsg) : ipqGrepWithin hp =
    if HeadersWithin hp then some (ipqGrepPacket hp) else none := by
  by_cases hlen : 20 ≤ hp.dataLen
  · have hports : hp.window.ports = if ReadsPorts hp.payload → ipHl hp.payload * 4 + 4 ≤ hp.dataLen
        then some (portsAt hp.payload (ipHl hp.payload * 4)) else none :=
      Window.ports_eq hp.window hlen
    have h9 : hp.window.byte 9 = some (hp.payload 9) := by
      rw [Window.byte, if_pos]
      · rfl
      · show 9 < hp.dataLen
        omega
    have haddr (i : Nat) (hi : i + 3 < hp.dataLen) :
        hp.window.inAddr i = some (inAddrAt hp.payload i) := by
      rw [Window.inAddr_eq, if_pos]
      · rfl
      · exact hi
    rw [ipqGrepWithin, h9, haddr 12 (by omega), haddr 16 (by omega), hports]
    by_cases hfits : ReadsPorts hp.payload → ipHl hp.payload * 4 + 4 ≤ hp.dataLen
    · rw [if_pos hfits, if_pos ⟨hlen, hfits⟩]
      rfl
    · rw [if_neg hfits, if_neg fun h => hfits h.2]
      rfl
  · rw [ipqGrepWithin_short (by omega), if_neg fun h => hlen h.1]

theorem ipqGrepWithin_congr {hp hp' : IpqPacketMsg} (h : hp.SamePacket hp') :
    ipqGrepWithin hp' = ipqGrepWithin hp := by
  have hbyte : hp'.window.byte = hp.window.byte := by
    funext i
    show (if i < hp'.dataLen then some (hp'.payload i) else none) =
      if i < hp.dataLen then some (hp.payload i) else none
    rw [h.dataLen]
    split_ifs with hi
    · rw [h.payload i hi]
    · rfl
  simp only [ipqGrepWithin, Window.ports, Window.transportPorts, Window.ntohs, Window.inAddr, hbyte,
    h.hwAddr, h.dataLen]

/-- The last byte of an address is its highest. -/
theorem inAddrAt_top (b : Buffer) (i : Nat) : (inAddrAt b i >>> 24).toUInt8 = b (i + 3) := by
  rw [inAddrAt]
  apply UInt8.eq_of_toBitVec_eq
  ext j hj
  have hout (k : Nat) (hk : 8 ≤ k) (n : Nat) : (b n).toBitVec.getLsbD k = false :=
    BitVec.getLsbD_of_ge (b n).toBitVec k hk
  have hj24 : 24 + j < 32 := by omega
  have hj32 : j < 32 := by omega
  simp [hout (24 + j) (by omega), hout (24 + j - 8) (by omega), hout (24 + j - 16) (by omega),
    hj24, hj32, BitVec.getLsbD_eq_getElem hj]

theorem portsAt_reads {ip : Buffer} (h : ReadsPorts ip) (t : Nat) :
    portsAt ip t = (ntohsAt ip t, ntohsAt ip (t + 2)) := by
  obtain ⟨hoff, htcp | hudp⟩ := h
  · simp [portsAt, hoff, htcp]
  · simp [portsAt, hoff, hudp]

/-- The message with another byte at a place of its buffer. -/
def IpqPacketMsg.altered (hp : IpqPacketMsg) (i : Nat) : IpqPacketMsg :=
  { hp with payload := Function.update hp.payload i (hp.payload i + 1) }

variable {hp : IpqPacketMsg} {i : Nat}

theorem altered_samePacket (hi : hp.dataLen ≤ i) : hp.SamePacket (hp.altered i) := by
  refine ⟨rfl, rfl, ?_⟩
  intro j hj
  have hne : j ≠ i := by omega
  exact Function.update_of_ne hne _ _

theorem altered_other {j : Nat} (hj : j ≠ i) : (hp.altered i).payload j = hp.payload j :=
  Function.update_of_ne hj _ _

theorem altered_ne : (hp.altered i).payload i ≠ hp.payload i := by
  have hself : (hp.altered i).payload i = hp.payload i + 1 := Function.update_self i _ hp.payload
  rw [hself]
  intro h
  have hnat := congrArg UInt8.toNat h
  rw [UInt8.toNat_add] at hnat
  have hlt := (hp.payload i).toNat_lt
  have hone : (1 : UInt8).toNat = 1 := rfl
  omega

theorem dependsOnPacket_iff : DependsOnPacket hp ↔ HeadersWithin hp := by
  constructor
  · intro h
    by_contra hout
    rw [HeadersWithin, not_and_or] at hout
    by_cases hlen : 20 ≤ hp.dataLen
    · -- the last byte of the ports lies behind the packet
      obtain hshort | hports := hout
      · exact hshort hlen
      · obtain ⟨hreads, hbehind⟩ := Classical.not_imp.mp hports
        obtain ⟨i, hi⟩ : ∃ i, i = ipHl hp.payload * 4 + 3 := ⟨_, rfl⟩
        have hsame := h (hp.altered i) (altered_samePacket (by omega))
        have hbyte (j : Nat) (hj : j < 20) : (hp.altered i).payload j = hp.payload j :=
          altered_other (by omega)
        have hoff : ipOff (hp.altered i).payload = ipOff hp.payload :=
          ntohsAt_congr (hbyte 6 (by decide)) (hbyte 7 (by decide))
        have hp9 : ipP (hp.altered i).payload = ipP hp.payload := hbyte 9 (by decide)
        have hhl : ipHl (hp.altered i).payload = ipHl hp.payload := by
          rw [ipHl, ipHl, hbyte 0 (by decide)]
        have hreads' : ReadsPorts (hp.altered i).payload := by
          rw [ReadsPorts, hoff, hp9]
          exact hreads
        have hdest := congrArg (fun r => r.1.destPort) hsame
        simp only [ipqGrepPacket, portsAt_reads hreads, portsAt_reads hreads', hhl] at hdest
        have hlast := (ntohsAt_inj hdest).2
        rw [show ipHl hp.payload * 4 + 2 + 1 = i by omega] at hlast
        exact altered_ne hlast
    · -- the last byte of the destination lies behind the packet
      have hsame := h (hp.altered 19) (altered_samePacket (by omega))
      have hdest : ipDst (hp.altered 19).payload = ipDst hp.payload :=
        congrArg (fun r => r.1.dest) hsame
      have htop := inAddrAt_top (hp.altered 19).payload 16
      rw [← ipDst, hdest, ipDst, inAddrAt_top] at htop
      exact altered_ne htop.symm
  · intro h hp' hsame
    have hread := ipqGrepWithin_congr hsame
    rw [ipqGrepWithin_eq hp, if_pos h, ipqGrepWithin_eq hp'] at hread
    split_ifs at hread
    exact Option.some.inj hread

end

/-- Every read lies within the packet, and what is decoded depends on the packet alone, exactly
when the packet holds its fixed header and the ports that are read. -/
theorem ipq_grep_within_iff (hp : IpqPacketMsg) :
    ((ipqGrepWithin hp).isSome ↔ HeadersWithin hp) ∧
    (∀ r, ipqGrepWithin hp = some r → r = ipqGrepPacket hp) ∧
    (DependsOnPacket hp ↔ HeadersWithin hp) := by
  refine ⟨?_, ?_, dependsOnPacket_iff⟩
  · rw [ipqGrepWithin_eq]
    split_ifs with h
    · exact iff_of_true rfl h
    · exact iff_of_false (by simp) h
  · intro r hr
    rw [ipqGrepWithin_eq] at hr
    split_ifs at hr
    exact (Option.some.inj hr).symm

/-- A TCP packet of 20 bytes, all header, before what the buffer holds from an earlier packet. -/
def bareTcp (rest : UInt8) : IpqPacketMsg where
  packetId := 1
  hwAddr := fun _ => 0
  dataLen := 20
  payload := fun i => if i = 0 then 0x45 else if i = 3 then 20 else if i = 9 then 6
    else if i < 20 then 0 else rest

/-- Its ports are read behind its end, and are those of the earlier packet. -/
theorem ipq_grep_reads_behind : ipqGrepWithin (bareTcp 1) = none ∧
    (bareTcp 1).SamePacket (bareTcp 2) ∧
    (ipqGrepPacket (bareTcp 1)).1.destPort = 257 ∧ (ipqGrepPacket (bareTcp 2)).1.destPort = 514 ∧
    ¬ DependsOnPacket (bareTcp 1) := by
  have hsame : (bareTcp 1).SamePacket (bareTcp 2) := by
    refine ⟨rfl, rfl, ?_⟩
    intro i hi
    have hlt : i < 20 := hi
    simp [bareTcp, hlt]
  have hfirst : (ipqGrepPacket (bareTcp 1)).1.destPort = 257 := by decide
  have hsecond : (ipqGrepPacket (bareTcp 2)).1.destPort = 514 := by decide
  refine ⟨by decide, hsame, hfirst, hsecond, ?_⟩
  intro h
  rw [h (bareTcp 2) hsame, hfirst] at hsecond
  revert hsecond
  decide

end IPStat
