import IPStat.Types
import Mathlib.Data.List.Basic
import Mathlib.Tactic.Tauto

namespace IPStat

/-- Memory from a pointer on. -/
abbrev Buffer := Nat → UInt8

/-- `ntohs` of the two bytes at `i`. -/
def ntohsAt (b : Buffer) (i : Nat) : UInt16 := (b i).toUInt16 * 256 + (b (i + 1)).toUInt16

/-- An `in_addr` as a little-endian host loads it. -/
def inAddrAt (b : Buffer) (i : Nat) : IpAddr :=
  (b i).toUInt32 ||| (b (i + 1)).toUInt32 <<< 8 ||| (b (i + 2)).toUInt32 <<< 16 |||
    (b (i + 3)).toUInt32 <<< 24

def ipHl (ip : Buffer) : Nat := (ip 0 &&& 15).toNat
def ipLen (ip : Buffer) : Nat := (ntohsAt ip 2).toNat
def ipOff (ip : Buffer) : UInt16 := ntohsAt ip 6
def ipP (ip : Buffer) : IpProto := ip 9
def ipSrc (ip : Buffer) : IpAddr := inAddrAt ip 12
def ipDst (ip : Buffer) : IpAddr := inAddrAt ip 16

def ipMf : UInt16 := 0x2000
def ipOffmask : UInt16 := 0x1fff
def ipprotoTcp : IpProto := 6
def ipprotoUdp : IpProto := 17
def sizeofEtherHeader : Nat := 14
/-- `sizeof(struct ip)`, which leaves the options out. -/
def sizeofIp : Nat := 20

def hexDigit (n : UInt8) : UInt8 := if n < 10 then 48 + n else 87 + n

/-- The format "%02x:%02x:%02x:%02x:%02x:%02x" and its terminator. -/
def sprintfMac (hw : Buffer) : Mac :=
  List.intercalate [58]
    ((List.range 6).map fun i => [hexDigit (hw i >>> 4), hexDigit (hw i &&& 15)]) ++ [0]

/-- ipq_packet_msg_t. -/
structure IpqPacketMsg where
  packetId : UInt64
  hwAddr : Buffer
  dataLen : Nat
  payload : Buffer

/-- The two ports, `transport` bytes into the packet. -/
def portsAt (ip : Buffer) (transport : Nat) : IpPort × IpPort :=
  if ipOff ip &&& (ipMf ||| ipOffmask) ≠ 0 then (0, 0)
  else if ipP ip = ipprotoTcp then (ntohsAt ip transport, ntohsAt ip (transport + 2))
  else if ipP ip = ipprotoUdp then (ntohsAt ip transport, ntohsAt ip (transport + 2))
  else (0, 0)

/-- Every field of the caller's PACKET_INFO is set. -/
def ipqGrepPacket (hp : IpqPacketMsg) : PacketInfo × IpSize :=
  let ip := hp.payload
  let (srcPort, destPort) := portsAt ip (ipHl ip * 4)
  ({ mac := sprintfMac hp.hwAddr
     proto := ipP ip
     src := ipSrc ip
     dest := ipDst ip
     srcPort := srcPort
     destPort := destPort }, hp.dataLen.toUInt32)

/-- The parsing part of thr_pcap's loop; its sprintf of the mac is commented out. -/
def pcapGrepPacket (buffer : Buffer) (headerLen : UInt32) (packet : PacketInfo) :
    PacketInfo × IpSize :=
  let ip : Buffer := fun i => buffer (sizeofEtherHeader + i)
  let (srcPort, destPort) := portsAt ip sizeofIp
  ({ packet with
     proto := ipP ip
     src := ipSrc ip
     dest := ipDst ip
     srcPort := srcPort
     destPort := destPort }, headerLen - sizeofEtherHeader.toUInt32)

/-- A captured Ethernet frame that carries one IPv4 packet with room for two ports. -/
structure IpFrame where
  bytes : Buffer
  len : UInt32
  etherType : ntohsAt bytes 12 = 0x0800
  version : bytes 14 >>> 4 = 4
  headerLength : 5 ≤ ipHl fun i => bytes (14 + i)
  transport : (ipHl fun i => bytes (14 + i)) * 4 + 4 ≤ ipLen fun i => bytes (14 + i)
  complete : 14 + (ipLen fun i => bytes (14 + i)) ≤ len.toNat

/-- The packet inside the frame. -/
def IpFrame.ip (f : IpFrame) : Buffer := fun i => f.bytes (14 + i)

/-- The queue message of the packet in the frame, from the same hardware address. -/
structure IpFrame.Queued (f : IpFrame) (hp : IpqPacketMsg) : Prop where
  hwAddr : ∀ i, i < 6 → hp.hwAddr i = f.bytes (6 + i)
  dataLen : hp.dataLen = ipLen f.ip
  payload : ∀ i, i < hp.dataLen → hp.payload i = f.ip i

/-- The four bytes of the ports lie the same after the fixed header as after the full one. -/
def PortsInPlace (ip : Buffer) : Prop :=
  ipOff ip &&& (ipMf ||| ipOffmask) ≠ 0 ∨ (ipP ip ≠ ipprotoTcp ∧ ipP ip ≠ ipprotoUdp) ∨
    ∀ i, i < 4 → ip (sizeofIp + i) = ip (ipHl ip * 4 + i)

/-- When thr_pcap reads a frame as ipq_grep_packet reads its packet: the mac left in
`packet` is the sender's, the ports are in place and nothing pads the packet. -/
def PcapFaithful (f : IpFrame) (packet : PacketInfo) : Prop :=
  packet.mac = sprintfMac (fun i => f.bytes (6 + i)) ∧ PortsInPlace f.ip ∧
    f.len.toNat = 14 + ipLen f.ip

theorem sprintfMac_congr {hw hw' : Buffer} (h : ∀ i, i < 6 → hw i = hw' i) :
    sprintfMac hw = sprintfMac hw' := by
  unfold sprintfMac
  congr 2
  apply List.map_congr_left
  intro i hi
  rw [h i (List.mem_range.mp hi)]

theorem ntohsAt_congr {b b' : Buffer} {i j : Nat} (h0 : b i = b' j)
    (h1 : b (i + 1) = b' (j + 1)) : ntohsAt b i = ntohsAt b' j := by
  rw [ntohsAt, ntohsAt, h0, h1]

theorem inAddrAt_congr {b b' : Buffer} {i : Nat} (h : ∀ k, k < 4 → b (i + k) = b' (i + k)) :
    inAddrAt b i = inAddrAt b' i := by
  rw [inAddrAt, inAddrAt, h 1 (by decide), h 2 (by decide), h 3 (by decide)]
  have h0 := h 0 (by decide)
  rw [Nat.add_zero] at h0
  rw [h0]

/-- Two bytes are determined by the port they make. -/
theorem ntohsAt_inj {b b' : Buffer} {i j : Nat} (h : ntohsAt b i = ntohsAt b' j) :
    b i = b' j ∧ b (i + 1) = b' (j + 1) := by
  have hn := congrArg UInt16.toNat h
  simp only [ntohsAt, UInt16.toNat_add, UInt16.toNat_mul, UInt8.toNat_toUInt16] at hn
  have h0 := (b i).toNat_lt
  have h1 := (b (i + 1)).toNat_lt
  have h2 := (b' j).toNat_lt
  have h3 := (b' (j + 1)).toNat_lt
  rw [show UInt16.toNat 256 = 256 from rfl] at hn
  constructor
  · apply UInt8.toNat.inj
    omega
  · apply UInt8.toNat.inj
    omega

theorem portsAt_congr {ip ip' : Buffer} {t : Nat} (hoff : ipOff ip = ipOff ip')
    (hp : ipP ip = ipP ip') (ht : ∀ i, i < 4 → ip (t + i) = ip' (t + i)) :
    portsAt ip t = portsAt ip' t := by
  have hs : ntohsAt ip t = ntohsAt ip' t :=
    ntohsAt_congr (ht 0 (by decide)) (ht 1 (by decide))
  have hd : ntohsAt ip (t + 2) = ntohsAt ip' (t + 2) :=
    ntohsAt_congr (ht 2 (by decide)) (ht 3 (by decide))
  rw [portsAt, portsAt, hoff, hp, hs, hd]

/-- Ports read after the fixed header are the real ones when the ports are in place. -/
theorem portsAt_fixed_iff (ip : Buffer) :
    portsAt ip sizeofIp = portsAt ip (ipHl ip * 4) ↔ PortsInPlace ip := by
  unfold portsAt PortsInPlace
  by_cases hf : ipOff ip &&& (ipMf ||| ipOffmask) ≠ 0
  · simp [hf]
  by_cases hp : ipP ip = ipprotoTcp ∨ ipP ip = ipprotoUdp
  · have hnot : ¬ (ipP ip ≠ ipprotoTcp ∧ ipP ip ≠ ipprotoUdp) := by
      rcases hp with h | h <;> simp [h]
    have hread (t : Nat) : (if ipP ip = ipprotoTcp then (ntohsAt ip t, ntohsAt ip (t + 2))
        else if ipP ip = ipprotoUdp then (ntohsAt ip t, ntohsAt ip (t + 2)) else (0, 0)) =
        (ntohsAt ip t, ntohsAt ip (t + 2)) := by
      rcases hp with h | h <;> simp [h]
    rw [if_neg hf, if_neg hf, hread, hread, Prod.mk.injEq]
    simp only [hf, hnot, false_or]
    constructor
    · rintro ⟨hs, hd⟩ i hi
      obtain ⟨h0, h1⟩ := ntohsAt_inj hs
      obtain ⟨h2, h3⟩ := ntohsAt_inj hd
      have hcases : i = 0 ∨ i = 1 ∨ i = 2 ∨ i = 3 := by omega
      rcases hcases with rfl | rfl | rfl | rfl
      · exact h0
      · exact h1
      · exact h2
      · exact h3
    · intro h
      exact ⟨ntohsAt_congr (h 0 (by decide)) (h 1 (by decide)),
        ntohsAt_congr (h 2 (by decide)) (h 3 (by decide))⟩
  · obtain ⟨ht, hu⟩ := not_or.mp hp
    simp [hf, ht, hu]

/-- The queue's parser on the packet of a frame. -/
theorem ipqGrepPacket_queued {f : IpFrame} {hp : IpqPacketMsg} (h : f.Queued hp) :
    ipqGrepPacket hp =
      ({ mac := sprintfMac (fun i => f.bytes (6 + i))
         proto := ipP f.ip
         src := ipSrc f.ip
         dest := ipDst f.ip
         srcPort := (portsAt f.ip (ipHl f.ip * 4)).1
         destPort := (portsAt f.ip (ipHl f.ip * 4)).2 }, (ipLen f.ip).toUInt32) := by
  have hlen : ipHl f.ip * 4 + 4 ≤ hp.dataLen := h.dataLen ▸ f.transport
  have hmin : 5 ≤ ipHl f.ip := f.headerLength
  have hget (i : Nat) (hi : i < ipHl f.ip * 4 + 4) : hp.payload i = f.ip i :=
    h.payload i (by omega)
  have hhl : ipHl hp.payload = ipHl f.ip := by
    unfold ipHl
    rw [hget 0 (by omega)]
  have hproto : ipP hp.payload = ipP f.ip := hget 9 (by omega)
  have hoff : ipOff hp.payload = ipOff f.ip :=
    ntohsAt_congr (hget 6 (by omega)) (hget 7 (by omega))
  have hsrc : ipSrc hp.payload = ipSrc f.ip :=
    inAddrAt_congr fun k hk => hget (12 + k) (by omega)
  have hdst : ipDst hp.payload = ipDst f.ip :=
    inAddrAt_congr fun k hk => hget (16 + k) (by omega)
  have hports : portsAt hp.payload (ipHl f.ip * 4) = portsAt f.ip (ipHl f.ip * 4) :=
    portsAt_congr hoff hproto fun i hi => hget _ (by omega)
  have hmac : sprintfMac hp.hwAddr = sprintfMac (fun i => f.bytes (6 + i)) :=
    sprintfMac_congr h.hwAddr
  simp only [ipqGrepPacket, hhl, hports, hproto, hsrc, hdst, hmac, h.dataLen]

theorem pcap_len_iff (f : IpFrame) :
    f.len - sizeofEtherHeader.toUInt32 = (ipLen f.ip).toUInt32 ↔
      f.len.toNat = 14 + ipLen f.ip := by
  have hc : 14 + ipLen f.ip ≤ f.len.toNat := f.complete
  have hlt := f.len.toNat_lt
  have hsub : (f.len - sizeofEtherHeader.toUInt32).toNat = f.len.toNat - 14 := by
    apply UInt32.toNat_sub_of_le
    rw [UInt32.le_iff_toNat_le]
    change 14 ≤ f.len.toNat
    omega
  have hto : (ipLen f.ip).toUInt32.toNat = ipLen f.ip := by
    apply UInt32.toNat_ofNat_of_lt
    change ipLen f.ip < 2 ^ 32
    omega
  rw [← UInt32.toNat_inj, hsub, hto]
  omega

/-- The two collectors agree on a frame exactly when thr_pcap is faithful on it. -/
theorem pcap_agrees_ipq_iff (f : IpFrame) (hp : IpqPacketMsg) (packet : PacketInfo)
    (h : f.Queued hp) :
    pcapGrepPacket f.bytes f.len packet = ipqGrepPacket hp ↔
      PcapFaithful f packet := by
  rw [ipqGrepPacket_queued h]
  unfold pcapGrepPacket PcapFaithful
  change (PacketInfo.mk packet.mac (ipP f.ip) (ipSrc f.ip) (ipDst f.ip)
    (portsAt f.ip sizeofIp).1 (portsAt f.ip sizeofIp).2, _) = _ ↔ _
  rw [← portsAt_fixed_iff, ← pcap_len_iff, Prod.mk.injEq, PacketInfo.mk.injEq,
    Prod.ext_iff (x := portsAt f.ip sizeofIp)]
  tauto

/-- A TCP packet of 50 bytes, `hl` words of header, from port 443 behind a full header. -/
def tcpBytes (hl : UInt8) : List UInt8 :=
  [0, 27, 33, 0, 0, 1, 0, 27, 33, 0, 0, 2, 8, 0] ++
  [64 + hl, 0, 0, 50, 0, 0, 64, 0, 64, 6, 0, 0, 10, 0, 0, 1, 10, 0, 0, 2] ++
  List.replicate ((hl.toNat - 5) * 4) 1 ++ [1, 187, 4, 210]

def tcpBuffer (hl : UInt8) : Buffer := fun i => (tcpBytes hl).getD i 0

def tcpFrame (hl : UInt8) (h : hl = 5 ∨ hl = 6) : IpFrame where
  bytes := tcpBuffer hl
  len := 64
  etherType := by rcases h with rfl | rfl <;> rfl
  version := by rcases h with rfl | rfl <;> decide
  headerLength := by rcases h with rfl | rfl <;> decide
  transport := by rcases h with rfl | rfl <;> decide
  complete := by rcases h with rfl | rfl <;> decide

def IpFrame.message (f : IpFrame) : IpqPacketMsg :=
  ⟨1, fun i => f.bytes (6 + i), ipLen f.ip, f.ip⟩

theorem IpFrame.message_queued (f : IpFrame) : f.Queued f.message :=
  ⟨fun _ _ => rfl, rfl, fun _ _ => rfl⟩

/-- `packet_info` as it stands before the first capture. -/
def blankPacket : PacketInfo := ⟨List.replicate 18 0, 0, 0, 0, 0, 0⟩

/-- `packet_info` with the text of the sender's address, as ipq_grep_packet leaves it. -/
def sentPacket : PacketInfo :=
  { blankPacket with mac := sprintfMac fun i => tcpBuffer 5 (6 + i) }

theorem pcap_agrees_ipq_plain :
    (tcpFrame 5 (.inl rfl)).Queued (tcpFrame 5 (.inl rfl)).message ∧
      pcapGrepPacket (tcpFrame 5 (.inl rfl)).bytes 64 sentPacket =
        ipqGrepPacket (tcpFrame 5 (.inl rfl)).message := by
  have hqueued := IpFrame.message_queued (tcpFrame 5 (.inl rfl))
  refine ⟨hqueued, (pcap_agrees_ipq_iff (tcpFrame 5 (.inl rfl)) _ sentPacket hqueued).mpr ?_⟩
  exact ⟨rfl, .inr (.inr fun _ _ => rfl), by decide⟩

/-- With one word of options the ports are read from the options; the mac stays blank. -/
theorem pcap_differs_options :
    (tcpFrame 6 (.inr rfl)).Queued (tcpFrame 6 (.inr rfl)).message ∧
      (pcapGrepPacket (tcpFrame 6 (.inr rfl)).bytes 64 blankPacket).1.srcPort = 257 ∧
      (ipqGrepPacket (tcpFrame 6 (.inr rfl)).message).1.srcPort = 443 ∧
      pcapGrepPacket (tcpFrame 6 (.inr rfl)).bytes 64 blankPacket ≠
        ipqGrepPacket (tcpFrame 6 (.inr rfl)).message :=
  ⟨IpFrame.message_queued _, by decide, by decide, by decide⟩

end IPStat
