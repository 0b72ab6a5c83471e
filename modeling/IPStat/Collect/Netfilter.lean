import IPStat.Collect.Decode

namespace IPStat

inductive Verdict where
  | drop
  | accept
  deriving DecidableEq, Repr

/-- A call through CORE_API on the collector's packet_info and packet_data. -/
abbrev PacketCall (σ : Type) :=
  PacketInfo → PacketDataInfo → σ → Bool × PacketInfo × PacketDataInfo × σ

/-- What the collector calls; `σ` is everything outside the thread. -/
structure Outside (σ : Type) where
  auth : PacketCall σ
  autz : PacketCall σ
  acct : PacketCall σ
  timeAcct : PacketDataInfo → σ → σ
  ipAcct : PacketInfo → PacketDataInfo → σ → σ
  setVerdict : UInt64 → Verdict → σ → Int × σ

inductive LibCall where
  | auth (info : PacketInfo) (answer : Bool)
  | autz (info : PacketInfo) (data : PacketDataInfo) (answer : Bool)
  | acct (info : PacketInfo) (data : PacketDataInfo)
  | timeAcct (data : PacketDataInfo)
  | ipAcct (info : PacketInfo) (data : PacketDataInfo)
  | setVerdict (packetId : UInt64) (verdict : Verdict)
  deriving DecidableEq, Repr

/-- The variables of thr_ipq, the world outside and the calls made for the current message. -/
structure Loop (σ : Type) where
  info : PacketInfo
  data : PacketDataInfo
  world : σ
  calls : List LibCall

section
variable {σ : Type} (c : Outside σ)

def Loop.auth (s : Loop σ) : Bool × Loop σ :=
  let (answer, info, data, world) := c.auth s.info s.data s.world
  (answer, ⟨info, data, world, s.calls ++ [.auth s.info answer]⟩)

def Loop.autz (s : Loop σ) : Bool × Loop σ :=
  let (answer, info, data, world) := c.autz s.info s.data s.world
  (answer, ⟨info, data, world, s.calls ++ [.autz s.info s.data answer]⟩)

def Loop.acct (s : Loop σ) : Loop σ :=
  let (_, info, data, world) := c.acct s.info s.data s.world
  ⟨info, data, world, s.calls ++ [.acct s.info s.data]⟩

def Loop.timeAcct (s : Loop σ) : Loop σ :=
  { s with world := c.timeAcct s.data s.world, calls := s.calls ++ [.timeAcct s.data] }

def Loop.ipAcct (s : Loop σ) : Loop σ :=
  { s with world := c.ipAcct s.info s.data s.world, calls := s.calls ++ [.ipAcct s.info s.data] }

def Loop.setVerdict (packetId : UInt64) (v : Verdict) (s : Loop σ) : Int × Loop σ :=
  let (status, world) := c.setVerdict packetId v s.world
  (status, { s with world := world, calls := s.calls ++ [.setVerdict packetId v] })

/-- The IPQM_PACKET case of the loop, with the status of its last call. -/
def ipqmPacket (msg : IpqPacketMsg) (s : Loop σ) : Int × Loop σ :=
  let (info, eLen) := ipqGrepPacket msg
  let (ok, s) := Loop.auth c { s with info := info, calls := [] }
  let s :=
    if ok then
      let (ok, s) := Loop.autz c { s with data := { s.data with len := eLen } }
      if ok then
        (((s.acct c).timeAcct c).ipAcct c).setVerdict c msg.packetId .accept |>.2
      else (s.setVerdict c msg.packetId .drop).2
    else (s.setVerdict c msg.packetId .drop).2
  -- this call stands after the branches and is made for every packet
  s.setVerdict c msg.packetId .accept

/-- What one ipq_read leaves in the buffer: nothing before the timeout or EINTR, an error, a
packet, or a message of another type. -/
inductive IpqRead where
  | idle
  | failed
  | packet (msg : IpqPacketMsg)
  | other

/-- The loop of thr_ipq over what it reads until do_exit: each packet's id and calls. -/
def thrIpq : List IpqRead → Loop σ → List (UInt64 × List LibCall)
  | [], _ => []
  | .idle :: rs, s => thrIpq rs s
  | .failed :: rs, s => thrIpq rs s
  | .other :: rs, s => thrIpq rs s
  | .packet msg :: rs, s =>
    let (status, s) := ipqmPacket c msg s
    (msg.packetId, s.calls) :: if status < 0 then [] else thrIpq rs s

end

def LibCall.verdict : LibCall → Option (UInt64 × Verdict)
  | .setVerdict packetId v => some (packetId, v)
  | _ => none

def verdicts (calls : List LibCall) : List (UInt64 × Verdict) := calls.filterMap (·.verdict)

def LibCall.authTrue : LibCall → Bool
  | .auth _ answer => answer
  | _ => false

def LibCall.autzTrue : LibCall → Bool
  | .autz _ _ answer => answer
  | _ => false

def LibCall.isAcct : LibCall → Bool
  | .acct _ _ => true
  | _ => false

def LibCall.isTimeAcct : LibCall → Bool
  | .timeAcct _ => true
  | _ => false

def LibCall.isIpAcct : LibCall → Bool
  | .ipAcct _ _ => true
  | _ => false

/-- Both checks answered TRUE among these calls. -/
def passed (calls : List LibCall) : Bool := calls.any (·.authTrue) && calls.any (·.autzTrue)

/-- All three accounts were charged, or none of them. -/
def AccountedIff (calls : List LibCall) (p : Bool) : Prop :=
  calls.any (·.isAcct) = p ∧ calls.any (·.isTimeAcct) = p ∧ calls.any (·.isIpAcct) = p

/-- One verdict on the packet, an accept when both checks passed, and accounting to match. -/
def RightVerdict (packetId : UInt64) (calls : List LibCall) : Prop :=
  ∃ v, verdicts calls = [(packetId, v)] ∧ (v = .accept ↔ passed calls = true) ∧
    AccountedIff calls (v == .accept)

def branchVerdict (p : Bool) : Verdict := if p then .accept else .drop

section
variable {σ : Type} (c : Outside σ)

/-- Every packet gets the verdict of its branch and then an accept; only the accounting
follows the checks. -/
theorem ipqmPacket_calls (msg : IpqPacketMsg) (s : Loop σ) :
    let calls := (ipqmPacket c msg s).2.calls
    verdicts calls =
        [(msg.packetId, branchVerdict (passed calls)), (msg.packetId, .accept)] ∧
      AccountedIff calls (passed calls) := by
  rcases ha : c.auth (ipqGrepPacket msg).1 s.data s.world with ⟨_ | _, info, data, world⟩
  · simp [ipqmPacket, Loop.auth, Loop.setVerdict, ha, verdicts, LibCall.verdict, passed,
      LibCall.authTrue, LibCall.autzTrue, branchVerdict, AccountedIff, LibCall.isAcct,
      LibCall.isTimeAcct, LibCall.isIpAcct]
  rcases hz : c.autz info { data with len := (ipqGrepPacket msg).2 } world with
    ⟨_ | _, info', data', world'⟩ <;>
  simp [ipqmPacket, Loop.auth, Loop.autz, Loop.acct, Loop.timeAcct, Loop.ipAcct,
    Loop.setVerdict, ha, hz, verdicts, LibCall.verdict, passed, LibCall.authTrue,
    LibCall.autzTrue, branchVerdict, AccountedIff, LibCall.isAcct, LibCall.isTimeAcct,
    LibCall.isIpAcct]

theorem ipqmPacket_wrong (msg : IpqPacketMsg) (s : Loop σ) :
    ¬ RightVerdict msg.packetId (ipqmPacket c msg s).2.calls := by
  rintro ⟨v, hv, -⟩
  have htwo := (ipqmPacket_calls c msg s).1
  rw [hv] at htwo
  simp at htwo

/-- A packet that is read first is judged; the loop cannot have stopped before it. -/
theorem thrIpq_judges {rs : List IpqRead} {msg : IpqPacketMsg} (h : .packet msg ∈ rs)
    (s : Loop σ) : ∃ msg' s', (msg'.packetId, (ipqmPacket c msg' s').2.calls) ∈ thrIpq c rs s := by
  induction rs with
  | nil => cases h
  | cons r rs ih =>
    cases r with
    | packet msg' => exact ⟨msg', s, List.mem_cons_self⟩
    | idle => exact ih (by simpa using h)
    | failed => exact ih (by simpa using h)
    | other => exact ih (by simpa using h)

theorem thrIpq_quiet {rs : List IpqRead} (h : ∀ msg, .packet msg ∉ rs) (s : Loop σ) :
    thrIpq c rs s = [] := by
  induction rs with
  | nil => rfl
  | cons r rs ih =>
    have hrest : ∀ msg, .packet msg ∉ rs := fun msg hm => h msg (List.mem_cons_of_mem r hm)
    cases r with
    | packet msg => exact absurd List.mem_cons_self (h msg)
    | idle => exact ih hrest
    | failed => exact ih hrest
    | other => exact ih hrest

/-- The loop gives the right verdicts only as long as it reads no packet. -/
theorem thrIpq_right_iff (rs : List IpqRead) (s : Loop σ) :
    (∀ p ∈ thrIpq c rs s, RightVerdict p.1 p.2) ↔ ∀ msg, IpqRead.packet msg ∉ rs := by
  constructor
  · intro hall msg hm
    obtain ⟨msg', s', hmem⟩ := thrIpq_judges c hm s
    exact ipqmPacket_wrong c msg' s' (hall _ hmem)
  · intro hno p hp
    rw [thrIpq_quiet c hno s] at hp
    cases hp

end

/-- A core that knows no user. -/
def denyAll : Outside Unit where
  auth info data w := (false, info, data, w)
  autz info data w := (false, info, data, w)
  acct info data w := (true, info, data, w)
  timeAcct _ w := w
  ipAcct _ _ w := w
  setVerdict _ _ w := (0, w)

def startLoop : Loop Unit :=
  ⟨⟨[], 0, 0, 0, 0, 0⟩, ⟨.traffic, 0, 0, 0, 0, 0, 0, 0⟩, (), []⟩

/-- A packet that fails auth is dropped and then accepted. -/
theorem thrIpq_accepts_denied :
    (thrIpq denyAll [.packet (tcpFrame 5 (.inl rfl)).message] startLoop).map
        (fun p => verdicts p.2) = [[(1, .drop), (1, .accept)]] ∧
      ¬ ∀ p ∈ thrIpq denyAll [.packet (tcpFrame 5 (.inl rfl)).message] startLoop,
        RightVerdict p.1 p.2 := by
  refine ⟨rfl, fun hall => ?_⟩
  exact ipqmPacket_wrong denyAll _ startLoop (hall _ List.mem_cons_self)

end IPStat
