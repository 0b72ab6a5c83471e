import IPStat.Aggregate.FlowLog
import IPStat.Collect.Netfilter
import IPStat.Core.Chains

/-! The netfilter collector over the core, the time accounts and the IP accounts, with the passes
that empty them into the database. -/

namespace IPStat

open Rows Tally

/-- What the daemon holds between two packets; `π` is what its plugins keep. -/
structure Books (π δ : Type) where
  users : Users
  plugins : π
  time : Pipeline
  flows : FlowLog δ

/-- What a packet meets: the bytes of the stack between the fields of ip_acct's key, the mallocs of
time_acct and ip_acct, and the answers of ipq_set_verdict. -/
structure PacketEnv where
  pad1 : UInt16
  pad2 : UInt16
  timeAlloc : AcctAlloc
  ipAlloc : AcctAlloc
  status : Verdict → Int

/-- The packet behind a request; what a hook does to it, it does in place. -/
def Request.packet : Request → PacketInfo × PacketDataInfo → PacketInfo × PacketDataInfo
  | .traffic info data, _ => (info, data)
  | .squid _ _, packet | .other _, packet => packet

section
variable {π δ : Type} [DecidableEq δ] (hooks : Hooks π) (env : PacketEnv)

/-- time_acct, with no other section of func_time.c between its own two. -/
def bookTime (data : PacketDataInfo) (b : Books π δ) : Option (Books π δ) :=
  let alloc := env.timeAlloc
  ((b.time.step (.acct data)).bind fun time =>
    time.step (.finish alloc.key alloc.value alloc.node)).map fun time => { b with time := time }

def bookFlow (info : PacketInfo) (data : PacketDataInfo) (b : Books π δ) : Option (Books π δ) :=
  (b.flows.step (.acct info data env.pad1 env.pad2 env.ipAlloc)).map fun flows =>
    { b with flows := flows }

/-- What thr_ipq calls. A call that does not return leaves no books. -/
def daemon : Outside (Option (Books π δ)) where
  auth info data books :=
    match books with
    | none => (false, info, data, none)
    | some b =>
      let r := usersAuth hooks b.users true (.traffic info data) b.plugins
      let packet := r.req.packet (info, data)
      (r.flag, packet.1, packet.2, some { b with plugins := r.plugins })
  autz info data books :=
    match books.bind fun b =>
      (usersAutz hooks b.users true (.traffic info data) b.plugins).map (b, ·) with
    | none => (false, info, data, none)
    | some (b, r) =>
      let packet := r.req.packet (info, data)
      (r.flag, packet.1, packet.2, some { b with plugins := r.plugins })
  acct info data books :=
    match books.bind fun b =>
      (usersAcct hooks b.users true (.traffic info data) b.plugins).map (b, ·) with
    | none => (false, info, data, none)
    | some (b, r) =>
      let packet := r.req.packet (info, data)
      (r.flag, packet.1, packet.2, some { b with users := r.users, plugins := r.plugins })
  timeAcct data books := books.bind (bookTime env data)
  ipAcct info data books := books.bind (bookFlow env info data)
  setVerdict _ v books := (env.status v, books)

end

/-- The thread's variables, whether its loop goes on, the books, and the calls it has made. -/
structure Collector (π δ : Type) where
  info : PacketInfo
  data : PacketDataInfo
  running : Bool
  books : Books π δ
  calls : List LibCall

inductive CollectorEvent (π δ : Type) where
  | packet (msg : IpqPacketMsg) (env : PacketEnv)
  | core (users : Users) (plugins : π)
  | time (e : PipelineEvent)
  | flows (meets : SyncMeets) (today : Nat → δ)

/-- The calls of a packet belong to the collector, and all else to the passes. -/
def PipelineEvent.ofPass : PipelineEvent → Bool
  | .acct _ | .finish _ _ _ => false
  | .enter | .take _ _ | .select _ _ | .write _ _ | .giveBack _ | .leave _ | .group _ _ => true

namespace Collector

section
variable {π δ : Type} [DecidableEq δ] (hooks : Hooks π)

/-- The calls that a packet leads to, with what they leave. -/
def judge (s : Collector π δ) (msg : IpqPacketMsg) (env : PacketEnv) :
    Int × Loop (Option (Books π δ)) :=
  ipqmPacket (daemon hooks env) msg ⟨s.info, s.data, some s.books, []⟩

def step (s : Collector π δ) : CollectorEvent π δ → Option (Collector π δ)
  | .packet msg env =>
    if s.running then
      let (status, loop) := s.judge hooks msg env
      loop.world.map fun books =>
        ⟨loop.info, loop.data, decide (0 ≤ status), books, s.calls ++ loop.calls⟩
    else none
  | .core users plugins =>
    some { s with books := { s.books with users := users, plugins := plugins } }
  | .time e =>
    if e.ofPass then
      (s.books.time.step e).map fun time => { s with books := { s.books with time := time } }
    else none
  | .flows meets today =>
    (s.books.flows.step (.sync meets today)).map fun flows =>
      { s with books := { s.books with flows := flows } }

/-- What Provided asks of an ip_acct among the calls of a packet. -/
def ProvidedFor (s : Collector π δ) (env : PacketEnv) : LibCall → Prop
  | .ipAcct info data => Provided s.books.flows.ip (.acct info data env.pad1 env.pad2 env.ipAlloc)
  | .auth _ _ | .autz _ _ _ | .acct _ _ | .timeAcct _ | .setVerdict _ _ => True

/-- Both accounts get the memory they ask for, no counter of theirs wraps, and the passes are
careful. -/
def Careful (s : Collector π δ) : CollectorEvent π δ → Prop
  | .packet msg env =>
    env.timeAlloc = ⟨true, true, true⟩ ∧ env.ipAlloc = ⟨true, true, true⟩ ∧
      ∀ call ∈ (s.judge hooks msg env).2.calls, s.ProvidedFor env call
  | .core _ _ => True
  | .time e => s.books.time.Careful e
  | .flows meets today => s.books.flows.Careful (.sync meets today)

end

instance {π δ : Type} (s : Collector π δ) (env : PacketEnv) :
    ∀ call, Decidable (s.ProvidedFor env call)
  | .ipAcct info data => inferInstanceAs (Decidable
      (Provided s.books.flows.ip (.acct info data env.pad1 env.pad2 env.ipAlloc)))
  | .auth _ _ | .autz _ _ _ | .acct _ _ | .timeAcct _ | .setVerdict _ _ => isTrue trivial

instance {π δ : Type} [DecidableEq δ] (hooks : Hooks π) (s : Collector π δ) :
    ∀ e, Decidable (s.Careful hooks e)
  | .packet msg env => inferInstanceAs (Decidable (env.timeAlloc = ⟨true, true, true⟩ ∧
      env.ipAlloc = ⟨true, true, true⟩ ∧
        ∀ call ∈ (s.judge hooks msg env).2.calls, s.ProvidedFor env call))
  | .core _ _ => isTrue trivial
  | .time e => inferInstanceAs (Decidable (s.books.time.Careful e))
  | .flows meets today => inferInstanceAs (Decidable (s.books.flows.Careful (.sync meets today)))

/-- The bytes that a call accounts to a user. -/
def carriedBy (id : IpId) : LibCall → Nat
  | .timeAcct data => if data.idUser = id then data.len.toNat else 0
  | _ => 0

/-- The bytes of the packets that the collector has accounted to a user. -/
def carried (id : IpId) (calls : List LibCall) : Nat := tally (carriedBy id) calls

/-- The columns of a user. -/
def ofUser (id : IpId) : LogIpKey Unit → Bool := fun k => k.idUser = id

section
variable {s s' : TimeState} {data : PacketDataInfo}

/-- A time_acct that gets its memory accounts its packet. -/
theorem timeAcct_accounted {mid : TimeState} (hmid : timeStep s (.acct data) = some mid)
    (hs : timeStep mid (.finish true true true) = some s') :
    s'.accounted = bump s.accounted data.idUser data.len := by
  have hcollector : mid.accounted = s.accounted ∧
      ((∃ ptr, mid.collector = some (.update data.idUser ptr data.len)) ∨
        mid.collector = some (.insert data.idUser data.len)) := by
    change timeLookup s data.idUser data.len = some mid at hmid
    unfold timeLookup at hmid
    split at hmid
    · cases hmid
    · split at hmid
      · rename_i ptr _
        cases hmid
        exact ⟨rfl, .inl ⟨ptr, rfl⟩⟩
      · cases hmid
        exact ⟨rfl, .inr rfl⟩
  obtain ⟨haccounted, hpc⟩ := hcollector
  obtain ⟨idUser, ptr, len, val, hpc', -, rfl⟩ |
    ⟨idUser, len, hpc', ⟨-, agTime, inserted, -, rfl⟩ | ⟨halloc, -⟩⟩ := timeFinish_some hs
  · obtain ⟨ptr', hpc⟩ | hpc := hpc
    · cases hpc.symm.trans hpc'
      exact congrArg (bump · data.idUser data.len) haccounted
    · cases hpc.symm.trans hpc'
  · obtain ⟨ptr', hpc⟩ | hpc := hpc
    · cases hpc.symm.trans hpc'
    · cases hpc.symm.trans hpc'
      exact congrArg (bump · data.idUser data.len) haccounted
  · exact absurd ⟨rfl, rfl⟩ halloc

end

section
variable {s s' : Pipeline}

theorem accounted_onTime {op : TimeOp} {flags : List (Option Bool)}
    (hop : ∀ time, timeStep s.time op = some time → time.accounted = s.time.accounted)
    (hs : s.onTime op flags = some s') : s'.time.accounted = s.time.accounted := by
  obtain ⟨time, htime, rfl⟩ := Pipeline.onTime_some hs
  exact hop time htime

theorem accounted_timeExport {i : Nat} {ok : Bool} (time : TimeState)
    (h : timeStep s.time (.timeExport i ok) = some time) : time.accounted = s.time.accounted := by
  obtain ⟨id, ptr, tmp, -, ⟨-, rfl⟩ | ⟨-, rfl⟩⟩ := timeExport_some h
  all_goals rfl

/-- The passes of func_time.c account nothing. -/
theorem pass_accounted {e : PipelineEvent} (he : e.ofPass = true) (hs : s.step e = some s') :
    s'.time.accounted = s.time.accounted := by
  cases e with
  | acct data => cases he
  | finish keyAlloc valueAlloc nodeAlloc => cases he
  | enter =>
    apply accounted_onTime _ hs
    intro time htime
    cases htime
    rfl
  | take i idUser =>
    apply accounted_onTime _ hs
    intro time htime
    obtain ⟨ptr, tmp, -, -, -, rfl⟩ := timeTake_some htime
    rfl
  | select i ok =>
    change s.select i ok = some s' at hs
    unfold Pipeline.select at hs
    split at hs
    · split at hs
      · cases hs
        rfl
      · exact accounted_onTime accounted_timeExport hs
    · cases hs
  | write i ok =>
    change s.write i ok = some s' at hs
    unfold Pipeline.write at hs
    split at hs
    · obtain ⟨mid, hmid, rfl⟩ := Option.map_eq_some_iff.mp hs
      have hsame := accounted_onTime accounted_timeExport hmid
      split
      · exact hsame
      · exact hsame
    · cases hs
  | giveBack i =>
    apply accounted_onTime _ hs
    intro time htime
    obtain ⟨id, ptr, tmp, val, -, -, rfl⟩ := timeGiveBack_some htime
    rfl
  | leave i =>
    apply accounted_onTime _ hs
    intro time htime
    obtain ⟨-, rfl⟩ := timeLeave_some htime
    rfl
  | group answers now =>
    cases hs
    rfl

end

section
variable {π δ : Type} [DecidableEq δ] {hooks : Hooks π} {env : PacketEnv}

@[simp] theorem setVerdict_books (packetId : UInt64) (v : Verdict) (books : Option (Books π δ)) :
    ((daemon hooks env).setVerdict packetId v books).2 = books := rfl

@[simp] theorem timeAcct_books (data : PacketDataInfo) (books : Option (Books π δ)) :
    (daemon hooks env).timeAcct data books = books.bind (bookTime env data) := rfl

@[simp] theorem ipAcct_books (info : PacketInfo) (data : PacketDataInfo)
    (books : Option (Books π δ)) :
    (daemon hooks env).ipAcct info data books = books.bind (bookFlow env info data) := rfl

/-- The accounts are as they were, where there are books. -/
def Untouched (b : Books π δ) (books : Option (Books π δ)) : Prop :=
  ∀ b' ∈ books, b'.time = b.time ∧ b'.flows = b.flows

theorem auth_untouched {b : Books π δ} {books : Option (Books π δ)} (h : Untouched b books)
    (info : PacketInfo) (data : PacketDataInfo) :
    Untouched b ((daemon hooks env).auth info data books).2.2.2 := by
  cases books with
  | none => exact h
  | some b' =>
    intro b'' hb
    cases hb
    exact h b' rfl

theorem autz_untouched {b : Books π δ} {books : Option (Books π δ)} (h : Untouched b books)
    (info : PacketInfo) (data : PacketDataInfo) :
    Untouched b ((daemon hooks env).autz info data books).2.2.2 := by
  cases books with
  | none => exact h
  | some b' =>
    intro b'' hb
    simp only [daemon, Option.bind_some] at hb
    cases hr : usersAutz hooks b'.users true (.traffic info data) b'.plugins with
    | none =>
      rw [hr] at hb
      cases hb
    | some r =>
      rw [hr] at hb
      cases hb
      exact h b' rfl

theorem acct_untouched {b : Books π δ} {books : Option (Books π δ)} (h : Untouched b books)
    (info : PacketInfo) (data : PacketDataInfo) :
    Untouched b ((daemon hooks env).acct info data books).2.2.2 := by
  cases books with
  | none => exact h
  | some b' =>
    intro b'' hb
    simp only [daemon, Option.bind_some] at hb
    cases hr : usersAcct hooks b'.users true (.traffic info data) b'.plugins with
    | none =>
      rw [hr] at hb
      cases hb
    | some r =>
      rw [hr] at hb
      cases hb
      exact h b' rfl

/-- No account is charged for a packet, or both are, with the same data. -/
theorem judge_cases (s : Collector π δ) (msg : IpqPacketMsg) (env : PacketEnv) :
    (∀ id, carried id (s.judge hooks msg env).2.calls = 0) ∧
        Untouched s.books (s.judge hooks msg env).2.world ∨
      ∃ info data books, (∀ id, carried id (s.judge hooks msg env).2.calls =
          carriedBy id (.timeAcct data)) ∧
        .ipAcct info data ∈ (s.judge hooks msg env).2.calls ∧
        Untouched s.books books ∧
        (s.judge hooks msg env).2.world =
          (books.bind (bookTime env data)).bind (bookFlow env info data) := by
  have hstart : Untouched s.books (some s.books) := by
    intro b hb
    cases hb
    exact ⟨rfl, rfl⟩
  have hauth := @auth_untouched π δ _ hooks env _ _ hstart (ipqGrepPacket msg).1 s.data
  rcases ha : (daemon hooks env).auth (ipqGrepPacket msg).1 s.data (some s.books) with
    ⟨_ | _, info, data, books⟩
  · -- the packet is nobody's
    rw [ha] at hauth
    refine .inl ⟨fun id => ?_, ?_⟩
    · simp [judge, ipqmPacket, Loop.auth, Loop.setVerdict, ha, carried, carriedBy]
    · simpa [judge, ipqmPacket, Loop.auth, Loop.setVerdict, ha] using hauth
  rw [ha] at hauth
  have hautz := @autz_untouched π δ _ hooks env _ _ hauth info
    { data with len := (ipqGrepPacket msg).2 }
  rcases hz : (daemon hooks env).autz info { data with len := (ipqGrepPacket msg).2 } books with
    ⟨_ | _, info', data', books'⟩
  · -- it is not let through
    rw [hz] at hautz
    refine .inl ⟨fun id => ?_, ?_⟩
    · simp [judge, ipqmPacket, Loop.auth, Loop.autz, Loop.setVerdict, ha, hz, carried, carriedBy]
    · simpa [judge, ipqmPacket, Loop.auth, Loop.autz, Loop.setVerdict, ha, hz] using hautz
  rw [hz] at hautz
  have hacct := @acct_untouched π δ _ hooks env _ _ hautz info' data'
  rcases hc : (daemon hooks env).acct info' data' books' with ⟨flag, info'', data'', books''⟩
  rw [hc] at hacct
  refine .inr ⟨info'', data'', books'', fun id => ?_, ?_, hacct, ?_⟩
  · simp [judge, ipqmPacket, Loop.auth, Loop.autz, Loop.acct, Loop.timeAcct, Loop.ipAcct,
      Loop.setVerdict, ha, hz, hc, carried, carriedBy]
  · simp [judge, ipqmPacket, Loop.auth, Loop.autz, Loop.acct, Loop.timeAcct, Loop.ipAcct,
      Loop.setVerdict, ha, hz, hc]
  · simp [judge, ipqmPacket, Loop.auth, Loop.autz, Loop.acct, Loop.timeAcct, Loop.ipAcct,
      Loop.setVerdict, ha, hz, hc]

end

/-- Both accounts and both tables have what the collector has carried. -/
structure Agrees {π δ : Type} (db₀ : TimeTables) (rows₀ : List (Row (LogIpKey δ)))
    (s : Collector π δ) : Prop where
  time : Pipeline.Sound db₀ s.books.time
  flows : FlowLog.Sound rows₀ s.books.flows
  timeBook : ∀ id, s.books.time.time.accounted id = UInt32.ofNat (carried id s.calls)
  flowBook : ∀ id, recordSum (ofUser id) s.books.flows.accounted = carried id s.calls

section
variable {π δ : Type} {hooks : Hooks π} {env : PacketEnv} {db₀ : TimeTables}
  {rows₀ : List (Row (LogIpKey δ))} {b b' : Books π δ} {info : PacketInfo} {data : PacketDataInfo}

theorem bookTime_sound (halloc : env.timeAlloc = ⟨true, true, true⟩)
    (h : Pipeline.Sound db₀ b.time) (hs : bookTime env data b = some b') :
    Pipeline.Sound db₀ b'.time ∧
      b'.time.time.accounted = bump b.time.time.accounted data.idUser data.len ∧
      b'.flows = b.flows := by
  rw [bookTime, halloc] at hs
  obtain ⟨time, htime, rfl⟩ := Option.map_eq_some_iff.mp hs
  obtain ⟨mid, hmid, htime⟩ := Option.bind_eq_some_iff.mp htime
  have hacct : Pipeline.Sound db₀ mid := h.step (e := .acct data) trivial hmid
  refine ⟨hacct.step (e := .finish true true true) (fun _ _ _ => rfl) htime, ?_, rfl⟩
  obtain ⟨looked, hlooked, rfl⟩ := Pipeline.onTime_some hmid
  obtain ⟨booked, hbooked, rfl⟩ := Pipeline.onTime_some htime
  exact timeAcct_accounted hlooked hbooked

theorem ipKey_user (info : PacketInfo) (data : PacketDataInfo) (pad1 pad2 : UInt16) (id : IpId) :
    ofUser id (ipKey info data pad1 pad2).columns = decide (data.idUser = id) := rfl

variable [DecidableEq δ]

theorem bookFlow_sound (halloc : env.ipAlloc = ⟨true, true, true⟩)
    (hp : Provided b.flows.ip (.acct info data env.pad1 env.pad2 env.ipAlloc))
    (h : FlowLog.Sound rows₀ b.flows) (hs : bookFlow env info data b = some b') :
    FlowLog.Sound rows₀ b'.flows ∧ b'.time = b.time ∧
      ∀ id, recordSum (ofUser id) b'.flows.accounted =
        recordSum (ofUser id) b.flows.accounted + carriedBy id (.timeAcct data) := by
  obtain ⟨flows, hflows, rfl⟩ := Option.map_eq_some_iff.mp hs
  refine ⟨h.step (e := .acct info data env.pad1 env.pad2 env.ipAlloc) hp hflows, rfl, fun id => ?_⟩
  obtain ⟨⟨ip, ok⟩, hacct, rfl⟩ := Option.map_eq_some_iff.mp hflows
  have hok : ok = true := by
    rw [halloc] at hacct
    obtain ⟨ptr, cell, -, -, -, hok⟩ | ⟨-, ⟨hno, -⟩ | ⟨-, agIp, inserted, -, -, hok⟩⟩ :=
      ipAcct_cases h.ip.rest.released.tree hacct
    · exact hok
    · simp at hno
    · exact hok
  subst hok
  show recordSum (ofUser id) ((ipKey info data env.pad1 env.pad2, data.len.toNat) ::
    b.flows.accounted) = _
  rw [recordSum_cons, ipKey_user, carriedBy, Nat.add_comm]
  simp

theorem carried_append (id : IpId) (calls calls' : List LibCall) :
    carried id (calls ++ calls') = carried id calls + carried id calls' :=
  tally_append calls calls'

variable {s s' : Collector π δ}

theorem step_packet {msg : IpqPacketMsg} (hs : s.step hooks (.packet msg env) = some s') :
    (s.judge hooks msg env).2.world = some s'.books ∧
      s'.calls = s.calls ++ (s.judge hooks msg env).2.calls := by
  rw [step] at hs
  split at hs
  · rcases hjudge : s.judge hooks msg env with ⟨status, loop⟩
    rw [hjudge] at hs
    obtain ⟨books, hworld, rfl⟩ := Option.map_eq_some_iff.mp hs
    exact ⟨hworld, rfl⟩
  · cases hs

/-- A packet is in both accounts, or in none. -/
theorem Agrees.packet (h : Agrees db₀ rows₀ s) {msg : IpqPacketMsg}
    (hg : s.Careful hooks (.packet msg env)) (hs : s.step hooks (.packet msg env) = some s') :
    Agrees db₀ rows₀ s' := by
  obtain ⟨htime, hip, hprovided⟩ := hg
  obtain ⟨hworld, hcalls⟩ := step_packet hs
  have hcarriedOn (id : IpId) : carried id s'.calls =
      carried id s.calls + carried id (s.judge hooks msg env).2.calls := by
    rw [hcalls, carried_append]
  obtain ⟨hnone, hsame⟩ | ⟨info, data, books, hcarried, hmem, hsame, hbooks⟩ :=
    @judge_cases π δ _ hooks s msg env
  · obtain ⟨htimeSame, hflowsSame⟩ := hsame s'.books hworld
    refine ⟨htimeSame ▸ h.time, hflowsSame ▸ h.flows, fun id => ?_, fun id => ?_⟩
    · rw [htimeSame, h.timeBook, hcarriedOn, hnone, Nat.add_zero]
    · rw [hflowsSame, h.flowBook, hcarriedOn, hnone, Nat.add_zero]
  · have hp := hprovided _ hmem
    obtain ⟨timed, htimed, hb⟩ := Option.bind_eq_some_iff.mp (hbooks.symm.trans hworld)
    obtain ⟨start, hstart, htimed⟩ := Option.bind_eq_some_iff.mp htimed
    obtain ⟨htimeSame, hflowsSame⟩ := hsame start hstart
    obtain ⟨hsound, haccounted, hflows⟩ := bookTime_sound htime (htimeSame ▸ h.time) htimed
    have hflowsStart : timed.flows = s.books.flows := hflows.trans hflowsSame
    obtain ⟨hflowSound, htimeKept, hflowBook⟩ :=
      bookFlow_sound hip (hflowsStart ▸ hp) (hflowsStart ▸ h.flows) hb
    refine ⟨htimeKept ▸ hsound, hflowSound, fun id => ?_, fun id => ?_⟩
    · rw [htimeKept, haccounted, htimeSame, bump, h.timeBook, hcarriedOn, hcarried,
        UInt32.ofNat_add, carriedBy]
      split_ifs with hid hid' hid'
      · rw [UInt32.ofNat_toNat]
      · exact absurd hid.symm hid'
      · exact absurd hid'.symm hid
      · exact (UInt32.add_zero _).symm
    · rw [hflowBook, hflowsStart, h.flowBook, hcarriedOn, hcarried]

theorem Agrees.step (h : Agrees db₀ rows₀ s) {e : CollectorEvent π δ} (hg : s.Careful hooks e)
    (hs : s.step hooks e = some s') : Agrees db₀ rows₀ s' := by
  cases e with
  | packet msg env => exact h.packet hg hs
  | core users plugins =>
    cases hs
    exact ⟨h.time, h.flows, h.timeBook, h.flowBook⟩
  | time e =>
    rw [Collector.step] at hs
    split at hs
    · rename_i hpass
      obtain ⟨time, htime, rfl⟩ := Option.map_eq_some_iff.mp hs
      refine ⟨h.time.step hg htime, h.flows, fun id => ?_, h.flowBook⟩
      show time.time.accounted id = _
      rw [pass_accounted hpass htime]
      exact h.timeBook id
    · cases hs
  | flows meets today =>
    obtain ⟨flows, hflows, rfl⟩ := Option.map_eq_some_iff.mp hs
    refine ⟨h.time, h.flows.step (e := .sync meets today) hg hflows, h.timeBook, fun id => ?_⟩
    obtain ⟨⟨ip, res⟩, -, rfl⟩ := Option.map_eq_some_iff.mp hflows
    exact h.flowBook id

end

/-- The collector of a daemon that has just been started. -/
def start {π δ : Type} (users : Users) (plugins : π) (info : PacketInfo) (data : PacketDataInfo)
    (db₀ : TimeTables) (rows₀ : List (Row (LogIpKey δ))) : Collector π δ :=
  ⟨info, data, true, ⟨users, plugins, pipelineInit db₀, FlowLog.start rows₀⟩, []⟩

end Collector

end IPStat
