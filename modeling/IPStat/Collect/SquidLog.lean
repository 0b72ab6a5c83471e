import IPStat.Aggregate.Retry
import IPStat.Collect.Redirector
import IPStat.Core.Chains
import IPStat.Lib.LineReader
import IPStat.System.Conf

/-! thr_acct_squid: the lines of Squid's log, from the FIFO through the core to ag_squid, and
squid_sync, which takes them on to Log_Squid. -/

namespace IPStat

open LineReader

/-- fgets has filled its 2023 bytes, or has come to the end of a line. -/
def squidFull (part : List UInt8) : Bool :=
  part.getLast? == some 10 || decide (2022 ≤ part.length)

/-- argv[2], argv[4] and argv[6] of a line. -/
structure SquidAsked where
  host : List UInt8
  size : List UInt8
  url : List UInt8
  deriving DecidableEq, Repr

/-- The line is of seven words at least, and the fourth of them has "MISS" in it. -/
def squidAsked (args : Args) : Option SquidAsked :=
  match args.argv with
  | _ :: _ :: host :: result :: size :: _ :: url :: _ =>
    if [77, 73, 83, 83].IsInfix result then some ⟨host, size, url⟩ else none
  | _ => none

def SquidAsked.len (asked : SquidAsked) : IpSize := UInt32.ofInt (atol asked.size)

/-- The mallocs that a line meets: strdup's and squid_acct's. -/
structure SquidLineEnv where
  strdup : Bool
  alloc : Bool
  deriving DecidableEq, Repr

/-- A line that fgets has returned, and what it met. -/
structure HandledLine (π ρ : Type) where
  line : List UInt8
  env : SquidLineEnv
  daemon : SquidDaemon π ρ

/-- The FIFO and its reader, the 2048 bytes that fgets reads into, the core with the variables of
thr_acct_squid, func_squid.c, and the lines so far. -/
structure SquidLog (π ρ : Type) where
  reader : Reader UInt8
  buffer : List UInt8
  daemon : SquidDaemon π ρ
  squid : SquidModule
  handled : List (HandledLine π ρ)

inductive SquidLogEvent (π ρ : Type) where
  | reader (e : Event UInt8) (env : SquidLineEnv)
  | core (daemon : SquidDaemon π ρ)
  | sync (meets : SquidMeets)

section
variable {π ρ : Type}

/-- squid_info.mac, squid_data and the plugins as a call of the core leaves them. -/
def SquidDaemon.after (daemon : SquidDaemon π ρ) (req : Request) (plugins : π) : SquidDaemon π ρ :=
  match req with
  | .squid info data => { daemon with mac := info.mac, data := data, plugins := plugins }
  | .traffic _ _ | .other _ => { daemon with plugins := plugins }

def SquidDaemon.ask (daemon : SquidDaemon π ρ) (len : IpSize) : SquidDaemon π ρ :=
  { daemon with data := { daemon.data with len := len } }

/-- core->auth, core->autz, autz_url_policy, core->acct and squid_acct in turn; nothing asks what
core->acct answers. `none` is a call that does not return. -/
def squidCharge (api : RegexApi ρ) (alloc : Bool) (daemon : SquidDaemon π ρ) (ip : IpAddr)
    (url : List UInt8) (squid : SquidModule) : Option (SquidDaemon π ρ × SquidModule) :=
  let auth := usersAuth daemon.hooks daemon.users true (.squid ⟨daemon.mac, ip⟩ daemon.data)
    daemon.plugins
  let daemon := daemon.after auth.req auth.plugins
  if auth.flag then
    match usersAutz daemon.hooks daemon.users true auth.req daemon.plugins with
    | none => none
    | some autz =>
      let daemon := daemon.after autz.req autz.plugins
      if autz.flag && autzUrlPolicy api daemon daemon.data.idUser url then
        match usersAcct daemon.hooks daemon.users true autz.req daemon.plugins with
        | none => none
        | some acct =>
          let daemon := { daemon.after acct.req acct.plugins with users := acct.users }
          some (daemon, (squidAcct squid url daemon.data.idUser daemon.data.len alloc).1)
      else some (daemon, squid)
  else some (daemon, squid)

/-- The user to whom the core and the URL policy allow a request. -/
def squidUser (api : RegexApi ρ) (daemon : SquidDaemon π ρ) (ip : IpAddr) (url : List UInt8) :
    Option IpId :=
  let auth := usersAuth daemon.hooks daemon.users true (.squid ⟨daemon.mac, ip⟩ daemon.data)
    daemon.plugins
  if auth.flag then
    match usersAutz daemon.hooks daemon.users true auth.req auth.plugins with
    | some autz =>
      if autz.flag && autzUrlPolicy api daemon autz.req.idUser url then some autz.req.idUser
      else none
    | none => none
  else none

namespace HandledLine

def asked (h : HandledLine π ρ) : Option SquidAsked := (acctLine [] h.line).bind squidAsked

/-- Whom the core and the URL policy allow what a line asks. -/
def user (setting : SquidSetting ρ) (h : HandledLine π ρ) (asked : SquidAsked) : Option IpId :=
  squidUser setting.api (h.daemon.ask asked.len) (hostbyip setting.inetAton asked.host) asked.url

/-- What a line is charged to its user. -/
def charge (setting : SquidSetting ρ) (h : HandledLine π ρ) : Option AcctSquidNode :=
  if h.env.strdup && h.env.alloc then
    h.asked.bind fun asked =>
      (h.user setting asked).map fun id => ⟨id, asked.url.take 1023, asked.len⟩
  else none

end HandledLine

namespace SquidLog

variable (setting : SquidSetting ρ)

/-- The loop of thr_acct_squid on a line that fifo_read has returned. `none` is an access out of
bounds. -/
def handle (env : SquidLineEnv) (s : SquidLog π ρ) (line : List UInt8) :
    Option (SquidLog π ρ) :=
  let old := s.buffer
  let s := { s with
    buffer := line ++ 0 :: old.drop (line.length + 1)
    handled := s.handled ++ [⟨line, env, s.daemon⟩] }
  if env.strdup then
    match acctLine old line with
    | none => none
    | some args =>
      match squidAsked args with
      | none => some s
      | some asked =>
        (squidCharge setting.api env.alloc (s.daemon.ask asked.len)
          (hostbyip setting.inetAton asked.host) asked.url s.squid).map fun (daemon, squid) =>
            { s with daemon := daemon, squid := squid }
  else some s

def step (block : Nat) (s : SquidLog π ρ) : SquidLogEvent π ρ → Option (SquidLog π ρ)
  | .reader e env =>
    (s.reader.step squidFull block e).bind fun (reader, lines) =>
      lines.foldlM (handle setting env) { s with reader := reader }
  | .core daemon =>
    some { s with daemon := { daemon with mac := s.daemon.mac, data := s.daemon.data } }
  | .sync meets => some { s with squid := (squidSync s.squid meets).1 }

end SquidLog

end

/-- The hooks of all three lists leave their request as it was. -/
structure Hooks.Keep {π : Type} (hooks : Hooks π) : Prop where
  auth : KeepsRequest hooks.externAuth
  autz : KeepsRequest hooks.externAutz
  acct : KeepsRequest hooks.externAcct

section
variable {π ρ : Type} {hooks : Hooks π} {users : Users} {info : SquidInfo} {data : SquidDataInfo}
  {p : π}

theorem usersAuth_squid (hkeep : KeepsRequest hooks.externAuth) :
    ∃ data', (usersAuth hooks users true (.squid info data) p).req = .squid info data' ∧
      data'.len = data.len := by
  have hsame := callHooks_keeps hkeep true false (.squid info data) p
  have hbare : (authSquid users info data).2.len = data.len := by
    rw [authSquid]
    split <;> rfl
  have hcases (flag : Bool) (q : π) : ∃ data',
      (if flag then (⟨true, .squid info data, q⟩ : AuthResult π)
        else ⟨(authSquid users info data).1, .squid info (authSquid users info data).2, q⟩).req =
          .squid info data' ∧ data'.len = data.len := by
    cases flag with
    | true => exact ⟨data, rfl, rfl⟩
    | false => exact ⟨_, rfl, hbare⟩
  rw [usersAuth]
  split_ifs
  · rcases hcall : callHooks true hooks.externAuth false (.squid info data) p with ⟨flag, req, q⟩
    rw [hcall] at hsame
    dsimp only at hsame ⊢
    rw [hsame]
    exact hcases flag q
  · exact hcases false p

theorem usersAutz_squid (hkeep : KeepsRequest hooks.externAutz) {a : AutzResult π}
    (h : usersAutz hooks users true (.squid info data) p = some a) (ht : a.flag = true) :
    ∃ data', a.req = .squid info data' ∧ data'.len = data.len := by
  obtain ⟨user, scan, -, hscan, -, hreq, -⟩ := autzRules_squid (usersAutz_accepted hkeep h ht)
  refine ⟨scan.ret, hreq, ?_⟩
  rw [← hscan, autzSquid_find]
  cases (List.zipIdx user.idRules).find? _ <;> rfl

theorem usersAcct_req (hkeep : KeepsRequest hooks.externAcct) {req : Request} {c : AcctResult π}
    (h : usersAcct hooks users true req p = some c) : c.req = req := by
  rw [usersAcct] at h
  obtain ⟨rules, -, h⟩ := Option.bind_eq_some_iff.mp h
  cases rules with
  | none =>
    cases h
    rfl
  | some rules =>
    dsimp only at h
    split_ifs at h
    · cases h
      exact callHooks_keeps hkeep false true req p
    · cases h
      rfl

theorem after_squid (daemon : SquidDaemon π ρ) (info : SquidInfo) (data : SquidDataInfo)
    (plugins : π) : daemon.after (.squid info data) plugins =
      { daemon with mac := info.mac, data := data, plugins := plugins } := rfl

theorem after_hooks (daemon : SquidDaemon π ρ) (req : Request) (plugins : π) :
    (daemon.after req plugins).hooks = daemon.hooks := by
  cases req with
  | traffic info ret => rfl
  | squid info ret => rfl
  | other service => rfl

/-- The line's user, and nobody else, is charged with it. -/
theorem squidCharge_user {api : RegexApi ρ} {alloc : Bool} {daemon daemon' : SquidDaemon π ρ}
    {ip : IpAddr} {url : List UInt8} {squid squid' : SquidModule} (hkeep : daemon.hooks.Keep)
    (h : squidCharge api alloc daemon ip url squid = some (daemon', squid')) :
    daemon'.hooks = daemon.hooks ∧ squid'.logSquid = squid.logSquid ∧
      squid'.agSquid = (if alloc then (squidUser api daemon ip url).map fun id =>
        ⟨id, url.take 1023, daemon.data.len⟩ else none).toList ++ squid.agSquid := by
  rw [squidCharge] at h
  rw [squidUser]
  have hasks : ∃ data, (usersAuth daemon.hooks daemon.users true
      (.squid ⟨daemon.mac, ip⟩ daemon.data) daemon.plugins).req = .squid ⟨daemon.mac, ip⟩ data ∧
        data.len = daemon.data.len := usersAuth_squid hkeep.auth
  obtain ⟨data, hauth, hlen⟩ := hasks
  rcases hr : usersAuth daemon.hooks daemon.users true (.squid ⟨daemon.mac, ip⟩ daemon.data)
    daemon.plugins with ⟨flag, req, plugins⟩
  rw [hr] at h hauth
  dsimp only at h hauth ⊢
  subst hauth
  have hnobody : (if alloc then (none : Option IpId).map fun id =>
      (⟨id, url.take 1023, daemon.data.len⟩ : AcctSquidNode) else none).toList ++ squid.agSquid =
        squid.agSquid := by
    cases alloc <;> rfl
  cases flag with
  | false =>
    cases h
    exact ⟨rfl, rfl, hnobody.symm⟩
  | true =>
    simp only [if_true, after_squid] at h ⊢
    cases hz : usersAutz daemon.hooks daemon.users true (.squid ⟨daemon.mac, ip⟩ data) plugins with
    | none =>
      rw [hz] at h
      cases h
    | some autz =>
      rw [hz] at h
      dsimp only at h ⊢
      cases hflag : autz.flag with
      | false =>
        rw [hflag] at h
        cases h
        exact ⟨after_hooks _ _ _, rfl, hnobody.symm⟩
      | true =>
        obtain ⟨data', hreq, hlen'⟩ := usersAutz_squid hkeep.autz hz hflag
        rw [hflag, hreq] at h
        rw [hreq]
        simp only [after_squid, Bool.true_and] at h ⊢
        have hpolicy : autzUrlPolicy api { daemon with data := data', plugins := autz.plugins }
            data'.idUser url = autzUrlPolicy api daemon data'.idUser url := rfl
        rw [hpolicy] at h
        have huser : (Request.squid ⟨daemon.mac, ip⟩ data').idUser = data'.idUser := rfl
        rw [huser]
        cases hallows : autzUrlPolicy api daemon data'.idUser url with
        | false =>
          rw [hallows] at h
          cases h
          exact ⟨rfl, rfl, hnobody.symm⟩
        | true =>
          rw [hallows, if_pos rfl] at h
          cases hacct : usersAcct daemon.hooks daemon.users true
            (.squid ⟨daemon.mac, ip⟩ data') autz.plugins with
          | none =>
            rw [hacct] at h
            cases h
          | some acct =>
            rw [hacct] at h
            dsimp only at h
            rw [usersAcct_req hkeep.acct hacct] at h
            cases h
            rw [← hlen, ← hlen', squidAcct]
            cases alloc with
            | true => exact ⟨rfl, rfl, rfl⟩
            | false => exact ⟨rfl, rfl, rfl⟩

/-- fgets ends its line itself, so what the buffer held does not matter. -/
theorem acctLine_old (old line : List UInt8) : acctLine old line = acctLine [] line := by
  have htext (m : List UInt8) : CString.text (line ++ 0 :: m) = some (sentText line) := by
    rw [CString.text_append_eq]
    split_ifs with hnul
    · rfl
    · have hwhole : sentText line = line := by
        rw [sentText, List.takeWhile_eq_self_iff]
        intro b hb
        simpa using fun h : b = 0 => hnul (h ▸ hb)
      rw [hwhole]
      simp [CString.text]
  rw [acctLine, acctLine, htext, htext]

end

namespace SquidLog

section
variable {π ρ : Type} {setting : SquidSetting ρ} {block : Nat} {squid₀ : SquidModule}
  {s s' : SquidLog π ρ}

/-- Log_Squid with ag_squid has what the lines so far were charged, once each, beside what there
was before. -/
structure Booked (setting : SquidSetting ρ) (squid₀ : SquidModule) (s : SquidLog π ρ) : Prop where
  hooks : s.daemon.hooks.Keep
  log : (s.squid.logSquid ++ s.squid.agSquid).Perm
    (squid₀.logSquid ++ squid₀.agSquid ++ s.handled.filterMap (·.charge setting))

theorem handle_uncharged {env : SquidLineEnv} {line : List UInt8} (h : Booked setting squid₀ s)
    (hnone : HandledLine.charge setting ⟨line, env, s.daemon⟩ = none) (buffer : List UInt8) :
    Booked setting squid₀
      { s with buffer := buffer, handled := s.handled ++ [⟨line, env, s.daemon⟩] } := by
  refine ⟨h.hooks, ?_⟩
  rw [List.filterMap_append, List.filterMap_cons_none hnone, List.filterMap_nil, List.append_nil]
  exact h.log

/-- A line goes to whom it is charged, or nowhere. -/
theorem Booked.handle (h : Booked setting squid₀ s) {env : SquidLineEnv} {line : List UInt8}
    (hs : s.handle setting env line = some s') :
    Booked setting squid₀ s' ∧ s'.reader = s.reader ∧
      s'.handled.map HandledLine.line = s.handled.map HandledLine.line ++ [line] := by
  have hmap : (s.handled ++ [(⟨line, env, s.daemon⟩ : HandledLine π ρ)]).map HandledLine.line =
      s.handled.map HandledLine.line ++ [line] := List.map_append
  rw [SquidLog.handle, acctLine_old] at hs
  cases hstrdup : env.strdup with
  | false =>
    rw [hstrdup] at hs
    cases hs
    have hnone : HandledLine.charge setting ⟨line, env, s.daemon⟩ = none := by
      rw [HandledLine.charge, hstrdup]
      rfl
    exact ⟨handle_uncharged h hnone _, rfl, hmap⟩
  | true =>
  rw [hstrdup, if_pos rfl] at hs
  cases hargs : acctLine [] line with
  | none =>
    rw [hargs] at hs
    cases hs
  | some args =>
  rw [hargs] at hs
  dsimp only at hs
  have hline : HandledLine.asked (⟨line, env, s.daemon⟩ : HandledLine π ρ) = squidAsked args := by
    rw [HandledLine.asked, hargs, Option.bind_some]
  cases hasked : squidAsked args with
  | none =>
    rw [hasked] at hs
    cases hs
    have hnone : HandledLine.charge setting ⟨line, env, s.daemon⟩ = none := by
      rw [HandledLine.charge, hline, hasked, Option.bind_none, ite_self]
    exact ⟨handle_uncharged h hnone _, rfl, hmap⟩
  | some asked =>
    rw [hasked] at hs
    dsimp only at hs
    obtain ⟨⟨daemon, squid⟩, hcharged, rfl⟩ := Option.map_eq_some_iff.mp hs
    have hkeep : (s.daemon.ask asked.len).hooks.Keep := h.hooks
    obtain ⟨hhooks, hlog, hag⟩ := squidCharge_user hkeep hcharged
    rw [← hhooks] at hkeep
    have hcharge : (HandledLine.charge setting ⟨line, env, s.daemon⟩).toList ++ s.squid.agSquid =
        squid.agSquid := by
      rw [HandledLine.charge, hline, hasked, hstrdup, hag]
      rfl
    refine ⟨⟨hkeep, ?_⟩, rfl, hmap⟩
    show (squid.logSquid ++ squid.agSquid).Perm (squid₀.logSquid ++ squid₀.agSquid ++
      (s.handled ++ [(⟨line, env, s.daemon⟩ : HandledLine π ρ)]).filterMap (·.charge setting))
    have hlast : [(⟨line, env, s.daemon⟩ : HandledLine π ρ)].filterMap (·.charge setting) =
        (HandledLine.charge setting ⟨line, env, s.daemon⟩).toList := by
      cases hone : HandledLine.charge setting ⟨line, env, s.daemon⟩ <;> simp [hone]
    rw [hlog, ← hcharge, List.filterMap_append, hlast]
    have hmoved : (s.squid.logSquid ++
        ((HandledLine.charge setting ⟨line, env, s.daemon⟩).toList ++ s.squid.agSquid)).Perm
          (s.squid.logSquid ++
            (s.squid.agSquid ++ (HandledLine.charge setting ⟨line, env, s.daemon⟩).toList)) :=
      List.perm_append_comm.append_left s.squid.logSquid
    refine hmoved.trans ?_
    rw [← List.append_assoc, ← List.append_assoc]
    exact h.log.append_right _

/-- Every record that the reader has returned is handled, in their order, and what the lines were
charged is kept. -/
structure Sound (setting : SquidSetting ρ) (block : Nat) (squid₀ : SquidModule)
    (s : SquidLog π ρ) : Prop where
  reader : s.reader.Sound squidFull block
  lines : s.handled.map HandledLine.line = s.reader.returned squidFull
  booked : Booked setting squid₀ s

theorem handle_all {env : SquidLineEnv} (lines : List (List UInt8)) (h : Booked setting squid₀ s)
    (hs : lines.foldlM (handle setting env) s = some s') :
    Booked setting squid₀ s' ∧ s'.reader = s.reader ∧
      s'.handled.map HandledLine.line = s.handled.map HandledLine.line ++ lines := by
  induction lines generalizing s with
  | nil =>
    cases hs
    exact ⟨h, rfl, (List.append_nil _).symm⟩
  | cons line lines ih =>
    rw [List.foldlM_cons] at hs
    obtain ⟨mid, hmid, hs⟩ := Option.bind_eq_some_iff.mp hs
    obtain ⟨hbooked, hreader, hline⟩ := h.handle hmid
    obtain ⟨hbooked', hreader', hlines⟩ := ih hbooked hs
    refine ⟨hbooked', hreader'.trans hreader, ?_⟩
    rw [hlines, hline, List.append_assoc, List.singleton_append]

/-- What changes the core leaves its hooks harmless, and each squid_sync finds its records
exported. -/
def Careful (s : SquidLog π ρ) : SquidLogEvent π ρ → Prop
  | .reader _ _ => True
  | .core daemon => daemon.hooks.Keep
  | .sync meets => SquidKeeps s.squid meets

theorem Sound.step (h : Sound setting block squid₀ s) {e : SquidLogEvent π ρ} (hg : s.Careful e)
    (hs : s.step setting block e = some s') : Sound setting block squid₀ s' := by
  cases e with
  | reader e env =>
    obtain ⟨⟨reader, lines⟩, hread, hs⟩ := Option.bind_eq_some_iff.mp hs
    have hkept := h.reader.step hread
    have hbooked : Booked setting squid₀ { s with reader := reader } :=
      ⟨h.booked.hooks, h.booked.log⟩
    obtain ⟨hbooked', hreader, hlines⟩ := handle_all lines hbooked hs
    refine ⟨hreader ▸ hkept.sound, ?_, hbooked'⟩
    rw [hlines, hreader, hkept.returned, ← h.lines]
  | core daemon =>
    cases hs
    exact ⟨h.reader, h.lines, hg, h.booked.log⟩
  | sync meets =>
    cases hs
    refine ⟨h.reader, h.lines, h.booked.hooks, ?_⟩
    exact ((squidSync_keeps_iff s.squid meets).mpr hg).trans h.booked.log

/-- thr_acct_squid before it has opened the FIFO. -/
def start (daemon : SquidDaemon π ρ) (squid : SquidModule) : SquidLog π ρ :=
  ⟨LineReader.start, List.replicate 2048 0, daemon, squid, []⟩

end

end SquidLog

section
variable {part text : List UInt8}

end

namespace SquidLog

end SquidLog

end IPStat
