import IPStat.Collect.Accounting
import IPStat.Limits.Exhausted

/-! The hooks of the modules group_limit and users_group_limit in the core that the netfilter
collector asks. -/

namespace IPStat

open Tally

section
variable {α κ : Type*} [DecidableEq κ] {key : α → κ} {f : α → α} {l : List α} {k k' : κ} {i : Nat}

/-- What changes the first element of a key leaves the other keys theirs. -/
theorem find?_modify_findIdx? (hf : ∀ a, key (f a) = key a)
    (hi : l.findIdx? (key · = k') = some i) :
    (l.modify i f).find? (key · = k) =
      if k' = k then (l.find? (key · = k)).map f else l.find? (key · = k) := by
  induction l generalizing i with
  | nil => cases hi
  | cons a l ih =>
    rw [List.findIdx?_cons] at hi
    by_cases ha : key a = k'
    · rw [if_pos (by simpa using ha)] at hi
      cases hi
      rw [List.modify_zero_cons, List.find?_cons, List.find?_cons, hf]
      by_cases hk : k' = k
      · have hak : key a = k := ha.trans hk
        simp [hak, hk]
      · have hak : key a ≠ k := fun h => hk (ha.symm.trans h)
        simp [hak, hk]
    · rw [if_neg (by simpa using ha)] at hi
      obtain ⟨j, hj, rfl⟩ := Option.map_eq_some_iff.mp hi
      rw [List.modify_succ_cons, List.find?_cons, List.find?_cons]
      by_cases hak : key a = k
      · have hne : k' ≠ k := fun h => ha (hak.trans h.symm)
        simp [hak, hne]
      · simp [hak, ih hj]

end

def Request.userGroup : Request → Option IpId
  | .traffic _ ret => some ret.idGroupUser
  | .squid _ ret => some ret.idGroupUser
  | .other _ => none

/-- my_autz and my_acct of users_group_limit. -/
def usersMyAutz (limits : List NodeGroupLimit) (req : Request) : Bool :=
  match req.userGroup with
  | none => false
  | some idGroupUser => autzUsersGroup limits idGroupUser

def usersMyAcct (limits : List NodeGroupLimit) (req : Request) : List NodeGroupLimit × Bool :=
  match req.userGroup, req.counted with
  | none, _ => (limits, false)
  | some _, none => (limits, true)
  | some idGroupUser, some len =>
    match findGroup limits idGroupUser with
    | none => (limits, true)
    | some i => (limits.modify i (NodeGroupLimit.charge len), true)

/-- The modules, whose nodes differ in the key that a request finds them by. -/
inductive LimitKind where
  | groupTraffic
  | usersGroup
  deriving DecidableEq, Repr

namespace LimitKind

def key : LimitKind → NodeGroupLimit → IpId × IpId
  | .groupTraffic, node => (node.idUser, node.idGroup)
  | .usersGroup, node => (0, node.idGroup)

def keyOf : LimitKind → PacketDataInfo → IpId × IpId
  | .groupTraffic, data => (data.idUser, data.idTrafficGroup)
  | .usersGroup, data => (0, data.idGroupUser)

def autz : LimitKind → List NodeGroupLimit → Request → Bool
  | .groupTraffic => myAutz
  | .usersGroup => usersMyAutz

def acct : LimitKind → List NodeGroupLimit → Request → List NodeGroupLimit × Bool
  | .groupTraffic => myAcct
  | .usersGroup => usersMyAcct

/-- The limit of a key: the node that comes first. -/
def find (kind : LimitKind) (k : IpId × IpId) (limits : List NodeGroupLimit) :
    Option NodeGroupLimit := limits.find? (kind.key · = k)

section
variable {kind : LimitKind} {limits : List NodeGroupLimit} {info : PacketInfo}
  {data : PacketDataInfo} {k : IpId × IpId}

theorem charge_key (kind : LimitKind) (len : IpSize) (node : NodeGroupLimit) :
    kind.key (node.charge len) = kind.key node := by
  cases kind <;> rfl

theorem findIdx?_pair (limits : List NodeGroupLimit) (idUser idGroup : IpId) :
    findGroupTraffic limits idUser idGroup =
      limits.findIdx? (LimitKind.groupTraffic.key · = (idUser, idGroup)) := by
  simp only [findGroupTraffic, key, Prod.mk.injEq]

theorem findIdx?_group (limits : List NodeGroupLimit) (idGroup : IpId) :
    findGroup limits idGroup = limits.findIdx? (LimitKind.usersGroup.key · = (0, idGroup)) := by
  simp only [findGroup, key, Prod.mk.injEq, true_and]

/-- Either module answers for a packet what the first node of its key says. -/
theorem autz_traffic (kind : LimitKind) (limits : List NodeGroupLimit) (info : PacketInfo)
    (data : PacketDataInfo) : kind.autz limits (.traffic info data) =
      ((kind.find (kind.keyOf data) limits).map NodeGroupLimit.onactive).getD true := by
  have hfound (found : Option Nat) :
      (match found with
        | none => true
        | some i => (limits[i]?.map NodeGroupLimit.onactive).getD true) =
        ((found.bind (limits[·]?)).map NodeGroupLimit.onactive).getD true := by
    cases found <;> rfl
  rw [find, List.find?_eq_bind_findIdx?_getElem?]
  cases kind with
  | groupTraffic =>
    rw [autz, keyOf, ← findIdx?_pair, ← hfound]
    rfl
  | usersGroup =>
    rw [autz, keyOf, ← findIdx?_group, ← hfound]
    rfl

/-- And charges that node, if the packet is counted. -/
theorem acct_traffic (kind : LimitKind) (limits : List NodeGroupLimit) (info : PacketInfo)
    (data : PacketDataInfo) : (kind.acct limits (.traffic info data)).1 =
      if data.notSum = 0 then
        match limits.findIdx? (kind.key · = kind.keyOf data) with
        | none => limits
        | some i => limits.modify i (NodeGroupLimit.charge data.len)
      else limits := by
  have hcounted : (Request.traffic info data).counted =
      if data.notSum = 0 then some data.len else none := rfl
  cases kind with
  | groupTraffic =>
    rw [acct, keyOf, ← findIdx?_pair, myAcct, acctNode, hcounted]
    simp only [Request.pair, Option.bind_eq_bind, Option.bind_some]
    split_ifs with hsum
    · cases findGroupTraffic limits data.idUser data.idTrafficGroup <;> rfl
    · rfl
  | usersGroup =>
    rw [acct, keyOf, ← findIdx?_group, usersMyAcct, hcounted]
    simp only [Request.userGroup]
    split_ifs with hsum
    · dsimp only
      cases findGroup limits data.idGroupUser <;> rfl
    · rfl

/-- The limit of a key after a packet. -/
theorem find_acct (kind : LimitKind) (limits : List NodeGroupLimit) (info : PacketInfo)
    (data : PacketDataInfo) (k : IpId × IpId) :
    kind.find k (kind.acct limits (.traffic info data)).1 =
      if kind.keyOf data = k ∧ data.notSum = 0 then
        (kind.find k limits).map (NodeGroupLimit.charge data.len)
      else kind.find k limits := by
  rw [acct_traffic]
  by_cases hsum : data.notSum = 0
  · simp only [hsum, if_true, and_true]
    cases hidx : limits.findIdx? (kind.key · = kind.keyOf data) with
    | none =>
      have hnone := List.findIdx?_eq_none_iff.mp hidx
      split_ifs with hk
      · have habsent : kind.find k limits = none := by
          rw [find, List.find?_eq_none]
          intro node hmem
          rw [← hk, hnone node hmem]
          exact Bool.false_ne_true
        rw [habsent]
        rfl
      · rfl
    | some i => exact find?_modify_findIdx? (charge_key kind data.len) hidx
  · simp only [hsum, if_false, and_false]

end

end LimitKind

/-- The module's hooks are among those of the core, and no other hook touches its limits, changes
what users_autz asks, or keeps users_acct from calling the module. -/
structure Hooked {π : Type} (hooks : Hooks π) (kind : LimitKind)
    (limits : π → List NodeGroupLimit) : Prop where
  auth : ∀ func ∈ hooks.externAuth, ∀ req p, limits (func req p).2.2 = limits p
  keeps : KeepsRequest hooks.externAutz
  autz : ∀ func ∈ hooks.externAutz, ∀ req p, limits (func req p).2.2 = limits p
  asked : ∃ func ∈ hooks.externAutz, ∀ req p, (func req p).1 = kind.autz (limits p) req
  acct : ∃ before func after, hooks.externAcct = before ++ func :: after ∧
    (∀ f ∈ before, ∀ req p,
      (f req p).1 = true ∧ (f req p).2.1 = req ∧ limits (f req p).2.2 = limits p) ∧
    (∀ req p, limits (func req p).2.2 = (kind.acct (limits p) req).1) ∧
    ∀ f ∈ after, ∀ req p, limits (f req p).2.2 = limits p

section
variable {π : Type} {hooks : Hooks π} {kind : LimitKind} {limits : π → List NodeGroupLimit}
  {hs before after : List (Hook π)} {func : Hook π} {users : Users} {info : PacketInfo}
  {data : PacketDataInfo}

theorem callHooks_limits (h : ∀ func ∈ hs, ∀ req p, limits (func req p).2.2 = limits p)
    (last flag : Bool) (req : Request) (p : π) :
    limits (callHooks last hs flag req p).2.2 = limits p := by
  induction hs generalizing flag req p with
  | nil => rfl
  | cons func hs ih =>
    have hfunc := h func List.mem_cons_self req p
    have hrest := ih fun f hf => h f (List.mem_cons_of_mem func hf)
    rw [callHooks]
    rcases hcall : func req p with ⟨answer, req', p'⟩
    rw [hcall] at hfunc
    dsimp only at hfunc ⊢
    split_ifs
    · exact hfunc
    · rw [hrest, hfunc]

/-- A request that all hooks let through, the module has let through. -/
theorem callHooks_asked (hkeep : KeepsRequest hs)
    (h : ∀ func ∈ hs, ∀ req p, limits (func req p).2.2 = limits p)
    (hasked : ∃ func ∈ hs, ∀ req p, (func req p).1 = kind.autz (limits p) req) (flag : Bool)
    (req : Request) (p : π) (ht : (callHooks false hs flag req p).1 = true) :
    kind.autz (limits p) req = true := by
  induction hs generalizing flag p with
  | nil =>
    obtain ⟨func, hmem, -⟩ := hasked
    cases hmem
  | cons func hs ih =>
    have hfunc := h func List.mem_cons_self req p
    have hsame := hkeep func List.mem_cons_self req p
    have hanswer : (func req p).1 = true ∧
        (callHooks false hs true req (func req p).2.2).1 = true := by
      rw [callHooks] at ht
      rcases hcall : func req p with ⟨answer, req', p'⟩
      rw [hcall] at ht hsame
      dsimp only at ht hsame
      subst hsame
      cases answer with
      | false => cases ht
      | true => exact ⟨rfl, ht⟩
    obtain ⟨f, hmem, hf⟩ := hasked
    obtain rfl | hmem := List.mem_cons.mp hmem
    · rw [← hf]
      exact hanswer.1
    · rw [← hfunc]
      exact ih (fun g hg => hkeep g (List.mem_cons_of_mem func hg))
        (fun g hg => h g (List.mem_cons_of_mem func hg)) ⟨f, hmem, hf⟩ true _ hanswer.2

/-- The accounting hooks that come before the module all answer TRUE, so it is called. -/
theorem callHooks_acct (hbefore : ∀ f ∈ before, ∀ req p,
      (f req p).1 = true ∧ (f req p).2.1 = req ∧ limits (f req p).2.2 = limits p)
    (hfunc : ∀ req p, limits (func req p).2.2 = (kind.acct (limits p) req).1)
    (hafter : ∀ f ∈ after, ∀ req p, limits (f req p).2.2 = limits p) (flag : Bool)
    (req : Request) (p : π) :
    limits (callHooks false (before ++ func :: after) flag req p).2.2 =
      (kind.acct (limits p) req).1 := by
  induction before generalizing flag p with
  | nil =>
    have hcharged := hfunc req p
    rw [List.nil_append, callHooks]
    rcases hcall : func req p with ⟨answer, req', p'⟩
    rw [hcall] at hcharged
    dsimp only at hcharged ⊢
    split_ifs
    · exact hcharged
    · rw [callHooks_limits hafter, hcharged]
  | cons f before ih =>
    obtain ⟨htrue, hsame, hkept⟩ := hbefore f List.mem_cons_self req p
    rw [List.cons_append, callHooks]
    rcases hcall : f req p with ⟨answer, req', p'⟩
    rw [hcall] at htrue hsame hkept
    dsimp only at htrue hsame hkept ⊢
    subst htrue hsame
    rw [if_neg (by simp), ih (fun g hg => hbefore g (List.mem_cons_of_mem f hg)), hkept]

theorem usersAuth_limits (hh : Hooked hooks kind limits) (req : Request) (p : π) :
    limits (usersAuth hooks users true req p).plugins = limits p := by
  have hcall := callHooks_limits hh.auth true false req p
  have hcases (flag : Bool) (req : Request) (q : π) (hq : limits q = limits p) :
      limits (if flag then (⟨true, req, q⟩ : AuthResult π) else match req with
        | .traffic info ret =>
          ⟨(authTraffic users info ret).1, .traffic info (authTraffic users info ret).2, q⟩
        | .squid info ret =>
          ⟨(authSquid users info ret).1, .squid info (authSquid users info ret).2, q⟩
        | .other s => ⟨flag, .other s, q⟩).plugins = limits p := by
    cases flag with
    | true => exact hq
    | false => cases req <;> exact hq
  rw [usersAuth]
  split_ifs
  · rcases hs : callHooks true hooks.externAuth false req p with ⟨flag, req', q⟩
    rw [hs] at hcall
    exact hcases flag req' q hcall
  · exact hcases false req p rfl

/-- users_autz leaves the limits alone, and what it lets through is a packet of a known user that
its limit lets through. -/
theorem usersAutz_limits (hh : Hooked hooks kind limits) {p : π} {a : AutzResult π}
    (h : usersAutz hooks users true (.traffic info data) p = some a) :
    limits a.plugins = limits p ∧ (a.flag = true →
      ∃ data', a.req = .traffic info data' ∧ data'.len = data.len ∧
        (usersFind users data'.idUser).isSome ∧
          kind.autz (limits p) (.traffic info data') = true) := by
  have hwalked := usersAutz_walked hh.keeps h
  have hne : hooks.externAutz ≠ [] := by
    obtain ⟨func, hmem, -⟩ := hh.asked
    exact List.ne_nil_of_mem hmem
  rw [usersAutz] at h
  obtain ⟨⟨flag, req, stored⟩, -, h⟩ := Option.bind_eq_some_iff.mp h
  dsimp only at h
  cases flag with
  | false =>
    cases h
    exact ⟨rfl, fun hf => absurd hf Bool.false_ne_true⟩
  | true =>
    rw [if_neg (by simp), if_pos ⟨hne, rfl⟩] at h
    have hkept := callHooks_limits hh.autz false true req p
    have hsame := callHooks_keeps hh.keeps false true req p
    have hasked := callHooks_asked hh.keeps hh.autz hh.asked true req p
    rcases hcall : callHooks false hooks.externAutz true req p with ⟨flag, req', q⟩
    rw [hcall] at h hkept hsame hasked
    cases h
    refine ⟨hkept, fun hflag => ?_⟩
    obtain ⟨user, qs, q, hw⟩ := hwalked hflag
    have hreq := hw.req
    refine ⟨data.store q.2, hreq, rfl, ?_, ?_⟩
    · show (usersFind users data.idUser).isSome = true
      rw [hw.found]
      rfl
    · rw [← hreq]
      dsimp only at hsame ⊢
      rw [hsame]
      exact hasked hflag

/-- users_acct charges the limit of a packet of a known user. -/
theorem usersAcct_limits (hh : Hooked hooks kind limits) {p : π} {c : AcctResult π}
    (hfound : (usersFind users data.idUser).isSome)
    (h : usersAcct hooks users true (.traffic info data) p = some c) :
    limits c.plugins = (kind.acct (limits p) (.traffic info data)).1 := by
  have hne : hooks.externAutz ≠ [] := by
    obtain ⟨func, hmem, -⟩ := hh.asked
    exact List.ne_nil_of_mem hmem
  rw [usersAcct] at h
  obtain ⟨rules, hrules, h⟩ := Option.bind_eq_some_iff.mp h
  cases rules with
  | none =>
    exfalso
    rw [acctRules] at hrules
    obtain ⟨user, huser⟩ := Option.isSome_iff_exists.mp hfound
    simp [huser, Option.bind_eq_some_iff] at hrules
  | some rules =>
    obtain ⟨before, func, after, hsplit, hbefore, hfunc, hafter⟩ := hh.acct
    have hcall := callHooks_acct hbefore hfunc hafter true (.traffic info data) p
    dsimp only at h
    rw [if_pos ⟨hne, rfl⟩, hsplit] at h
    cases h
    exact hcall

end

namespace Collector

def accountedAs : LibCall → Option PacketDataInfo
  | .acct _ data => some data
  | .auth _ _ | .autz _ _ _ | .timeAcct _ | .ipAcct _ _ | .setVerdict _ _ => none

/-- The packets that have been let through, as users_acct gets them. -/
def letThrough (calls : List LibCall) : List PacketDataInfo := calls.filterMap accountedAs

def countedBy (kind : LimitKind) (k : IpId × IpId) (data : PacketDataInfo) : Nat :=
  if kind.keyOf data = k ∧ data.notSum = 0 then data.len.toNat else 0

/-- The bytes of the packets of a key that have been let through and are counted. -/
def counted (kind : LimitKind) (k : IpId × IpId) (calls : List LibCall) : Nat :=
  tally (countedBy kind k) (letThrough calls)

section
variable {π δ : Type} [DecidableEq δ] {hooks : Hooks π} {kind : LimitKind}
  {limits : π → List NodeGroupLimit} {env : PacketEnv} {b : Books π δ}
  {info info' : PacketInfo} {data data' : PacketDataInfo} {flag : Bool}
  {books : Option (Books π δ)}

theorem auth_limits (hh : Hooked hooks kind limits)
    (h : (daemon hooks env).auth info data (some b) = (flag, info', data', books)) :
    ∃ p, books = some { b with plugins := p } ∧ limits p = limits b.plugins := by
  cases h
  exact ⟨_, rfl, usersAuth_limits hh _ _⟩

theorem autz_limits (hh : Hooked hooks kind limits)
    (h : (daemon hooks env).autz info data (some b) = (flag, info', data', books)) :
    (books = none ∧ flag = false) ∨
      ∃ p, books = some { b with plugins := p } ∧ limits p = limits b.plugins ∧
        (flag = true → info' = info ∧ data'.len = data.len ∧
          (usersFind b.users data'.idUser).isSome ∧
            kind.autz (limits b.plugins) (.traffic info data') = true) := by
  simp only [daemon, Option.bind_some] at h
  cases hr : usersAutz hooks b.users true (.traffic info data) b.plugins with
  | none =>
    rw [hr] at h
    cases h
    exact .inl ⟨rfl, rfl⟩
  | some r =>
    rw [hr] at h
    obtain ⟨hkept, hasked⟩ := usersAutz_limits hh hr
    cases h
    refine .inr ⟨r.plugins, rfl, hkept, fun hflag => ?_⟩
    obtain ⟨data', hreq, hlen, hfound, hautz⟩ := hasked hflag
    rw [hreq]
    exact ⟨rfl, hlen, hfound, hautz⟩

theorem acct_limits (hh : Hooked hooks kind limits) {b' : Books π δ}
    (h : (daemon hooks env).acct info data (some b) = (flag, info', data', some b'))
    (hfound : (usersFind b.users data.idUser).isSome) :
    limits b'.plugins = (kind.acct (limits b.plugins) (.traffic info data)).1 := by
  simp only [daemon, Option.bind_some] at h
  cases hr : usersAcct hooks b.users true (.traffic info data) b.plugins with
  | none =>
    rw [hr] at h
    cases h
  | some r =>
    rw [hr] at h
    cases h
    exact usersAcct_limits hh hfound hr

/-- The accounts leave the plugins alone. -/
theorem book_plugins {b' : Books π δ}
    (h : (some b >>= bookTime env data) >>= bookFlow env info data' = some b') :
    b'.plugins = b.plugins := by
  obtain ⟨timed, htimed, hb⟩ := Option.bind_eq_some_iff.mp h
  obtain ⟨time, -, rfl⟩ := Option.map_eq_some_iff.mp htimed
  obtain ⟨flows, -, rfl⟩ := Option.map_eq_some_iff.mp hb
  rfl

/-- A packet is not let through, or it is by the limits as they stood and is charged to them. -/
theorem judge_limits (hh : Hooked hooks kind limits) (s : Collector π δ) (msg : IpqPacketMsg)
    (env : PacketEnv) {b : Books π δ} (hworld : (s.judge hooks msg env).2.world = some b) :
    (letThrough (s.judge hooks msg env).2.calls = [] ∧
        limits b.plugins = limits s.books.plugins) ∨
      ∃ info data, letThrough (s.judge hooks msg env).2.calls = [data] ∧
        data.len = (ipqGrepPacket msg).2 ∧
        kind.autz (limits s.books.plugins) (.traffic info data) = true ∧
        limits b.plugins = (kind.acct (limits s.books.plugins) (.traffic info data)).1 := by
  rcases ha : (daemon hooks env).auth (ipqGrepPacket msg).1 s.data (some s.books) with
    ⟨_ | _, info, data, books⟩
  · -- the packet is nobody's
    obtain ⟨p, rfl, hkept⟩ := auth_limits hh ha
    simp only [judge, ipqmPacket, Loop.auth, Loop.setVerdict, ha] at hworld
    cases hworld
    refine .inl ⟨?_, hkept⟩
    simp [judge, ipqmPacket, Loop.auth, Loop.setVerdict, ha, letThrough, accountedAs]
  obtain ⟨p, rfl, hkept⟩ := auth_limits hh ha
  rcases hz : (daemon hooks env).autz info { data with len := (ipqGrepPacket msg).2 }
    (some { s.books with plugins := p }) with ⟨_ | _, info', data', books'⟩
  · -- it is not let through
    obtain ⟨rfl, -⟩ | ⟨p', rfl, hkept', -⟩ := autz_limits hh hz
    · simp [judge, ipqmPacket, Loop.auth, Loop.autz, Loop.setVerdict, ha, hz] at hworld
    · simp only [judge, ipqmPacket, Loop.auth, Loop.autz, Loop.setVerdict, ha, hz] at hworld
      cases hworld
      refine .inl ⟨?_, hkept'.trans hkept⟩
      simp [judge, ipqmPacket, Loop.auth, Loop.autz, Loop.setVerdict, ha, hz, letThrough,
        accountedAs]
  obtain ⟨-, hfalse⟩ | ⟨p', rfl, hkept', hasked⟩ := autz_limits hh hz
  · cases hfalse
  obtain ⟨rfl, hlen, hfound, hautz⟩ := hasked rfl
  rw [hkept] at hautz
  rcases hc : (daemon hooks env).acct info' data' (some { s.books with plugins := p' }) with
    ⟨flag, info'', data'', books''⟩
  have hbooks : (books'' >>= bookTime env data'') >>= bookFlow env info'' data'' = some b := by
    simpa [judge, ipqmPacket, Loop.auth, Loop.autz, Loop.acct, Loop.timeAcct, Loop.ipAcct,
      Loop.setVerdict, ha, hz, hc] using hworld
  cases books'' with
  | none => cases hbooks
  | some charged =>
    have hcharged := acct_limits hh hc hfound
    refine .inr ⟨info', data', ?_, hlen, hautz, ?_⟩
    · simp only [judge, ipqmPacket, Loop.auth, Loop.autz, Loop.acct, Loop.timeAcct, Loop.ipAcct,
        Loop.setVerdict, ha, hz, hc, if_true]
      rfl
    · rw [book_plugins hbooks, hcharged, hkept', hkept]

theorem counted_append (kind : LimitKind) (k : IpId × IpId) (calls calls' : List LibCall) :
    counted kind k (calls ++ calls') = counted kind k calls + counted kind k calls' := by
  rw [counted, letThrough, List.filterMap_append]
  exact tally_append _ _

/-- A limit that lets a packet through is not reached. -/
theorem below_of_autz {k : IpId × IpId} {now : NodeGroupLimit} {ls : List NodeGroupLimit}
    (hnow : kind.find k ls = some now) (hL : now.limitation ≠ -1) (hk : kind.keyOf data = k)
    (h : kind.autz ls (.traffic info data) = true) : now.traffic < now.limitation := by
  rw [LimitKind.autz_traffic, hk, hnow, Option.map_some, Option.getD_some] at h
  by_contra hnot
  have hreached : now.limitation ≤ now.traffic := UInt64.not_lt.mp hnot
  have hoff : now.onactive = false := by
    rw [NodeGroupLimit.onactive, if_pos hL, if_pos hreached, ite_self]
  rw [hoff] at h
  cases h

/-- Beside the packets, nothing changes a key's limitation or traffic, and no packet is longer than
`M`. -/
def Undisturbed (kind : LimitKind) (limits : π → List NodeGroupLimit) (k : IpId × IpId) (M : Nat)
    (s : Collector π δ) : CollectorEvent π δ → Prop
  | .packet msg _ => (ipqGrepPacket msg).2.toNat ≤ M
  | .core _ plugins =>
    (kind.find k (limits plugins)).map (fun node => (node.limitation, node.traffic)) =
      (kind.find k (limits s.books.plugins)).map fun node => (node.limitation, node.traffic)
  | .time _ | .flows _ _ => True

/-- The limit's traffic is what has been let through since `calls₀`, and beyond the limitation by
less than a packet. -/
def Metered (kind : LimitKind) (limits : π → List NodeGroupLimit) (k : IpId × IpId) (M : Nat)
    (node : NodeGroupLimit) (calls₀ : List LibCall) (s : Collector π δ) : Prop :=
  ∃ now, kind.find k (limits s.books.plugins) = some now ∧ now.limitation = node.limitation ∧
    now.traffic.toNat + counted kind k calls₀ = node.traffic.toNat + counted kind k s.calls ∧
    now.traffic.toNat ≤ max node.traffic.toNat (node.limitation.toNat - 1 + M)

section
variable {k : IpId × IpId} {M : Nat} {node : NodeGroupLimit} {calls₀ : List LibCall}
  {s s' : Collector π δ}

omit [DecidableEq δ] in
theorem Metered.of_same (h : Metered kind limits k M node calls₀ s)
    (hlimit : (kind.find k (limits s'.books.plugins)).map
        (fun node => (node.limitation, node.traffic)) =
      (kind.find k (limits s.books.plugins)).map fun node => (node.limitation, node.traffic))
    (hcalls : counted kind k s'.calls = counted kind k s.calls) :
    Metered kind limits k M node calls₀ s' := by
  obtain ⟨now, hnow, hL, hsum, hbound⟩ := h
  rw [hnow, Option.map_some] at hlimit
  obtain ⟨now', hnow', hsame⟩ := Option.map_eq_some_iff.mp hlimit
  obtain ⟨hL', htraffic⟩ := Prod.mk.inj hsame
  refine ⟨now', hnow', hL'.trans hL, ?_, ?_⟩
  · rw [htraffic, hcalls]
    exact hsum
  · rw [htraffic]
    exact hbound

theorem Metered.packet (hh : Hooked hooks kind limits) (hL : node.limitation ≠ -1)
    (hroom : node.limitation.toNat + M ≤ 18446744073709551616)
    (h : Metered kind limits k M node calls₀ s) {msg : IpqPacketMsg}
    (hshort : (ipqGrepPacket msg).2.toNat ≤ M)
    (hs : s.step hooks (.packet msg env) = some s') : Metered kind limits k M node calls₀ s' := by
  obtain ⟨hworld, hcalls⟩ := step_packet hs
  obtain ⟨hnone, hkept⟩ | ⟨info, data, hthrough, hlen, hautz, hcharged⟩ :=
    judge_limits hh s msg env hworld
  · apply h.of_same
    · rw [hkept]
    · rw [hcalls, counted_append]
      have hzero : counted kind k (s.judge hooks msg env).2.calls = 0 := by
        rw [counted, hnone]
        rfl
      rw [hzero, Nat.add_zero]
  have hadded : counted kind k s'.calls = counted kind k s.calls + countedBy kind k data := by
    rw [hcalls, counted_append]
    have hone : counted kind k (s.judge hooks msg env).2.calls = countedBy kind k data := by
      rw [counted, hthrough]
      rfl
    rw [hone]
  by_cases hcounts : kind.keyOf data = k ∧ data.notSum = 0
  · obtain ⟨now, hnow, hlim, hsum, hbound⟩ := h
    have hbelow := UInt64.lt_iff_toNat_lt.mp (below_of_autz hnow (hlim ▸ hL) hcounts.1 hautz)
    have hfits : now.traffic.toNat + data.len.toNat < 18446744073709551616 := by
      rw [hlim] at hbelow
      rw [hlen]
      omega
    have htraffic : (now.charge data.len).traffic.toNat = now.traffic.toNat + data.len.toNat := by
      show (now.traffic + data.len.toUInt64).toNat = _
      rw [UInt64.toNat_add, UInt32.toNat_toUInt64]
      exact Nat.mod_eq_of_lt hfits
    refine ⟨now.charge data.len, ?_, hlim, ?_, ?_⟩
    · rw [hcharged, LimitKind.find_acct, if_pos hcounts, hnow, Option.map_some]
    · rw [htraffic, hadded, countedBy, if_pos hcounts]
      omega
    · rw [htraffic, hlen]
      rw [hlim] at hbelow
      omega
  · apply h.of_same
    · rw [hcharged, LimitKind.find_acct, if_neg hcounts]
    · rw [hadded, countedBy, if_neg hcounts, Nat.add_zero]

theorem Metered.step (hh : Hooked hooks kind limits) (hL : node.limitation ≠ -1)
    (hroom : node.limitation.toNat + M ≤ 18446744073709551616)
    (h : Metered kind limits k M node calls₀ s) {e : CollectorEvent π δ}
    (hg : s.Undisturbed kind limits k M e) (hs : s.step hooks e = some s') :
    Metered kind limits k M node calls₀ s' := by
  cases e with
  | packet msg env => exact h.packet hh hL hroom hg hs
  | core users plugins =>
    cases hs
    exact h.of_same hg rfl
  | time e =>
    rw [Collector.step] at hs
    split at hs
    · obtain ⟨time, -, rfl⟩ := Option.map_eq_some_iff.mp hs
      exact h.of_same rfl rfl
    · cases hs
  | flows meets today =>
    obtain ⟨flows, -, rfl⟩ := Option.map_eq_some_iff.mp hs
    exact h.of_same rfl rfl

end

end

end Collector

end IPStat
