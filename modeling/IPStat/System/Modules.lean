import IPStat.Lib.Registry
import IPStat.Types

namespace IPStat

/-- The modules that register callbacks. -/
inductive PluginModule where
  | groupLimit
  | usersGroupLimit
  | squid
  | netfilter
  | timePolicy
  deriving DecidableEq, Repr

/-- The functions they register; two modules may have one of the same name. -/
inductive ModuleFunc where
  | myAutz
  | myAcct
  | serverJob
  | syncLimits
  | glTaskEveryDay
  | glTaskEveryWeek
  | glTaskEveryMonth
  | syncUsersList
  | syncPatternList
  | squidJob
  | squidSync
  | timeJob
  | timeSync
  | timeGroup
  | ipJob
  | ipSync
  | autz
  | syncGroupUsersList
  | syncTypeTrafficList
  | syncGroupTrafficList
  | syncTimeList
  | policyTimeJob
  | everyDay
  deriving DecidableEq, Repr

/-- The argument a scheduler's job is called with. -/
inductive JobData where
  | null
  | api
  deriving DecidableEq, Repr

/-- NODE_SCHEDULER, with its callback at an address of type `F`. -/
structure NodeScheduler (F : Type*) where
  name : String
  crontab : String
  func : F
  data : JobData
  deriving DecidableEq, Repr

/-- NODE_SERVER_JOBS; every module registers its job with a NULL argument. -/
structure NodeServerJobs (F : Type*) where
  name : String
  func : F
  deriving DecidableEq, Repr

/-- The lists of the scheduler, of the console and of the core. -/
structure Registries (F : Type*) where
  schedList : List (NodeScheduler F)
  jobs : List (NodeServerJobs F)
  externAuth : List F
  externAutz : List F
  externAcct : List F
  deriving DecidableEq, Repr

/-- ACCT_SQUID_NODE -/
structure AcctSquidNode where
  idUser : IpId
  url : List UInt8
  traffic : IpSize
  deriving DecidableEq, Repr

/-- The registries, and the squid collector's records that wait for their export. -/
structure PluginState (F : Type*) where
  reg : Registries F
  agSquid : List AcctSquidNode
  deriving DecidableEq, Repr

/-- The modules' configuration at their load. -/
structure ModuleConfig where
  syncTimeout : Int
  secondaryDaemon : Int
  syncUrlPolicyTimeout : Int
  squidAggregationTimeout : Int
  timeAggregationTimeout : Int
  timeGroupTimeout : Int
  ipAggregationTimeout : Int
  deriving Repr

section
variable {F : Type*}

/-- The names compared are those of the first 50 bytes, which none of the modules' exceeds. -/
def schedulersRegister (r : Registries F) (name crontab : String) (func : F) (data : JobData) :
    Registries F :=
  { r with schedList := ⟨name, crontab, func, data⟩ :: r.schedList }

def schedulersUnregister (r : Registries F) (name : String) : Registries F :=
  { r with schedList := Registry.remove NodeScheduler.name name r.schedList }

def registerServer (r : Registries F) (name : String) (func : F) : Registries F :=
  { r with jobs := ⟨name, func⟩ :: r.jobs }

def unregisterServer (r : Registries F) (name : String) : Registries F :=
  { r with jobs := Registry.remove NodeServerJobs.name name r.jobs }

def registerAutz (r : Registries F) (func : F) : Registries F :=
  { r with externAutz := r.externAutz ++ [func] }

def registerAcct (r : Registries F) (func : F) : Registries F :=
  { r with externAcct := r.externAcct ++ [func] }

def unregisterAutz [DecidableEq F] (r : Registries F) (func : F) : Registries F :=
  { r with externAutz := r.externAutz.erase func }

def unregisterAcct [DecidableEq F] (r : Registries F) (func : F) : Registries F :=
  { r with externAcct := r.externAcct.erase func }

/-- sprintf of the crontab entry that runs every `timeout` minutes -/
def everyMinutes (timeout : Int) : String := "*/" ++ toString timeout ++ " * * * *"

/-- What the two limit modules call their jobs: the console's at its registration and at its
removal, and the scheduler's four. -/
structure LimitNames where
  registred : String
  unregistred : String
  sync : String
  day : String
  week : String
  month : String

def groupLimitNames : LimitNames :=
  ⟨"group_limits", "group_limit", "sync_group_limit", "gl_every_day", "gl_every_week",
    "gl_every_month"⟩

def usersGroupLimitNames : LimitNames :=
  ⟨"users_group_limits", "users_group_limit", "sync_users_group_limit", "ugl_every_day",
    "ugl_every_week", "ugl_every_month"⟩

def limitLoad (n : LimitNames) (addr : ModuleFunc → F) (conf : ModuleConfig) (r : Registries F) :
    Registries F :=
  let r := registerAutz r (addr .myAutz)
  let r := registerAcct r (addr .myAcct)
  let r := registerServer r n.registred (addr .serverJob)
  if conf.secondaryDaemon = 0 then
    let r := schedulersRegister r n.sync (everyMinutes conf.syncTimeout) (addr .syncLimits) .null
    let r := schedulersRegister r n.day "0 0 * * *" (addr .glTaskEveryDay) .api
    let r := schedulersRegister r n.week "0 0 * * 1" (addr .glTaskEveryWeek) .api
    schedulersRegister r n.month "0 0 1 * *" (addr .glTaskEveryMonth) .api
  else r

def limitUnload [DecidableEq F] (n : LimitNames) (addr : ModuleFunc → F) (conf : ModuleConfig)
    (r : Registries F) : Registries F :=
  let r :=
    if conf.secondaryDaemon = 0 then
      let r := schedulersUnregister r n.sync
      let r := schedulersUnregister r n.day
      let r := schedulersUnregister r n.week
      schedulersUnregister r n.month
    else r
  let r := unregisterServer r n.unregistred
  let r := unregisterAcct r (addr .myAcct)
  unregisterAutz r (addr .myAutz)

def loadUrlPolicy (addr : ModuleFunc → F) (conf : ModuleConfig) (r : Registries F) :
    Registries F :=
  let str := everyMinutes conf.syncUrlPolicyTimeout
  let r := schedulersRegister r "sync_url_policy_users" str (addr .syncUsersList) .null
  schedulersRegister r "sync_url_policy_pattern" str (addr .syncPatternList) .null

def unloadUrlPolicy (r : Registries F) : Registries F :=
  let r := schedulersUnregister r "sync_url_policy_pattern"
  schedulersUnregister r "sync_url_policy_users"

def squidInit (addr : ModuleFunc → F) (conf : ModuleConfig) (s : PluginState F) :
    PluginState F :=
  let r := registerServer s.reg "squid_aggregation" (addr .squidJob)
  ⟨schedulersRegister r "squid_aggregation" (everyMinutes conf.squidAggregationTimeout)
    (addr .squidSync) .null, []⟩

/-- Nothing is removed where no record waits; else the last squid_sync and squid_clean leave none. -/
def squidFree (s : PluginState F) : PluginState F :=
  if s.agSquid = [] then s
  else
    let r := unregisterServer s.reg "squid_aggregation"
    ⟨schedulersUnregister r "squid_aggregation", []⟩

def Registries.timeInit (addr : ModuleFunc → F) (conf : ModuleConfig) (r : Registries F) : Registries F :=
  let r := registerServer r "time_aggregation" (addr .timeJob)
  let r := schedulersRegister r "time_aggregation" (everyMinutes conf.timeAggregationTimeout)
    (addr .timeSync) .null
  if conf.timeGroupTimeout ≠ 0 then
    schedulersRegister r "time_group" (everyMinutes conf.timeGroupTimeout) (addr .timeGroup) .null
  else r

def Registries.ipInit (addr : ModuleFunc → F) (conf : ModuleConfig) (r : Registries F) : Registries F :=
  let r := registerServer r "ip_aggregation" (addr .ipJob)
  schedulersRegister r "ip_aggregation" (everyMinutes conf.ipAggregationTimeout)
    (addr .ipSync) .null

def timePolicyLoad (addr : ModuleFunc → F) (conf : ModuleConfig) (r : Registries F) :
    Registries F :=
  let str := everyMinutes conf.syncTimeout
  let r := registerAutz r (addr .autz)
  let r := schedulersRegister r "sync_policy_users" str (addr .syncUsersList) .null
  let r := schedulersRegister r "sync_policy_group_users" str (addr .syncGroupUsersList) .null
  let r := schedulersRegister r "sync_policy_type_traffic" str (addr .syncTypeTrafficList) .null
  let r := schedulersRegister r "sync_policy_group_traffic" str (addr .syncGroupTrafficList) .null
  let r := schedulersRegister r "sync_policy_time" str (addr .syncTimeList) .null
  let r := registerServer r "policy_time" (addr .policyTimeJob)
  schedulersRegister r "policy_time_every_day" "0 0 * * *" (addr .everyDay) .null

def timePolicyUnload [DecidableEq F] (addr : ModuleFunc → F) (r : Registries F) :
    Registries F :=
  let r := schedulersUnregister r "policy_time_every_day"
  let r := unregisterServer r "policy_time"
  let r := schedulersUnregister r "sync_policy_time"
  let r := schedulersUnregister r "sync_policy_group_traffic"
  let r := schedulersUnregister r "sync_policy_type_traffic"
  let r := schedulersUnregister r "sync_policy_group_users"
  let r := schedulersUnregister r "sync_policy_users"
  unregisterAutz r (addr .autz)

/-- The load functions, where their tables, threads and allocations succeed. -/
def PluginModule.load (addr : PluginModule → ModuleFunc → F) (conf : ModuleConfig)
    (m : PluginModule) (s : PluginState F) : PluginState F :=
  match m with
  | .groupLimit => { s with reg := limitLoad groupLimitNames (addr m) conf s.reg }
  | .usersGroupLimit => { s with reg := limitLoad usersGroupLimitNames (addr m) conf s.reg }
  | .squid => squidInit (addr m) conf { s with reg := loadUrlPolicy (addr m) conf s.reg }
  | .netfilter => { s with reg := Registries.ipInit (addr m) conf (Registries.timeInit (addr m) conf s.reg) }
  | .timePolicy => { s with reg := timePolicyLoad (addr m) conf s.reg }

/-- The unload functions; the netfilter collector's calls of ip_free and time_free are
commented out. -/
def PluginModule.unload [DecidableEq F] (addr : PluginModule → ModuleFunc → F)
    (conf : ModuleConfig) (m : PluginModule) (s : PluginState F) : PluginState F :=
  match m with
  | .groupLimit => { s with reg := limitUnload groupLimitNames (addr m) conf s.reg }
  | .usersGroupLimit => { s with reg := limitUnload usersGroupLimitNames (addr m) conf s.reg }
  | .squid => squidFree { s with reg := unloadUrlPolicy s.reg }
  | .netfilter => s
  | .timePolicy => { s with reg := timePolicyUnload (addr m) s.reg }

/-- What runs between a load and an unload and matters to the latter: squid's records come and
squid_sync is called, whose connection may fail. No callback registers anything. -/
inductive PluginEvent where
  | squidAcct (url : List UInt8) (idUser : IpId) (len : IpSize)
  | squidSync (opened : Bool)
  deriving DecidableEq, Repr

def PluginState.step (s : PluginState F) : PluginEvent → PluginState F
  | .squidAcct url idUser len => { s with agSquid := ⟨idUser, url.take 1023, len⟩ :: s.agSquid }
  | .squidSync true => { s with agSquid := [] }
  | .squidSync false => s

def PluginState.run (s : PluginState F) (es : List PluginEvent) : PluginState F :=
  es.foldl PluginState.step s

/-- The five lists contain what they contained. -/
structure Restored (before after : Registries F) : Prop where
  schedList : after.schedList.Perm before.schedList
  jobs : after.jobs.Perm before.jobs
  externAuth : after.externAuth.Perm before.externAuth
  externAutz : after.externAutz.Perm before.externAutz
  externAcct : after.externAcct.Perm before.externAcct

def waitsStep (w : Bool) : PluginEvent → Bool
  | .squidAcct _ _ _ => true
  | .squidSync opened => w && !opened

/-- A record has come since the last squid_sync with a connection. -/
def waits (es : List PluginEvent) : Bool := es.foldl waitsStep false

/-- The modules and runs after which the unload undoes the load. -/
def Undone : PluginModule → List PluginEvent → Prop
  | .timePolicy, _ => True
  | .squid, es => waits es = true
  | _, _ => False

/-- A run leaves the registries alone. -/
@[simp] theorem run_reg (s : PluginState F) (es : List PluginEvent) :
    (s.run es).reg = s.reg := by
  induction es generalizing s with
  | nil => rfl
  | cons e es ih =>
    change ((s.step e).run es).reg = s.reg
    rw [ih]
    cases e with
    | squidAcct url idUser len => rfl
    | squidSync opened => cases opened <;> rfl

theorem step_waits (s : PluginState F) (e : PluginEvent) (w : Bool)
    (h : s.agSquid ≠ [] ↔ w = true) : (s.step e).agSquid ≠ [] ↔ waitsStep w e = true := by
  cases e with
  | squidAcct url idUser len => simp [PluginState.step, waitsStep]
  | squidSync opened =>
    cases opened with
    | true => simp [PluginState.step, waitsStep]
    | false => simpa [PluginState.step, waitsStep] using h

theorem run_waits (s : PluginState F) (es : List PluginEvent) (w : Bool)
    (h : s.agSquid ≠ [] ↔ w = true) :
    (s.run es).agSquid ≠ [] ↔ es.foldl waitsStep w = true := by
  induction es generalizing s w with
  | nil => exact h
  | cons e es ih => exact ih (s.step e) (waitsStep w e) (step_waits s e w h)

/-- The netfilter collector's two console jobs stay. -/
theorem netfilter_not_restored (addr : ModuleFunc → F) (conf : ModuleConfig)
    (r : Registries F) : ¬ Restored r (Registries.ipInit addr conf (Registries.timeInit addr conf r)) := by
  intro h
  have hjobs : (Registries.ipInit addr conf (Registries.timeInit addr conf r)).jobs =
      ⟨"ip_aggregation", addr .ipJob⟩ :: ⟨"time_aggregation", addr .timeJob⟩ :: r.jobs := by
    unfold Registries.ipInit Registries.timeInit
    dsimp only [registerServer, schedulersRegister]
    split <;> rfl
  have hlength := h.jobs.length_eq
  rw [hjobs, List.length_cons, List.length_cons] at hlength
  omega

section
variable [DecidableEq F]

/-- The console's job of a limit module outlives the unload, which removes another name. -/
theorem limit_not_restored (n : LimitNames) (hn : n.registred ≠ n.unregistred)
    (addr : ModuleFunc → F) (conf : ModuleConfig) (r : Registries F) :
    ¬ Restored r (limitUnload n addr conf (limitLoad n addr conf r)) := by
  intro h
  let job : NodeServerJobs F := ⟨n.registred, addr .serverJob⟩
  have hload : (limitLoad n addr conf r).jobs = job :: r.jobs := by
    unfold limitLoad
    split <;> rfl
  have hunload : (limitUnload n addr conf (limitLoad n addr conf r)).jobs =
      Registry.remove NodeServerJobs.name n.unregistred (job :: r.jobs) := by
    rw [← hload]
    unfold limitUnload
    split <;> rfl
  have hperm := h.jobs
  rw [hunload] at hperm
  have hname : job.name ≠ n.unregistred := hn
  exact Registry.not_perm_remove hname hperm

/-- The jobs are removed in the opposite order of their registration. -/
theorem timePolicy_restored (addr : ModuleFunc → F) (conf : ModuleConfig) (r : Registries F) :
    Restored r (timePolicyUnload addr (timePolicyLoad addr conf r)) := by
  have hsched : (timePolicyUnload addr (timePolicyLoad addr conf r)).schedList = r.schedList := by
    simp [timePolicyUnload, timePolicyLoad, schedulersRegister, schedulersUnregister,
      registerServer, unregisterServer, registerAutz, unregisterAutz]
  have hjobs : (timePolicyUnload addr (timePolicyLoad addr conf r)).jobs = r.jobs := by
    simp [timePolicyUnload, timePolicyLoad, schedulersRegister, schedulersUnregister,
      registerServer, unregisterServer, registerAutz, unregisterAutz]
  exact ⟨.of_eq hsched, .of_eq hjobs, .refl _,
    Registry.erase_concat r.externAutz (addr .autz), .refl _⟩

/-- Without its url policy, which is always removed, the squid collector is left to squid_free. -/
theorem squid_unload (addr : PluginModule → ModuleFunc → F) (conf : ModuleConfig)
    (s : PluginState F) (es : List PluginEvent) :
    (PluginModule.squid.unload addr conf ((PluginModule.squid.load addr conf s).run es)).reg =
      if waits es = true then s.reg
      else
        let r := registerServer s.reg "squid_aggregation" (addr .squid .squidJob)
        schedulersRegister r "squid_aggregation" (everyMinutes conf.squidAggregationTimeout)
          (addr .squid .squidSync) .null := by
  let loaded := PluginModule.squid.load addr conf s
  have hempty : loaded.agSquid ≠ [] ↔ false = true := by
    simp [loaded, PluginModule.load, squidInit]
  have hwaits : (loaded.run es).agSquid ≠ [] ↔ waits es = true :=
    run_waits loaded es false hempty
  have hreg : unloadUrlPolicy (loaded.run es).reg =
      let r := registerServer s.reg "squid_aggregation" (addr .squid .squidJob)
      schedulersRegister r "squid_aggregation" (everyMinutes conf.squidAggregationTimeout)
        (addr .squid .squidSync) .null := by
    rw [run_reg]
    simp [loaded, PluginModule.load, squidInit, loadUrlPolicy, unloadUrlPolicy,
      schedulersRegister, schedulersUnregister, registerServer]
  change (squidFree { loaded.run es with reg := unloadUrlPolicy (loaded.run es).reg }).reg = _
  rw [hreg]
  by_cases hw : waits es = true
  · have hne : (loaded.run es).agSquid ≠ [] := hwaits.mpr hw
    rw [if_pos hw]
    simp [squidFree, hne, schedulersRegister, schedulersUnregister, registerServer,
      unregisterServer]
  · have heq : (loaded.run es).agSquid = [] := by
      by_contra hne
      exact hw (hwaits.mp hne)
    rw [if_neg hw]
    simp [squidFree, heq]

/-- An unload after a load and a run restores the registries in one module, and in the squid
collector where records wait. -/
theorem unload_undoes_load (addr : PluginModule → ModuleFunc → F) (conf : ModuleConfig)
    (m : PluginModule) (s : PluginState F) (es : List PluginEvent) :
    Restored s.reg (m.unload addr conf ((m.load addr conf s).run es)).reg ↔ Undone m es := by
  cases m with
  | groupLimit =>
    have hnot := limit_not_restored groupLimitNames (by decide) (addr .groupLimit) conf s.reg
    simpa [PluginModule.unload, PluginModule.load, Undone] using hnot
  | usersGroupLimit =>
    have hnot := limit_not_restored usersGroupLimitNames (by decide) (addr .usersGroupLimit) conf
      s.reg
    simpa [PluginModule.unload, PluginModule.load, Undone] using hnot
  | squid =>
    rw [squid_unload]
    by_cases hw : waits es = true
    · have hrestored : Restored s.reg s.reg := ⟨.refl _, .refl _, .refl _, .refl _, .refl _⟩
      simpa [Undone, hw] using hrestored
    · rw [if_neg hw]
      have hnot : ¬ Restored s.reg
          (schedulersRegister (registerServer s.reg "squid_aggregation" (addr .squid .squidJob))
            "squid_aggregation" (everyMinutes conf.squidAggregationTimeout)
            (addr .squid .squidSync) .null) := by
        intro h
        have hlength := h.jobs.length_eq
        simp [schedulersRegister, registerServer] at hlength
      exact iff_of_false hnot hw
  | netfilter =>
    have hnot := netfilter_not_restored (addr .netfilter) conf s.reg
    simpa [PluginModule.unload, PluginModule.load, Undone] using hnot
  | timePolicy =>
    have hrestored := timePolicy_restored (addr .timePolicy) conf s.reg
    simpa [PluginModule.unload, PluginModule.load, Undone] using hrestored

end

end

/-- The registries, empty before, after a load with the default configuration and an unload. -/
def reloaded (m : PluginModule) : Registries (PluginModule × ModuleFunc) :=
  let conf : ModuleConfig := ⟨1, 0, 1, 1, 1, 0, 1⟩
  (m.unload Prod.mk conf ((m.load Prod.mk conf ⟨⟨[], [], [], [], []⟩, []⟩).run [])).reg

/-- Four of the five modules leave a console job behind in registries that were empty. -/
theorem unload_keeps_callback :
    ¬ Restored ⟨[], [], [], [], []⟩ (reloaded .groupLimit) ∧
      ¬ Restored ⟨[], [], [], [], []⟩ (reloaded .usersGroupLimit) ∧
      ¬ Restored ⟨[], [], [], [], []⟩ (reloaded .squid) ∧
      ¬ Restored ⟨[], [], [], [], []⟩ (reloaded .netfilter) := by
  refine ⟨?_, ?_, ?_, ?_⟩
  all_goals
    intro h
    have hlength := h.jobs.length_eq
    exact absurd hlength (by decide)

end IPStat
