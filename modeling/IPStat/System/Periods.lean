import IPStat.Lib.Run
import IPStat.Lib.Tally
import IPStat.Lib.Transaction
import IPStat.Core.Sync
import IPStat.System.Rotation

/-! The counters of Users and Rules between the exports of the core and the tasks of tasks.c. A
transaction is one step: its statements lock every row they read or write. -/

namespace IPStat

open Transaction Tally

/-- The counters of a row of Users or Rules, with its Type. -/
structure Counters where
  type : Nat
  traffic : Nat
  yDay : Nat
  tDay : Nat
  yMonth : Nat
  tMonth : Nat
  deriving DecidableEq, Repr

structure UsersCounters where
  id : IpId
  counters : Counters
  deriving DecidableEq, Repr

structure RulesCounters where
  id : IpId
  idUser : IpId
  idType : IpId
  action : IpFlag
  counters : Counters
  deriving DecidableEq, Repr

/-- A row of System_Report; the date is in days. -/
structure ReportRow where
  date : Int
  idUser : IpId
  idType : IpId
  traffic : Nat
  action : IpFlag
  deriving DecidableEq, Repr

/-- `systemTable` holds the timestamps of the tasks. -/
structure PeriodTables where
  users : List UsersCounters
  rules : List RulesCounters
  systemReport : List ReportRow
  systemTable : Rotation → Option Int

/-- What one attempt of a task meets: the store's answers, the time, and the date of NOW(). -/
structure TaskEnv where
  answers : Nat → Bool
  now : Int
  date : Int

namespace Counters

/-- The statement of an export. -/
def addTraffic (n : Nat) (c : Counters) : Counters :=
  { c with traffic := c.traffic + n, tDay := c.tDay + n, tMonth := c.tMonth + n }

/-- `SET Traffic = 0 where Type=type`. -/
def clearTraffic (type : Nat) (c : Counters) : Counters :=
  if c.type = type then { c with traffic := 0 } else c

def yDayOfTDay (c : Counters) : Counters := { c with yDay := c.tDay }

def clearTDay (c : Counters) : Counters := { c with tDay := 0 }

def yMonthOfTMonth (c : Counters) : Counters := { c with yMonth := c.tMonth }

def clearTMonth (c : Counters) : Counters := { c with tMonth := 0 }

end Counters

namespace PeriodTables

/-- `update Users`. -/
def onUsers (f : Counters → Counters) (db : PeriodTables) : PeriodTables :=
  { db with users := db.users.map fun row => { row with counters := f row.counters } }

/-- `update Rules`. -/
def onRules (f : Counters → Counters) (db : PeriodTables) : PeriodTables :=
  { db with rules := db.rules.map fun row => { row with counters := f row.counters } }

/-- `insert into System_Report select ... from Rules`. -/
def insertReport (date : Int) (db : PeriodTables) : PeriodTables :=
  { db with systemReport := db.systemReport ++ db.rules.map fun row =>
      ⟨date - 1, row.idUser, row.idType, row.counters.tDay, row.action⟩ }

def saveTimestamp (r : Rotation) (now : Int) (db : PeriodTables) : PeriodTables :=
  { db with systemTable := Function.update db.systemTable r (some now) }

/-- users_mysql_export, when the store takes its statement. -/
def addUsers (id : IpId) (n : Nat) (db : PeriodTables) : PeriodTables :=
  { db with users := db.users.map fun row =>
      if row.id = id then { row with counters := row.counters.addTraffic n } else row }

/-- rules_mysql_export, when it is committed. -/
def addRules (id : IpId) (n : Nat) (db : PeriodTables) : PeriodTables :=
  { db with rules := db.rules.map fun row =>
      if row.id = id then { row with counters := row.counters.addTraffic n } else row }

end PeriodTables

open Counters PeriodTables

-- `set autocommit=0`, `start transaction` and `commit` write nothing
def taskEveryDay (env : TaskEnv) : List (PeriodTables → PeriodTables) :=
  [id, id, onUsers (clearTraffic 1), onUsers yDayOfTDay, onUsers clearTDay,
    onRules (clearTraffic 1), insertReport env.date, onRules yDayOfTDay, onRules clearTDay,
    saveTimestamp .everyDay env.now, id]

def taskEveryWeek (env : TaskEnv) : List (PeriodTables → PeriodTables) :=
  [id, id, onUsers (clearTraffic 2), onRules (clearTraffic 2), saveTimestamp .everyWeek env.now,
    id]

def taskEveryMonth (env : TaskEnv) : List (PeriodTables → PeriodTables) :=
  [id, id, onUsers (clearTraffic 3), onUsers yMonthOfTMonth, onUsers clearTMonth,
    onRules (clearTraffic 3), onRules yMonthOfTMonth, onRules clearTMonth,
    saveTimestamp .everyMonth env.now, id]

def Rotation.script : Rotation → TaskEnv → List (PeriodTables → PeriodTables)
  | .everyDay => taskEveryDay
  | .everyWeek => taskEveryWeek
  | .everyMonth => taskEveryMonth

/-- The engine of System_Report, which check_core_tables creates without a TYPE. The other tables
are InnoDB. -/
inductive Engine where
  | innoDB
  | myISAM
  deriving DecidableEq, Repr

/-- What is left of a transaction that is rolled back. That the store refuses the rollback itself,
and keeps the transaction open, is not modelled. -/
def PeriodTables.rollback : Engine → PeriodTables → PeriodTables → PeriodTables
  | .innoDB, before, _ => before
  | .myISAM, before, after => { before with systemReport := after.systemReport }

/-- The tables, the tasks in their loops with their `count`, and the sessions the tasks hold. -/
structure PeriodStore where
  db : PeriodTables
  tasks : List (Rotation × Nat)
  sessions : Nat

inductive PeriodEvent where
  | exportUser (id : IpId) (bytes : IpSize) (ok : Bool)
  | exportRule (id : IpId) (bytes : IpSize) (env : ExportEnv) (noSum : Bool)
  | call (r : Rotation) (opened : Bool)
  | attempt (r : Rotation) (count : Nat) (env : TaskEnv)

namespace PeriodStore

def step (engine : Engine) (s : PeriodStore) : PeriodEvent → Option PeriodStore
  | .exportUser id bytes ok =>
    some (if ok then { s with db := s.db.addUsers id bytes.toNat } else s)
  | .exportRule id bytes env noSum =>
    (rulesMysqlExport env noSum).map fun ok =>
      if ok then { s with db := s.db.addRules id bytes.toNat } else s
  | .call r opened =>
    some (if opened then { s with tasks := (r, 4) :: s.tasks, sessions := s.sessions + 1 } else s)
  | .attempt r count env =>
    if (r, count) ∈ s.tasks then
      match Transaction.attempt (rollback engine) (r.script env) env.answers s.db with
      | (db, true) => some ⟨db, s.tasks.erase (r, count), s.sessions - 1⟩
      -- the task that gives up returns without its store->close
      | (db, false) =>
        let tasks := s.tasks.erase (r, count)
        some ⟨db, if 1 < count then (r, count - 1) :: tasks else tasks, s.sessions⟩
    else none

variable {engine : Engine} {s s' : PeriodStore}

/-- The tables after an attempt, and what becomes of its task. -/
theorem step_attempt {r : Rotation} {count : Nat} {env : TaskEnv}
    (h : step engine s (.attempt r count env) = some s') : (r, count) ∈ s.tasks ∧
      s'.db = (Transaction.attempt (rollback engine) (r.script env) env.answers s.db).1 := by
  rw [step] at h
  split at h
  · next hmem =>
    refine ⟨hmem, ?_⟩
    rcases hattempt : Transaction.attempt (rollback engine) (r.script env) env.answers s.db with
      ⟨db, ok⟩
    rw [hattempt] at h
    cases ok <;> (cases h; rfl)
  · cases h

end PeriodStore

/-- What the tables keep of an event of a row: bytes that were committed, or a task that was. -/
inductive Entry where
  | bytes (n : Nat)
  | every (r : Rotation)
  deriving DecidableEq, Repr

def Entry.size : Entry → Nat
  | .bytes n => n
  | .every _ => 0

/-- The bytes since the last task of a kind. Histories are newest first, and `start` is what was
there before. -/
def sinceTask (r : Rotation) (start : Nat) (h : List Entry) : Nat :=
  tally Entry.size (h.takeWhile (· ≠ .every r)) + if .every r ∈ h then 0 else start

/-- The bytes between the last two tasks of a kind. -/
def betweenTasks (r : Rotation) (closed start : Nat) (h : List Entry) : Nat :=
  match h.dropWhile (· ≠ .every r) with
  | [] => closed
  | _ :: older => sinceTask r start older

/-- The Type whose period a task ends. -/
def Rotation.type : Rotation → Nat
  | .everyDay => 1
  | .everyWeek => 2
  | .everyMonth => 3

/-- The task that ends the period of a Type; the other Types have none. -/
def periodOf : Nat → Option Rotation
  | 1 => some .everyDay
  | 2 => some .everyWeek
  | 3 => some .everyMonth
  | _ => none

/-- The bytes of the running period of a Type. -/
def sincePeriod : Option Rotation → Nat → List Entry → Nat
  | some r, start, h => sinceTask r start h
  | none, start, h => tally Entry.size h + start

namespace Counters

/-- What the counters are for. -/
def ofHistory (c : Counters) (h : List Entry) : Counters where
  type := c.type
  traffic := sincePeriod (periodOf c.type) c.traffic h
  yDay := betweenTasks .everyDay c.yDay c.tDay h
  tDay := sinceTask .everyDay c.tDay h
  yMonth := betweenTasks .everyMonth c.yMonth c.tMonth h
  tMonth := sinceTask .everyMonth c.tMonth h

/-- What a task does to a row. -/
def rotate : Rotation → Counters → Counters
  | .everyDay, c => clearTDay (yDayOfTDay (clearTraffic 1 c))
  | .everyWeek, c => clearTraffic 2 c
  | .everyMonth, c => clearTMonth (yMonthOfTMonth (clearTraffic 3 c))

def enter (c : Counters) : Entry → Counters
  | .bytes n => c.addTraffic n
  | .every r => c.rotate r

end Counters

section
variable {r r' : Rotation} {start closed n type : Nat} {h : List Entry}

theorem sinceTask_bytes : sinceTask r start (.bytes n :: h) = sinceTask r start h + n := by
  simp [sinceTask, Entry.size]
  omega

theorem sinceTask_every : sinceTask r start (.every r' :: h) =
    if r' = r then 0 else sinceTask r start h := by
  by_cases hr : r' = r
  · simp [sinceTask, hr]
  · simp [sinceTask, Entry.size, hr, Ne.symm hr]

theorem betweenTasks_bytes :
    betweenTasks r closed start (.bytes n :: h) = betweenTasks r closed start h := by
  simp [betweenTasks]

theorem betweenTasks_every : betweenTasks r closed start (.every r' :: h) =
    if r' = r then sinceTask r start h else betweenTasks r closed start h := by
  by_cases hr : r' = r
  · simp [betweenTasks, hr]
  · simp [betweenTasks, hr]

theorem periodOf_eq_some : periodOf type = some r ↔ type = r.type := by
  unfold periodOf
  split <;> cases r <;> simp [Rotation.type] <;> omega

theorem sincePeriod_bytes (period : Option Rotation) :
    sincePeriod period start (.bytes n :: h) = sincePeriod period start h + n := by
  cases period with
  | some r => exact sinceTask_bytes
  | none =>
    simp [sincePeriod, Entry.size]
    omega

theorem sincePeriod_every (period : Option Rotation) :
    sincePeriod period start (.every r :: h) =
      if period = some r then 0 else sincePeriod period start h := by
  cases period with
  | some r' => simp [sincePeriod, sinceTask_every, eq_comm]
  | none => simp [sincePeriod, Entry.size]

namespace Counters

theorem ofHistory_nil (c : Counters) : c.ofHistory [] = c := by
  have htraffic : sincePeriod (periodOf c.type) c.traffic [] = c.traffic := by
    cases periodOf c.type <;> simp [sincePeriod, sinceTask]
  rw [ofHistory, htraffic]
  simp [sinceTask, betweenTasks]

theorem rotate_eq (r : Rotation) (c : Counters) : c.rotate r = { c with
    traffic := if c.type = r.type then 0 else c.traffic
    yDay := if r = .everyDay then c.tDay else c.yDay
    tDay := if r = .everyDay then 0 else c.tDay
    yMonth := if r = .everyMonth then c.tMonth else c.yMonth
    tMonth := if r = .everyMonth then 0 else c.tMonth } := by
  cases r with
  | everyDay =>
    by_cases htype : c.type = 1 <;>
      simp [rotate, clearTraffic, yDayOfTDay, clearTDay, Rotation.type, htype]
  | everyWeek =>
    by_cases htype : c.type = 2 <;> simp [rotate, clearTraffic, Rotation.type, htype]
  | everyMonth =>
    by_cases htype : c.type = 3 <;>
      simp [rotate, clearTraffic, yMonthOfTMonth, clearTMonth, Rotation.type, htype]

/-- The statements keep the counters what they are for. -/
theorem ofHistory_cons (c : Counters) (x : Entry) (h : List Entry) :
    c.ofHistory (x :: h) = (c.ofHistory h).enter x := by
  cases x with
  | bytes n =>
    simp only [ofHistory, enter, addTraffic, sinceTask_bytes, betweenTasks_bytes,
      sincePeriod_bytes]
  | every r =>
    simp only [enter, rotate_eq, ofHistory, sinceTask_every, betweenTasks_every,
      sincePeriod_every, periodOf_eq_some]

end Counters

end

namespace PeriodStore

variable {engine : Engine} {s s' u : PeriodStore} {e : PeriodEvent} {es : List PeriodEvent}

/-- What a row of Users keeps of an event. -/
def userEntry (id : IpId) : PeriodEvent → Option Entry
  | .exportUser id' bytes ok => if ok ∧ id = id' then some (.bytes bytes.toNat) else none
  | .attempt r _ env => if accepted (r.script env).length env.answers then some (.every r) else none
  | _ => none

def ruleEntry (id : IpId) : PeriodEvent → Option Entry
  | .exportRule id' bytes env noSum =>
    if rulesMysqlExport env noSum = some true ∧ id = id' then some (.bytes bytes.toNat) else none
  | .attempt r _ env => if accepted (r.script env).length env.answers then some (.every r) else none
  | _ => none

/-- What a row keeps of a run, newest first. -/
def history (entry : PeriodEvent → Option Entry) (es : List PeriodEvent) : List Entry :=
  (es.filterMap entry).reverse

theorem whole_script (r : Rotation) (env : TaskEnv) (db : PeriodTables) :
    (whole (r.script env) db).users =
        db.users.map (fun row => { row with counters := row.counters.rotate r }) ∧
      (whole (r.script env) db).rules =
        db.rules.map (fun row => { row with counters := row.counters.rotate r }) := by
  cases r with
  | everyDay =>
    simp [whole, Rotation.script, taskEveryDay, onUsers, onRules, insertReport, saveTimestamp,
      rotate, Function.comp_def]
  | everyWeek =>
    simp [whole, Rotation.script, taskEveryWeek, onUsers, onRules, saveTimestamp, rotate]
  | everyMonth =>
    simp [whole, Rotation.script, taskEveryMonth, onUsers, onRules, saveTimestamp, rotate,
      Function.comp_def]

theorem rollback_rows (engine : Engine) (before after : PeriodTables) :
    (rollback engine before after).users = before.users ∧
      (rollback engine before after).rules = before.rules := by
  cases engine <;> exact ⟨rfl, rfl⟩

/-- The counters that a row has after one event more. -/
def enter (c : Counters) : Option Entry → Counters
  | some x => c.enter x
  | none => c

theorem step_rows (h : step engine s e = some s') :
    s'.db.users = s.db.users.map (fun row =>
        { row with counters := enter row.counters (userEntry row.id e) }) ∧
      s'.db.rules = s.db.rules.map (fun row =>
        { row with counters := enter row.counters (ruleEntry row.id e) }) := by
  cases e with
  | exportUser id bytes ok =>
    cases h
    cases ok with
    | true =>
      refine ⟨?_, by simp [ruleEntry, enter, addUsers]⟩
      apply List.map_congr_left
      intro row _
      by_cases hid : row.id = id <;> simp [userEntry, enter, Counters.enter, hid]
    | false => simp [userEntry, ruleEntry, enter]
  | exportRule id bytes env noSum =>
    obtain ⟨ok, hok, rfl⟩ := Option.map_eq_some_iff.mp h
    cases ok with
    | true =>
      refine ⟨by simp [userEntry, enter, addRules], ?_⟩
      apply List.map_congr_left
      intro row _
      by_cases hid : row.id = id <;> simp [ruleEntry, enter, Counters.enter, hok, hid]
    | false => simp [userEntry, ruleEntry, enter, hok]
  | call r opened =>
    cases h
    cases opened <;> simp [userEntry, ruleEntry, enter]
  | attempt r count env =>
    obtain ⟨-, hdb⟩ := step_attempt h
    rw [hdb]
    cases hok : accepted (r.script env).length env.answers with
    | true =>
      rw [attempt_of_accepted hok]
      simpa [userEntry, ruleEntry, hok, enter, Counters.enter] using whole_script r env s.db
    | false =>
      rw [attempt_of_refused hok]
      simpa [userEntry, ruleEntry, hok, enter] using rollback_rows engine s.db _

theorem history_concat (entry : PeriodEvent → Option Entry) (es : List PeriodEvent)
    (e : PeriodEvent) (c : Counters) : c.ofHistory (history entry (es ++ [e])) =
      enter (c.ofHistory (history entry es)) (entry e) := by
  rw [history, List.filterMap_append, List.reverse_append]
  cases he : entry e with
  | none => simp [he, enter, history]
  | some x => simpa [he, enter, history] using ofHistory_cons c x (history entry es)

/-- Whatever statements the store refuses, and however the exports and the tasks take turns: in
every row of both tables, every counter is what the history of the committed transactions makes it.
TDay and TMonth are the bytes since the last daily and monthly task, YDay and YMonth those between
the last two, and Traffic is what came since the task of the row's own Type. -/
theorem counters_of_run (engine : Engine) (s u : PeriodStore) (es : List PeriodEvent)
    (h : Run.exec (step engine) s es = some u) :
    u.db.users = s.db.users.map (fun row =>
        { row with counters := row.counters.ofHistory (history (userEntry row.id) es) }) ∧
      u.db.rules = s.db.rules.map (fun row =>
        { row with counters := row.counters.ofHistory (history (ruleEntry row.id) es) }) := by
  induction es using List.reverseRecOn generalizing u with
  | nil =>
    cases h
    simp [history, ofHistory_nil]
  | append_singleton es e ih =>
    obtain ⟨t, ht, hstep⟩ := Run.exec_concat_some h
    obtain ⟨husers, hrules⟩ := ih t ht
    obtain ⟨husers', hrules'⟩ := step_rows hstep
    rw [husers', hrules', husers, hrules]
    simp [history_concat, Function.comp_def]

/-- One rule of Type 1, and one of Type 3. -/
def twoRules : PeriodTables where
  users := [⟨5, ⟨1, 0, 0, 0, 0, 0⟩⟩]
  rules := [⟨1, 5, 2, 0, ⟨1, 0, 0, 0, 0, 0⟩⟩, ⟨2, 5, 3, 0, ⟨3, 0, 0, 0, 0, 0⟩⟩]
  systemReport := []
  systemTable := fun _ => none

def exportTaken : ExportEnv := ⟨true, true, true, true, true, true, true, true⟩

/-- A day whose first attempt is refused its ninth statement, and some bytes before the second. -/
def refusedDay : List PeriodEvent :=
  [.exportUser 5 100 true, .exportRule 1 100 exportTaken false, .call .everyDay true,
    .attempt .everyDay 4 ⟨fun k => k ≠ 8, 86400, 1⟩, .exportRule 2 30 exportTaken true,
    .attempt .everyDay 3 ⟨fun _ => true, 86410, 1⟩, .exportUser 5 7 true]

theorem counters_of_run_refusedDay : ∃ u,
    Run.exec (step .myISAM) ⟨twoRules, [], 0⟩ refusedDay = some u ∧
      u.db.users = twoRules.users.map (fun row => { row with
        counters := row.counters.ofHistory (history (userEntry row.id) refusedDay) }) ∧
      u.db.rules = twoRules.rules.map (fun row => { row with
        counters := row.counters.ofHistory (history (ruleEntry row.id) refusedDay) }) :=
  ⟨_, rfl, counters_of_run .myISAM ⟨twoRules, [], 0⟩ _ refusedDay rfl⟩

/-- The columns a report row is summed by. -/
structure ReportKey where
  idUser : IpId
  idType : IpId
  action : IpFlag
  deriving DecidableEq, Repr

def ruleKey (row : RulesCounters) : ReportKey := ⟨row.idUser, row.idType, row.action⟩

/-- What the rules of a key have in TDay. -/
def dayOf (key : ReportKey) (db : PeriodTables) : Nat :=
  tally (fun row => if ruleKey row = key then row.counters.tDay else 0) db.rules

/-- What System_Report has for a key, over all its dates. -/
def reported (key : ReportKey) (db : PeriodTables) : Nat :=
  tally (fun row => if ⟨row.idUser, row.idType, row.action⟩ = key then row.traffic else 0)
    db.systemReport

/-- The bytes that an event commits to the rules of a key. -/
def exported (key : ReportKey) (rules : List RulesCounters) (e : PeriodEvent) : Nat :=
  tally (fun row => if ruleKey row = key then ((ruleEntry row.id e).map Entry.size).getD 0 else 0)
    rules

/-- An attempt that fails behind its report, which MyISAM keeps. -/
def copies (engine : Engine) (key : ReportKey) (s : PeriodStore) : PeriodEvent → Nat
  | .attempt .everyDay _ env =>
    if engine = .myISAM ∧ accepted 7 env.answers = true ∧ accepted 11 env.answers = false then
      dayOf key s.db
    else 0
  | _ => 0

variable {key : ReportKey} {db db' : PeriodTables}

theorem reported_congr (h : db'.systemReport = db.systemReport) :
    reported key db' = reported key db := by
  rw [reported, reported, h]

theorem reported_insertReport (date : Int) :
    reported key (insertReport date db) = reported key db + dayOf key db := by
  rw [reported, insertReport, tally_append, dayOf, tally, tally, tally, List.map_map]
  rfl

theorem dayOf_onRules {f : Counters → Counters} (hf : ∀ c, (f c).tDay = c.tDay) :
    dayOf key (onRules f db) = dayOf key db := by
  rw [dayOf, dayOf, onRules, tally, tally, List.map_map]
  show (db.rules.map fun row => if ruleKey row = key then (f row.counters).tDay else 0).sum = _
  simp only [hf]

theorem clearTraffic_tDay (type : Nat) (c : Counters) : (clearTraffic type c).tDay = c.tDay := by
  rw [clearTraffic]
  split <;> rfl

/-- The statements of task_every_day before its report. -/
def beforeReport : List (PeriodTables → PeriodTables) :=
  [id, id, onUsers (clearTraffic 1), onUsers yDayOfTDay, onUsers clearTDay,
    onRules (clearTraffic 1)]

/-- The statements of task_every_day behind its report. -/
def afterReport (env : TaskEnv) : List (PeriodTables → PeriodTables) :=
  [onRules yDayOfTDay, onRules clearTDay, saveTimestamp .everyDay env.now, id]

theorem beforeReport_keeps : ∀ q ∈ beforeReport, ∀ db : PeriodTables,
    (dayOf key (q db), (q db).systemReport) = (dayOf key db, db.systemReport) := by
  intro q hq db
  simp only [beforeReport, List.mem_cons, List.not_mem_nil, or_false] at hq
  rcases hq with rfl | rfl | rfl | rfl | rfl | rfl
  · rfl
  · rfl
  · rfl
  · rfl
  · rfl
  · rw [dayOf_onRules (clearTraffic_tDay 1)]
    rfl

theorem afterReport_keeps (env : TaskEnv) : ∀ q ∈ afterReport env, ∀ db : PeriodTables,
    (q db).systemReport = db.systemReport := by
  intro q hq db
  simp only [afterReport, List.mem_cons, List.not_mem_nil, or_false] at hq
  rcases hq with rfl | rfl | rfl | rfl <;> rfl

/-- The report is in its table as soon as its statement is taken. -/
theorem reported_exec_everyDay (key : ReportKey) (env : TaskEnv) (answers : Nat → Bool)
    (db : PeriodTables) : reported key (exec (taskEveryDay env) answers db).1 =
      reported key db + if accepted 7 answers then dayOf key db else 0 := by
  have hscript : taskEveryDay env =
      beforeReport ++ insertReport env.date :: afterReport env := rfl
  have hbefore : ∀ answers, (dayOf key (exec beforeReport answers db).1,
      (exec beforeReport answers db).1.systemReport) = (dayOf key db, db.systemReport) := by
    intro answers
    exact exec_untouched (fun db => (dayOf key db, db.systemReport)) beforeReport_keeps
  have hlength : beforeReport.length = 6 := rfl
  rw [hscript, exec_append, accepted_concat 6, hlength]
  cases hsix : accepted 6 answers with
  | false =>
    simp only [Bool.false_and, Bool.false_eq_true, if_false, Nat.add_zero]
    exact reported_congr (Prod.ext_iff.mp (hbefore answers)).2
  | true =>
    have hwhole := hbefore answers
    rw [exec_of_accepted (hlength ▸ hsix), Prod.mk.injEq] at hwhole
    simp only [if_true, Bool.true_and, exec, Nat.zero_add]
    cases answers 6 with
    | false => simp [reported_congr hwhole.2]
    | true =>
      simp only [if_true]
      rw [reported_congr (exec_untouched PeriodTables.systemReport (afterReport_keeps env)),
        reported_insertReport, reported_congr hwhole.2, hwhole.1]

theorem systemReport_exec {r : Rotation} (hr : r ≠ .everyDay) (env : TaskEnv)
    (answers : Nat → Bool) (db : PeriodTables) :
    (exec (r.script env) answers db).1.systemReport = db.systemReport := by
  apply exec_untouched PeriodTables.systemReport
  intro q hq db
  cases r with
  | everyDay => exact absurd rfl hr
  | everyWeek =>
    simp only [Rotation.script, taskEveryWeek, List.mem_cons, List.not_mem_nil, or_false] at hq
    rcases hq with rfl | rfl | rfl | rfl | rfl | rfl <;> rfl
  | everyMonth =>
    simp only [Rotation.script, taskEveryMonth, List.mem_cons, List.not_mem_nil, or_false] at hq
    rcases hq with rfl | rfl | rfl | rfl | rfl | rfl | rfl | rfl | rfl | rfl <;> rfl

theorem dayOf_congr (h : db'.rules = db.rules) : dayOf key db' = dayOf key db := by
  rw [dayOf, dayOf, h]

theorem dayOf_whole (key : ReportKey) (r : Rotation) (env : TaskEnv) (db : PeriodTables) :
    dayOf key (whole (r.script env) db) = if r = .everyDay then 0 else dayOf key db := by
  rw [dayOf, (whole_script r env db).2, tally, List.map_map]
  show (db.rules.map fun row =>
    if ruleKey row = key then (row.counters.rotate r).tDay else 0).sum = _
  simp only [rotate_eq]
  split_ifs with hr
  · simp
  · rfl

/-- What an attempt leaves in System_Report. -/
theorem reported_attempt (engine : Engine) (key : ReportKey) (r : Rotation) (env : TaskEnv)
    (s : PeriodStore) (count : Nat) :
    reported key (Transaction.attempt (rollback engine) (r.script env) env.answers s.db).1 =
      reported key s.db +
        (if r = .everyDay ∧ accepted 11 env.answers = true then dayOf key s.db else 0) +
        copies engine key s (.attempt r count env) := by
  by_cases hr : r = .everyDay
  · subst hr
    have hexec := reported_exec_everyDay key env env.answers s.db
    cases hok : accepted 11 env.answers with
    | true =>
      have hseven : accepted 7 env.answers = true := by
        simp only [accepted, List.all_eq_true, List.mem_range] at hok ⊢
        intro k hk
        exact hok k (by omega)
      have hok' : accepted (taskEveryDay env).length env.answers = true := hok
      rw [exec_of_accepted hok', if_pos hseven] at hexec
      rw [show Rotation.everyDay.script env = taskEveryDay env from rfl,
        attempt_of_accepted hok']
      simpa [copies, hok] using hexec
    | false =>
      have hok' : accepted (taskEveryDay env).length env.answers = false := hok
      rw [show Rotation.everyDay.script env = taskEveryDay env from rfl,
        attempt_of_refused hok']
      cases engine with
      | innoDB => simp [copies, rollback]
      | myISAM => simpa [copies, rollback, reported, hok] using hexec
  · have hcopies : copies engine key s (.attempt r count env) = 0 := by
      cases r <;> first | rfl | exact absurd rfl hr
    have hexec := systemReport_exec hr env env.answers s.db
    rw [hcopies, if_neg fun h => hr h.1]
    apply reported_congr
    cases hok : accepted (r.script env).length env.answers with
    | true =>
      rw [attempt_of_accepted hok]
      rw [exec_of_accepted hok] at hexec
      exact hexec
    | false =>
      rw [attempt_of_refused hok]
      cases engine with
      | innoDB => rfl
      | myISAM => exact hexec

/-- Nothing is committed to a rule by what has no entry of bytes for it. -/
theorem exported_zero {rules : List RulesCounters}
    (h : ∀ id, ((ruleEntry id e).map Entry.size).getD 0 = 0) : exported key rules e = 0 := by
  apply tally_zero
  intro row _
  rw [h row.id, ite_self]

theorem dayOf_enter (key : ReportKey) (h : s'.db.rules = s.db.rules.map (fun row =>
      { row with counters := enter row.counters (ruleEntry row.id e) }))
    (hbytes : ∀ id x, ruleEntry id e = some x → ∃ n, x = .bytes n) :
    dayOf key s'.db = dayOf key s.db + exported key s.db.rules e := by
  rw [dayOf, h, dayOf, exported, tally, tally, tally, List.map_map, ← List.sum_map_add]
  congr 1
  apply List.map_congr_left
  intro row _
  show (if ruleKey row = key then (enter row.counters (ruleEntry row.id e)).tDay else 0) = _
  cases hentry : ruleEntry row.id e with
  | none => split_ifs <;> simp [enter]
  | some x =>
    obtain ⟨n, rfl⟩ := hbytes row.id x hentry
    split_ifs <;> simp [enter, Counters.enter, addTraffic, Entry.size]

/-- No byte is lost between TDay and the reports, and none is reported twice but by a copy. -/
theorem step_report (h : step engine s e = some s') (key : ReportKey) :
    dayOf key s'.db + reported key s'.db =
      dayOf key s.db + reported key s.db + exported key s.db.rules e + copies engine key s e := by
  cases e with
  | exportUser id bytes ok =>
    have hzero : exported key s.db.rules (.exportUser id bytes ok) = 0 := exported_zero fun _ => rfl
    rw [hzero]
    cases h
    cases ok <;> rfl
  | exportRule id bytes env noSum =>
    have hday := dayOf_enter key (step_rows h).2 (by
      intro id x hx
      simp only [ruleEntry] at hx
      split at hx
      · exact ⟨_, (Option.some.inj hx).symm⟩
      · cases hx)
    obtain ⟨ok, hok, rfl⟩ := Option.map_eq_some_iff.mp h
    rw [hday]
    have hreport : (if ok then { s with db := s.db.addRules id bytes.toNat }
        else s).db.systemReport = s.db.systemReport := by
      cases ok <;> rfl
    rw [reported_congr hreport]
    simp only [copies]
    omega
  | call r opened =>
    have hzero : exported key s.db.rules (.call r opened) = 0 := exported_zero fun _ => rfl
    rw [hzero]
    cases h
    cases opened <;> rfl
  | attempt r count env =>
    obtain ⟨-, hdb⟩ := step_attempt h
    have hzero : exported key s.db.rules (.attempt r count env) = 0 := by
      apply exported_zero
      intro id
      simp only [ruleEntry]
      split <;> rfl
    rw [hdb, hzero, reported_attempt engine key r env s count]
    cases hok : accepted (r.script env).length env.answers with
    | true =>
      rw [attempt_of_accepted hok, dayOf_whole]
      by_cases hr : r = .everyDay
      · subst hr
        have hok : accepted 11 env.answers = true := hok
        simp only [hok, if_true, and_self]
        omega
      · simp only [hr, if_false, false_and]
        omega
    | false =>
      rw [attempt_of_refused hok, dayOf_congr (rollback_rows engine s.db _).2]
      have hnot : ¬ (r = .everyDay ∧ accepted 11 env.answers = true) := by
        intro hr
        obtain ⟨rfl, heleven⟩ := hr
        have hok : accepted 11 env.answers = false := hok
        rw [hok] at heleven
        cases heleven
      rw [if_neg hnot]
      omega

/-- What a rule is for does not change. -/
theorem exported_step (h : step engine s e = some s') (key : ReportKey) (e' : PeriodEvent) :
    exported key s'.db.rules e' = exported key s.db.rules e' := by
  rw [exported, (step_rows h).2, exported, tally, tally, List.map_map]
  rfl

/-- The attempt leaves no copy of a report behind: the table takes the rollback, or the attempt
does not come as far as its report, or is committed, or has nothing to report. -/
def LeavesNoCopy (engine : Engine) (key : ReportKey) (s : PeriodStore) : PeriodEvent → Prop
  | .attempt .everyDay _ env => engine = .innoDB ∨ accepted 7 env.answers = false ∨
      accepted 11 env.answers = true ∨ dayOf key s.db = 0
  | _ => True

instance (engine : Engine) (key : ReportKey) (s : PeriodStore) :
    (e : PeriodEvent) → Decidable (LeavesNoCopy engine key s e)
  | .attempt .everyDay _ env => inferInstanceAs (Decidable (engine = .innoDB ∨
      accepted 7 env.answers = false ∨ accepted 11 env.answers = true ∨ dayOf key s.db = 0))
  | .attempt .everyWeek _ _ | .attempt .everyMonth _ _ | .exportUser .. | .exportRule ..
  | .call .. => isTrue trivial

theorem copies_eq_zero_iff : copies engine key s e = 0 ↔ LeavesNoCopy engine key s e := by
  unfold copies LeavesNoCopy
  split
  · next env =>
    cases engine with
    | innoDB => simp
    | myISAM => cases accepted 7 env.answers <;> cases accepted 11 env.answers <;> simp
  · simp

theorem run_report (h : Run.exec (step engine) s es = some u) (key : ReportKey) :
    ∃ extra, dayOf key u.db + reported key u.db =
        dayOf key s.db + reported key s.db + tally (exported key s.db.rules) es + extra ∧
      (extra = 0 ↔ Run.Guarded (step engine) (LeavesNoCopy engine key) s es) := by
  induction es generalizing s with
  | nil =>
    cases h
    exact ⟨0, by simp, by simp [Run.Guarded]⟩
  | cons e es ih =>
    obtain ⟨t, hstep, hrun⟩ := Run.exec_cons_some h
    obtain ⟨extra, hsum, hextra⟩ := ih hrun
    have hfirst := step_report hstep key
    have hsame : tally (exported key t.db.rules) es = tally (exported key s.db.rules) es := by
      rw [funext (exported_step hstep key)]
    refine ⟨copies engine key s e + extra, ?_, ?_⟩
    · rw [tally_cons]
      omega
    · rw [Nat.add_eq_zero_iff, copies_eq_zero_iff, hextra, Run.Guarded]
      apply and_congr_right
      intro _
      constructor
      · intro hg t' ht'
        rw [hstep] at ht'
        cases ht'
        exact hg
      · intro hg
        exact hg t hstep

/-- Over a run with any refusals, the reports and TDay have every committed byte once exactly when
no attempt left a copy of its report: a table that takes the rollback makes sure of it. -/
theorem report_exact_iff (engine : Engine) (s u : PeriodStore) (es : List PeriodEvent)
    (h : Run.exec (step engine) s es = some u) (key : ReportKey) :
    dayOf key u.db + reported key u.db =
        dayOf key s.db + reported key s.db + tally (exported key s.db.rules) es ↔
      Run.Guarded (step engine) (LeavesNoCopy engine key) s es := by
  obtain ⟨extra, hsum, hextra⟩ := run_report h key
  rw [hsum, ← hextra]
  omega

theorem report_exact_iff_refusedDay : ∃ u,
    Run.exec (step .myISAM) ⟨twoRules, [], 0⟩ refusedDay = some u ∧
      (dayOf ⟨5, 2, 0⟩ u.db + reported ⟨5, 2, 0⟩ u.db =
          dayOf ⟨5, 2, 0⟩ twoRules + reported ⟨5, 2, 0⟩ twoRules +
            tally (exported ⟨5, 2, 0⟩ twoRules.rules) refusedDay ↔
        Run.Guarded (step .myISAM) (LeavesNoCopy .myISAM ⟨5, 2, 0⟩) ⟨twoRules, [], 0⟩
          refusedDay) :=
  ⟨_, rfl, report_exact_iff .myISAM ⟨twoRules, [], 0⟩ _ refusedDay rfl ⟨5, 2, 0⟩⟩

/-- The calls that have made their last attempt in vain. -/
def gaveUp : PeriodEvent → Nat
  | .attempt r count env =>
    if count ≤ 1 ∧ accepted (r.script env).length env.answers = false then 1 else 0
  | _ => 0

theorem step_sessions (h : step engine s e = some s') (hs : s.tasks.length ≤ s.sessions) :
    s'.sessions + s.tasks.length = s.sessions + s'.tasks.length + gaveUp e := by
  cases e with
  | exportUser id bytes ok =>
    cases h
    cases ok <;> simp [gaveUp]
  | exportRule id bytes env noSum =>
    obtain ⟨ok, -, rfl⟩ := Option.map_eq_some_iff.mp h
    cases ok <;> simp [gaveUp]
  | call r opened =>
    cases h
    cases opened with
    | true =>
      simp only [gaveUp, if_true, List.length_cons]
      omega
    | false => simp [gaveUp]
  | attempt r count env =>
    have hmem := (step_attempt h).1
    have hpos := List.length_pos_of_mem hmem
    have hlength := List.length_erase_of_mem hmem
    rw [step, if_pos hmem] at h
    have hsnd := attempt_snd (rollback engine) (r.script env) env.answers s.db
    rcases hattempt : Transaction.attempt (rollback engine) (r.script env) env.answers s.db with
      ⟨db, ok⟩
    rw [hattempt] at h hsnd
    have hsnd : ok = accepted (r.script env).length env.answers := hsnd
    cases ok with
    | true =>
      cases h
      simp only [gaveUp, ← hsnd]
      simp
      omega
    | false =>
      cases h
      simp only [gaveUp, ← hsnd]
      split_ifs <;> simp at * <;> omega

/-- A call that gives up leaves its session open, and no other does. -/
theorem sessions_of_run (engine : Engine) (s u : PeriodStore) (es : List PeriodEvent)
    (h : Run.exec (step engine) s es = some u) (hs : s.tasks.length ≤ s.sessions) :
    u.sessions + s.tasks.length = s.sessions + u.tasks.length + tally gaveUp es := by
  induction es generalizing s with
  | nil =>
    cases h
    rfl
  | cons e es ih =>
    obtain ⟨t, hstep, hrun⟩ := Run.exec_cons_some h
    have hfirst := step_sessions hstep hs
    have hrest := ih t hrun (by omega)
    rw [tally_cons]
    omega

/-- A daily task whose every attempt is refused. -/
def refusedTask : List PeriodEvent :=
  .call .everyDay true ::
    [4, 3, 2, 1].map fun count => .attempt .everyDay count ⟨fun _ => false, 86400, 1⟩

theorem sessions_of_run_refusedTask : ∃ u,
    Run.exec (step .myISAM) ⟨twoRules, [], 0⟩ refusedTask = some u ∧
      u.tasks = [] ∧ u.sessions = 1 ∧
      u.sessions + 0 = 0 + u.tasks.length + tally gaveUp refusedTask :=
  ⟨_, rfl, rfl, rfl,
    sessions_of_run .myISAM ⟨twoRules, [], 0⟩ _ refusedTask rfl (Nat.le_refl 0)⟩

end PeriodStore

end IPStat
