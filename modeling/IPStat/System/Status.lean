import IPStat.Lib.Overwrite
import Mathlib.Data.Rat.Defs

namespace IPStat

/-- The columns of a Users row that task_check_limit reads or writes. -/
structure UserStatus where
  type : Int
  limitation : Int
  traffic : Nat
  balance : Rat
  onBlocked : Bool
  onActive : Bool
  deriving DecidableEq, Repr

/-- The columns of a Rules row that task_check_limit reads or writes. -/
structure RuleStatus where
  limitation : Int
  traffic : Nat
  onBlocked : Bool
  onActive : Bool
  deriving DecidableEq, Repr

structure StatusTables where
  users : List UserStatus
  rules : List RuleStatus
  deriving DecidableEq, Repr

def UserStatus.setActive (onActive : Bool) (row : UserStatus) : UserStatus :=
  { row with onActive := onActive }

def RuleStatus.setActive (onActive : Bool) (row : RuleStatus) : RuleStatus :=
  { row with onActive := onActive }

/-- An update of one of the two tables. -/
inductive StatusUpdate where
  | users (onActive : Bool) (cond : UserStatus → Bool)
  | rules (onActive : Bool) (cond : RuleStatus → Bool)

/-- What an update does to the rows of Users; one of Rules meets none of them. -/
def StatusUpdate.onUsers : StatusUpdate → Overwrite.Write UserStatus Bool
  | .users onActive cond => ⟨cond, onActive⟩
  | .rules _ _ => ⟨fun _ => false, false⟩

def StatusUpdate.onRules : StatusUpdate → Overwrite.Write RuleStatus Bool
  | .users _ _ => ⟨fun _ => false, false⟩
  | .rules onActive cond => ⟨cond, onActive⟩

def StatusUpdate.exec (db : StatusTables) : StatusUpdate → StatusTables
  | .users onActive cond => { db with
      users := db.users.map fun row => if cond row then row.setActive onActive else row }
  | .rules onActive cond => { db with
      rules := db.rules.map fun row => if cond row then row.setActive onActive else row }

/-- The ten updates of task_check_limit. -/
def checkLimitUpdates : List StatusUpdate := [
  .users true fun row => (0 ≤ row.type ∧ row.type ≤ 3) ∧ row.limitation = -1 ∧ !row.onBlocked,
  .users false fun row => (0 ≤ row.type ∧ row.type ≤ 3) ∧ row.limitation < row.traffic ∧
    row.limitation ≠ -1 ∧ !row.onBlocked,
  .users true fun row => (0 ≤ row.type ∧ row.type ≤ 3) ∧ row.traffic ≤ row.limitation ∧
    !row.onBlocked,
  .users false fun row => row.type = 4 ∧ row.balance < 0 ∧ !row.onBlocked,
  .users true fun row => row.type = 4 ∧ 0 ≤ row.balance ∧ !row.onBlocked,
  .rules true fun row => row.limitation = -1 ∧ !row.onBlocked,
  .rules false fun row => row.limitation < row.traffic ∧ row.limitation ≠ -1 ∧ !row.onBlocked,
  .rules true fun row => row.traffic ≤ row.limitation ∧ !row.onBlocked,
  .users false fun row => row.onBlocked,
  .rules false fun row => row.onBlocked]

/-- The tables after the first `k` updates. -/
def afterUpdates (db : StatusTables) (k : Nat) : StatusTables :=
  (checkLimitUpdates.take k).foldl StatusUpdate.exec db

/-- task_check_limit: whether the store is there, and opens. -/
def taskCheckLimit (store opened : Bool) (db : StatusTables) : StatusTables × Bool :=
  if !store then (db, false)
  else if opened then (checkLimitUpdates.foldl StatusUpdate.exec db, true)
  else (db, false)

/-- The status that a user is meant to have. -/
def UserStatus.active (row : UserStatus) : Bool :=
  if 0 ≤ row.type ∧ row.type ≤ 3 then
    !row.onBlocked && (row.limitation = -1 || row.traffic ≤ row.limitation)
  else if row.type = 4 then !row.onBlocked && 0 ≤ row.balance
  else if row.onBlocked then false else row.onActive

def RuleStatus.active (row : RuleStatus) : Bool :=
  !row.onBlocked && (row.limitation = -1 || row.traffic ≤ row.limitation)

section
variable {db : StatusTables} {row : UserStatus} {rule : RuleStatus}

theorem exec_users (u : StatusUpdate) (db : StatusTables) : (u.exec db).users =
    db.users.map fun row => u.onUsers.apply UserStatus.setActive row := by
  cases u with
  | users onActive cond => rfl
  | rules onActive cond => exact (List.map_id' db.users).symm

theorem exec_rules (u : StatusUpdate) (db : StatusTables) : (u.exec db).rules =
    db.rules.map fun rule => u.onRules.apply RuleStatus.setActive rule := by
  cases u with
  | users onActive cond => exact (List.map_id' db.rules).symm
  | rules onActive cond => rfl

/-- Updates made one after the other act on each row alone. -/
theorem foldl_users (us : List StatusUpdate) (db : StatusTables) :
    (us.foldl StatusUpdate.exec db).users =
      db.users.map (Overwrite.run UserStatus.setActive (us.map StatusUpdate.onUsers)) := by
  induction us generalizing db with
  | nil => exact (List.map_id' db.users).symm
  | cons u us ih =>
    rw [List.foldl_cons, ih, exec_users, List.map_map]
    rfl

theorem foldl_rules (us : List StatusUpdate) (db : StatusTables) :
    (us.foldl StatusUpdate.exec db).rules =
      db.rules.map (Overwrite.run RuleStatus.setActive (us.map StatusUpdate.onRules)) := by
  induction us generalizing db with
  | nil => exact (List.map_id' db.rules).symm
  | cons u us ih =>
    rw [List.foldl_cons, ih, exec_rules, List.map_map]
    rfl

theorem users_blind :
    Overwrite.Blind UserStatus.setActive (checkLimitUpdates.map StatusUpdate.onUsers) := by
  constructor
  · intro w hw v row
    simp only [checkLimitUpdates, List.map_cons, List.map_nil, List.mem_cons,
      List.not_mem_nil, or_false] at hw
    rcases hw with rfl | rfl | rfl | rfl | rfl | rfl | rfl | rfl | rfl | rfl <;> rfl
  · intro v v' row
    rfl

theorem rules_blind :
    Overwrite.Blind RuleStatus.setActive (checkLimitUpdates.map StatusUpdate.onRules) := by
  constructor
  · intro w hw v row
    simp only [checkLimitUpdates, List.map_cons, List.map_nil, List.mem_cons,
      List.not_mem_nil, or_false] at hw
    rcases hw with rfl | rfl | rfl | rfl | rfl | rfl | rfl | rfl | rfl | rfl <;> rfl
  · intro v v' row
    rfl

/-- However the conditions overlap, all that a user meets write its status. -/
theorem users_agree (row : UserStatus) :
    Overwrite.Agree (checkLimitUpdates.map StatusUpdate.onUsers) row row.active := by
  intro w hw hcond
  simp only [checkLimitUpdates, List.map_cons, List.map_nil, List.mem_cons,
    List.not_mem_nil, or_false] at hw
  rcases hw with rfl | rfl | rfl | rfl | rfl | rfl | rfl | rfl | rfl | rfl <;>
    simp [StatusUpdate.onUsers, UserStatus.active] at hcond ⊢ <;> grind

theorem rules_agree (rule : RuleStatus) :
    Overwrite.Agree (checkLimitUpdates.map StatusUpdate.onRules) rule rule.active := by
  intro w hw hcond
  simp only [checkLimitUpdates, List.map_cons, List.map_nil, List.mem_cons,
    List.not_mem_nil, or_false] at hw
  rcases hw with rfl | rfl | rfl | rfl | rfl | rfl | rfl | rfl | rfl | rfl <;>
    simp [StatusUpdate.onRules, RuleStatus.active] at hcond ⊢ <;> grind

/-- A user that meets no condition has its status already. -/
theorem user_untouched
    (h : ((checkLimitUpdates.map StatusUpdate.onUsers).any fun w => w.cond row) = false) :
    row.onActive = row.active := by
  simp [checkLimitUpdates, StatusUpdate.onUsers] at h
  rw [UserStatus.active]
  split_ifs with hlimited hbalance hblocked
  · grind
  · grind
  · grind
  · rfl

theorem rule_untouched
    (h : ((checkLimitUpdates.map StatusUpdate.onRules).any fun w => w.cond rule) = false) :
    rule.onActive = rule.active := by
  simp [checkLimitUpdates, StatusUpdate.onRules] at h
  rw [RuleStatus.active]
  grind

theorem user_checked (row : UserStatus) : Overwrite.run UserStatus.setActive
    (checkLimitUpdates.map StatusUpdate.onUsers) row = row.setActive row.active := by
  rw [Overwrite.run_eq users_blind (users_agree row)]
  split_ifs with hany
  · rfl
  · rw [← user_untouched (by simpa using hany)]
    rfl

theorem rule_checked (rule : RuleStatus) : Overwrite.run RuleStatus.setActive
    (checkLimitUpdates.map StatusUpdate.onRules) rule = rule.setActive rule.active := by
  rw [Overwrite.run_eq rules_blind (rules_agree rule)]
  split_ifs with hany
  · rfl
  · rw [← rule_untouched (by simpa using hany)]
    rfl

/-- Each update leaves a user as it was, or as it will be. -/
theorem user_on_the_way (row : UserStatus) : ∃ n, ∀ k ≤ 10,
    Overwrite.run UserStatus.setActive ((checkLimitUpdates.take k).map StatusUpdate.onUsers) row =
      row.setActive (if k < n then row.onActive else row.active) := by
  obtain ⟨n, hn⟩ := Overwrite.run_take users_blind (users_agree row)
  refine ⟨n, fun k hk => ?_⟩
  rw [List.map_take, hn k hk, user_checked]
  split_ifs <;> rfl

theorem rule_on_the_way (rule : RuleStatus) : ∃ n, ∀ k ≤ 10,
    Overwrite.run RuleStatus.setActive ((checkLimitUpdates.take k).map StatusUpdate.onRules) rule =
      rule.setActive (if k < n then rule.onActive else rule.active) := by
  obtain ⟨n, hn⟩ := Overwrite.run_take rules_blind (rules_agree rule)
  refine ⟨n, fun k hk => ?_⟩
  rw [List.map_take, hn k hk, rule_checked]
  split_ifs <;> rfl

end

/-- A pass gives every row its status, a second pass changes nothing, and in between every row
shows its old status until some update, and its new one from there on. -/
structure SettlesStatus (db : StatusTables) : Prop where
  settled : taskCheckLimit true true db =
    (⟨db.users.map fun row => row.setActive row.active,
      db.rules.map fun rule => rule.setActive rule.active⟩, true)
  again : taskCheckLimit true true (taskCheckLimit true true db).1 = taskCheckLimit true true db
  users : ∀ (i : Nat) (row : UserStatus), db.users[i]? = some row → ∃ n, ∀ k ≤ 10,
    (afterUpdates db k).users[i]? =
      some (row.setActive (if k < n then row.onActive else row.active))
  rules : ∀ (i : Nat) (rule : RuleStatus), db.rules[i]? = some rule → ∃ n, ∀ k ≤ 10,
    (afterUpdates db k).rules[i]? =
      some (rule.setActive (if k < n then rule.onActive else rule.active))

theorem taskCheckLimit_eq (db : StatusTables) : taskCheckLimit true true db =
    (⟨db.users.map fun row => row.setActive row.active,
      db.rules.map fun rule => rule.setActive rule.active⟩, true) := by
  have husers := foldl_users checkLimitUpdates db
  have hrules := foldl_rules checkLimitUpdates db
  rw [funext user_checked] at husers
  rw [funext rule_checked] at hrules
  change (checkLimitUpdates.foldl StatusUpdate.exec db, true) = _
  rw [← husers, ← hrules]

/-- A second pass writes what the first one wrote. -/
theorem foldl_again (db : StatusTables) :
    checkLimitUpdates.foldl StatusUpdate.exec (checkLimitUpdates.foldl StatusUpdate.exec db) =
      checkLimitUpdates.foldl StatusUpdate.exec db := by
  let once := checkLimitUpdates.foldl StatusUpdate.exec db
  have husers : (checkLimitUpdates.foldl StatusUpdate.exec once).users = once.users := by
    have hrow := funext fun row => Overwrite.run_run users_blind (users_agree row)
    rw [foldl_users, foldl_users, List.map_map]
    exact congrArg (List.map · db.users) hrow
  have hrules : (checkLimitUpdates.foldl StatusUpdate.exec once).rules = once.rules := by
    have hrule := funext fun rule => Overwrite.run_run rules_blind (rules_agree rule)
    rw [foldl_rules, foldl_rules, List.map_map]
    exact congrArg (List.map · db.rules) hrule
  exact congrArg₂ StatusTables.mk husers hrules

/-- task_check_limit settles every status, and without flicker. -/
theorem check_limit_settles (db : StatusTables) : SettlesStatus db where
  settled := taskCheckLimit_eq db
  again := congrArg (·, true) (foldl_again db)
  users := by
    intro i row hrow
    obtain ⟨n, hn⟩ := user_on_the_way row
    refine ⟨n, fun k hk => ?_⟩
    rw [afterUpdates, foldl_users, List.getElem?_map, hrow, Option.map_some, hn k hk]
  rules := by
    intro i rule hrule
    obtain ⟨n, hn⟩ := rule_on_the_way rule
    refine ⟨n, fun k hk => ?_⟩
    rw [afterUpdates, foldl_rules, List.getElem?_map, hrule, Option.map_some, hn k hk]

end IPStat
