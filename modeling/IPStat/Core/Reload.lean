import IPStat.Core.Convergence

namespace IPStat

/-- The rows that the database holds for a user while it is reloaded. -/
structure ReloadRows where
  user : List UsersRecord
  rules : List RulesRecord

/-- Which calls of a users_mysql_update succeed: its own open and query, those of
rules_mysql_unload, and those of rules_mysql_load. -/
structure ReloadCalls where
  opened : Bool
  unload : RulesTrafficEnv
  queried : Bool
  loadOpened : Bool
  loadQueried : Bool

def ReloadCalls.env (calls : ReloadCalls) (rows : ReloadRows) : UpdateEnv where
  opened := calls.opened
  unload := calls.unload
  rows := if calls.queried then some rows.user else none
  load := ⟨calls.loadOpened, if calls.loadQueried then some rows.rules else none⟩

def ReloadCalls.loads (calls : ReloadCalls) : Bool := calls.loadOpened && calls.loadQueried

/-- The columns of a rule, without what the daemon keeps beside them. -/
def NodeRule.columns (rule : NodeRule) : NodeRule := { rule with traffic := 0, timeLive := 0 }

def NodeUser.ruleColumns (node : NodeUser) : List NodeRule := node.idRules.map NodeRule.columns

/-- What a user with these columns has after a reload. -/
def ReloadRows.record (rows : ReloadRows) (old : UsersRecord) : UsersRecord :=
  rows.user.foldl UsersRecord.over old

def ReloadRows.ruleColumns (rows : ReloadRows) : List NodeRule := rows.rules.map RulesRecord.node

/-- All the old columns and rules, or all the new ones. -/
def ReloadWhole (rows : ReloadRows) (node node' : NodeUser) : Prop :=
  node'.record = node.record ∧ node'.ruleColumns = node.ruleColumns ∨
    node'.record = rows.record node.record ∧ node'.ruleColumns = rows.ruleColumns

/-- Where the failing calls leave nothing halfway: what the steps before them changed was to be
changed so, or there was nothing to change. -/
def ReloadUncut (rows : ReloadRows) (calls : ReloadCalls) (node : NodeUser) : Prop :=
  if calls.opened = false then True
  else if calls.unload.opened = false then
    calls.queried = false ∨ rows.record node.record = node.record ∨
      node.ruleColumns = rows.ruleColumns ∨ node.idRules = [] ∧ calls.loads = true
  else if calls.queried = false then
    node.idRules = [] ∨ rows.record node.record = node.record ∧ rows.rules = []
  else
    calls.loads = true ∨ rows.rules = [] ∨
      rows.record node.record = node.record ∧ node.idRules = []

section
variable {rows : ReloadRows} {calls : ReloadCalls} {node node' : NodeUser} {c c' : IpId → IpSize}

/-- rules_mysql_load fills an empty list where its calls succeed, and leaves any other. -/
theorem rulesMysqlLoad_calls (calls : ReloadCalls) (rows : ReloadRows) (rules : List NodeRule) :
    rulesMysqlLoad (calls.env rows).load rules =
      if rules = [] ∧ calls.loads = true then rows.ruleColumns else rules := by
  rw [rulesMysqlLoad, ReloadCalls.loads]
  by_cases hnil : rules = []
  · subst hnil
    cases ho : calls.loadOpened with
    | false => simp [ReloadCalls.env, ho]
    | true =>
      cases hq : calls.loadQueried with
      | false => simp [ReloadCalls.env, ho, hq]
      | true => simp [ReloadCalls.env, ho, hq, ReloadRows.ruleColumns]
  · simp [hnil]

/-- The rules that a reload leaves. -/
theorem updateNode_rules (h : updateNode (calls.env rows) node c = some (node', c')) :
    node'.idRules =
      if calls.opened = false then node.idRules
      else
        let kept := if calls.unload.opened then [] else node.idRules
        if calls.queried = false then kept
        else if kept = [] ∧ calls.loads = true then rows.ruleColumns else kept := by
  have hopened : (calls.env rows).opened = calls.opened := rfl
  have hunload : (calls.env rows).unload = calls.unload := rfl
  have hrows : (calls.env rows).rows = if calls.queried then some rows.user else none := rfl
  rw [updateNode, hopened, hunload, hrows] at h
  cases ho : calls.opened with
  | false =>
    simp only [ho, Bool.false_eq_true, if_false, Option.some.injEq, Prod.mk.injEq] at h
    rw [if_pos rfl, h.1]
  | true =>
    simp only [ho, if_true] at h
    rw [if_neg (by simp)]
    cases hu : rulesMysqlUnload calls.unload node.idRules c with
    | none => simp [hu] at h
    | some q =>
      have hkept : q.1 = if calls.unload.opened then [] else node.idRules := by
        obtain ⟨hclosed, hsame, -⟩ | ⟨hopen, hnil, -⟩ := rulesMysqlUnload_cases hu
        · rw [hclosed]
          exact hsame
        · rw [hopen]
          exact hnil
      simp only [hu] at h
      cases hq : calls.queried with
      | false =>
        simp only [hq, Bool.false_eq_true, if_false] at h
        cases h
        exact hkept
      | true =>
        simp only [hq, if_true] at h
        cases h
        obtain ⟨-, -, hrules⟩ := copies_frame rows.user { node with idRules := q.1 }
        dsimp only
        rw [hrules, rulesMysqlLoad_calls, ← hkept]
        simp

/-- The columns that a reload leaves. -/
theorem updateNode_columns (h : updateNode (calls.env rows) node c = some (node', c')) :
    node'.record =
      if calls.opened = true ∧ calls.queried = true then rows.record node.record
      else node.record := by
  rw [updateNode_record h, UpdateEnv.outcome]
  change (if calls.opened = true then
    ((if calls.queried then some rows.user else none).getD []).foldl _ _ else _) = _
  cases calls.opened with
  | false => rfl
  | true =>
    cases calls.queried with
    | false => rfl
    | true => rfl

theorem ruleColumns_nil_iff (node : NodeUser) : node.ruleColumns = [] ↔ node.idRules = [] :=
  List.map_eq_nil_iff

theorem loaded_columns (rows : ReloadRows) :
    rows.ruleColumns.map NodeRule.columns = rows.ruleColumns := by
  rw [ReloadRows.ruleColumns, List.map_map]
  rfl

/-- A reload leaves its user whole exactly where no failing call cuts it in two. -/
theorem users_mysql_update_whole_iff (h : updateNode (calls.env rows) node c = some (node', c')) :
    ReloadWhole rows node node' ↔ ReloadUncut rows calls node := by
  have hrules := congrArg (List.map NodeRule.columns) (updateNode_rules h)
  have hcolumns := updateNode_columns h
  change node'.ruleColumns = _ at hrules
  have hnil : [] = node.ruleColumns ↔ node.idRules = [] := eq_comm.trans (ruleColumns_nil_iff node)
  have hnone : [] = rows.ruleColumns ↔ rows.rules = [] := eq_comm.trans List.map_eq_nil_iff
  rw [ReloadWhole, ReloadUncut]
  cases ho : calls.opened with
  | false =>
    simp only [ho, if_true] at hrules
    simp only [ho, Bool.false_eq_true, false_and, if_false] at hcolumns
    exact iff_of_true (.inl ⟨hcolumns, hrules⟩) trivial
  | true =>
    simp only [ho, Bool.true_eq_false, if_false] at hrules ⊢
    cases hq : calls.queried with
    | false =>
      simp only [hq, Bool.false_eq_true, and_false, if_false] at hcolumns
      simp only [hq, if_true] at hrules ⊢
      rw [hcolumns, hrules]
      cases calls.unload.opened with
      | false =>
        simp only [Bool.false_eq_true, if_false, if_true]
        exact iff_of_true (.inl ⟨trivial, rfl⟩) (.inl trivial)
      | true =>
        simp only [if_true, Bool.true_eq_false, if_false, List.map_nil, hnil, hnone, true_and]
        rw [eq_comm (a := node.record)]
    | true =>
      simp only [ho, hq, and_self, if_true] at hcolumns
      simp only [hq, Bool.true_eq_false, if_false] at hrules ⊢
      rw [hcolumns, hrules]
      cases calls.unload.opened with
      | false =>
        simp only [Bool.false_eq_true, if_false, if_true, false_or]
        split_ifs with hload
        · rw [loaded_columns]
          exact iff_of_true (.inr ⟨trivial, rfl⟩) (.inr (.inr hload))
        · change (_ ∧ node.ruleColumns = node.ruleColumns ∨ _ ∧ node.ruleColumns = _) ↔ _
          simp only [and_true, true_and, hload, or_false]
      | true =>
        simp only [if_true, true_and, Bool.true_eq_false, if_false]
        split_ifs with hload
        · rw [loaded_columns]
          exact iff_of_true (.inr rfl) (.inl hload)
        · simp only [List.map_nil, hnil, hnone, hload, Bool.false_eq_true, false_or]
          exact or_comm

end

/-- A user that the database holds unchanged, with one rule. -/
def reloadedRecord : UsersRecord := ⟨16777226, [], 1, 3, 5⟩

def reloadedRule : RulesRecord where
  id := 11
  direct := 1
  proto := 6
  net := 0
  mask := 0
  ports := 80
  action := 0
  status := 1
  idType := 2
  idGroup := 3
  md5 := 9

def reloadedRows : ReloadRows := ⟨[reloadedRecord], [reloadedRule]⟩

def reloadedUser : NodeUser where
  id := 7
  idGroup := 3
  addr := 16777226
  mac := []
  traffic := 0
  idRules := [reloadedRule.node]
  md5 := 5
  status := 1
  timeLive := 1000

/-- The unload succeeds, and then the select from Users answers as given. -/
def reloadCalls (queried : Bool) : ReloadCalls where
  opened := true
  unload := ⟨true, fun _ => ⟨true, true, true, true, true, true, true, true⟩⟩
  queried := queried
  loadOpened := true
  loadQueried := true

theorem users_mysql_update_whole_loaded :
    ∃ node' c', updateNode ((reloadCalls true).env reloadedRows) reloadedUser (fun _ => 0) =
        some (node', c') ∧
      (ReloadWhole reloadedRows reloadedUser node' ↔
        ReloadUncut reloadedRows (reloadCalls true) reloadedUser) := by
  have hrun : updateNode ((reloadCalls true).env reloadedRows) reloadedUser (fun _ => 0) =
      some (reloadedUser, fun _ => 0) := rfl
  exact ⟨_, _, hrun, users_mysql_update_whole_iff hrun⟩

/-- The rules are gone before the query that fails, and are not loaded again. -/
theorem users_mysql_update_drops_rules :
    ∃ node' c', updateNode ((reloadCalls false).env reloadedRows) reloadedUser (fun _ => 0) =
        some (node', c') ∧
      node'.idRules = [] ∧ ¬ReloadWhole reloadedRows reloadedUser node' := by
  refine ⟨_, _, rfl, rfl, ?_⟩
  intro hwhole
  obtain ⟨-, hold⟩ | ⟨-, hnew⟩ := hwhole
  · cases hold
  · cases hnew

end IPStat
