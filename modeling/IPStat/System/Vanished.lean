import IPStat.Core.Steps
import IPStat.Lib.Reread
import IPStat.Limits.Sync
import IPStat.Policy.Lists

namespace IPStat

open Reread (Event Live readsNull)

/-- A listed row of Rules_GroupTraffic, with what insert_limit or update_limit reads again. -/
structure LimitVisit where
  id : IpId
  md5 : Md5
  query : Reread.Query LimitRecord

def LimitVisit.listing (rows : IpId → Bool) (e : LimitVisit) : LimitListing :=
  ⟨e.id, e.md5, ⟨e.query.opened, e.query.row (rows e.id)⟩⟩

def visitLimit (limits : List NodeGroupLimit) (rows : IpId → Bool) (e : LimitVisit) :
    Option (List NodeGroupLimit) :=
  syncLimitRow limits (e.listing rows)

/-- The listing loop of sync_limits while an administrator deletes limits. -/
def limitPass : Live IpId (List NodeGroupLimit) → Event IpId LimitVisit →
    Option (Live IpId (List NodeGroupLimit)) :=
  Reread.step visitLimit

/-- The row that a visit reads again, if any: that of a limit which is new or whose digest has
changed, where the store connects and answers. -/
def rereadLimit (limits : List NodeGroupLimit) (e : LimitVisit) : List IpId :=
  e.query.keys ((findLimit limits e.id).all (·.md5 ≠ e.md5)) e.id

section
variable {δ : Type}

/-- A listed row of a policy table, with what insert_policy_* or update_policy_* reads again. -/
structure PolicyVisit (δ : Type) where
  id : IpId
  md5 : Md5
  query : Reread.Query (PolicyRecord δ)
  queryNow : TimeT
  now : TimeT

def PolicyVisit.row (rows : IpId → Bool) (e : PolicyVisit δ) : PolicyRow δ :=
  ⟨e.id, e.md5, ⟨e.query.opened, e.query.row (rows e.id), e.queryNow⟩, e.now⟩

def visitPolicy (accepts : δ → Bool) (l : List (PolicyNode δ)) (rows : IpId → Bool)
    (e : PolicyVisit δ) : Option (List (PolicyNode δ)) :=
  syncPolicyRow accepts l (e.row rows)

/-- The listing loop of a policy list while an administrator deletes policies. -/
def policyPass (accepts : δ → Bool) : Live IpId (List (PolicyNode δ)) →
    Event IpId (PolicyVisit δ) → Option (Live IpId (List (PolicyNode δ))) :=
  Reread.step (visitPolicy accepts)

def rereadPolicy (l : List (PolicyNode δ)) (e : PolicyVisit δ) : List IpId :=
  e.query.keys ((policyFind l e.id).all (·.md5 ≠ e.md5)) e.id

end

/-- The walk of rules_sync_traffic over a user's rules, with the bytes committed. -/
structure RuleWalk where
  done : List NodeRule
  todo : List NodeRule
  committed : IpId → IpSize

/-- What rules_sync_traffic does with one rule. -/
def exportRule (env : ExportEnv) (rule : NodeRule) (c : IpId → IpSize) :
    Option (NodeRule × (IpId → IpSize)) :=
  if rule.traffic = 0 then some (rule, c)
  else
    let taken := { rule with traffic := rule.traffic - rule.traffic }
    match rulesMysqlExport env rule.noSum with
    | none => none
    | some false => some ({ taken with traffic := taken.traffic + rule.traffic }, c)
    | some true => some (taken, bump c rule.id rule.traffic)

/-- The rows behind an export: a rule and, joined to it, its type. -/
inductive RuleKey where
  | rule (id : IpId)
  | type (id : IpId)
  deriving DecidableEq

/-- A rule's export, with the id_type that its row has by then. -/
structure RuleVisit where
  env : ExportEnv
  idType : IpId

/-- The select finds the rule's row only if that is still there, and a Price only if the type's
is. -/
def RuleVisit.live (e : RuleVisit) (rows : RuleKey → Bool) (rule : NodeRule) : ExportEnv :=
  { e.env with rule := rows (.rule rule.id), price := rows (.type e.idType) }

/-- The export of the rule that the walk has come to. -/
def visitRule (s : RuleWalk) (rows : RuleKey → Bool) (e : RuleVisit) : Option RuleWalk :=
  match s.todo with
  | [] => some s
  | rule :: todo =>
    match exportRule (e.live rows rule) rule s.committed with
    | none => none
    | some (rule, c) => some ⟨s.done ++ [rule], todo, c⟩

/-- rules_sync_traffic while an administrator deletes rules and types. -/
def rulePass : Live RuleKey RuleWalk → Event RuleKey RuleVisit → Option (Live RuleKey RuleWalk) :=
  Reread.step visitRule

/-- The statements of rules_mysql_export up to its select succeed, and it makes one. -/
def ExportEnv.selects (e : ExportEnv) (noSum : Bool) : Bool :=
  e.autocommit && e.start && e.updateRules && !noSum && e.select

def rereadRule (s : RuleWalk) (e : RuleVisit) : List RuleKey :=
  match s.todo with
  | [] => []
  | rule :: _ =>
    if rule.traffic ≠ 0 ∧ e.env.selects rule.noSum then [.rule rule.id, .type e.idType] else []

section
variable {limits : List NodeGroupLimit}

theorem insertLimit_returns_iff (limits : List NodeGroupLimit) (query : LimitQuery) (id : IpId) :
    (∃ p, insertLimit query id limits = some p) ↔ ¬ readsNull query.opened query.row := by
  rw [insertLimit, readsNull]
  cases query.opened with
  | false => simp
  | true => rcases query.row with _ | _ | row <;> simp

theorem updateLimit_returns_iff (query : LimitQuery) {id : IpId} {node : NodeGroupLimit}
    (hfind : findLimit limits id = some node) :
    (∃ p, updateLimit query id limits = some p) ↔ ¬ readsNull query.opened query.row := by
  rw [updateLimit, hfind, readsNull]
  cases query.opened with
  | false => simp
  | true => rcases query.row with _ | _ | row <;> simp

/-- The body of the listing loop returns unless it has to read a row that is gone. -/
theorem syncLimitRow_returns_iff (row : LimitListing) :
    (∃ l, syncLimitRow limits row = some l) ↔
      ((findLimit limits row.id).all (·.md5 ≠ row.md5) = true →
        ¬ readsNull row.query.opened row.query.row) := by
  rw [syncLimitRow]
  cases hf : findLimit limits row.id with
  | none =>
    have hinsert := insertLimit_returns_iff limits row.query row.id
    simp only [Option.all_none, true_imp_iff, ← hinsert, ← Option.isSome_iff_exists,
      Option.isSome_map]
  | some node =>
    simp only [Option.all_some, decide_eq_true_eq]
    by_cases hmd5 : node.md5 = row.md5
    · rw [if_neg (not_not.mpr hmd5)]
      exact iff_of_true ⟨_, rfl⟩ fun hne => absurd hmd5 hne
    · let unmark (node : NodeGroupLimit) : NodeGroupLimit := { node with status := 0 }
      have hfind : findLimit (modifyLimit row.id unmark limits) row.id = some (unmark node) := by
        rw [findLimit_modifyLimit, hf, Option.map_some]
        intro node
        rfl
      have hupdate := updateLimit_returns_iff row.query hfind
      rw [if_pos hmd5]
      simp only [hmd5, ne_eq, not_false_eq_true, true_imp_iff, ← hupdate]
      rw [← Option.isSome_iff_exists, ← Option.isSome_iff_exists, Option.isSome_map]

theorem visitLimit_returns_iff (limits : List NodeGroupLimit) (rows : IpId → Bool)
    (e : LimitVisit) :
    (∃ l, visitLimit limits rows e = some l) ↔ ∀ id ∈ rereadLimit limits e, rows id = true := by
  rw [visitLimit, syncLimitRow_returns_iff, rereadLimit, Reread.Query.keys_found_iff]
  rfl

end

section
variable {δ : Type} {accepts : δ → Bool}

theorem insertPolicy_returns_iff {query : PolicyQuery δ} {id : IpId} {l : List (PolicyNode δ)} :
    (∃ l', insertPolicy accepts query id l = some l') ↔ ¬ readsNull query.opened query.row := by
  rw [insertPolicy, readsNull]
  cases query.opened with
  | false => simp
  | true =>
    rcases query.row with _ | _ | row
    · simp
    · simp
    · by_cases h : accepts row.data = true
      · simp [h]
      · simp [h]

theorem updatePolicy_returns_iff (query : PolicyQuery δ) (node : PolicyNode δ) :
    (∃ node', updatePolicy query node = some node') ↔ ¬ readsNull query.opened query.row := by
  rw [updatePolicy, readsNull]
  cases query.opened with
  | false => simp
  | true => rcases query.row with _ | _ | row <;> simp

theorem syncPolicyRow_returns_iff (l : List (PolicyNode δ)) (row : PolicyRow δ) :
    (∃ l', syncPolicyRow accepts l row = some l') ↔
      ((policyFind l row.id).all (·.md5 ≠ row.md5) = true →
        ¬ readsNull row.query.opened row.query.row) := by
  rw [syncPolicyRow]
  cases policyFind l row.id with
  | none =>
    simp only [Option.all_none, true_imp_iff]
    exact insertPolicy_returns_iff
  | some node =>
    simp only [Option.all_some, decide_eq_true_eq]
    by_cases hmd5 : node.md5 = row.md5
    · rw [if_neg (not_not.mpr hmd5)]
      exact iff_of_true ⟨_, rfl⟩ fun hne => absurd hmd5 hne
    · have hupdate := updatePolicy_returns_iff row.query node
      rw [if_pos hmd5]
      simp only [hmd5, ne_eq, not_false_eq_true, true_imp_iff, ← hupdate]
      cases updatePolicy row.query node with
      | none => simp
      | some node' => simp

theorem visitPolicy_returns_iff (l : List (PolicyNode δ)) (rows : IpId → Bool)
    (e : PolicyVisit δ) :
    (∃ l', visitPolicy accepts l rows e = some l') ↔
      ∀ id ∈ rereadPolicy l e, rows id = true := by
  rw [visitPolicy, syncPolicyRow_returns_iff, rereadPolicy, Reread.Query.keys_found_iff]
  rfl

end

/-- rules_mysql_export returns unless its select is made and finds no row with a Price. -/
theorem rulesMysqlExport_returns_iff (env : ExportEnv) (noSum : Bool) :
    (∃ ok, rulesMysqlExport env noSum = some ok) ↔ (env.selects noSum = true → env.row = true) := by
  obtain ⟨autocommit, start, updateRules, select, rule, price, updateUsers, commit⟩ := env
  rw [rulesMysqlExport, ExportEnv.selects, ExportEnv.row]
  cases autocommit with
  | false => simp
  | true =>
    cases start with
    | false => simp
    | true =>
      cases updateRules with
      | false => simp
      | true =>
        cases noSum with
        | true => simp
        | false => cases select <;> cases rule <;> cases price <;> cases updateUsers <;> simp

theorem exportRule_returns_iff (env : ExportEnv) (rule : NodeRule) (c : IpId → IpSize) :
    (∃ p, exportRule env rule c = some p) ↔
      (rule.traffic ≠ 0 → env.selects rule.noSum = true → env.row = true) := by
  rw [exportRule]
  by_cases h0 : rule.traffic = 0
  · rw [if_pos h0]
    exact iff_of_true ⟨_, rfl⟩ fun hne => absurd h0 hne
  · have hexport := rulesMysqlExport_returns_iff env rule.noSum
    rw [if_neg h0]
    simp only [h0, ne_eq, not_false_eq_true, true_imp_iff, ← hexport]
    rcases rulesMysqlExport env rule.noSum with _ | _ | _ <;> simp

theorem visitRule_returns_iff (s : RuleWalk) (rows : RuleKey → Bool) (e : RuleVisit) :
    (∃ s', visitRule s rows e = some s') ↔ ∀ k ∈ rereadRule s e, rows k = true := by
  rw [visitRule, rereadRule]
  cases s.todo with
  | nil => simp
  | cons rule todo =>
    have hexport : (∃ p, exportRule (e.live rows rule) rule s.committed = some p) ↔
        (rule.traffic ≠ 0 → e.env.selects rule.noSum = true → (e.live rows rule).row = true) :=
      exportRule_returns_iff _ rule s.committed
    have hreturns : (∃ s', (match exportRule (e.live rows rule) rule s.committed with
          | none => none
          | some (rule, c) => some (⟨s.done ++ [rule], todo, c⟩ : RuleWalk)) = some s') ↔
        ∃ p, exportRule (e.live rows rule) rule s.committed = some p := by
      cases exportRule (e.live rows rule) rule s.committed with
      | none => simp
      | some p => simp
    have hrow : (e.live rows rule).row = true ↔
        ∀ k ∈ [RuleKey.rule rule.id, .type e.idType], rows k = true := by
      simp [ExportEnv.row, RuleVisit.live]
    rw [hreturns, hexport, hrow]
    dsimp only
    split_ifs with h
    · exact ⟨fun himp => himp h.1 h.2, fun hrow _ _ => hrow⟩
    · simp only [List.not_mem_nil, false_imp_iff, implies_true, iff_true]
      exact fun h0 hselect => absurd ⟨h0, hselect⟩ h

/-- The loop of rules_sync_traffic takes one rule after the other. -/
theorem exportRules_eq (exports : Nat → ExportEnv) (j : Nat) (rule : NodeRule) (rs : List NodeRule)
    (c : IpId → IpSize) :
    exportRules exports j (rule :: rs) c = (exportRule (exports j) rule c).bind fun p =>
      (exportRules exports (j + 1) rs p.2).map fun q => (p.1 :: q.1, q.2) := by
  rw [exportRules, exportRule]
  split_ifs
  · rw [Option.bind_some]
    cases exportRules exports (j + 1) rs c <;> rfl
  · rcases rulesMysqlExport (exports j) rule.noSum with _ | _ | _
    · rfl
    · simp only [Option.bind_some]
      cases exportRules exports (j + 1) rs c <;> rfl
    · simp only [Option.bind_some]
      cases exportRules exports (j + 1) rs (bump c rule.id rule.traffic) <;> rfl

/-- A walk in which nothing is deleted is the loop of rules_sync_traffic. -/
theorem exec_visitRule {visits : Nat → RuleVisit} {j : Nat} {s : RuleWalk} {rows : RuleKey → Bool}
    {exports : Nat → ExportEnv}
    (hexports : ∀ i rule, s.todo[i]? = some rule →
      exports (j + i) = (visits (j + i)).live rows rule) :
    Run.exec rulePass ⟨s, rows⟩ ((List.range' j s.todo.length).map fun i => .visit (visits i)) =
      (exportRules exports j s.todo s.committed).map fun p => ⟨⟨s.done ++ p.1, [], p.2⟩, rows⟩ := by
  obtain ⟨done, todo, c⟩ := s
  dsimp only at hexports ⊢
  induction todo generalizing j done c with
  | nil => simp [exportRules]
  | cons rule todo ih =>
    have hhead : exports j = (visits j).live rows rule := hexports 0 rule rfl
    have htail : ∀ i rule, todo[i]? = some rule →
        exports (j + 1 + i) = (visits (j + 1 + i)).live rows rule := by
      intro i rule hi
      have hnext := hexports (i + 1) rule hi
      rwa [← Nat.add_assoc, Nat.add_right_comm] at hnext
    rw [exportRules_eq, hhead, List.length_cons, List.range'_succ, List.map_cons]
    cases he : exportRule ((visits j).live rows rule) rule c with
    | none => simp [Run.exec, rulePass, Reread.step, visitRule, he]
    | some p =>
      have hvisit : rulePass ⟨⟨done, rule :: todo, c⟩, rows⟩ (.visit (visits j)) =
          some ⟨⟨done ++ [p.1], todo, p.2⟩, rows⟩ := by
        simp [rulePass, Reread.step, visitRule, he]
      rw [Run.exec_cons _ _ hvisit, ih (done ++ [p.1]) p.2 htail, Option.bind_some, Option.map_map]
      simp only [Function.comp_def, List.append_assoc, List.singleton_append]

/-- Each pass returns exactly when every row that it reads again is still there at that moment, the
type behind a rule included; on a row that was deleted before it reads through the NULL that
fetch_row gives, and behind a deleted type through the NULL that is the Price. -/
theorem passes_return_iff {δ : Type} (accepts : δ → Bool) (limits : List NodeGroupLimit)
    (l : List (PolicyNode δ)) (s : RuleWalk) (rows : IpId → Bool) (ruleRows : RuleKey → Bool)
    (limitEvents : List (Event IpId LimitVisit)) (policyEvents : List (Event IpId (PolicyVisit δ)))
    (ruleEvents : List (Event RuleKey RuleVisit)) :
    ((∃ u, Run.exec limitPass ⟨limits, rows⟩ limitEvents = some u) ↔
      Run.Guarded limitPass (Reread.Found rereadLimit) ⟨limits, rows⟩ limitEvents) ∧
    ((∃ u, Run.exec (policyPass accepts) ⟨l, rows⟩ policyEvents = some u) ↔
      Run.Guarded (policyPass accepts) (Reread.Found rereadPolicy) ⟨l, rows⟩ policyEvents) ∧
    ((∃ u, Run.exec rulePass ⟨s, ruleRows⟩ ruleEvents = some u) ↔
      Run.Guarded rulePass (Reread.Found rereadRule) ⟨s, ruleRows⟩ ruleEvents) := by
  refine ⟨?_, ?_, ?_⟩
  · exact Reread.exec_returns_iff visitLimit_returns_iff ⟨limits, rows⟩ limitEvents
  · exact Reread.exec_returns_iff visitPolicy_returns_iff ⟨l, rows⟩ policyEvents
  · exact Reread.exec_returns_iff visitRule_returns_iff ⟨s, ruleRows⟩ ruleEvents

/-- A cached rule of user 7 with bytes that no export has carried yet. -/
def pendingRule : NodeRule :=
  ⟨12, 1, 4, .traffic, trafficIn, protoAll, 0, 0, 0, 0, 1, 1500, 0, 1000⟩

/-- The export of a rule of type 1, with every statement taken. -/
def takenVisit : RuleVisit := ⟨⟨true, true, true, true, true, true, true, true⟩, 1⟩

/-- An administrator deletes the row of the rule, or of its type, before its bytes are exported, or
the row of a limit between the listing and the insert. -/
theorem passes_read_null :
    Run.exec rulePass ⟨⟨[], [pendingRule], fun _ => 0⟩, fun _ => true⟩
        [.delete (.rule 12), .visit takenVisit] = none ∧
      Run.exec rulePass ⟨⟨[], [pendingRule], fun _ => 0⟩, fun _ => true⟩
        [.delete (.type 1), .visit takenVisit] = none ∧
      Run.exec limitPass ⟨[], fun _ => true⟩
        [.delete 3, .visit ⟨3, 9, ⟨true, true, ⟨8, 4, 1, 1000, 200, 0, 9⟩⟩⟩] = none :=
  ⟨rfl, rfl, rfl⟩

end IPStat
