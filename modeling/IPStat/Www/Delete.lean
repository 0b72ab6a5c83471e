import IPStat.Lib.Refs

namespace IPStat

open Refs

/-- The value of an id column. -/
abbrev DbId := Nat

structure UsersKey where
  id : DbId
  idGroup : DbId
  deriving DecidableEq, Repr

structure TypeTrafficKey where
  id : DbId
  idGroup : DbId
  deriving DecidableEq, Repr

structure RulesKey where
  idUser : DbId
  idType : DbId
  deriving DecidableEq, Repr

structure RulesGroupTrafficKey where
  idUser : DbId
  idGroup : DbId
  deriving DecidableEq, Repr

/-- A row of Policy_Time_Users, _GroupUsers, _TypeTraffic or _GroupTraffic or of
Policy_URL_Users: what the policy is for, in the column each table calls differently. -/
structure PolicyKey where
  subject : DbId
  idPolicy : DbId
  deriving DecidableEq, Repr

/-- The key columns of the tables; ids of Users and Type_Traffic are primary keys. -/
structure Db where
  users : List UsersKey
  groupUsers : List DbId
  typeTraffic : List TypeTrafficKey
  groupTraffic : List DbId
  rules : List RulesKey
  rulesGroupTraffic : List RulesGroupTrafficKey
  rulesUsersGroup : List DbId
  policyTime : List DbId
  policyTimeUsers : List PolicyKey
  policyTimeGroupUsers : List PolicyKey
  policyTimeTypeTraffic : List PolicyKey
  policyTimeGroupTraffic : List PolicyKey
  policyTimeDef : List DbId
  policyUrlUsers : List PolicyKey
  usersPrimary : (users.map UsersKey.id).Nodup
  typesPrimary : (typeTraffic.map TypeTrafficKey.id).Nodup

def Db.deleteUsers (db : Db) (keep : UsersKey → Bool) : Db :=
  { db with
    users := db.users.filter keep
    usersPrimary := nodup_map_filter db.usersPrimary keep }

def Db.deleteTypes (db : Db) (keep : TypeTrafficKey → Bool) : Db :=
  { db with
    typeTraffic := db.typeTraffic.filter keep
    typesPrimary := nodup_map_filter db.typesPrimary keep }

/-- The three deletes that processingDelUser and the loop of processingDelGroup make. -/
def Db.deleteOfUser (db : Db) (userID : DbId) : Db :=
  { db with
    rules := db.rules.filter fun r => r.idUser ≠ userID
    policyTimeUsers := db.policyTimeUsers.filter fun r => r.subject ≠ userID
    policyUrlUsers := db.policyUrlUsers.filter fun r => r.subject ≠ userID }

def processingDelUser (db : Db) (userID : DbId) : Db :=
  (db.deleteOfUser userID).deleteUsers fun u => u.id ≠ userID

/-- processingDelGroup of class.users.php. -/
def usersDelGroup (db : Db) (groupID : DbId) : Db :=
  let ids := (db.users.filter fun u => u.idGroup = groupID).map UsersKey.id
  let db := ids.foldl Db.deleteOfUser db
  let db := { db with
    policyTimeGroupUsers := db.policyTimeGroupUsers.filter fun r => r.subject ≠ groupID }
  let db := db.deleteUsers fun u => u.idGroup ≠ groupID
  { db with groupUsers := db.groupUsers.filter fun id => id ≠ groupID }

def Db.deleteOfType (db : Db) (trafficID : DbId) : Db :=
  { db with
    policyTimeTypeTraffic := db.policyTimeTypeTraffic.filter fun r => r.subject ≠ trafficID }

/-- processingDelGroup of class.traffic.php. -/
def trafficDelGroup (db : Db) (groupID : DbId) : Db :=
  let ids := (db.typeTraffic.filter fun t => t.idGroup = groupID).map TypeTrafficKey.id
  let db := ids.foldl Db.deleteOfType db
  let db := db.deleteTypes fun t => t.idGroup ≠ groupID
  { db with
    policyTimeGroupTraffic := db.policyTimeGroupTraffic.filter fun r => r.subject ≠ groupID
    groupTraffic := db.groupTraffic.filter fun id => id ≠ groupID }

def processingDelTraffic (db : Db) (trafficID : DbId) : Db :=
  (db.deleteOfType trafficID).deleteTypes fun t => t.id ≠ trafficID

def processingDelPolicy (db : Db) (policyID : DbId) : Db :=
  { db with
    policyTimeUsers := db.policyTimeUsers.filter fun r => r.idPolicy ≠ policyID
    policyTimeDef := db.policyTimeDef.filter fun id => id ≠ policyID
    policyTime := db.policyTime.filter fun id => id ≠ policyID }

inductive DeleteOp where
  | user (userID : DbId)
  | usersGroup (groupID : DbId)
  | trafficGroup (groupID : DbId)
  | traffic (trafficID : DbId)
  | policy (policyID : DbId)

def Db.handle (db : Db) : DeleteOp → Db
  | .user userID => processingDelUser db userID
  | .usersGroup groupID => usersDelGroup db groupID
  | .trafficGroup groupID => trafficDelGroup db groupID
  | .traffic trafficID => processingDelTraffic db trafficID
  | .policy policyID => processingDelPolicy db policyID

/-- Every reference names a row. -/
structure Db.Consistent (db : Db) : Prop where
  rulesUser : Refers db.rules RulesKey.idUser db.users UsersKey.id
  limitsUser : Refers db.rulesGroupTraffic RulesGroupTrafficKey.idUser db.users UsersKey.id
  timeUser : Refers db.policyTimeUsers PolicyKey.subject db.users UsersKey.id
  urlUser : Refers db.policyUrlUsers PolicyKey.subject db.users UsersKey.id
  rulesType : Refers db.rules RulesKey.idType db.typeTraffic TypeTrafficKey.id
  usersGroup : Refers db.rulesUsersGroup id db.groupUsers id
  timeUsers : Refers db.policyTimeUsers PolicyKey.idPolicy db.policyTime id
  timeGroupUsers : Refers db.policyTimeGroupUsers PolicyKey.idPolicy db.policyTime id
  timeTypes : Refers db.policyTimeTypeTraffic PolicyKey.idPolicy db.policyTime id
  timeGroups : Refers db.policyTimeGroupTraffic PolicyKey.idPolicy db.policyTime id
  timeDef : Refers db.policyTimeDef id db.policyTime id

/-- No row of a relation that its handler forgets names what it deletes. -/
def Unreferenced (db : Db) : DeleteOp → Prop
  | .user userID => ∀ r ∈ db.rulesGroupTraffic, r.idUser ≠ userID
  | .usersGroup groupID =>
    (∀ r ∈ db.rulesGroupTraffic, ∀ u ∈ db.users, u.id = r.idUser → u.idGroup ≠ groupID) ∧
      ∀ id ∈ db.rulesUsersGroup, id ≠ groupID
  | .trafficGroup groupID =>
    ∀ r ∈ db.rules, ∀ t ∈ db.typeTraffic, t.id = r.idType → t.idGroup ≠ groupID
  | .traffic trafficID => ∀ r ∈ db.rules, r.idType ≠ trafficID
  | .policy policyID => (∀ r ∈ db.policyTimeGroupUsers, r.idPolicy ≠ policyID) ∧
      (∀ r ∈ db.policyTimeTypeTraffic, r.idPolicy ≠ policyID) ∧
      ∀ r ∈ db.policyTimeGroupTraffic, r.idPolicy ≠ policyID

section
variable {db : Db}

theorem filter_filter_cons {α : Type} (rows : List α) (col : α → DbId) (k : DbId)
    (ids : List DbId) : (rows.filter fun r => col r ≠ k).filter (fun r => decide (col r ∉ ids)) =
      rows.filter fun r => decide (col r ∉ k :: ids) := by
  rw [List.filter_filter]
  apply List.filter_congr
  intro r hr
  simp [List.mem_cons, not_or, Bool.and_comm]

/-- The loop over a group's users deletes what names any of them. -/
theorem foldl_deleteOfUser (ids : List DbId) (db : Db) : ids.foldl Db.deleteOfUser db =
    { db with
      rules := db.rules.filter fun r => decide (r.idUser ∉ ids)
      policyTimeUsers := db.policyTimeUsers.filter fun r => decide (r.subject ∉ ids)
      policyUrlUsers := db.policyUrlUsers.filter fun r => decide (r.subject ∉ ids) } := by
  induction ids generalizing db with
  | nil => simp
  | cons k ids ih =>
    rw [List.foldl_cons, ih]
    simp only [Db.deleteOfUser, filter_filter_cons]

theorem foldl_deleteOfType (ids : List DbId) (db : Db) : ids.foldl Db.deleteOfType db =
    { db with
      policyTimeTypeTraffic := db.policyTimeTypeTraffic.filter fun r =>
        decide (r.subject ∉ ids) } := by
  induction ids generalizing db with
  | nil => simp
  | cons k ids ih =>
    rw [List.foldl_cons, ih]
    simp only [Db.deleteOfType, filter_filter_cons]

theorem delUser_consistent_iff (h : db.Consistent) (userID : DbId) :
    (processingDelUser db userID).Consistent ↔ Unreferenced db (.user userID) := by
  have hlimits := refers_delete_iff h.limitsUser userID
  constructor
  · intro h'
    exact hlimits.mp h'.limitsUser
  · intro hun
    have hgone {α : Type} {rows : List α} {col : α → DbId}
        (href : Refers rows col db.users UsersKey.id) :
        Refers (rows.filter fun r => col r ≠ userID) col
          (db.users.filter fun u => u.id ≠ userID) UsersKey.id := by
      apply (refers_delete_iff (href.filter _) userID).mpr
      intro r hr
      exact of_decide_eq_true (List.mem_filter.mp hr).2
    exact {
      rulesUser := hgone h.rulesUser
      limitsUser := hlimits.mpr hun
      timeUser := hgone h.timeUser
      urlUser := hgone h.urlUser
      rulesType := h.rulesType.filter _
      usersGroup := h.usersGroup
      timeUsers := h.timeUsers.filter _
      timeGroupUsers := h.timeGroupUsers
      timeTypes := h.timeTypes
      timeGroups := h.timeGroups
      timeDef := h.timeDef }

theorem usersDelGroup_consistent_iff (h : db.Consistent) (groupID : DbId) :
    (usersDelGroup db groupID).Consistent ↔ Unreferenced db (.usersGroup groupID) := by
  have hlimits : Refers db.rulesGroupTraffic RulesGroupTrafficKey.idUser
      (db.users.filter fun u => u.idGroup ≠ groupID) UsersKey.id ↔
      ∀ r ∈ db.rulesGroupTraffic, ∀ u ∈ db.users, u.id = r.idUser → u.idGroup ≠ groupID := by
    rw [refers_filter_iff h.limitsUser db.usersPrimary]
    simp only [decide_eq_true_eq]
  have hgroups := refers_delete_iff h.usersGroup groupID
  unfold usersDelGroup
  simp only [foldl_deleteOfUser]
  constructor
  · intro h'
    exact ⟨hlimits.mp h'.limitsUser, hgroups.mp h'.usersGroup⟩
  · intro hun
    have hgone {α : Type} {rows : List α} {col : α → DbId}
        (href : Refers rows col db.users UsersKey.id) :
        Refers (rows.filter fun r => decide
            (col r ∉ (db.users.filter fun u => u.idGroup = groupID).map UsersKey.id))
          col (db.users.filter fun u => u.idGroup ≠ groupID) UsersKey.id := by
      apply href.cascade List.filter_sublist.subset
      intro r hr u hu hk
      have hout := of_decide_eq_true (List.mem_filter.mp hr).2
      apply decide_eq_true
      intro hgroup
      apply hout
      rw [← hk]
      exact List.mem_map_of_mem (List.mem_filter.mpr ⟨hu, decide_eq_true hgroup⟩)
    exact {
      rulesUser := hgone h.rulesUser
      limitsUser := hlimits.mpr hun.1
      timeUser := hgone h.timeUser
      urlUser := hgone h.urlUser
      rulesType := h.rulesType.filter _
      usersGroup := hgroups.mpr hun.2
      timeUsers := h.timeUsers.filter _
      timeGroupUsers := h.timeGroupUsers.filter _
      timeTypes := h.timeTypes
      timeGroups := h.timeGroups
      timeDef := h.timeDef }

theorem trafficDelGroup_consistent_iff (h : db.Consistent) (groupID : DbId) :
    (trafficDelGroup db groupID).Consistent ↔ Unreferenced db (.trafficGroup groupID) := by
  have htypes : Refers db.rules RulesKey.idType
      (db.typeTraffic.filter fun t => t.idGroup ≠ groupID) TypeTrafficKey.id ↔
      ∀ r ∈ db.rules, ∀ t ∈ db.typeTraffic, t.id = r.idType → t.idGroup ≠ groupID := by
    rw [refers_filter_iff h.rulesType db.typesPrimary]
    simp only [decide_eq_true_eq]
  unfold trafficDelGroup
  simp only [foldl_deleteOfType]
  constructor
  · intro h'
    exact htypes.mp h'.rulesType
  · intro hun
    exact {
      rulesUser := h.rulesUser
      limitsUser := h.limitsUser
      timeUser := h.timeUser
      urlUser := h.urlUser
      rulesType := htypes.mpr hun
      usersGroup := h.usersGroup
      timeUsers := h.timeUsers
      timeGroupUsers := h.timeGroupUsers
      timeTypes := h.timeTypes.filter _
      timeGroups := h.timeGroups.filter _
      timeDef := h.timeDef }

theorem delTraffic_consistent_iff (h : db.Consistent) (trafficID : DbId) :
    (processingDelTraffic db trafficID).Consistent ↔ Unreferenced db (.traffic trafficID) := by
  have htypes := refers_delete_iff h.rulesType trafficID
  constructor
  · intro h'
    exact htypes.mp h'.rulesType
  · intro hun
    exact {
      rulesUser := h.rulesUser
      limitsUser := h.limitsUser
      timeUser := h.timeUser
      urlUser := h.urlUser
      rulesType := htypes.mpr hun
      usersGroup := h.usersGroup
      timeUsers := h.timeUsers
      timeGroupUsers := h.timeGroupUsers
      timeTypes := h.timeTypes.filter _
      timeGroups := h.timeGroups
      timeDef := h.timeDef }

theorem delPolicy_consistent_iff (h : db.Consistent) (policyID : DbId) :
    (processingDelPolicy db policyID).Consistent ↔ Unreferenced db (.policy policyID) := by
  have hgroupUsers := refers_delete_iff h.timeGroupUsers policyID
  have htypes := refers_delete_iff h.timeTypes policyID
  have hgroups := refers_delete_iff h.timeGroups policyID
  constructor
  · intro h'
    exact ⟨hgroupUsers.mp h'.timeGroupUsers, htypes.mp h'.timeTypes, hgroups.mp h'.timeGroups⟩
  · intro hun
    have hgone {α : Type} {rows : List α} {col : α → DbId}
        (href : Refers rows col db.policyTime id) :
        Refers (rows.filter fun r => col r ≠ policyID) col
          (db.policyTime.filter fun k => k ≠ policyID) id := by
      apply (refers_delete_iff (href.filter _) policyID).mpr
      intro r hr
      exact of_decide_eq_true (List.mem_filter.mp hr).2
    exact {
      rulesUser := h.rulesUser
      limitsUser := h.limitsUser
      timeUser := h.timeUser.filter _
      urlUser := h.urlUser
      rulesType := h.rulesType
      usersGroup := h.usersGroup
      timeUsers := hgone h.timeUsers
      timeGroupUsers := hgroupUsers.mpr hun.1
      timeTypes := htypes.mpr hun.2.1
      timeGroups := hgroups.mpr hun.2.2
      timeDef := hgone h.timeDef }

/-- A deletion leaves the database consistent exactly when nothing that it forgets names what
it deletes. -/
theorem handle_consistent_iff (db : Db) (h : db.Consistent) (op : DeleteOp) :
    (db.handle op).Consistent ↔ Unreferenced db op := by
  cases op with
  | user userID => exact delUser_consistent_iff h userID
  | usersGroup groupID => exact usersDelGroup_consistent_iff h groupID
  | trafficGroup groupID => exact trafficDelGroup_consistent_iff h groupID
  | traffic trafficID => exact delTraffic_consistent_iff h trafficID
  | policy policyID => exact delPolicy_consistent_iff h policyID

end

/-- Users 1 and 2 in group 1 and type 1 in traffic group 1, with a row of every table for the
first user, the groups and the type, all under policy 1. -/
def assigned : Db where
  users := [⟨1, 1⟩, ⟨2, 1⟩]
  groupUsers := [1, 2]
  typeTraffic := [⟨1, 1⟩]
  groupTraffic := [1]
  rules := [⟨1, 1⟩]
  rulesGroupTraffic := [⟨1, 1⟩]
  rulesUsersGroup := [1]
  policyTime := [1]
  policyTimeUsers := [⟨1, 1⟩]
  policyTimeGroupUsers := [⟨1, 1⟩]
  policyTimeTypeTraffic := [⟨1, 1⟩]
  policyTimeGroupTraffic := [⟨1, 1⟩]
  policyTimeDef := [1, 1]
  policyUrlUsers := [⟨1, 1⟩]
  usersPrimary := by decide
  typesPrimary := by decide

theorem assigned_consistent : assigned.Consistent := by
  constructor <;> decide

theorem handle_consistent_iff_second :
    (assigned.handle (.user 2)).Consistent ↔ Unreferenced assigned (.user 2) :=
  handle_consistent_iff assigned assigned_consistent (.user 2)

/-- Each of the five deletions leaves a row that names what it deleted. -/
theorem handle_dangles :
    assigned.Consistent ∧ ¬ (assigned.handle (.user 1)).Consistent ∧
      ¬ (assigned.handle (.usersGroup 1)).Consistent ∧
      ¬ (assigned.handle (.trafficGroup 1)).Consistent ∧
      ¬ (assigned.handle (.traffic 1)).Consistent ∧
      ¬ (assigned.handle (.policy 1)).Consistent := by
  refine ⟨assigned_consistent, ?_, ?_, ?_, ?_, ?_⟩ <;> intro h
  · exact absurd h.limitsUser (by decide)
  · exact absurd h.usersGroup (by decide)
  · exact absurd h.rulesType (by decide)
  · exact absurd h.rulesType (by decide)
  · exact absurd h.timeGroups (by decide)

end IPStat
