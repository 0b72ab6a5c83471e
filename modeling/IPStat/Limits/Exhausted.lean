import IPStat.Limits.Group
import IPStat.System.Status

namespace IPStat

/-- find_group of the limits by user groups, and the locked section of their my_autz. -/
def findGroup (limits : List NodeGroupLimit) (idGroup : IpId) : Option Nat :=
  limits.findIdx? fun node => node.idGroup = idGroup

def autzUsersGroup (limits : List NodeGroupLimit) (idGroupUser : IpId) : Bool :=
  match findGroup limits idGroupUser with
  | none => true
  | some i => (limits[i]?.map NodeGroupLimit.onactive).getD true

/-- `IF (Limitation=-1, 0, IF(Traffic>=Limitation, 1, 0)) as close` of displayContent. -/
def closeColumn (limitation : Int) (traffic : Nat) : Bool :=
  if limitation = -1 then false else limitation ≤ traffic

/-- A node that is not blocked, with the columns of its row: `limitation = atoll(row[2])`. -/
def NodeGroupLimit.Loaded (node : NodeGroupLimit) (traffic : IpBigsize) (limitation : Int64) :
    Prop :=
  node.onblocked = 0 ∧ node.traffic = traffic ∧ node.limitation = limitation.toUInt64

/-- Every enforcement point gives rows with this traffic and limitation that are not blocked one
verdict; a user is one whose Type is limited by traffic. -/
structure LimitVerdict (traffic : IpBigsize) (limitation : Int64) (exhausted : Bool) : Prop where
  users : ∀ (db : StatusTables) (i : Nat) (row : UserStatus), db.users[i]? = some row →
    0 ≤ row.type → row.type ≤ 3 → row.onBlocked = false → row.traffic = traffic.toNat →
    row.limitation = limitation.toInt →
    ((taskCheckLimit true true db).1.users[i]?).map UserStatus.onActive = some !exhausted
  rules : ∀ (db : StatusTables) (i : Nat) (rule : RuleStatus), db.rules[i]? = some rule →
    rule.onBlocked = false → rule.traffic = traffic.toNat → rule.limitation = limitation.toInt →
    ((taskCheckLimit true true db).1.rules[i]?).map RuleStatus.onActive = some !exhausted
  autz : ∀ (limits : List NodeGroupLimit) (idUser idGroup : IpId) (i : Nat)
    (node : NodeGroupLimit), findGroupTraffic limits idUser idGroup = some i →
    limits[i]? = some node → node.Loaded traffic limitation →
    autzGroup limits idUser idGroup = !exhausted
  usersAutz : ∀ (limits : List NodeGroupLimit) (idGroupUser : IpId) (i : Nat)
    (node : NodeGroupLimit), findGroup limits idGroupUser = some i → limits[i]? = some node →
    node.Loaded traffic limitation → autzUsersGroup limits idGroupUser = !exhausted
  sync : ∀ node : NodeGroupLimit, node.Loaded traffic limitation →
    (trafficUpdate node).onActive = !exhausted
  close : closeColumn limitation.toInt traffic.toNat = exhausted

/-- The enforcement points agree on what an exhausted limit is. -/
def SameNotion (traffic : IpBigsize) (limitation : Int64) : Prop :=
  ∃ exhausted, LimitVerdict traffic limitation exhausted

section
variable {traffic : IpBigsize} {limitation : Int64} {exhausted : Bool}

/-- `limitation` as the node's unsigned field shows it. -/
theorem toNat_toUInt64 (limitation : Int64) : (limitation.toUInt64.toNat : Int) =
    if 0 ≤ limitation.toInt then limitation.toInt
    else limitation.toInt + 18446744073709551616 := by
  have hint := BitVec.toInt_eq_toNat_cond limitation.toBitVec
  have hlt := limitation.toUInt64.toNat_lt
  change limitation.toInt = _ at hint
  change limitation.toBitVec.toNat < _ at hlt
  change (limitation.toBitVec.toNat : Int) = _
  split_ifs at hint ⊢ <;> omega

theorem toUInt64_ne (h : limitation ≠ -1) : limitation.toUInt64 ≠ -1 := by
  intro hnode
  apply h
  have hback := congrArg UInt64.toInt64 hnode
  simpa using hback

theorem toInt_ne (h : limitation ≠ -1) : limitation.toInt ≠ -1 := by
  intro hint
  apply h
  apply Int64.toInt_inj.mp
  rw [hint]
  rfl

theorem onactive_loaded {node : NodeGroupLimit} (h : limitation ≠ -1)
    (hnode : node.Loaded traffic limitation) :
    node.onactive = !decide (limitation.toUInt64 ≤ traffic) := by
  obtain ⟨hblocked, htraffic, hlimitation⟩ := hnode
  rw [NodeGroupLimit.onactive, hblocked, htraffic, hlimitation]
  simp [toUInt64_ne h]

theorem checked_user {db : StatusTables} {i : Nat} {row : UserStatus}
    (hrow : db.users[i]? = some row) :
    ((taskCheckLimit true true db).1.users[i]?).map UserStatus.onActive = some row.active := by
  rw [taskCheckLimit_eq, List.getElem?_map, hrow]
  rfl

theorem checked_rule {db : StatusTables} {i : Nat} {rule : RuleStatus}
    (hrule : db.rules[i]? = some rule) :
    ((taskCheckLimit true true db).1.rules[i]?).map RuleStatus.onActive = some rule.active := by
  rw [taskCheckLimit_eq, List.getElem?_map, hrule]
  rfl

/-- task_check_limit asks for more traffic than the limit, the node for as much, on the unsigned
field, and the page for as much. -/
theorem verdict_iff (h : limitation ≠ -1) : LimitVerdict traffic limitation exhausted ↔
    exhausted = decide (limitation.toInt < traffic.toNat) ∧
      exhausted = decide (limitation.toUInt64 ≤ traffic) ∧
      exhausted = decide (limitation.toInt ≤ traffic.toNat) := by
  have hne := toInt_ne h
  constructor
  · intro hv
    refine ⟨?_, ?_, ?_⟩
    · let rule : RuleStatus := ⟨limitation.toInt, traffic.toNat, false, true⟩
      let db : StatusTables := ⟨[], [rule]⟩
      have hget : db.rules[0]? = some rule := rfl
      have hrule := hv.rules db 0 rule hget rfl rfl rfl
      rw [checked_rule hget] at hrule
      simp [rule, RuleStatus.active, hne] at hrule
      grind
    · have hnode := hv.sync ⟨0, 0, 0, 0, limitation.toUInt64, traffic, 0, 0, 0, 0⟩ ⟨rfl, rfl, rfl⟩
      rw [trafficUpdate, onactive_loaded h ⟨rfl, rfl, rfl⟩] at hnode
      simpa using hnode.symm
    · have hclose := hv.close
      rw [closeColumn, if_neg hne] at hclose
      exact hclose.symm
  · intro hsame
    obtain ⟨htask, hnode, hpage⟩ := hsame
    refine ⟨?_, ?_, ?_, ?_, ?_, ?_⟩
    · intro db i row hrow hlow hhigh hblocked htraffic hlimitation
      rw [checked_user hrow, UserStatus.active, if_pos ⟨hlow, hhigh⟩, hblocked, htraffic,
        hlimitation, htask]
      simp [hne]
      grind
    · intro db i rule hrule hblocked htraffic hlimitation
      rw [checked_rule hrule, RuleStatus.active, hblocked, htraffic, hlimitation, htask]
      simp [hne]
      grind
    · intro limits idUser idGroup i node hfind hget hloaded
      rw [autzGroup, hfind, hnode, ← onactive_loaded h hloaded]
      simp [hget]
    · intro limits idGroupUser i node hfind hget hloaded
      rw [autzUsersGroup, hfind, hnode, ← onactive_loaded h hloaded]
      simp [hget]
    · intro node hloaded
      rw [trafficUpdate, hnode, ← onactive_loaded h hloaded]
    · rw [closeColumn, if_neg hne, hpage]

end

/-- The enforcement points agree on a limit that the traffic has not just reached; on a negative
one other than -1 only where its unsigned reading is reached too. -/
theorem same_notion_iff (traffic : IpBigsize) (limitation : Int64) (h : limitation ≠ -1) :
    SameNotion traffic limitation ↔ (traffic.toNat : Int) ≠ limitation.toInt ∧
      (0 ≤ limitation.toInt ∨ limitation.toInt + 18446744073709551616 ≤ traffic.toNat) := by
  have hunsigned := toNat_toUInt64 limitation
  have hle : limitation.toUInt64 ≤ traffic ↔
      (limitation.toUInt64.toNat : Int) ≤ traffic.toNat := by
    rw [UInt64.le_iff_toNat_le]
    omega
  rw [SameNotion]
  simp only [verdict_iff h, hle]
  constructor
  · intro hsame
    obtain ⟨exhausted, htask, hnode, hpage⟩ := hsame
    rw [htask, decide_eq_decide] at hpage hnode
    split_ifs at hunsigned <;> omega
  · intro hcond
    refine ⟨_, rfl, ?_, ?_⟩
    · rw [decide_eq_decide]
      split_ifs at hunsigned <;> omega
    · rw [decide_eq_decide]
      omega

/-- A limit of 1000 bytes at 1500. -/
theorem same_notion_exceeded : SameNotion 1500 1000 :=
  (same_notion_iff 1500 1000 (by decide)).mpr (by decide)

/-- At exactly 1000 of 1000 bytes a rule stays active, and the page shows it closed. -/
theorem same_notion_fails_at_limit : ¬ SameNotion 1000 1000 := by
  intro hsame
  obtain ⟨exhausted, hv⟩ := hsame
  have hrule := hv.rules ⟨[], [⟨1000, 1000, false, true⟩]⟩ 0 _ rfl rfl rfl rfl
  have hclose := hv.close
  have hopen : closeColumn (1000 : Int64).toInt (1000 : IpBigsize).toNat = true := by decide
  rw [hopen] at hclose
  subst hclose
  revert hrule
  decide

end IPStat
