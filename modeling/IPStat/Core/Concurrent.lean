import IPStat.Core.Steps
import Mathlib.Data.List.Nodup

namespace IPStat

/-- Where a call of users_sync stands between two of its steps. -/
inductive PassAt where
  | idle
  /-- Before the next row of the listing. -/
  | listing (rows : List IpId)
  /-- users_find has answered NULL, and users_insert has not been entered. -/
  | missed (id : IpId) (rows : List IpId)
  | sweeping
  /-- A node has been seen too old, and users_delete has not been entered. -/
  | stale (id : IpId)

/-- The tables that main and the jobs share, and where each of their threads stands. -/
structure SharedUsers where
  users : Users
  pc : Nat → PassAt

namespace SharedUsers

def goTo (s : SharedUsers) (p : Nat) (pc : PassAt) : SharedUsers :=
  { s with pc := Function.update s.pc p pc }

/-- After core_init, before core->sync and any job. -/
def init : SharedUsers := ⟨⟨[], [], 0⟩, fun _ => .idle⟩

end SharedUsers

/-- A step of a thread. `start` has the listing's answer: `none` when the store does not open,
`some none` when the query fails. `insert` has the row that users_mysql_insert reads, if any;
`write` is what any thread writes without the lock into the nodes' fields other than the id
(users_mysql_update, rules_mysql_load, time_live, the traffic). -/
inductive PassEvent where
  | start (p : Nat) (listing : Option (Option (List IpId)))
  | find (p : Nat)
  | insert (p : Nat) (row : Option InsertRow)
  | write (f : Nat → NodeUser → NodeUser)
  | look (p : Nat) (i : Nat) (now : TimeT)
  | delete (p : Nat) (now : TimeT)
  | finish (p : Nat)

/-- The node that users_insert links; its rules are loaded afterwards. -/
def insertedUser (id : IpId) (row : InsertRow) : NodeUser := { newUser id row with idRules := [] }

def writeUsers (f : Nat → NodeUser → NodeUser) (users : Users) : Users :=
  { users with idUsers := users.idUsers.mapIdx fun i n => { f i n with id := n.id } }

/-- One critical section, or what lies between two: users_sync of users_find, users_insert and
users_delete. The sweep walks without the lock, so it may come upon any node. -/
def passStep (s : SharedUsers) : PassEvent → Option SharedUsers
  | .start p listing =>
    match s.pc p with
    | .idle =>
      match listing with
      | none => some (s.goTo p .sweeping)
      | some none => some s
      | some (some rows) => some (s.goTo p (.listing rows))
    | _ => none
  | .find p =>
    match s.pc p with
    | .listing [] => some (s.goTo p .sweeping)
    | .listing (id :: rows) =>
      match usersFind s.users id with
      | some _ => some (s.goTo p (.listing rows))
      | none => some (s.goTo p (.missed id rows))
    | _ => none
  | .insert p row =>
    match s.pc p with
    | .missed id rows =>
      match row with
      | none => some (s.goTo p (.listing rows))
      | some row =>
        if row.record.addr = 0 then some (s.goTo p (.listing rows))
        else some { s.goTo p (.listing rows) with
          users := usersInsert s.users (insertedUser id row) }
    | _ => none
  | .write f => some { s with users := writeUsers f s.users }
  | .look p i now =>
    match s.pc p, (s.users.idUsers ++ s.users.cleanList)[i]? with
    | .sweeping, some node =>
      if now - node.timeLive > 90 then some (s.goTo p (.stale node.id)) else some s
    | _, _ => none
  | .delete p now =>
    match s.pc p with
    | .stale id => some { s.goTo p .sweeping with users := usersDelete s.users id now }
    | _ => none
  | .finish p =>
    match s.pc p with
    | .sweeping => some (s.goTo p .idle)
    | _ => none

/-- At most one node for each id. -/
def UniqueIds (s : SharedUsers) : Prop := (s.users.idUsers.map NodeUser.id).Nodup

def Counted (s : SharedUsers) : Prop := s.users.curUsers = s.users.idUsers.length

/-- users_insert is not entered for an id that is in the list by then. -/
def StillMissing (s : SharedUsers) (e : PassEvent) : Prop :=
  ∀ p row id rows, e = .insert p (some row) → s.pc p = .missed id rows → row.record.addr ≠ 0 →
    usersFind s.users id = none

/-- users_find does not miss an id that another thread has missed and not yet inserted. -/
def FirstToMiss (s : SharedUsers) (e : PassEvent) : Prop :=
  ∀ p id rows, e = .find p → s.pc p = .listing (id :: rows) → usersFind s.users id = none →
    ∀ q rows', s.pc q ≠ .missed id rows'

/-- Who has missed an id once a thread has gone on: that thread, to its miss, or as before. -/
theorem goTo_missed {s : SharedUsers} {p q : Nat} {pc : PassAt} {id : IpId} {rows : List IpId}
    (hq : (s.goTo p pc).pc q = .missed id rows) :
    q = p ∧ pc = .missed id rows ∨ q ≠ p ∧ s.pc q = .missed id rows := by
  by_cases hqp : q = p
  · subst hqp
    simp only [SharedUsers.goTo, Function.update_self] at hq
    exact .inl ⟨rfl, hq⟩
  · exact .inr ⟨hqp, by simpa [SharedUsers.goTo, hqp] using hq⟩

/-- A thread that goes on to anything but a miss leaves the misses of the others. -/
theorem goTo_quiet {s : SharedUsers} {p q : Nat} {pc : PassAt} {id : IpId} {rows : List IpId}
    (hpc : pc ≠ .missed id rows) (hq : (s.goTo p pc).pc q = .missed id rows) :
    q ≠ p ∧ s.pc q = .missed id rows := by
  rcases goTo_missed hq with ⟨-, heq⟩ | hold
  · exact absurd heq hpc
  · exact hold

/-- What a step can do to the ids, and to what the threads have missed. -/
theorem passStep_cases {s s' : SharedUsers} {e : PassEvent} (h : passStep s e = some s') :
    (s'.users.idUsers.map NodeUser.id = s.users.idUsers.map NodeUser.id ∧
        s'.users.curUsers = s.users.curUsers ∧
        (∀ q id rows, s'.pc q = .missed id rows → s.pc q = .missed id rows) ∧
        ∀ q row, e = .insert q (some row) → row.record.addr = 0) ∨
      (∃ p id rows, e = .find p ∧ s.pc p = .listing (id :: rows) ∧
        usersFind s.users id = none ∧ s' = s.goTo p (.missed id rows)) ∨
      (∃ p row id rows, e = .insert p (some row) ∧ s.pc p = .missed id rows ∧
        row.record.addr ≠ 0 ∧
        s' = { s.goTo p (.listing rows) with users := usersInsert s.users (insertedUser id row) }) ∨
      ∃ p now id, e = .delete p now ∧ s.pc p = .stale id ∧
        s' = { s.goTo p .sweeping with users := usersDelete s.users id now } := by
  have hquiet (p : Nat) (pc : PassAt) (hpc : ∀ id rows, pc ≠ .missed id rows) :
      ∀ q id rows, (s.goTo p pc).pc q = .missed id rows → s.pc q = .missed id rows :=
    fun _ id rows hq => (goTo_quiet (hpc id rows) hq).2
  cases e with
  | start p listing =>
    simp only [passStep] at h
    split at h
    · split at h <;> cases h
      · exact .inl ⟨rfl, rfl, hquiet p _ (by simp), by simp⟩
      · exact .inl ⟨rfl, rfl, fun _ _ _ hq => hq, by simp⟩
      · exact .inl ⟨rfl, rfl, hquiet p _ (by simp), by simp⟩
    · cases h
  | find p =>
    simp only [passStep] at h
    split at h
    · cases h
      exact .inl ⟨rfl, rfl, hquiet p _ (by simp), by simp⟩
    · rename_i id rows hpc
      split at h <;> cases h
      · exact .inl ⟨rfl, rfl, hquiet p _ (by simp), by simp⟩
      · rename_i hfind
        exact .inr (.inl ⟨p, id, rows, rfl, hpc, hfind, rfl⟩)
    · cases h
  | insert p row =>
    simp only [passStep] at h
    split at h
    · rename_i id rows hpc
      split at h
      · cases h
        exact .inl ⟨rfl, rfl, hquiet p _ (by simp), by simp⟩
      · rename_i row
        by_cases haddr : row.record.addr = 0
        · simp only [haddr, if_true] at h
          cases h
          exact .inl ⟨rfl, rfl, hquiet p _ (by simp), by simp [haddr]⟩
        · simp only [haddr, if_false] at h
          cases h
          exact .inr (.inr (.inl ⟨p, row, id, rows, rfl, hpc, haddr, rfl⟩))
    · cases h
  | write f =>
    cases h
    have hids : (writeUsers f s.users).idUsers.map NodeUser.id = s.users.idUsers.map NodeUser.id := by
      apply List.ext_getElem
      · simp [writeUsers]
      · intro i hi hi'
        simp [writeUsers]
    exact .inl ⟨hids, rfl, fun _ _ _ hq => hq, by simp⟩
  | look p i now =>
    simp only [passStep] at h
    split at h
    · split_ifs at h <;> cases h
      · exact .inl ⟨rfl, rfl, hquiet p _ (by simp), by simp⟩
      · exact .inl ⟨rfl, rfl, fun _ _ _ hq => hq, by simp⟩
    · cases h
  | delete p now =>
    simp only [passStep] at h
    split at h
    · rename_i id hpc
      cases h
      exact .inr (.inr (.inr ⟨p, now, id, rfl, hpc, rfl⟩))
    · cases h
  | finish p =>
    simp only [passStep] at h
    split at h
    · cases h
      exact .inl ⟨rfl, rfl, hquiet p _ (by simp), by simp⟩
    · cases h

theorem usersFind_eq_none_iff {users : Users} {id : IpId} :
    usersFind users id = none ↔ id ∉ users.idUsers.map NodeUser.id := by
  simp [usersFind]

/-- users_delete takes one node out and counts it, or finds none. -/
theorem usersDelete_cases (users : Users) (key : IpId) (now : TimeT) :
    usersDelete users key now = users ∨
      (usersDelete users key now).idUsers.Sublist users.idUsers ∧
        (usersDelete users key now).idUsers.length + 1 = users.idUsers.length ∧
        (usersDelete users key now).curUsers = users.curUsers - 1 := by
  rw [usersDelete]
  cases hf : usersFind users key with
  | none => exact .inl rfl
  | some node =>
    refine .inr ⟨List.eraseP_sublist, ?_, rfl⟩
    have hm : node ∈ users.idUsers := List.mem_of_find?_eq_some hf
    have hp := List.find?_some hf
    have hlen : (users.idUsers.eraseP fun n => n.id = key).length = users.idUsers.length - 1 :=
      List.length_eraseP_of_mem hm hp
    have hpos := List.length_pos_of_mem hm
    change (users.idUsers.eraseP fun n => n.id = key).length + 1 = users.idUsers.length
    omega

theorem passStep_counted {s s' : SharedUsers} {e : PassEvent} (hs : Counted s)
    (h : passStep s e = some s') : Counted s' := by
  unfold Counted at hs ⊢
  rcases passStep_cases h with ⟨hids, hcur, -, -⟩ | ⟨p, id, rows, -, -, -, rfl⟩ |
    ⟨p, row, id, rows, -, -, -, rfl⟩ | ⟨p, now, id, -, -, rfl⟩
  · have hlen := congrArg List.length hids
    simp only [List.length_map] at hlen
    rw [hcur, hs, hlen]
  · exact hs
  · simp [usersInsert, hs]
  · rcases usersDelete_cases s.users id now with heq | ⟨-, hlen, hcur⟩
    · simp only [heq]
      exact hs
    · simp only [hcur, hs]
      omega

/-- From a list without duplicates only users_insert leads to one with a duplicate, and only
where the id is no longer missing. -/
theorem passStep_unique_iff {s s' : SharedUsers} {e : PassEvent} (hs : UniqueIds s)
    (h : passStep s e = some s') : UniqueIds s' ↔ StillMissing s e := by
  unfold UniqueIds at hs ⊢
  rcases passStep_cases h with ⟨hids, -, -, hskip⟩ | ⟨p, id, rows, rfl, -, -, rfl⟩ |
    ⟨p, row, id, rows, rfl, hpc, haddr, rfl⟩ | ⟨p, now, id, rfl, -, rfl⟩
  · refine iff_of_true (hids ▸ hs) ?_
    intro q row id rows he _ haddr
    exact absurd (hskip q row he) haddr
  · apply iff_of_true hs
    intro q row id' rows' he
    cases he
  · have happend : ((usersInsert s.users (insertedUser id row)).idUsers.map NodeUser.id).Nodup ↔
        id ∉ s.users.idUsers.map NodeUser.id := by
      rw [usersInsert, List.map_append, List.map_singleton, List.nodup_append_comm,
        List.singleton_append, List.nodup_cons]
      exact and_iff_left hs
    rw [← usersFind_eq_none_iff] at happend
    rw [happend]
    constructor
    · intro hfind q row' id' rows' he hq _
      cases he
      rw [hpc] at hq
      cases hq
      exact hfind
    · intro hstill
      exact hstill p row id rows rfl hpc haddr
  · refine iff_of_true ?_ ?_
    · rcases usersDelete_cases s.users id now with heq | ⟨hsub, -, -⟩
      · simp only [heq]
        exact hs
      · exact hs.sublist (hsub.map NodeUser.id)
    · intro q row id' rows' he
      cases he

/-- No two threads have missed one id, and what is missed is missing. -/
structure SoleMiss (s : SharedUsers) : Prop where
  missing : ∀ p id rows, s.pc p = .missed id rows → usersFind s.users id = none
  sole : ∀ p q id rows rows', s.pc p = .missed id rows → s.pc q = .missed id rows' → p = q

theorem SoleMiss.step {s s' : SharedUsers} {e : PassEvent} (hs : SoleMiss s)
    (hfirst : FirstToMiss s e) (h : passStep s e = some s') : SoleMiss s' := by
  rcases passStep_cases h with ⟨hids, -, hkept, -⟩ | ⟨p, id, rows, rfl, hpc, hfind, rfl⟩ |
    ⟨p, row, id, rows, rfl, hpc, haddr, rfl⟩ | ⟨p, now, id, rfl, hpc, rfl⟩
  · constructor
    · intro q id rows hq
      have hold := hs.missing q id rows (hkept q id rows hq)
      rw [usersFind_eq_none_iff] at hold ⊢
      rwa [hids]
    · intro q r id rows rows' hq hr
      exact hs.sole q r id rows rows' (hkept q id rows hq) (hkept r id rows' hr)
  · -- the thread that misses joins those that have missed other ids
    have hother := hfirst p id rows rfl hpc hfind
    constructor
    · intro q id' rows' hq
      rcases goTo_missed hq with ⟨-, heq⟩ | ⟨-, hold⟩
      · cases heq
        exact hfind
      · exact hs.missing q id' rows' hold
    · intro q r id' rows1 rows2 hq hr
      rcases goTo_missed hq with ⟨rfl, heq⟩ | ⟨-, holdq⟩
      · cases heq
        rcases goTo_missed hr with ⟨rfl, -⟩ | ⟨-, holdr⟩
        · rfl
        · exact absurd holdr (hother r rows2)
      · rcases goTo_missed hr with ⟨-, heq⟩ | ⟨-, holdr⟩
        · cases heq
          exact absurd holdq (hother q rows1)
        · exact hs.sole q r id' rows1 rows2 holdq holdr
  · -- the thread that inserts leaves its miss, and no other has missed this id
    have hquiet (q : Nat) (id' : IpId) (rows' : List IpId)
        (hq : (s.goTo p (.listing rows)).pc q = .missed id' rows') :
        q ≠ p ∧ s.pc q = .missed id' rows' := goTo_quiet (by simp) hq
    constructor
    · intro q id' rows' hq
      obtain ⟨hqp, hold⟩ := hquiet q id' rows' hq
      have hne : id' ≠ id := by
        rintro rfl
        exact hqp (hs.sole q p id' rows' rows hold hpc)
      have hmissing := hs.missing q id' rows' hold
      rw [usersFind_eq_none_iff] at hmissing ⊢
      simpa [usersInsert, insertedUser, newUser, hne] using hmissing
    · intro q r id' rows1 rows2 hq hr
      exact hs.sole q r id' rows1 rows2 (hquiet q id' rows1 hq).2 (hquiet r id' rows2 hr).2
  · have hquiet (q : Nat) (id' : IpId) (rows' : List IpId)
        (hq : (s.goTo p .sweeping).pc q = .missed id' rows') : s.pc q = .missed id' rows' :=
      (goTo_quiet (by simp) hq).2
    constructor
    · intro q id' rows' hq
      have hmissing := hs.missing q id' rows' (hquiet q id' rows' hq)
      rw [usersFind_eq_none_iff] at hmissing ⊢
      rcases usersDelete_cases s.users id now with heq | ⟨hsub, -, -⟩
      · simp only [heq]
        exact hmissing
      · intro hm
        exact hmissing ((hsub.map NodeUser.id).subset hm)
    · intro q r id' rows1 rows2 hq hr
      exact hs.sole q r id' rows1 rows2 (hquiet q id' rows1 hq) (hquiet r id' rows2 hr)

theorem SoleMiss.init : SoleMiss SharedUsers.init := by
  constructor
  · intro p id rows hp
    cases hp
  · intro p q id rows rows' hp
    cases hp

theorem SoleMiss.stillMissing {s : SharedUsers} (hs : SoleMiss s) (e : PassEvent) :
    StillMissing s e := by
  intro p row id rows _ hpc _
  exact hs.missing p id rows hpc

/-- In every interleaving cur_users counts the list; its ids stay distinct throughout exactly
when every users_insert comes while its id is still missing, which is so if no two threads have
missed one id at once. -/
theorem users_unique_iff (es : List PassEvent) (u : SharedUsers)
    (h : Run.exec passStep .init es = some u) :
    Run.Always passStep Counted .init es ∧
      (Run.Always passStep UniqueIds .init es ↔ Run.Guarded passStep StillMissing .init es) ∧
      (Run.Guarded passStep FirstToMiss .init es →
        Run.Guarded passStep StillMissing .init es) := by
  have hempty : UniqueIds SharedUsers.init := List.nodup_nil
  refine ⟨?_, ?_, ?_⟩
  · have hzero : Counted SharedUsers.init := rfl
    have hfree : Run.Guarded passStep (fun _ _ => True) SharedUsers.init es :=
      Run.guarded_of_forall (fun _ _ _ => trivial) SharedUsers.init
    exact Run.always_of_invariant (fun _ _ _ hs _ hstep => passStep_counted hs hstep) hzero hfree
  · have hstep (s : SharedUsers) (e : PassEvent) (s' : SharedUsers) (_ : True) (hs : UniqueIds s)
        (h : passStep s e = some s') : True ∧ (UniqueIds s' ↔ StillMissing s e) :=
      ⟨trivial, passStep_unique_iff hs h⟩
    exact Run.always_iff_guarded hstep trivial hempty h
  · intro hfirst
    have halways := Run.always_of_invariant
      (fun _ _ _ hs hg hstep => SoleMiss.step hs hg hstep) SoleMiss.init hfirst
    exact halways.guarded fun s e hs => hs.stillMissing e

/-- User 7 as users_mysql_insert reads it. -/
def userSeven : InsertRow := ⟨⟨1, [], 1, 1, 0⟩, 0, ⟨false, none⟩⟩

/-- main's pass (0) and a job's (1), one after the other. -/
def inTurn : List PassEvent :=
  [.start 0 (some (some [7])), .find 0, .insert 0 (some userSeven), .find 0, .finish 0,
    .start 1 (some (some [7])), .find 1, .find 1, .finish 1]

theorem users_unique_inTurn :
    ∃ u, Run.exec passStep .init inTurn = some u ∧
      Run.Always passStep Counted .init inTurn ∧
      (Run.Always passStep UniqueIds .init inTurn ↔
        Run.Guarded passStep StillMissing .init inTurn) ∧
      (Run.Guarded passStep FirstToMiss .init inTurn →
        Run.Guarded passStep StillMissing .init inTurn) :=
  ⟨_, rfl, users_unique_iff inTurn _ rfl⟩

/-- The job's users_find comes between main's users_find and its users_insert. -/
def atOnce : List PassEvent :=
  [.start 0 (some (some [7])), .start 1 (some (some [7])), .find 0, .find 1,
    .insert 0 (some userSeven), .insert 1 (some userSeven)]

/-- User 7 is in the list twice. -/
theorem users_duplicated :
    ∃ u, Run.exec passStep .init atOnce = some u ∧
      u.users.idUsers.map NodeUser.id = [7, 7] ∧ ¬ UniqueIds u :=
  ⟨_, rfl, rfl, by unfold UniqueIds; decide⟩

end IPStat
