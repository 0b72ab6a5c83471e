import IPStat.Core.Conservation
import IPStat.Lib.Keyed

namespace IPStat

/-- The columns of Users that the core reads, the texts as the database has them. -/
structure UsersColumns where
  idGroup : IpId
  addr : List UInt8
  mac : List UInt8
  onActive : IpFlag
  deriving DecidableEq, Repr

structure UsersTableRow where
  id : IpId
  columns : UsersColumns
  deriving DecidableEq, Repr

/-- The C library's inet_aton and the database's md5(concat(id_group, Addr, Mac, onActive)). -/
structure UsersReading where
  inetAton : List UInt8 → Option IpAddr
  md5 : UsersColumns → Md5

/-- hostbyip: of the first fifteen bytes, those before a '/'; 0 if they are no address. -/
def hostbyip (inetAton : List UInt8 → Option IpAddr) (host : List UInt8) : IpAddr :=
  (inetAton ((host.take 15).takeWhile (· ≠ 47))).getD 0

/-- strncpy into the eighteen bytes of a `mac` field. -/
def macField (mac : List UInt8) : Mac := (mac ++ List.replicate 18 0).take 18

namespace UsersColumns

/-- What users_mysql_insert and users_mysql_update make of a row. -/
def record (rd : UsersReading) (c : UsersColumns) : UsersRecord where
  addr := hostbyip rd.inetAton c.addr
  mac := macField c.mac
  status := c.onActive
  idGroup := c.idGroup
  md5 := rd.md5 c

/-- The address that the text before a '/' denotes, 0 where it is none. -/
def denotes (rd : UsersReading) (c : UsersColumns) : IpAddr :=
  (rd.inetAton (c.addr.takeWhile (· ≠ 47))).getD 0

/-- hostbyip reads all that stands before a '/', as it does of a text of up to fifteen bytes. -/
def ReadInFull (rd : UsersReading) (c : UsersColumns) : Prop :=
  hostbyip rd.inetAton c.addr = c.denotes rd

end UsersColumns

/-- The columns of a node that come from its row. -/
def NodeUser.record (node : NodeUser) : UsersRecord :=
  ⟨node.addr, node.mac, node.status, node.idGroup, node.md5⟩

def NodeUser.entry (node : NodeUser) : IpId × UsersRecord := (node.id, node.record)

/-- Whatever a pass is answered, the rows it reads are rows that the table has held, and an id
has one at most. -/
def SyncEnv.ReadsHeld (rd : UsersReading) (held : UsersTableRow → Prop) (env : SyncEnv) : Prop :=
  ∀ row ∈ env.listed,
    (∀ recs, row.update.rows = some recs → ∀ rec ∈ recs,
      ∃ c, held ⟨row.id, c⟩ ∧ rec = c.record rd) ∧
    ∀ recs, row.insert.rows = some recs → recs.length ≤ 1 ∧ ∀ rec ∈ recs,
      ∃ c, held ⟨row.id, c⟩ ∧ rec.record = c.record rd

def CoreOp.ReadsHeld (rd : UsersReading) (held : UsersTableRow → Prop) : CoreOp → Prop
  | .acct _ => True
  | .sync env => env.ReadsHeld rd held

/-- How a pass meets a row: listed with its fingerprint, and read when it is asked for. -/
structure ListingRow.Reads (rd : UsersReading) (r : UsersTableRow) (row : ListingRow) : Prop where
  id : row.id = r.id
  md5 : row.md5 = rd.md5 r.columns
  updateOpened : row.update.opened = true
  unload : row.update.unload.FindsRows
  update : row.update.rows = some [r.columns.record rd]
  insertOpened : row.insert.opened = true
  insert : ∃ added, row.insert.rows = some [added] ∧ added.record = r.columns.record rd

/-- The row is handled no more than 90 seconds before the sweep reads the clock. -/
def ListingRow.InTime (age : Nat → TimeT) (row : ListingRow) : Prop :=
  ∀ i, age i - row.now ≤ 90 ∧
    ∀ recs, row.insert.rows = some recs → ∀ added ∈ recs, age i - added.now ≤ 90

/-- A pass, no longer than 90 seconds, that is answered with all rows of the table, and that
finds the row of each rule it exports. -/
structure SyncEnv.ReadsAll (rd : UsersReading) (table : List UsersTableRow) (env : SyncEnv) :
    Prop where
  opened : env.opened = true
  nodes : ∀ i, (env.traffic.nodes i).rules.FindsRows
  listing : ∃ (order : List UsersTableRow) (listing : UsersTableRow → ListingRow),
    order.Perm table ∧ env.rows = some (order.map listing) ∧
      ∀ r ∈ order, (listing r).Reads rd r ∧ (listing r).InTime env.sweep.age

/-- The table as it should be: a row with an address has its one node, and no address is
attributed to a user whose row has none. -/
def ReflectsUsers (rd : UsersReading) (table : List UsersTableRow) (users : Users) : Prop :=
  ∀ r ∈ table,
    (r.columns.denotes rd ≠ 0 → ∃ node, (users.idUsers.filter (·.id = r.id)) = [node] ∧
      node.addr = r.columns.denotes rd ∧ node.mac = macField r.columns.mac ∧
      node.idGroup = r.columns.idGroup ∧ node.status = r.columns.onActive) ∧
    (r.columns.denotes rd = 0 → ∀ addr node, addrFind users addr = some node → node.id ≠ r.id)

/-- The address that a pass leaves a node with. -/
def addrAfter (rd : UsersReading) (table : List UsersTableRow) (node : NodeUser) : IpAddr :=
  match table.find? (·.id = node.id) with
  | some r => if r.columns.denotes rd = 0 then node.addr else r.columns.denotes rd
  | none => node.addr

/-- A node that a pass keeps: it is listed, or not too old for the sweep. -/
def KeptBy (table : List UsersTableRow) (env : SyncEnv) (users : Users) (node : NodeUser) : Prop :=
  node.id ∈ table.map UsersTableRow.id ∨
    ∃ i, users.idUsers[i]? = some node ∧ expired env.sweep.age i node.timeLive = false

/-- If an Addr is no address, its user has no node, or only one behind a node that the pass
leaves with the same address. -/
def UsersTableRow.Settles (rd : UsersReading) (table : List UsersTableRow) (env : SyncEnv)
    (users : Users) (r : UsersTableRow) : Prop :=
  r.columns.denotes rd = 0 → ∀ node ∈ users.idUsers, node.id = r.id →
    ∃ m ∈ users.idUsers, [m.id, node.id].Sublist (users.idUsers.map NodeUser.id) ∧
      KeptBy table env users m ∧ addrAfter rd table m = node.addr

/-- No row of the table has held other columns with the same fingerprint. -/
def UsersDetected (rd : UsersReading) (held : UsersTableRow → Prop) (table : List UsersTableRow) : Prop :=
  ∀ r ∈ table, ∀ c, held ⟨r.id, c⟩ → rd.md5 c = rd.md5 r.columns → c = r.columns

/-- What every history keeps: distinct ids, and nodes that are rows the table has held. -/
structure UsersMirror (rd : UsersReading) (held : UsersTableRow → Prop) (ns : List NodeUser) :
    Prop where
  nodup : (ns.map NodeUser.id).Nodup
  rows : ∀ node ∈ ns, (∃ c, held ⟨node.id, c⟩ ∧ node.record = c.record rd) ∧ node.record.addr ≠ 0

/-- The columns of a node after the copy of a row, which address 0 prevents. -/
def UsersRecord.over (old row : UsersRecord) : UsersRecord := if row.addr = 0 then old else row

/-- The columns that a reload leaves. -/
def UpdateEnv.outcome (env : UpdateEnv) (old : UsersRecord) : UsersRecord :=
  if env.opened then (env.rows.getD []).foldl UsersRecord.over old else old

section
variable {rd : UsersReading} {held : UsersTableRow → Prop} {table : List UsersTableRow}

theorem copies_record (rows : List UsersRecord) (node : NodeUser) :
    (rows.foldl (fun node row => row.copy node) node).record =
      rows.foldl UsersRecord.over node.record := by
  induction rows generalizing node with
  | nil => rfl
  | cons row rows ih =>
    have hcopy : (row.copy node).record = node.record.over row := by
      unfold UsersRecord.copy UsersRecord.over
      split_ifs <;> rfl
    rw [List.foldl_cons, List.foldl_cons, ih, hcopy]

theorem updateNode_record {env : UpdateEnv} {node node' : NodeUser} {c c' : IpId → IpSize}
    (h : updateNode env node c = some (node', c')) : node'.record = env.outcome node.record := by
  rw [updateNode] at h
  rw [UpdateEnv.outcome]
  cases ho : env.opened with
  | false =>
    simp only [ho] at h
    cases h
    rfl
  | true =>
    simp only [ho, if_true] at h ⊢
    cases hu : rulesMysqlUnload env.unload node.idRules c with
    | none => simp [hu] at h
    | some q =>
      simp only [hu] at h
      cases hr : env.rows with
      | none =>
        simp only [hr] at h
        cases h
        rfl
      | some rows =>
        simp only [hr] at h
        cases h
        exact copies_record rows { node with idRules := q.1 }

theorem syncNode_record {row : ListingRow} {node node' : NodeUser} {c c' : IpId → IpSize}
    (h : syncNode row node c = some (node', c')) :
    node'.record = if (syncCheck row node).2 then row.update.outcome node.record
      else node.record := by
  obtain ⟨node1, rfl, ⟨hkeep, rfl, -⟩ | ⟨hreload, hu⟩⟩ := syncNode_cases h
  · rw [hkeep]
    rfl
  · rw [hreload, if_pos rfl]
    have houtcome := updateNode_record hu
    exact houtcome

theorem UpdateEnv.outcome_cases (env : UpdateEnv) (old : UsersRecord) :
    env.outcome old = old ∨
      ∃ recs, env.rows = some recs ∧ env.outcome old ∈ recs ∧ (env.outcome old).addr ≠ 0 := by
  have hover (recs : List UsersRecord) (old : UsersRecord) :
      recs.foldl UsersRecord.over old = old ∨ recs.foldl UsersRecord.over old ∈ recs ∧
        (recs.foldl UsersRecord.over old).addr ≠ 0 := by
    induction recs generalizing old with
    | nil => exact .inl rfl
    | cons rec recs ih =>
      rw [List.foldl_cons]
      rcases ih (old.over rec) with hsame | ⟨hin, haddr⟩
      · rw [hsame, UsersRecord.over]
        split_ifs with hzero
        · exact .inl rfl
        · exact .inr ⟨List.mem_cons_self, hzero⟩
      · exact .inr ⟨List.mem_cons_of_mem rec hin, haddr⟩
  unfold UpdateEnv.outcome
  split_ifs
  · cases hr : env.rows with
    | none => exact .inl rfl
    | some recs =>
      rcases hover recs old with hsame | ⟨hin, haddr⟩
      · exact .inl hsame
      · exact .inr ⟨recs, rfl, hin, haddr⟩
  · exact .inl rfl

/-- The insertion of an id that has one row at most. -/
theorem usersMysqlInsert_one {env : InsertEnv} (id : IpId) (users : Users)
    (hone : ∀ recs, env.rows = some recs → recs.length ≤ 1) :
    ((usersMysqlInsert env id users).idUsers = users.idUsers ∧
        (env.opened = false ∨ ∀ row, env.rows = some [row] → row.record.addr = 0)) ∨
      ∃ row, env.rows = some [row] ∧ row.record.addr ≠ 0 ∧
        (usersMysqlInsert env id users).idUsers = users.idUsers ++ [newUser id row] := by
  unfold usersMysqlInsert
  split_ifs with ho
  · rcases hr : env.rows with _ | _ | ⟨row, rest⟩
    · exact .inl ⟨rfl, .inr (by simp)⟩
    · exact .inl ⟨rfl, .inr (by simp)⟩
    · have hlength := hone _ hr
      have hrest : rest = [] := by
        apply List.eq_nil_of_length_eq_zero
        rw [List.length_cons] at hlength
        omega
      subst hrest
      by_cases h0 : row.record.addr = 0
      · exact .inl ⟨by simp [h0], .inr (by simpa using h0)⟩
      · exact .inr ⟨row, rfl, h0, by simp [h0, usersInsert]⟩
  · exact .inl ⟨rfl, .inl (Bool.eq_false_iff.mpr ho)⟩

theorem ids_of_entries {ns ns' : List NodeUser}
    (h : ns'.map NodeUser.entry = ns.map NodeUser.entry) :
    ns'.map NodeUser.id = ns.map NodeUser.id := by
  have hfst := congrArg (List.map Prod.fst) h
  rw [List.map_map, List.map_map] at hfst
  exact hfst

theorem mem_of_entries {ns ns' : List NodeUser} {node : NodeUser}
    (h : ns'.map NodeUser.entry = ns.map NodeUser.entry) (hm : node ∈ ns') :
    ∃ old ∈ ns, old.id = node.id ∧ old.record = node.record := by
  have hin : node.entry ∈ ns'.map NodeUser.entry := List.mem_map.mpr ⟨node, hm, rfl⟩
  rw [h] at hin
  obtain ⟨old, hold, heq⟩ := List.mem_map.mp hin
  obtain ⟨hid, hrecord⟩ := Prod.mk.inj heq
  exact ⟨old, hold, hid, hrecord⟩

theorem UsersMirror.of_map {ns ns' : List NodeUser} (hi : UsersMirror rd held ns)
    (h : ns'.map NodeUser.entry = ns.map NodeUser.entry) : UsersMirror rd held ns' := by
  constructor
  · rw [ids_of_entries h]
    exact hi.nodup
  · intro node hm
    obtain ⟨old, hold, hid, hrecord⟩ := mem_of_entries h hm
    rw [← hid, ← hrecord]
    exact hi.rows old hold

theorem UsersMirror.acct {d d' : Core} {req : Request} (hi : UsersMirror rd held d.users.idUsers)
    (h : coreAcct req d = some d') : UsersMirror rd held d'.users.idUsers := by
  obtain ⟨rfl, -⟩ | ⟨user, qs, s, -, -, rfl⟩ := coreAcct_cases h
  · exact hi
  · apply hi.of_map
    exact modify_map NodeUser.entry
      (e := fun node => { node with traffic := s.traffic, idRules := s.rules }) (fun _ => rfl)
      d.users req.idUser

theorem UsersMirror.row {d d' : Core} {row : ListingRow}
    (hi : UsersMirror rd held d.users.idUsers)
    (hupdate : ∀ recs, row.update.rows = some recs → ∀ rec ∈ recs,
      ∃ c, held ⟨row.id, c⟩ ∧ rec = c.record rd)
    (hinsert : ∀ recs, row.insert.rows = some recs → recs.length ≤ 1 ∧ ∀ rec ∈ recs,
      ∃ c, held ⟨row.id, c⟩ ∧ rec.record = c.record rd)
    (h : usersSyncRow d row = some d') : UsersMirror rd held d'.users.idUsers := by
  have hputs {ns' : List NodeUser}
      (hp : Keyed.Puts NodeUser.id row.id
        (fun node => (∃ c, held ⟨node.id, c⟩ ∧ node.record = c.record rd) ∧
          node.record.addr ≠ 0) True
        d.users.idUsers ns') : UsersMirror rd held ns' :=
    ⟨hp.nodup, hp.forall hi.rows⟩
  rcases usersSyncRow_cases h with ⟨hu, rfl⟩ | ⟨node, node', c, hu, hn, rfl⟩
  · change UsersMirror rd held (usersMysqlInsert row.insert row.id d.users).idUsers
    rcases usersMysqlInsert_one row.id d.users fun recs hr => (hinsert recs hr).1 with
      ⟨hsame, -⟩ | ⟨added, hr, haddr, hnew⟩
    · rw [hsame]
      exact hi
    · rw [hnew]
      obtain ⟨c, hc, hrecord⟩ := (hinsert _ hr).2 added List.mem_cons_self
      apply hputs
      exact Keyed.Puts.append hi.nodup (usersFind_none hu) rfl ⟨⟨c, hc, hrecord⟩, haddr⟩
  · have hid := usersFind_id hu
    have hm : node ∈ d.users.idUsers := List.mem_of_find?_eq_some hu
    have hid' : node'.id = row.id := (syncNode_frame hn).1.trans hid
    have hold := hi.rows node hm
    rw [hid] at hold
    have hrecord : (∃ c, held ⟨row.id, c⟩ ∧ node'.record = c.record rd) ∧
        node'.record.addr ≠ 0 := by
      rw [syncNode_record hn]
      split_ifs
      · rcases row.update.outcome_cases node.record with hsame | ⟨recs, hr, hin, haddr⟩
        · rw [hsame]
          exact hold
        · exact ⟨hupdate recs hr _ hin, haddr⟩
      · exact hold
    apply hputs
    apply Keyed.Puts.put hi.nodup ⟨node, hm, hid⟩ hid'
    rw [hid']
    exact hrecord

theorem UsersMirror.sweep {users : Users} (hi : UsersMirror rd held users.idUsers)
    (env : SweepEnv) : UsersMirror rd held (usersMysqlDelete env users).idUsers := by
  have hsub : (usersMysqlDelete env users).idUsers.Sublist users.idUsers := by
    rw [usersMysqlDelete, sweepUsers_sweep]
    exact Aged.sweep_sublist _ 0 _ _
  constructor
  · exact hi.nodup.sublist (hsub.map NodeUser.id)
  · intro node hm
    exact hi.rows node (hsub.subset hm)

theorem usersSyncTraffic_entries {env : TrafficEnv} {d d' : Core}
    (h : usersSyncTraffic env d = some d') :
    d'.users.idUsers.map NodeUser.entry = d.users.idUsers.map NodeUser.entry := by
  rcases usersSyncTraffic_cases h with ⟨-, rfl⟩ | ⟨-, ns, l, he, rfl⟩
  · rfl
  · exact exportUsers_map NodeUser.entry (fun _ _ _ => rfl) he

theorem UsersMirror.sync {d d' : Core} {env : SyncEnv}
    (hi : UsersMirror rd held d.users.idUsers) (henv : env.ReadsHeld rd held)
    (h : usersSync env d = some d') : UsersMirror rd held d'.users.idUsers := by
  have hguard : Run.Guarded usersSyncRow (fun _ row =>
      (∀ recs, row.update.rows = some recs → ∀ rec ∈ recs,
        ∃ c, held ⟨row.id, c⟩ ∧ rec = c.record rd) ∧
      ∀ recs, row.insert.rows = some recs → recs.length ≤ 1 ∧ ∀ rec ∈ recs,
        ∃ c, held ⟨row.id, c⟩ ∧ rec.record = c.record rd) d env.listed :=
    Run.guarded_of_forall (fun row hrow _ => henv row hrow) d
  let inv : Core → Prop := fun d => UsersMirror rd held d.users.idUsers
  have hsweep : ∀ s, usersListing env d = some (s, true) → inv s →
      inv { s with users := usersMysqlDelete env.sweep s.users } :=
    fun s _ hs => UsersMirror.sweep hs env.sweep
  have htraffic : ∀ s s', inv s → usersSyncTraffic env.traffic s = some s' → inv s' :=
    fun s s' hs ht => UsersMirror.of_map hs (usersSyncTraffic_entries ht)
  exact usersSync_invariant (fun s row s' hs hg hrow => UsersMirror.row hs hg.1 hg.2 hrow) hsweep
    htraffic hi hguard h

theorem usersMirror_run {ops : List CoreOp} {d : Core} (hops : ∀ op ∈ ops, op.ReadsHeld rd held)
    (h : Run.exec coreStep coreInit ops = some d) : UsersMirror rd held d.users.idUsers := by
  have hstep : ∀ d op d', UsersMirror rd held d.users.idUsers → op.ReadsHeld rd held →
      coreStep d op = some d' → UsersMirror rd held d'.users.idUsers := by
    intro d op d' hi hop hs
    cases op with
    | acct req => exact hi.acct hs
    | sync env => exact hi.sync hop hs
  have hinit : UsersMirror rd held coreInit.users.idUsers := ⟨List.nodup_nil, by simp [coreInit]⟩
  exact Run.exec_invariant hstep hinit (Run.guarded_of_forall (fun op hop _ => hops op hop) _) h

/-- The entry of a row after it was handled: the row as it was read, or the node that was there
before where the row has no address. No sweep of the pass will find it stale. -/
structure RowWritten (rd : UsersReading) (age : Nat → TimeT) (ns : List NodeUser)
    (r : UsersTableRow) (node : NodeUser) : Prop where
  record : (r.columns.record rd).addr ≠ 0 → node.record = r.columns.record rd
  old : (r.columns.record rd).addr = 0 → ∃ old ∈ ns, old.id = r.id ∧ node.record = old.record
  fresh : ∀ i, age i - node.timeLive ≤ 90

/-- The entry of a row before it is handled. -/
structure RowKnown (rd : UsersReading) (ns : List NodeUser) (r : UsersTableRow)
    (node : NodeUser) : Prop where
  old : ∃ old ∈ ns, old.id = r.id ∧ node.record = old.record
  md5 : node.md5 = rd.md5 r.columns → node.record = r.columns.record rd

/-- A row with an address adds its node, and a row without one adds nothing. -/
theorem usersMysqlInsert_puts {users : Users} {r : UsersTableRow} {row : ListingRow}
    {age : Nat → TimeT} {ns : List NodeUser} (hreads : row.Reads rd r) (htime : row.InTime age)
    (hnodup : (users.idUsers.map NodeUser.id).Nodup) (hu : usersFind users row.id = none) :
    Keyed.Puts NodeUser.id row.id (RowWritten rd age ns r) ((r.columns.record rd).addr ≠ 0)
      users.idUsers (usersMysqlInsert row.insert row.id users).idUsers := by
  obtain ⟨added, hadded, hrecord⟩ := hreads.insert
  have hone : ∀ recs, row.insert.rows = some recs → recs.length ≤ 1 := by
    intro recs hr
    rw [hadded] at hr
    cases hr
    exact le_refl 1
  rcases usersMysqlInsert_one row.id users hone with
    ⟨hsame, hclosed | hzero⟩ | ⟨found, hr, haddr, hnew⟩
  · rw [hreads.insertOpened] at hclosed
    cases hclosed
  · rw [hsame]
    apply Keyed.Puts.skip hnodup (usersFind_none hu)
    rw [not_not, ← hrecord]
    exact hzero added hadded
  · rw [hadded] at hr
    cases hr
    rw [hrecord] at haddr
    have hstamp : ∀ i, age i - added.now ≤ 90 := by
      intro i
      exact (htime i).2 _ hadded added List.mem_cons_self
    rw [hnew]
    exact Keyed.Puts.append hnodup (usersFind_none hu) rfl
      ⟨fun _ => hrecord, fun hzero => absurd hzero haddr, hstamp⟩

/-- The node found for a row is reloaded unless its fingerprint is the row's, and keeps its
columns where the row has no address. -/
theorem syncNode_written {r : UsersTableRow} {row : ListingRow} {age : Nat → TimeT}
    {ns : List NodeUser} {node node' : NodeUser} {c c' : IpId → IpSize} (hreads : row.Reads rd r)
    (htime : row.InTime age) (hknown : RowKnown rd ns r node)
    (h : syncNode row node c = some (node', c')) : RowWritten rd age ns r node' := by
  have houtcome : row.update.outcome node.record = node.record.over (r.columns.record rd) := by
    simp [UpdateEnv.outcome, hreads.updateOpened, hreads.update]
  have hrecord := syncNode_record h
  rw [houtcome, UsersRecord.over] at hrecord
  constructor
  · intro haddr
    rw [if_neg haddr] at hrecord
    rw [hrecord]
    split_ifs with hreload
    · rfl
    · have hmd5 : node.md5 = row.md5 := by
        by_contra hne
        rw [syncCheck, if_pos hne] at hreload
        exact hreload rfl
      exact hknown.md5 (hmd5.trans hreads.md5)
  · intro hzero
    rw [if_pos hzero, ite_self] at hrecord
    rw [hrecord]
    exact hknown.old
  · intro i
    rw [(syncNode_frame h).2.2]
    exact (htime i).1

theorem usersSyncRow_puts {d d' : Core} {r : UsersTableRow} {row : ListingRow}
    {age : Nat → TimeT} {ns : List NodeUser} (hreads : row.Reads rd r) (htime : row.InTime age)
    (hnodup : (d.users.idUsers.map NodeUser.id).Nodup)
    (hbefore : ∀ node ∈ d.users.idUsers, node.id = r.id → RowKnown rd ns r node)
    (h : usersSyncRow d row = some d') :
    Keyed.Puts NodeUser.id r.id (RowWritten rd age ns r) ((r.columns.record rd).addr ≠ 0)
      d.users.idUsers d'.users.idUsers := by
  rw [← hreads.id] at hbefore ⊢
  rcases usersSyncRow_cases h with ⟨hu, rfl⟩ | ⟨node, node', c, hu, hn, rfl⟩
  · exact usersMysqlInsert_puts hreads htime hnodup hu
  · have hid := usersFind_id hu
    have hm : node ∈ d.users.idUsers := List.mem_of_find?_eq_some hu
    have hid' : node'.id = row.id := (syncNode_frame hn).1.trans hid
    have hwritten := syncNode_written hreads htime (hbefore node hm hid) hn
    exact Keyed.Puts.put hnodup ⟨node, hm, hid⟩ hid' hwritten

/-- What a pass makes of the nodes it starts with and of the rows. -/
structure Refreshed (rd : UsersReading) (table : List UsersTableRow) (env : SyncEnv)
    (users : Users) (ns : List NodeUser) : Prop where
  nodup : (ns.map NodeUser.id).Nodup
  order : ∀ node ∈ users.idUsers, ∀ b ∈ ns, b.id = node.id → ∀ id ∈ ns.map NodeUser.id,
    ([id, node.id].Sublist (ns.map NodeUser.id) ↔
      [id, node.id].Sublist (users.idUsers.map NodeUser.id))
  kept : ∀ node ∈ users.idUsers, (∃ b ∈ ns, b.id = node.id) ↔ KeptBy table env users node
  addr : ∀ node ∈ users.idUsers, ∀ b ∈ ns, b.id = node.id → b.addr = addrAfter rd table node
  present : ∀ r ∈ table, r.columns.denotes rd ≠ 0 → ∃ b ∈ ns, b.id = r.id
  right : ∀ r ∈ table, r.columns.denotes rd ≠ 0 → ∀ b ∈ ns, b.id = r.id →
    b.record = r.columns.record rd
  old : ∀ r ∈ table, r.columns.denotes rd = 0 → ∀ b ∈ ns, b.id = r.id →
    ∃ node ∈ users.idUsers, node.id = r.id

theorem Refreshed.of_map {env : SyncEnv} {users : Users} {ns ns' : List NodeUser}
    (hs : Refreshed rd table env users ns) (h : ns'.map NodeUser.entry = ns.map NodeUser.entry) :
    Refreshed rd table env users ns' := by
  have hback {b : NodeUser} (hb : b ∈ ns') := mem_of_entries h hb
  have hforth {id : IpId} (hb : ∃ b ∈ ns, b.id = id) : ∃ b ∈ ns', b.id = id := by
    obtain ⟨b, hm, hid⟩ := hb
    obtain ⟨b', hm', hid', -⟩ := mem_of_entries h.symm hm
    exact ⟨b', hm', hid'.trans hid⟩
  have hids := ids_of_entries h
  constructor
  · rw [hids]
    exact hs.nodup
  · intro node hm b hb hid
    obtain ⟨b0, hb0, hid0, -⟩ := hback hb
    rw [hids]
    exact hs.order node hm b0 hb0 (hid0.trans hid)
  · intro node hm
    rw [← hs.kept node hm]
    refine ⟨?_, hforth⟩
    rintro ⟨b, hb, hid⟩
    obtain ⟨b0, hb0, hid0, -⟩ := hback hb
    exact ⟨b0, hb0, hid0.trans hid⟩
  · intro node hm b hb hid
    obtain ⟨b0, hb0, hid0, hrecord⟩ := hback hb
    rw [← hs.addr node hm b0 hb0 (hid0.trans hid)]
    exact (congrArg UsersRecord.addr hrecord).symm
  · intro r hr haddr
    exact hforth (hs.present r hr haddr)
  · intro r hr haddr b hb hid
    obtain ⟨b0, hb0, hid0, hrecord⟩ := hback hb
    rw [← hrecord]
    exact hs.right r hr haddr b0 hb0 (hid0.trans hid)
  · intro r hr hzero b hb hid
    obtain ⟨b0, hb0, hid0, -⟩ := hback hb
    exact hs.old r hr hzero b0 hb0 (hid0.trans hid)

theorem addrAfter_row {r : UsersTableRow} {node : NodeUser}
    (hids : (table.map UsersTableRow.id).Nodup) (hr : r ∈ table) (hid : r.id = node.id) :
    addrAfter rd table node =
      if r.columns.denotes rd = 0 then node.addr else r.columns.denotes rd := by
  cases hfind : table.find? (·.id = node.id) with
  | none =>
    have hnone := List.find?_eq_none.mp hfind r hr
    exact absurd hid (by simpa using hnone)
  | some found =>
    have hfound : found.id = node.id := by simpa using List.find?_some hfind
    have hsame : found = r := List.inj_on_of_nodup_map hids (List.mem_of_find?_eq_some hfind) hr
      (hfound.trans hid.symm)
    rw [addrAfter, hfind, hsame]

theorem addrAfter_absent {node : NodeUser} (h : node.id ∉ table.map UsersTableRow.id) :
    addrAfter rd table node = node.addr := by
  have hnone : table.find? (·.id = node.id) = none := by
    apply List.find?_eq_none.mpr
    intro r hr hid
    exact h (List.mem_map.mpr ⟨r, hr, of_decide_eq_true hid⟩)
  rw [addrAfter, hnone]

theorem SyncEnv.ReadsAll.returns {env : SyncEnv} (hall : env.ReadsAll rd table) (d : Core) :
    ∃ d', usersSync env d = some d' := by
  obtain ⟨order, listing, -, hrows, hreads⟩ := hall.listing
  apply usersSync_returns _ hall.nodes d
  intro row hrow
  rw [SyncEnv.listed, if_pos hall.opened, hrows, Option.getD_some] at hrow
  obtain ⟨r, hr, rfl⟩ := List.mem_map.mp hrow
  exact (hreads r hr).1.unload

/-- The nodes that the rows of a pass leave for its sweep. -/
structure Listed (rd : UsersReading) (table : List UsersTableRow) (age : Nat → TimeT)
    (ns l : List NodeUser) : Prop where
  nodup : (l.map NodeUser.id).Nodup
  order : ns.map NodeUser.id <+: l.map NodeUser.id
  others : ∀ b : NodeUser, b.id ∉ table.map UsersTableRow.id → (b ∈ l ↔ b ∈ ns)
  written : ∀ r ∈ table, ∀ b ∈ l, b.id = r.id → RowWritten rd age ns r b
  present : ∀ r ∈ table, (r.columns.record rd).addr ≠ 0 → ∃ b ∈ l, b.id = r.id

theorem SyncEnv.ReadsAll.listed {env : SyncEnv} {d d1 : Core}
    (hi : UsersMirror rd held d.users.idUsers) (hids : (table.map UsersTableRow.id).Nodup)
    (hdetected : UsersDetected rd held table) (hall : env.ReadsAll rd table)
    (h : Run.exec usersSyncRow d env.listed = some d1) :
    Listed rd table env.sweep.age d.users.idUsers d1.users.idUsers := by
  obtain ⟨order, listing, hperm, hrows, hreads⟩ := hall.listing
  have hlisted : env.listed = order.map listing := by simp [SyncEnv.listed, hall.opened, hrows]
  rw [hlisted, Run.exec_map] at h
  have horder : (order.map UsersTableRow.id).Nodup :=
    ((hperm.map UsersTableRow.id).nodup_iff).mpr hids
  have hbefore : ∀ r ∈ order, ∀ node ∈ d.users.idUsers, node.id = r.id →
      RowKnown rd d.users.idUsers r node := by
    intro r hr node hm hid
    refine ⟨⟨node, hm, hid, rfl⟩, ?_⟩
    intro hmd5
    obtain ⟨⟨c, hc, hrecord⟩, -⟩ := hi.rows node hm
    rw [hid] at hc
    have hsame : rd.md5 c = rd.md5 r.columns :=
      (congrArg UsersRecord.md5 hrecord).symm.trans hmd5
    rw [hrecord, hdetected r (hperm.mem_iff.mp hr) c hc hsame]
  obtain ⟨hnodup, hprefix, hothers, hwritten, hshown⟩ :=
    Keyed.exec_puts (fun d : Core => d.users.idUsers) UsersTableRow.id
      (fun r hr _ _ hnodup hb hs =>
        usersSyncRow_puts (hreads r hr).1 (hreads r hr).2 hnodup hb hs)
      hi.nodup horder hbefore h
  refine ⟨hnodup, hprefix, ?_, ?_, ?_⟩
  · intro b hb
    apply hothers b
    intro r hr hid
    exact hb (List.mem_map.mpr ⟨r, hperm.mem_iff.mp hr, hid.symm⟩)
  · intro r hr
    exact hwritten r (hperm.mem_iff.mpr hr)
  · intro r hr
    exact hshown r (hperm.mem_iff.mpr hr)

/-- The sweep spares the listed nodes, and of the others those that are not too old. -/
theorem Listed.swept {env : SyncEnv} {users : Users} {l : List NodeUser}
    (hl : Listed rd table env.sweep.age users.idUsers l)
    (hnodup : (users.idUsers.map NodeUser.id).Nodup) (hids : (table.map UsersTableRow.id).Nodup)
    (hfull : ∀ r ∈ table, r.columns.ReadInFull rd) :
    Refreshed rd table env users
      (Aged.sweep NodeUser.id (fun i n => expired env.sweep.age i n.timeLive) 0 l l) := by
  let ns := Aged.sweep NodeUser.id (fun i n => expired env.sweep.age i n.timeLive) 0 l l
  have hsub : ns.Sublist l := Aged.sweep_sublist _ 0 l l
  have hspared {r : UsersTableRow} {b : NodeUser} (hr : r ∈ table) (hb : b ∈ l)
      (hid : b.id = r.id) : b ∈ ns := by
    refine (Aged.mem_sweep ?_).mpr hb
    intro j a ha hab
    exact expired_eq_false_iff.mpr ((hl.written r hr a ha (hab.trans hid)).fresh j)
  have hstays {node : NodeUser} (hm : node ∈ users.idUsers) : ∃ b ∈ l, b.id = node.id := by
    have hin := hl.order.subset (List.mem_map.mpr ⟨node, hm, rfl⟩)
    exact List.mem_map.mp hin
  constructor
  · exact hl.nodup.sublist (hsub.map NodeUser.id)
  · intro node hm b hb hid id hin
    rw [← Keyed.before_iff_of_prefix hl.order hl.nodup (List.mem_map.mpr ⟨node, hm, rfl⟩)]
    constructor
    · exact fun hbefore => hbefore.trans (hsub.map NodeUser.id)
    · exact Keyed.before_of_sublist (hsub.map NodeUser.id) hl.nodup hin
        (List.mem_map.mpr ⟨b, hb, hid⟩)
  · intro node hm
    by_cases hrow : node.id ∈ table.map UsersTableRow.id
    · obtain ⟨r, hr, hid⟩ := List.mem_map.mp hrow
      obtain ⟨b, hb, hbid⟩ := hstays hm
      exact iff_of_true ⟨b, hspared hr hb (hbid.trans hid.symm), hbid⟩ (.inl hrow)
    · have hin : node ∈ l := (hl.others node hrow).mpr hm
      have hkept := Aged.exists_mem_sweep_iff NodeUser.id
        (fun i (n : NodeUser) => expired env.sweep.age i n.timeLive) node.id l
      rw [hkept, KeptBy, or_iff_right hrow]
      constructor
      · rintro ⟨i, a, ha, hid, hfresh⟩
        have hsame : a = node :=
          List.inj_on_of_nodup_map hl.nodup (List.mem_of_getElem? ha) hin hid
        subst hsame
        exact ⟨i, (Keyed.getElem?_of_prefix hl.order hl.nodup hm hin).mpr ha, hfresh⟩
      · rintro ⟨i, hi, hfresh⟩
        exact ⟨i, node, (Keyed.getElem?_of_prefix hl.order hl.nodup hm hin).mp hi, rfl, hfresh⟩
  · intro node hm b hb hid
    by_cases hrow : node.id ∈ table.map UsersTableRow.id
    · obtain ⟨r, hr, hrid⟩ := List.mem_map.mp hrow
      have hwritten := hl.written r hr b (hsub.subset hb) (hid.trans hrid.symm)
      have hread : (r.columns.record rd).addr = r.columns.denotes rd := hfull r hr
      rw [addrAfter_row hids hr hrid]
      split_ifs with hzero
      · obtain ⟨old, hold, holdid, hrecord⟩ := hwritten.old (hread.trans hzero)
        have hsame : old = node :=
          List.inj_on_of_nodup_map hnodup hold hm (holdid.trans hrid)
        rw [← hsame]
        exact congrArg UsersRecord.addr hrecord
      · have hrecord := hwritten.record (hread ▸ hzero)
        exact (congrArg UsersRecord.addr hrecord).trans hread
    · have hbrow : b.id ∉ table.map UsersTableRow.id := hid ▸ hrow
      have hold := (hl.others b hbrow).mp (hsub.subset hb)
      rw [addrAfter_absent hrow, List.inj_on_of_nodup_map hnodup hold hm hid]
  · intro r hr haddr
    have hread : (r.columns.record rd).addr = r.columns.denotes rd := hfull r hr
    obtain ⟨b, hb, hid⟩ := hl.present r hr (hread ▸ haddr)
    exact ⟨b, hspared hr hb hid, hid⟩
  · intro r hr haddr b hb hid
    have hread : (r.columns.record rd).addr = r.columns.denotes rd := hfull r hr
    exact (hl.written r hr b (hsub.subset hb) hid).record (hread ▸ haddr)
  · intro r hr hzero b hb hid
    have hread : (r.columns.record rd).addr = r.columns.denotes rd := hfull r hr
    obtain ⟨old, hold, holdid, -⟩ :=
      (hl.written r hr b (hsub.subset hb) hid).old (hread.trans hzero)
    exact ⟨old, hold, holdid⟩

theorem SyncEnv.ReadsAll.refreshed {env : SyncEnv} {d d' : Core}
    (hi : UsersMirror rd held d.users.idUsers) (hids : (table.map UsersTableRow.id).Nodup)
    (hdetected : UsersDetected rd held table) (hall : env.ReadsAll rd table)
    (hfull : ∀ r ∈ table, r.columns.ReadInFull rd) (h : usersSync env d = some d') :
    Refreshed rd table env d.users d'.users.idUsers := by
  rcases usersSync_cases h with ⟨-, hfailed, -⟩ | ⟨d1, -, he, ht⟩
  · obtain ⟨order, listing, -, hrows, -⟩ := hall.listing
    rw [hrows] at hfailed
    cases hfailed
  · have hswept := (hall.listed hi hids hdetected he).swept hi.nodup hids hfull
    rw [← sweepUsers_sweep] at hswept
    -- the exports change counters only
    exact hswept.of_map (usersSyncTraffic_entries ht)

/-- A row with an address has its one node. -/
theorem Refreshed.shows {env : SyncEnv} {users users' : Users}
    (hs : Refreshed rd table env users users'.idUsers)
    (hfull : ∀ r ∈ table, r.columns.ReadInFull rd) {r : UsersTableRow} (hr : r ∈ table)
    (haddr : r.columns.denotes rd ≠ 0) :
    ∃ node, (users'.idUsers.filter (·.id = r.id)) = [node] ∧
      node.addr = r.columns.denotes rd ∧ node.mac = macField r.columns.mac ∧
      node.idGroup = r.columns.idGroup ∧ node.status = r.columns.onActive := by
  obtain ⟨node, hm, hid⟩ := hs.present r hr haddr
  have hrecord := hs.right r hr haddr node hm hid
  refine ⟨node, Keyed.filter_eq_singleton hs.nodup hm hid, ?_, ?_, ?_, ?_⟩
  · exact (congrArg UsersRecord.addr hrecord).trans (hfull r hr)
  · exact congrArg UsersRecord.mac hrecord
  · exact congrArg UsersRecord.idGroup hrecord
  · exact congrArg UsersRecord.status hrecord

theorem addrFind_some {users : Users} {addr : IpAddr} {node : NodeUser}
    (h : addrFind users addr = some node) :
    node ∈ users.idUsers ∧ node.addr = addr ∧
      users.idUsers.find? (·.addr = addr) = some node := by
  unfold addrFind at h
  split_ifs at h
  exact ⟨List.mem_of_find?_eq_some h, by simpa using List.find?_some h, h⟩

/-- A row without an address is settled exactly when no address finds its user. -/
theorem Refreshed.settles_iff {env : SyncEnv} {users users' : Users}
    (hs : Refreshed rd table env users users'.idUsers)
    (hids : (table.map UsersTableRow.id).Nodup)
    (hstart : ∀ node ∈ users.idUsers, node.addr ≠ 0) {r : UsersTableRow} (hr : r ∈ table) :
    (r.columns.denotes rd = 0 → ∀ addr node, addrFind users' addr = some node → node.id ≠ r.id) ↔
      r.Settles rd table env users := by
  have hsame {node b : NodeUser} (hzero : r.columns.denotes rd = 0) (hm : node ∈ users.idUsers)
      (hid : node.id = r.id) (hb : b ∈ users'.idUsers) (hbid : b.id = node.id) :
      b.addr = node.addr := by
    rw [hs.addr node hm b hb hbid, addrAfter_row hids hr hid.symm, if_pos hzero]
  constructor
  · intro hnone hzero node hm hid
    obtain ⟨b, hb, hbid⟩ :=
      (hs.kept node hm).mpr (.inl (List.mem_map.mpr ⟨r, hr, hid.symm⟩))
    have haddr := hsame hzero hm hid hb hbid
    have hpassed : users'.idUsers.find? (·.addr = node.addr) ≠ some b := by
      intro hfind
      have hfound : addrFind users' node.addr = some b := by
        rw [addrFind, if_neg (hstart node hm), hfind]
      exact hnone hzero node.addr b hfound (hbid.trans hid)
    obtain ⟨x, hx, hbefore, hxaddr⟩ :=
      (Keyed.find?_ne_iff hs.nodup hb (by simpa using haddr)).mp hpassed
    rw [hbid, hs.order node hm b hb hbid x.id (List.mem_map.mpr ⟨x, hx, rfl⟩)] at hbefore
    obtain ⟨m, hm', hmid⟩ := List.mem_map.mp (hbefore.subset List.mem_cons_self)
    refine ⟨m, hm', hmid ▸ hbefore, (hs.kept m hm').mp ⟨x, hx, hmid.symm⟩, ?_⟩
    rw [← hs.addr m hm' x hx hmid.symm]
    exact of_decide_eq_true hxaddr
  · intro hsettles hzero addr b hfind hid
    obtain ⟨hb, hbaddr, hfound⟩ := addrFind_some hfind
    obtain ⟨node, hm, hnid⟩ := hs.old r hr hzero b hb hid
    have hbid : b.id = node.id := hid.trans hnid.symm
    have haddr := hsame hzero hm hnid hb hbid
    obtain ⟨m, hm', hbefore, hkept, hmaddr⟩ := hsettles hzero node hm hnid
    obtain ⟨x, hx, hxid⟩ := (hs.kept m hm').mpr hkept
    have hxaddr : x.addr = addr := by rw [hs.addr m hm' x hx hxid, hmaddr, ← haddr, hbaddr]
    refine (Keyed.find?_ne_iff hs.nodup hb (by simpa using hbaddr)).mpr ⟨x, hx, ?_, ?_⟩ hfound
    · rw [hxid, hbid]
      exact (hs.order node hm b hb hbid m.id (List.mem_map.mpr ⟨x, hx, hxid⟩)).mpr hbefore
    · simpa using hxaddr

/-- A pass that reads the whole table, every Addr of it in full, returns after any history, and
leaves id_users as the table has it exactly when the rows without an address settle. -/
theorem usersSync_converges (rd : UsersReading) (held : UsersTableRow → Prop)
    (table : List UsersTableRow) (ops : List CoreOp) (env : SyncEnv) (d : Core)
    (hops : ∀ op ∈ ops, op.ReadsHeld rd held) (hrun : Run.exec coreStep coreInit ops = some d)
    (hids : (table.map UsersTableRow.id).Nodup) (hdetected : UsersDetected rd held table)
    (hall : env.ReadsAll rd table) (hfull : ∀ r ∈ table, r.columns.ReadInFull rd) :
    ∃ d', usersSync env d = some d' ∧ (ReflectsUsers rd table d'.users ↔
      ∀ r ∈ table, r.Settles rd table env d.users) := by
  have hi := usersMirror_run hops hrun
  obtain ⟨d', h⟩ := hall.returns d
  have hs := hall.refreshed hi hids hdetected hfull h
  have hstart : ∀ node ∈ d.users.idUsers, node.addr ≠ 0 := fun node hm => (hi.rows node hm).2
  refine ⟨d', h, ?_⟩
  constructor
  · intro hreflects r hr
    exact (hs.settles_iff hids hstart hr).mp (hreflects r hr).2
  · intro hsettles r hr
    exact ⟨hs.shows hfull hr, (hs.settles_iff hids hstart hr).mpr (hsettles r hr)⟩

end

/-- A pass that answers everything meets the row so. -/
def plainRow (rd : UsersReading) (r : UsersTableRow) : ListingRow where
  id := r.id
  md5 := rd.md5 r.columns
  rulesSync := ⟨true, some [], fun _ => 0⟩
  update := ⟨true, ⟨true, fun _ => storeUp⟩, some [r.columns.record rd], ⟨true, some []⟩⟩
  insert := ⟨true, some [⟨r.columns.record rd, 0, ⟨true, some []⟩⟩]⟩
  now := 0

def plainPass (rd : UsersReading) (table : List UsersTableRow) : SyncEnv :=
  passOver (table.map (plainRow rd)) 0

theorem plainPass_readsAll (rd : UsersReading) (table : List UsersTableRow) :
    (plainPass rd table).ReadsAll rd table := by
  refine ⟨rfl, fun _ _ => rfl, table, plainRow rd, List.Perm.refl table, rfl, ?_⟩
  intro r _
  refine ⟨⟨rfl, rfl, rfl, fun _ => rfl, rfl, rfl, _, rfl, rfl⟩, ?_⟩
  intro i
  have hclock : (0 : TimeT) - 0 ≤ 90 := by decide
  refine ⟨hclock, ?_⟩
  intro recs hrecs added hadded
  cases hrecs
  cases List.mem_singleton.mp hadded
  exact hclock

theorem plainPass_readsHeld (rd : UsersReading) (table : List UsersTableRow) :
    (plainPass rd table).ReadsHeld rd (· ∈ table) := by
  intro row hrow
  obtain ⟨r, hr, rfl⟩ := List.mem_map.mp hrow
  constructor
  · intro recs hrecs rec hrec
    cases hrecs
    exact ⟨r.columns, hr, List.mem_singleton.mp hrec⟩
  · intro recs hrecs
    cases hrecs
    refine ⟨le_refl 1, ?_⟩
    intro rec hrec
    cases List.mem_singleton.mp hrec
    exact ⟨r.columns, hr, rfl⟩

/-- inet_aton on the texts 10.0.0.0 to 10.0.0.9 and 0.0.0.0, and a stand-in for the fingerprint
that tells texts of one length apart. -/
def sampleReading : UsersReading where
  inetAton
    | [49, 48, 46, 48, 46, 48, 46, d] =>
      if 48 ≤ d ∧ d ≤ 57 then some ((d - 48).toUInt32 * 16777216 + 10) else none
    | [48, 46, 48, 46, 48, 46, 48] => some 0
    | _ => none
  md5 c := BitVec.ofNat 128 (c.addr.foldl (fun h b => 256 * h + b.toNat) 0)

/-- User 7 at 10.0.0.7, at 10.0.0.8, and at 0.0.0.0. -/
def userAtSeven : UsersTableRow := ⟨7, ⟨1, [49, 48, 46, 48, 46, 48, 46, 55], [], 1⟩⟩
def userAtEight : UsersTableRow := ⟨7, ⟨1, [49, 48, 46, 48, 46, 48, 46, 56], [], 1⟩⟩
def userNowhere : UsersTableRow := ⟨7, ⟨1, [48, 46, 48, 46, 48, 46, 48], [], 1⟩⟩

/-- A user who moves to another address is found there alone. -/
theorem usersSync_converges_moved :
    ∃ d d', Run.exec coreStep coreInit [.sync (plainPass sampleReading [userAtSeven])] = some d ∧
      usersSync (plainPass sampleReading [userAtEight]) d = some d' ∧
      ReflectsUsers sampleReading [userAtEight] d'.users := by
  obtain ⟨d, hd⟩ : ∃ d, Run.exec coreStep coreInit
      [.sync (plainPass sampleReading [userAtSeven])] = some d := ⟨_, rfl⟩
  have hheld : ∀ op ∈ [CoreOp.sync (plainPass sampleReading [userAtSeven])],
      op.ReadsHeld sampleReading (· ∈ [userAtSeven]) := by
    intro op hop
    cases List.mem_singleton.mp hop
    exact plainPass_readsHeld _ _
  have hdetected : UsersDetected sampleReading (· ∈ [userAtSeven]) [userAtEight] := by
    intro r hr c hc hmd5
    cases List.mem_singleton.mp hr
    cases List.mem_singleton.mp hc
    exact absurd hmd5 (by decide)
  have hfull : ∀ r ∈ [userAtEight], r.columns.ReadInFull sampleReading := by
    intro r hr
    cases List.mem_singleton.mp hr
    change hostbyip sampleReading.inetAton userAtEight.columns.addr =
      userAtEight.columns.denotes sampleReading
    decide
  obtain ⟨d', hd', hiff⟩ := usersSync_converges sampleReading (· ∈ [userAtSeven]) [userAtEight]
    _ (plainPass sampleReading [userAtEight]) d hheld hd (by decide) hdetected
    (plainPass_readsAll _ _) hfull
  refine ⟨d, d', hd, hd', hiff.mpr ?_⟩
  intro r hr hzero
  cases List.mem_singleton.mp hr
  exact absurd hzero (by decide)

/-- A user whose Addr is set to 0.0.0.0 keeps the traffic of 10.0.0.7: users_mysql_update skips
the row. -/
theorem users_keep_address :
    ∃ d d', Run.exec coreStep coreInit [.sync (plainPass sampleReading [userAtSeven])] = some d ∧
      usersSync (plainPass sampleReading [userNowhere]) d = some d' ∧
      sampleReading.md5 userNowhere.columns ≠ sampleReading.md5 userAtSeven.columns ∧
      (plainPass sampleReading [userNowhere]).ReadsAll sampleReading [userNowhere] ∧
      userNowhere.columns.denotes sampleReading = 0 ∧
      ¬ ReflectsUsers sampleReading [userNowhere] d'.users := by
  refine ⟨_, _, rfl, rfl, by decide, plainPass_readsAll _ _, by decide, ?_⟩
  intro h
  have hnone := (h userNowhere List.mem_cons_self).2 (by decide) 117440522
  exact hnone _ rfl rfl

end IPStat
