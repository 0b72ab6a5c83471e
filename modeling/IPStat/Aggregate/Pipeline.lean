import IPStat.Aggregate.Export
import IPStat.Aggregate.Time
import IPStat.Lib.Transaction

/-! The traffic of a user on its way through func_time.c: from the tree of time_acct by the passes
of time_sync into Log_Temp, and by time_group into Log_Time. -/

namespace IPStat

open Rows Transaction

/-- The second statement of an export. -/
def writeRow {κ : Type} [DecidableEq κ] (flag : Bool) (k : κ) (n : Nat) (rows : List (Row κ)) :
    List (Row κ) :=
  if flag then update k (fun m => column (m + n)) rows else rows ++ [⟨k, n⟩]

section
variable {κ : Type} [DecidableEq κ] {rows : List (Row κ)}

theorem keys_writeRow (h : (keys rows).Nodup) (k : κ) (n : Nat) :
    (keys (writeRow (decide (k ∈ keys rows)) k n rows)).Nodup := by
  rw [writeRow]
  by_cases hmem : k ∈ keys rows
  · rw [decide_eq_true hmem, if_pos rfl, keys_update]
    exact h
  · rw [decide_eq_false hmem, if_neg Bool.false_ne_true]
    exact nodup_concat h hmem

/-- A write with the right flag and room in its column. -/
theorem sumOf_writeRow (p : κ → Prop) [DecidablePred p] (h : (keys rows).Nodup) {k : κ} {n : Nat}
    (hroom : ∀ row ∈ rows, row.key = k → row.value + n < 4294967296) :
    sumOf p (writeRow (decide (k ∈ keys rows)) k n rows) =
      sumOf p rows + if p k then n else 0 := by
  rw [writeRow]
  by_cases hmem : k ∈ keys rows
  · rw [decide_eq_true hmem, if_pos rfl]
    apply sumOf_update p h hmem
    intro row hrow hkey
    have hlt := hroom row hrow hkey
    exact Nat.min_eq_left (by omega)
  · rw [decide_eq_false hmem, if_neg Bool.false_ne_true, sumOf_append, sumOf, sumOf, Nat.add_zero]

end

structure LogTimeRow where
  time : Int
  idUser : IpId
  traffic : Nat
  deriving DecidableEq, Repr

def LogTimeRow.row (r : LogTimeRow) : Row IpId := ⟨r.idUser, r.traffic⟩

structure TimeTables where
  logTemp : List (Row IpId)
  logTime : List LogTimeRow
  deriving DecidableEq, Repr

namespace TimeTables

/-- `insert into Log_Time ... select NOW(), id, Traffic from Log_Temp where Traffic!=0`. -/
def insertLogTime (now : Int) (db : TimeTables) : TimeTables :=
  { db with logTime := db.logTime ++
    (db.logTemp.filter fun row => row.value ≠ 0).map fun row => ⟨now, row.key, row.value⟩ }

/-- `update Log_Temp SET Traffic = 0`. -/
def clearLogTemp (db : TimeTables) : TimeTables :=
  { db with logTemp := db.logTemp.map fun row => ⟨row.key, 0⟩ }

/-- The traffic of a user in both tables. -/
def logged (idUser : IpId) (db : TimeTables) : Nat :=
  sumOf (· = idUser) db.logTemp + sumOf (· = idUser) (db.logTime.map LogTimeRow.row)

end TimeTables

open TimeTables

/-- The statements of time_group. Both tables are InnoDB, and its transaction locks the rows that
it reads. -/
def timeGroup (now : Int) : List (TimeTables → TimeTables) :=
  [id, id, insertLogTime now, clearLogTemp, id]

/-- The module's state, the `flag_tmp` of each pass that is inside time_export, and the database. -/
structure Pipeline where
  time : TimeState
  flags : List (Option Bool)
  db : TimeTables

def pipelineInit (db : TimeTables) : Pipeline := ⟨timeInit, [], db⟩

inductive PipelineEvent where
  | acct (data : PacketDataInfo)
  | finish (keyAlloc valueAlloc nodeAlloc : Bool)
  | enter
  | take (i : Nat) (idUser : IpId)
  | select (i : Nat) (ok : Bool)
  | write (i : Nat) (ok : Bool)
  | giveBack (i : Nat)
  | leave (i : Nat)
  | group (answers : Nat → Bool) (now : Int)

namespace Pipeline

/-- A step of func_time.c that leaves the tables alone. -/
def onTime (s : Pipeline) (op : TimeOp) (flags : List (Option Bool)) : Option Pipeline :=
  (timeStep s.time op).map fun time => { s with time := time, flags := flags }

/-- The first statement of time_export; without an answer the function returns FALSE. -/
def select (s : Pipeline) (i : Nat) (ok : Bool) : Option Pipeline :=
  match s.time.passes[i]?, s.flags[i]? with
  | some (.taken idUser _ _), some none =>
    if ok then
      let flag := IPStat.logTemp.flag (count idUser s.db.logTemp)
      some { s with flags := s.flags.set i (some flag) }
    else s.onTime (.timeExport i false) s.flags
  | _, _ => none

def write (s : Pipeline) (i : Nat) (ok : Bool) : Option Pipeline :=
  match s.time.passes[i]?, s.flags[i]? with
  | some (.taken idUser _ tmp), some (some flag) =>
    (s.onTime (.timeExport i ok) (s.flags.set i none)).map fun s =>
      if ok then
        { s with db := { s.db with logTemp := writeRow flag idUser tmp.toNat s.db.logTemp } }
      else s
  | _, _ => none

def step (s : Pipeline) : PipelineEvent → Option Pipeline
  | .acct data => s.onTime (.acct data) s.flags
  | .finish keyAlloc valueAlloc nodeAlloc =>
    s.onTime (.finish keyAlloc valueAlloc nodeAlloc) s.flags
  | .enter => s.onTime .enter (s.flags ++ [none])
  | .take i idUser => s.onTime (.take i idUser) s.flags
  | .select i ok => s.select i ok
  | .write i ok => s.write i ok
  | .giveBack i => s.onTime (.giveBack i) s.flags
  | .leave i => s.onTime (.leave i) (s.flags.eraseIdx i)
  | .group answers now =>
    some { s with db := (attempt (fun before _ => before) (timeGroup now) answers s.db).1 }

/-- A pass begins when there is none, the allocation that time_acct does not check is made, and
the column of Log_Temp has room for what is exported. -/
def Careful (s : Pipeline) : PipelineEvent → Prop
  | .enter => s.time.passes = []
  | .finish keyAlloc valueAlloc nodeAlloc =>
    NodeAllocated s.time (.finish keyAlloc valueAlloc nodeAlloc)
  | .write i _ => ∀ pc ∈ s.time.passes[i]?, ∀ row ∈ s.db.logTemp,
    row.value + (pc.pending row.key).toNat < 4294967296
  | _ => True

instance (s : Pipeline) : ∀ e, Decidable (Careful s e)
  | .enter => inferInstanceAs (Decidable (s.time.passes = []))
  | .finish keyAlloc valueAlloc nodeAlloc =>
    inferInstanceAs (Decidable (NodeAllocated s.time (.finish keyAlloc valueAlloc nodeAlloc)))
  | .write i _ => inferInstanceAs (Decidable (∀ pc ∈ s.time.passes[i]?, ∀ row ∈ s.db.logTemp,
      row.value + (pc.pending row.key).toNat < 4294967296))
  | .acct _ | .take _ _ | .select _ _ | .giveBack _ | .leave _ | .group _ _ =>
    inferInstanceAs (Decidable True)

variable {s s' : Pipeline} {db db₀ : TimeTables} {idUser : IpId} {size : IpSize}

theorem flag_count {rows : List (Row IpId)} (h : (keys rows).Nodup) (idUser : IpId) :
    logTemp.flag (count idUser rows) = decide (idUser ∈ keys rows) := by
  rw [count_of_nodup h]
  split_ifs with hmem
  · exact (decide_eq_true hmem).symm
  · exact (decide_eq_false hmem).symm

theorem whole_group (now : Int) (db : TimeTables) :
    whole (timeGroup now) db = clearLogTemp (insertLogTime now db) := rfl

theorem logged_write (h : (keys db.logTemp).Nodup)
    (hroom : ∀ row ∈ db.logTemp, row.key = idUser → row.value + size.toNat < 4294967296)
    (id : IpId) :
    TimeTables.logged id { db with
      logTemp := writeRow (decide (idUser ∈ keys db.logTemp)) idUser size.toNat db.logTemp } =
      db.logged id + if idUser = id then size.toNat else 0 := by
  simp only [TimeTables.logged, sumOf_writeRow _ h hroom]
  omega

/-- What time_group takes out of Log_Temp it has put into Log_Time. -/
theorem logged_group (now : Int) (db : TimeTables) (id : IpId) :
    (whole (timeGroup now) db).logged id = db.logged id := by
  have hmoved : (((db.logTemp.filter fun row => row.value ≠ 0).map fun row =>
      (⟨now, row.key, row.value⟩ : LogTimeRow)).map LogTimeRow.row) =
        db.logTemp.filter fun row => row.value ≠ 0 := by
    rw [List.map_map]
    exact List.map_id _
  have hfilter : sumOf (· = id) (db.logTemp.filter fun row => row.value ≠ 0) =
      sumOf (· = id) db.logTemp := by
    apply sumOf_filter
    intro row _ hrow
    simpa using hrow
  have hcleared : sumOf (· = id) (db.logTemp.map fun row => ⟨row.key, 0⟩) = 0 := by
    apply sumOf_zero
    intro row hrow
    obtain ⟨old, -, rfl⟩ := List.mem_map.mp hrow
    rfl
  rw [whole_group, TimeTables.logged, clearLogTemp, insertLogTime, hcleared, List.map_append,
    sumOf_append, hmoved, hfilter, TimeTables.logged]
  omega

theorem keys_group (now : Int) (db : TimeTables) :
    keys (whole (timeGroup now) db).logTemp = keys db.logTemp := by
  rw [whole_group, clearLogTemp, keys, List.map_map]
  rfl

/-- A failed time_group changes nothing, the other ones move traffic between the tables. -/
theorem attempt_group (answers : Nat → Bool) (now : Int) (db : TimeTables) :
    let db' := (attempt (fun before _ => before) (timeGroup now) answers db).1
    keys db'.logTemp = keys db.logTemp ∧ ∀ id, db'.logged id = db.logged id := by
  cases h : accepted (timeGroup now).length answers with
  | true =>
    rw [attempt_of_accepted h]
    exact ⟨keys_group now db, logged_group now db⟩
  | false =>
    rw [attempt_of_refused h]
    exact ⟨rfl, fun _ => rfl⟩

/-- At most one pass, and a count that it has made still says whether its row exists. -/
inductive OnePass (ids : List IpId) : List VisitPc → List (Option Bool) → Prop
  | idle : OnePass ids [] []
  | uncounted (pc : VisitPc) : OnePass ids [pc] [none]
  | counted (idUser : IpId) (ptr : Nat) (tmp : IpSize) :
    OnePass ids [.taken idUser ptr tmp] [some (decide (idUser ∈ ids))]

/-- The tables have what the passes have exported. -/
structure Sound (db₀ : TimeTables) (s : Pipeline) : Prop where
  time : TimeInv s.time
  onePass : OnePass (keys s.db.logTemp) s.time.passes s.flags
  unique : (keys s.db.logTemp).Nodup
  exported : ∀ id, UInt32.ofNat (s.db.logged id) =
    UInt32.ofNat (db₀.logged id) + s.time.exported id

section
variable {ids : List IpId} {passes : List VisitPc} {flags : List (Option Bool)} {pc : VisitPc}
  {i : Nat}

theorem OnePass.get (h : OnePass ids passes flags) (hpc : passes[i]? = some pc) :
    i = 0 ∧ passes = [pc] ∧ (flags = [none] ∨ ∃ idUser ptr tmp,
      pc = .taken idUser ptr tmp ∧ flags = [some (decide (idUser ∈ ids))]) := by
  have hi : i < passes.length := (List.getElem?_eq_some_iff.mp hpc).1
  cases h with
  | idle => cases hpc
  | uncounted pc' =>
    obtain rfl : i = 0 := Nat.lt_one_iff.mp hi
    cases hpc
    exact ⟨rfl, rfl, .inl rfl⟩
  | counted idUser ptr tmp =>
    obtain rfl : i = 0 := Nat.lt_one_iff.mp hi
    cases hpc
    exact ⟨rfl, rfl, .inr ⟨idUser, ptr, tmp, rfl, rfl⟩⟩

theorem OnePass.flags_nil (h : OnePass ids [] flags) : flags = [] := by
  cases h
  rfl

/-- A pass that is not between the statements of time_export has no count. -/
theorem OnePass.uncounted_of (h : OnePass ids passes flags) (hpc : passes[i]? = some pc)
    (hpc' : ∀ idUser ptr tmp, pc ≠ .taken idUser ptr tmp) :
    i = 0 ∧ passes = [pc] ∧ flags = [none] := by
  obtain ⟨hi, hpasses, hflags | ⟨idUser, ptr, tmp, htaken, -⟩⟩ := h.get hpc
  · exact ⟨hi, hpasses, hflags⟩
  · exact absurd htaken (hpc' idUser ptr tmp)

end

theorem onTime_some {op : TimeOp} {flags : List (Option Bool)} (h : s.onTime op flags = some s') :
    ∃ time, timeStep s.time op = some time ∧ s' = { s with time := time, flags := flags } := by
  obtain ⟨time, htime, rfl⟩ := Option.map_eq_some_iff.mp h
  exact ⟨time, htime, rfl⟩

/-- A step of the module that exports nothing. -/
theorem Sound.quiet (h : Sound db₀ s) (op : TimeOp) {time : TimeState}
    {flags : List (Option Bool)} (hg : NodeAllocated s.time op)
    (hs : timeStep s.time op = some time)
    (hpass : OnePass (keys s.db.logTemp) time.passes flags)
    (hexported : time.exported = s.time.exported) :
    Sound db₀ { s with time := time, flags := flags } where
  time := h.time.step hg hs
  onePass := hpass
  unique := h.unique
  exported := by
    intro id
    rw [hexported]
    exact h.exported id

theorem Sound.acct (h : Sound db₀ s) {data : PacketDataInfo}
    (hs : s.step (.acct data) = some s') : Sound db₀ s' := by
  obtain ⟨time, htime, rfl⟩ := onTime_some hs
  obtain ⟨pc, -, rfl⟩ := timeLookup_some htime
  exact h.quiet (.acct data) trivial htime h.onePass rfl

theorem Sound.finish (h : Sound db₀ s) {keyAlloc valueAlloc nodeAlloc : Bool}
    (hg : NodeAllocated s.time (.finish keyAlloc valueAlloc nodeAlloc))
    (hs : s.step (.finish keyAlloc valueAlloc nodeAlloc) = some s') : Sound db₀ s' := by
  obtain ⟨time, htime, rfl⟩ := onTime_some hs
  have hsame : time.passes = s.time.passes ∧ time.exported = s.time.exported := by
    obtain ⟨idUser, ptr, len, val, -, -, rfl⟩ |
      ⟨idUser, len, -, ⟨-, agTime, inserted, -, rfl⟩ | ⟨-, rfl⟩⟩ := timeFinish_some htime
    all_goals exact ⟨rfl, rfl⟩
  apply h.quiet _ hg htime _ hsame.2
  rw [hsame.1]
  exact h.onePass

theorem Sound.enter (h : Sound db₀ s) (hg : s.time.passes = [])
    (hs : s.step .enter = some s') : Sound db₀ s' := by
  obtain ⟨time, htime, rfl⟩ := onTime_some hs
  have hflags : s.flags = [] := (hg ▸ h.onePass).flags_nil
  cases htime
  apply h.quiet .enter trivial rfl _ rfl
  rw [hg, hflags]
  exact .uncounted .walking

theorem Sound.take (h : Sound db₀ s) {i : Nat} (hs : s.step (.take i idUser) = some s') :
    Sound db₀ s' := by
  obtain ⟨time, htime, rfl⟩ := onTime_some hs
  obtain ⟨ptr, tmp, hpc, -, -, rfl⟩ := timeTake_some htime
  obtain ⟨rfl, hpasses, hflags⟩ := h.onePass.uncounted_of hpc (by simp)
  apply h.quiet (.take 0 idUser) trivial htime _ rfl
  rw [hpasses, hflags]
  exact .uncounted (.taken idUser ptr tmp)

theorem Sound.giveBack (h : Sound db₀ s) {i : Nat} (hs : s.step (.giveBack i) = some s') :
    Sound db₀ s' := by
  obtain ⟨time, htime, rfl⟩ := onTime_some hs
  obtain ⟨id, ptr, tmp, val, hpc, -, rfl⟩ := timeGiveBack_some htime
  obtain ⟨rfl, hpasses, hflags⟩ := h.onePass.uncounted_of hpc (by simp)
  apply h.quiet (.giveBack 0) trivial htime _ rfl
  rw [hpasses, hflags]
  exact .uncounted .walking

theorem Sound.leave (h : Sound db₀ s) {i : Nat} (hs : s.step (.leave i) = some s') :
    Sound db₀ s' := by
  obtain ⟨time, htime, rfl⟩ := onTime_some hs
  obtain ⟨hpc, rfl⟩ := timeLeave_some htime
  obtain ⟨rfl, hpasses, hflags⟩ := h.onePass.uncounted_of hpc (by simp)
  apply h.quiet (.leave 0) trivial htime _ rfl
  rw [hpasses, hflags]
  exact .idle

/-- The count is made of the tables as they are. -/
theorem Sound.select (h : Sound db₀ s) {i : Nat} {ok : Bool}
    (hs : s.step (.select i ok) = some s') : Sound db₀ s' := by
  change s.select i ok = some s' at hs
  unfold Pipeline.select at hs
  split at hs
  · rename_i id ptr tmp hpc hflag
    obtain ⟨rfl, hpasses, hflags⟩ : i = 0 ∧ s.time.passes = [.taken id ptr tmp] ∧
        s.flags = [none] := by
      obtain ⟨rfl, hpasses, hflags | ⟨_, _, _, -, hflags⟩⟩ := h.onePass.get hpc
      · exact ⟨rfl, hpasses, hflags⟩
      · rw [hflags] at hflag
        cases hflag
    split at hs
    · cases hs
      refine ⟨h.time, ?_, h.unique, h.exported⟩
      rw [flag_count h.unique, hpasses, hflags]
      exact .counted id ptr tmp
    · obtain ⟨time, htime, rfl⟩ := onTime_some hs
      obtain ⟨id', ptr', tmp', -, ⟨hok, -⟩ | ⟨-, rfl⟩⟩ := timeExport_some htime
      · cases hok
      · apply h.quiet (.timeExport 0 false) trivial htime _ rfl
        rw [hpasses, hflags]
        exact .uncounted (.failed id' ptr' tmp')
  · cases hs

/-- What leaves the hands of a pass is in the tables. -/
theorem Sound.write (h : Sound db₀ s) {i : Nat} {ok : Bool} (hg : Careful s (.write i ok))
    (hs : s.step (.write i ok) = some s') : Sound db₀ s' := by
  change s.write i ok = some s' at hs
  unfold Pipeline.write at hs
  split at hs
  · rename_i id ptr tmp flag hpc hflag
    obtain ⟨rfl, hpasses, rfl, hflags⟩ : i = 0 ∧ s.time.passes = [.taken id ptr tmp] ∧
        flag = decide (id ∈ keys s.db.logTemp) ∧
          s.flags = [some (decide (id ∈ keys s.db.logTemp))] := by
      obtain ⟨rfl, hpasses, hflags | ⟨id', ptr', tmp', htaken, hflags⟩⟩ := h.onePass.get hpc
      · rw [hflags] at hflag
        cases hflag
      · cases htaken
        rw [hflags] at hflag
        cases hflag
        exact ⟨rfl, hpasses, rfl, hflags⟩
    obtain ⟨mid, hmid, hs⟩ := Option.map_eq_some_iff.mp hs
    obtain ⟨time, htime, rfl⟩ := onTime_some hmid
    have hfree : NodeAllocated s.time (.timeExport 0 ok) := trivial
    have htimeInv := h.time.step hfree htime
    obtain ⟨id', ptr', tmp', hpc', hcase⟩ := timeExport_some htime
    obtain ⟨rfl, rfl, rfl⟩ : id' = id ∧ ptr' = ptr ∧ tmp' = tmp := by
      rw [hpc] at hpc'
      cases hpc'
      exact ⟨rfl, rfl, rfl⟩
    have hroom : ∀ row ∈ s.db.logTemp, row.key = id' →
        row.value + tmp'.toNat < 4294967296 := by
      intro row hrow hkey
      have hlt := hg (.taken id' ptr' tmp') hpc row hrow
      rwa [VisitPc.pending, if_pos hkey.symm] at hlt
    obtain ⟨rfl, rfl⟩ | ⟨rfl, rfl⟩ := hcase
    · rw [if_pos rfl] at hs
      cases hs
      refine ⟨htimeInv, ?_, keys_writeRow h.unique id' tmp'.toNat, ?_⟩
      · rw [hpasses, hflags]
        exact .uncounted .walking
      · intro id
        have hexported := h.exported id
        change _ = UInt32.ofNat (db₀.logged id) + bump s.time.exported id' tmp' id
        rw [logged_write h.unique hroom, UInt32.ofNat_add, hexported, bump]
        by_cases hid : id = id'
        · rw [if_pos hid, if_pos hid.symm, UInt32.ofNat_toNat]
          exact UInt32.add_assoc _ _ _
        · rw [if_neg hid, if_neg (Ne.symm hid)]
          exact UInt32.add_zero _
    · rw [if_neg Bool.false_ne_true] at hs
      cases hs
      refine ⟨htimeInv, ?_, h.unique, h.exported⟩
      rw [hpasses, hflags]
      exact .uncounted (.failed id' ptr' tmp')
  · cases hs

theorem Sound.group (h : Sound db₀ s) {answers : Nat → Bool} {now : Int}
    (hs : s.step (.group answers now) = some s') : Sound db₀ s' := by
  cases hs
  obtain ⟨hkeys, hlogged⟩ := attempt_group answers now s.db
  refine ⟨h.time, ?_, ?_, ?_⟩
  · rw [hkeys]
    exact h.onePass
  · rw [hkeys]
    exact h.unique
  · intro id
    rw [hlogged]
    exact h.exported id

theorem Sound.step (h : Sound db₀ s) {e : PipelineEvent} (hg : Careful s e)
    (hs : s.step e = some s') : Sound db₀ s' := by
  cases e with
  | acct data => exact h.acct hs
  | finish keyAlloc valueAlloc nodeAlloc => exact h.finish hg hs
  | enter => exact h.enter hg hs
  | take i idUser => exact h.take hs
  | select i ok => exact h.select hs
  | write i ok => exact h.write hg hs
  | giveBack i => exact h.giveBack hs
  | leave i => exact h.leave hs
  | group answers now => exact h.group hs

theorem pipelineInit_sound (h : (keys db₀.logTemp).Nodup) : Sound db₀ (pipelineInit db₀) where
  time := timeInit_inv
  onePass := .idle
  unique := h
  exported := fun _ => (UInt32.add_zero _).symm

/-- Every byte that time_acct has taken for a user is in his node, in the hands of the pass, in
Log_Temp or in Log_Time, and is there once. -/
theorem pipeline_conserves (db₀ : TimeTables) (events : List PipelineEvent) (s : Pipeline)
    (hunique : (keys db₀.logTemp).Nodup)
    (hrun : Run.exec step (pipelineInit db₀) events = some s)
    (hcareful : Run.Guarded step Careful (pipelineInit db₀) events) (id : IpId) :
    UInt32.ofNat (db₀.logged id) + s.time.accounted id =
      UInt32.ofNat (s.db.logged id) + nodeValue s.time.cells s.time.agTime id +
        inFlight s.time.passes id := by
  have hsound : Sound db₀ s := by
    apply Run.exec_invariant _ (pipelineInit_sound hunique) hcareful hrun
    intro s e s' h hg hs
    exact h.step hg hs
  rw [hsound.exported, hsound.time.conserved id]
  simp only [UInt32.add_assoc]

/-- A time_group between the statements of an export, and a packet while it is under way. -/
def groupedBetween : List PipelineEvent :=
  [.acct (timePacket 7), .finish true true true, .enter, .take 0 7, .select 0 true,
    .acct (timePacket 7), .group (fun _ => true) 60, .finish true true true, .write 0 true]

theorem pipeline_conserves_grouped :
    ∃ s, Run.exec step (pipelineInit ⟨[⟨7, 40⟩], []⟩) groupedBetween = some s ∧
      UInt32.ofNat 40 + s.time.accounted 7 =
        UInt32.ofNat (s.db.logged 7) + nodeValue s.time.cells s.time.agTime 7 +
          inFlight s.time.passes 7 :=
  ⟨_, rfl, pipeline_conserves ⟨[⟨7, 40⟩], []⟩ groupedBetween _ (by decide) rfl (by decide) 7⟩

end Pipeline

end IPStat
