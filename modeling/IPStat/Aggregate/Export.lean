import IPStat.Aggregate.Ip
import IPStat.Inet
import IPStat.Lib.Rows
import IPStat.Lib.Run

namespace IPStat

open Rows

def ntohl (a : IpAddr) : UInt32 :=
  (octet a 0).toUInt32 <<< 24 ||| (octet a 1).toUInt32 <<< 16 |||
    (octet a 2).toUInt32 <<< 8 ||| (octet a 3).toUInt32

/-- The columns of Log_IP that its statements name. -/
structure LogIpKey (δ : Type) where
  idUser : IpId
  proto : IpProto
  direct : IpFlag
  addr : UInt32
  port : IpPort
  date : δ
  deriving DecidableEq, Repr

/-- Where time_export and ip_export differ: in the columns that their statements name, with
what CURDATE() answers, and in the type that the count is read into. -/
structure TrafficLog (ρ δ κ : Type) where
  key : ρ → δ → κ
  flag : Nat → Bool

/-- Log_Temp, with an `IP_flag` for the count and no date. -/
def logTemp : TrafficLog IpId Unit IpId where
  key := fun idUser _ => idUser
  flag := fun n => UInt8.ofNat n ≠ 0

/-- Log_IP, with an `int` for the count. -/
def logIp (δ : Type) : TrafficLog StKey δ (LogIpKey δ) where
  key := fun k today => ⟨k.idUser, k.proto, k.direct, ntohl k.addr, k.port, today⟩
  flag := fun n => UInt32.ofNat n ≠ 0

/-- An exporter between its two statements. -/
structure ExportPc (ρ : Type) where
  record : ρ
  size : IpSize
  flag : Bool
  deriving DecidableEq, Repr

/-- A log, the exporters at work on it, and the sum of the sizes they have exported. -/
structure ExportState (ρ κ : Type) where
  rows : List (Row κ)
  exporters : List (ExportPc ρ)
  exported : Nat

inductive ExportOp (ρ δ : Type) where
  | select (record : ρ) (size : IpSize) (today : δ)
  | write (i : Nat) (today : δ)

/-- What an int(10) unsigned column holds of a number. -/
def column (n : Nat) : Nat := min n 4294967295

section
variable {ρ δ κ : Type} [DecidableEq κ] (log : TrafficLog ρ δ κ)

def exportSelect (s : ExportState ρ κ) (record : ρ) (size : IpSize) (today : δ) :
    ExportState ρ κ :=
  { s with
    exporters := s.exporters ++ [⟨record, size, log.flag (count (log.key record today) s.rows)⟩] }

/-- The update or the insert, and the return of TRUE. -/
def exportWrite (s : ExportState ρ κ) (i : Nat) (today : δ) : Option (ExportState ρ κ) :=
  match s.exporters[i]? with
  | none => none
  | some pc =>
    let k := log.key pc.record today
    some {
      rows :=
        if pc.flag then update k (fun n => column (n + pc.size.toNat)) s.rows
        else s.rows ++ [⟨k, pc.size.toNat⟩]
      exporters := s.exporters.eraseIdx i
      exported := s.exported + pc.size.toNat }

def exportStep (s : ExportState ρ κ) : ExportOp ρ δ → Option (ExportState ρ κ)
  | .select record size today => some (exportSelect log s record size today)
  | .write i today => exportWrite log s i today

end

/-- The two logs of one database, each with all the exporters of all daemons. -/
structure LogDb (δ : Type) where
  temp : ExportState IpId IpId
  ip : ExportState StKey (LogIpKey δ)

inductive LogOp (δ : Type) where
  | temp (op : ExportOp IpId Unit)
  | ip (op : ExportOp StKey δ)

section
variable {δ : Type} [DecidableEq δ]

def logStep (db : LogDb δ) : LogOp δ → Option (LogDb δ)
  | .temp op => (exportStep logTemp db.temp op).map fun s => { db with temp := s }
  | .ip op => (exportStep (logIp δ) db.ip op).map fun s => { db with ip := s }

end

/-- No exporter at work yet. -/
def logStart {δ : Type} (temp : List (Row IpId)) (ip : List (Row (LogIpKey δ))) : LogDb δ :=
  ⟨⟨temp, [], 0⟩, ⟨ip, [], 0⟩⟩

section
variable {ρ δ κ : Type}

/-- At a write, the count still says whether the row to be written exists, and its column has
room for the sum. -/
def CountHolds (log : TrafficLog ρ δ κ) (s : ExportState ρ κ) : ExportOp ρ δ → Prop
  | .select _ _ _ => True
  | .write i today => ∀ pc ∈ s.exporters[i]?,
    (pc.flag = true ↔ log.key pc.record today ∈ keys s.rows) ∧
      ∀ r ∈ s.rows, r.key = log.key pc.record today → r.value + pc.size.toNat < 4294967296

def LogGuard (db : LogDb δ) : LogOp δ → Prop
  | .temp op => CountHolds logTemp db.temp op
  | .ip op => CountHolds (logIp δ) db.ip op

/-- One row for each key, and all that was exported on top of what the log held before. -/
structure Exact (before : Nat) (s : ExportState ρ κ) : Prop where
  unique : (keys s.rows).Nodup
  balance : total s.rows = before + s.exported

theorem Exact.step [DecidableEq κ] {log : TrafficLog ρ δ κ} {s s' : ExportState ρ κ} {before : Nat}
    (h : Exact before s) {op : ExportOp ρ δ} (hg : CountHolds log s op)
    (hs : exportStep log s op = some s') : Exact before s' := by
  cases op with
  | select record size today =>
    cases hs
    exact ⟨h.unique, h.balance⟩
  | write i today =>
    change exportWrite log s i today = some s' at hs
    unfold exportWrite at hs
    split at hs
    · cases hs
    · rename_i pc hpc
      obtain ⟨hflag, hroom⟩ := hg pc hpc
      have hbal := h.balance
      cases hs
      cases hf : pc.flag with
      | true =>
        have hmem := hflag.mp hf
        have hadd : ∀ r ∈ s.rows, r.key = log.key pc.record today →
            column (r.value + pc.size.toNat) = r.value + pc.size.toNat := by
          intro r hr hk
          have hlt := hroom r hr hk
          unfold column
          omega
        have hsum := total_update (f := fun n => column (n + pc.size.toNat)) h.unique hmem hadd
        refine ⟨?_, ?_⟩
        · simp only [if_true, keys_update]
          exact h.unique
        · simp only [if_true]
          omega
      | false =>
        have habsent : log.key pc.record today ∉ keys s.rows := by
          intro hmem
          have htrue := hflag.mpr hmem
          rw [hf] at htrue
          cases htrue
        refine ⟨?_, ?_⟩
        · simp only [Bool.false_eq_true, if_false]
          exact nodup_concat h.unique habsent
        · simp only [Bool.false_eq_true, if_false]
          rw [total_concat]
          change total s.rows + pc.size.toNat = before + (s.exported + pc.size.toNat)
          omega

end

section
variable {δ : Type} [DecidableEq δ]

theorem logStep_exact {before before' : Nat} (db : LogDb δ) (op : LogOp δ) (db' : LogDb δ)
    (h : Exact before db.temp ∧ Exact before' db.ip) (hg : LogGuard db op)
    (hs : logStep db op = some db') : Exact before db'.temp ∧ Exact before' db'.ip := by
  cases op with
  | temp op =>
    obtain ⟨s, hstep, heq⟩ := Option.map_eq_some_iff.mp hs
    subst heq
    exact ⟨h.1.step hg hstep, h.2⟩
  | ip op =>
    obtain ⟨s, hstep, heq⟩ := Option.map_eq_some_iff.mp hs
    subst heq
    exact ⟨h.1, h.2.step hg hstep⟩

/-- While every count still holds when it is acted on, each key keeps one row, and both logs
hold exactly what was exported to them. -/
theorem exports_exact (temp : List (Row IpId)) (ip : List (Row (LogIpKey δ)))
    (htemp : (keys temp).Nodup) (hip : (keys ip).Nodup) (ops : List (LogOp δ)) (db : LogDb δ)
    (hrun : Run.exec logStep (logStart temp ip) ops = some db)
    (hg : Run.Guarded logStep LogGuard (logStart temp ip) ops) :
    ((keys db.temp.rows).Nodup ∧ total db.temp.rows = total temp + db.temp.exported) ∧
      (keys db.ip.rows).Nodup ∧ total db.ip.rows = total ip + db.ip.exported := by
  have hstart : Exact (total temp) (logStart temp ip).temp ∧
      Exact (total ip) (logStart temp ip).ip := ⟨⟨htemp, rfl⟩, ⟨hip, rfl⟩⟩
  obtain ⟨ht, hi⟩ := Run.exec_invariant logStep_exact hstart hg hrun
  exact ⟨⟨ht.unique, ht.balance⟩, hi.unique, hi.balance⟩

end

instance {ρ δ κ : Type} [DecidableEq κ] (log : TrafficLog ρ δ κ) (s : ExportState ρ κ) :
    ∀ op, Decidable (CountHolds log s op)
  | .select _ _ _ => inferInstanceAs (Decidable True)
  | .write i today => inferInstanceAs (Decidable (∀ pc ∈ s.exporters[i]?,
      (pc.flag = true ↔ log.key pc.record today ∈ keys s.rows) ∧
        ∀ r ∈ s.rows, r.key = log.key pc.record today → r.value + pc.size.toNat < 4294967296))

instance {δ : Type} [DecidableEq δ] (db : LogDb δ) : ∀ op, Decidable (LogGuard db op)
  | .temp op => inferInstanceAs (Decidable (CountHolds logTemp db.temp op))
  | .ip op => inferInstanceAs (Decidable (CountHolds (logIp δ) db.ip op))

/-- A key of user 7, with bytes of the stack in its padding. -/
def https7 : StKey := ⟨7, 6, 1, 0, 16777226, 443, 52719⟩

/-- Two exporters at work on each log, on different keys or one after the other. -/
def exportsInTurn : List (LogOp Nat) :=
  [.temp (.select 7 100 ()), .temp (.select 9 60 ()), .temp (.write 1 ()), .temp (.write 0 ()),
    .temp (.select 7 50 ()), .ip (.select https7 40 1), .ip (.write 0 1), .temp (.write 0 ()),
    .ip (.select https7 2 1), .ip (.write 0 1)]

/-- The state that a run from empty logs ends in, where it has one. -/
def logRun (ops : List (LogOp Nat)) : LogDb Nat :=
  (Run.exec logStep (logStart [] []) ops).getD (logStart [] [])

theorem exports_exact_in_turn :
    ((keys (logRun exportsInTurn).temp.rows).Nodup ∧
        total (logRun exportsInTurn).temp.rows = 0 + (logRun exportsInTurn).temp.exported) ∧
      (keys (logRun exportsInTurn).ip.rows).Nodup ∧
        total (logRun exportsInTurn).ip.rows = 0 + (logRun exportsInTurn).ip.exported :=
  exports_exact [] [] List.nodup_nil List.nodup_nil exportsInTurn _ (by rfl) (by decide)

/-- Both daemons count before either inserts; a later export is added to both rows. -/
def exportsRace : List (LogOp Nat) :=
  [.temp (.select 7 100 ()), .temp (.select 7 100 ()), .temp (.write 0 ()), .temp (.write 0 ()),
    .temp (.select 7 50 ()), .temp (.write 0 ()),
    .ip (.select https7 40 1), .ip (.select https7 40 1), .ip (.write 0 1), .ip (.write 0 1),
    .ip (.select https7 2 1), .ip (.write 0 1)]

theorem exports_race :
    (Run.exec logStep (logStart [] []) exportsRace).isSome ∧
      (logRun exportsRace).temp.rows = [⟨7, 150⟩, ⟨7, 150⟩] ∧
      (logRun exportsRace).temp.exported = 250 ∧
      (logRun exportsRace).ip.rows.map Row.value = [42, 42] ∧
      (logRun exportsRace).ip.exported = 82 ∧
      ¬ (keys (logRun exportsRace).ip.rows).Nodup := by
  decide

end IPStat
