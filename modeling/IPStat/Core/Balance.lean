import IPStat.Core.Conservation
import Mathlib.Algebra.Order.Field.Rat
import Mathlib.Tactic.Linarith
import Mathlib.Tactic.Ring

namespace IPStat

/-- The row of the select in rules_mysql_export: the rule's user, and the price per kilobyte. -/
structure PriceRow where
  idUser : IpId
  price : ℚ

/-- The columns that the transaction writes: the counters of Rules, and Balance of Users. -/
structure Billing where
  traffic : IpId → Nat
  tDay : IpId → Nat
  tMonth : IpId → Nat
  balance : IpId → ℚ

def countBytes (f : IpId → Nat) (id : IpId) (n : IpSize) : IpId → Nat :=
  Function.update f id (f id + n.toNat)

/-- The kilobytes that are charged, a quotient of integers. -/
def trKb (traffic : IpSize) : Nat := (traffic / 1024).toNat

/-- The statements of a transaction that is committed. -/
def Billing.charge (db : Billing) (row : PriceRow) (id : IpId) (traffic : IpSize) (noSum : Bool) :
    Billing :=
  let db := { db with
    traffic := countBytes db.traffic id traffic
    tDay := countBytes db.tDay id traffic
    tMonth := countBytes db.tMonth id traffic }
  if noSum then db
  else { db with balance :=
    Function.update db.balance row.idUser (db.balance row.idUser - trKb traffic * row.price) }

/-- rules_mysql_export with the tables it works on. -/
def billExport (row : PriceRow) (rule : NodeRule) (db : Billing) (e : ExportEnv × IpSize) :
    Option (Billing × Bool) :=
  (rulesMysqlExport e.1 rule.noSum).map fun ok =>
    (if ok then db.charge row rule.id e.2 rule.noSum else db, ok)

/-- The same for its callers' loops: the tables after it. -/
def billStep (row : PriceRow) (rule : NodeRule) (db : Billing) (e : ExportEnv × IpSize) :
    Option Billing :=
  (billExport row rule db e).map Prod.fst

/-- Parts rounded down make up the whole rounded down exactly when the remainders make up no
further unit. -/
theorem sum_div_eq_iff {d : Nat} (hd : 0 < d) (ts : List Nat) :
    (ts.map (· / d)).sum = ts.sum / d ↔ (ts.map (· % d)).sum < d := by
  have hsplit : d * (ts.map (· / d)).sum + (ts.map (· % d)).sum = ts.sum := by
    induction ts with
    | nil => rfl
    | cons t ts ih =>
      have ht := Nat.div_add_mod t d
      simp only [List.map_cons, List.sum_cons, Nat.mul_add]
      omega
  rw [← hsplit, Nat.mul_add_div hd]
  constructor
  · intro h
    have hzero : (ts.map (· % d)).sum / d = 0 := by omega
    exact (Nat.div_eq_zero_iff_lt hd).mp hzero
  · intro h
    rw [Nat.div_eq_of_lt h, Nat.add_zero]

section
variable (row : PriceRow) {rule : NodeRule}

theorem billStep_some {db : Billing} {e : ExportEnv × IpSize}
    (hok : rulesMysqlExport e.1 rule.noSum = some true) :
    billStep row rule db e = some (db.charge row rule.id e.2 rule.noSum) := by
  simp [billStep, billExport, hok]

theorem charge_balance (db : Billing) (id : IpId) (traffic : IpSize) :
    (db.charge row id traffic false).balance row.idUser =
      db.balance row.idUser - trKb traffic * row.price := by
  simp [Billing.charge]

/-- Successful exports return, and take the kilobytes of each from the balance. -/
theorem exec_billStep (hsum : rule.noSum = false) {es : List (ExportEnv × IpSize)}
    (hok : ∀ e ∈ es, rulesMysqlExport e.1 rule.noSum = some true) (db : Billing) :
    ∃ db', Run.exec (billStep row rule) db es = some db' ∧
      db.balance row.idUser - db'.balance row.idUser =
        ((es.map fun e => trKb e.2).sum : Nat) * row.price := by
  induction es generalizing db with
  | nil => exact ⟨db, rfl, by simp⟩
  | cons e es ih =>
    have hfirst : billStep row rule db e = some (db.charge row rule.id e.2 rule.noSum) :=
      billStep_some row (hok e List.mem_cons_self)
    obtain ⟨db', hexec, hrest⟩ := ih (fun f hf => hok f (List.mem_cons_of_mem e hf))
      (db.charge row rule.id e.2 rule.noSum)
    refine ⟨db', by rw [Run.exec_cons e es hfirst, hexec], ?_⟩
    rw [hsum, charge_balance] at hrest
    rw [List.map_cons, List.sum_cons, Nat.cast_add, add_mul]
    linarith

end

/-- A rule whose bytes are summed, its price and a split of a total that one export could take:
the exports of the parts take from the balance what the one export takes exactly when the price
is zero or the parts leave less than a kilobyte over. -/
theorem charge_split_iff (row : PriceRow) (rule : NodeRule) (hsum : rule.noSum = false)
    (es : List (ExportEnv × IpSize)) (env : ExportEnv) (total : IpSize)
    (hok : ∀ e ∈ es, rulesMysqlExport e.1 rule.noSum = some true)
    (hone : rulesMysqlExport env rule.noSum = some true)
    (htotal : (es.map fun e => e.2.toNat).sum = total.toNat) (db : Billing) :
    ∃ split whole, Run.exec (billStep row rule) db es = some split ∧
      billExport row rule db (env, total) = some (whole, true) ∧
      (db.balance row.idUser - split.balance row.idUser =
          db.balance row.idUser - whole.balance row.idUser ↔
        row.price = 0 ∨ (es.map fun e => e.2.toNat % 1024).sum < 1024) := by
  obtain ⟨split, hexec, hsplit⟩ := exec_billStep row hsum hok db
  have hkb (n : IpSize) : trKb n = n.toNat / 1024 := UInt32.toNat_div n 1024
  have hrounded := sum_div_eq_iff (by decide : 0 < 1024) (es.map fun e => e.2.toNat)
  rw [htotal, List.map_map, List.map_map] at hrounded
  refine ⟨split, db.charge row rule.id total rule.noSum, hexec, by simp [billExport, hone], ?_⟩
  rw [hsplit, hsum, charge_balance]
  have hwhole : db.balance row.idUser - (db.balance row.idUser - trKb total * row.price) =
      trKb total * row.price := by ring
  rw [hwhole, mul_eq_mul_right_iff, Nat.cast_inj]
  simp only [hkb]
  rw [or_comm]
  exact or_congr Iff.rfl hrounded

/-- An export that sums, at a price of 1 for a kilobyte. -/
def priceOne : PriceRow := ⟨7, 1⟩

def accounts : Billing := ⟨fun _ => 0, fun _ => 0, fun _ => 0, fun _ => 100⟩

/-- 1024 and 1000 bytes cost what 2024 cost. -/
theorem charge_split_even : ∃ split whole,
    Run.exec (billStep priceOne (squidRule 1 10 1)) accounts [(storeUp, 1024), (storeUp, 1000)] =
      some split ∧
    billExport priceOne (squidRule 1 10 1) accounts (storeUp, 2024) = some (whole, true) ∧
    accounts.balance 7 - split.balance 7 = accounts.balance 7 - whole.balance 7 := by
  have hup : rulesMysqlExport storeUp (squidRule 1 10 1).noSum = some true := by decide
  obtain ⟨split, whole, hsplit, hwhole, hiff⟩ := charge_split_iff priceOne (squidRule 1 10 1)
    (by decide) [(storeUp, 1024), (storeUp, 1000)] storeUp 2024 (by simp [hup]) hup (by decide)
    accounts
  exact ⟨split, whole, hsplit, hwhole, hiff.mpr (.inr (by decide))⟩

/-- Twice 512 bytes cost nothing, 1024 bytes cost 1. -/
theorem charge_split_lost : ∃ split whole,
    Run.exec (billStep priceOne (squidRule 1 10 1)) accounts [(storeUp, 512), (storeUp, 512)] =
      some split ∧
    billExport priceOne (squidRule 1 10 1) accounts (storeUp, 1024) = some (whole, true) ∧
    accounts.balance 7 - split.balance 7 = 0 ∧ accounts.balance 7 - whole.balance 7 = 1 := by
  have hup : rulesMysqlExport storeUp (squidRule 1 10 1).noSum = some true := by decide
  have hsum : (squidRule 1 10 1).noSum = false := by decide
  have hhalf : trKb 512 = 0 := by decide
  have hkb : trKb 1024 = 1 := by decide
  obtain ⟨split, hexec, hsplit⟩ : ∃ split, Run.exec (billStep priceOne (squidRule 1 10 1)) accounts
      [(storeUp, 512), (storeUp, 512)] = some split ∧ _ :=
    exec_billStep priceOne hsum (by simp [hup]) accounts
  have hnothing : accounts.balance 7 - split.balance 7 =
      ((trKb 512 + (trKb 512 + 0) : Nat) : ℚ) * 1 := hsplit
  refine ⟨split, _, hexec, by simp only [billExport, hup, Option.map_some]; rfl, ?_, ?_⟩
  · simpa [hhalf] using hnothing
  · show accounts.balance 7 - (accounts.charge priceOne 1 1024 (squidRule 1 10 1).noSum).balance
      priceOne.idUser = 1
    rw [hsum, charge_balance, hkb]
    simp [accounts, priceOne]

end IPStat
