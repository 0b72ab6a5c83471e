import IPStat.Lib.Recut
import Mathlib.Data.Set.Defs
import Mathlib.Logic.Function.Defs
import Mathlib.Tactic.ByContra
import Mathlib.Tactic.Push
import Mathlib.Tactic.SplitIfs

namespace IPStat

/-- A text as MySQL renders a column. -/
abbrev Text := List Char

def decimal (n : Nat) : Text := Nat.toDigits 10 n

def signed (n : Int) : Text := if n < 0 then '-' :: decimal n.natAbs else decimal n.natAbs

/-- A column of type enum('0','1'). -/
def enum01 (b : Bool) : Text := if b then ['1'] else ['0']

/-- What a column holds. -/
inductive Cell where
  | unsigned (n : Nat)
  | signed (n : Int)
  | text (s : Text)
  | enum (b : Bool)
  deriving DecidableEq

inductive ColumnType where
  | unsigned
  | signed
  | text
  | enum
  deriving DecidableEq

def Cell.type : Cell → ColumnType
  | .unsigned _ => .unsigned
  | .signed _ => .signed
  | .text _ => .text
  | .enum _ => .enum

def Cell.render : Cell → Text
  | .unsigned n => decimal n
  | .signed n => IPStat.signed n
  | .text s => s
  | .enum b => enum01 b

/-- The rows of a table as a sync query fingerprints them: the arguments of its concat, in order,
and what they are in a row. The columns of one type stay of that type, and with the row's id they
hold all that the loader copies. -/
structure Tracked where
  Row : Type
  Column : Type
  columns : List Column
  type : Column → ColumnType
  cell : Row → Column → Cell
  typed : ∀ r c, (cell r c).type = type c
  faithful : ∀ {r r'}, (∀ c ∈ columns, cell r c = cell r' c) → r = r'

/-- `md5(concat(..))`. -/
def fingerprint {δ : Type} (md5 : Text → δ) (texts : List Text) : δ := md5 texts.flatten

namespace Tracked

variable (t : Tracked)

def texts (r : t.Row) : List Text := t.columns.map fun c => (t.cell r c).render

/-- The sync query's fingerprint of the new content is not the one stored at loading, so the
memcmp of the pass reloads the entry. -/
def Detected {δ : Type} (md5 : Text → δ) (old new : t.Row) : Prop :=
  fingerprint md5 (t.texts old) ≠ fingerprint md5 (t.texts new)

/-- An edit that changes columns of `S` only. -/
def ConfinedTo (S : Set t.Column) (old new : t.Row) : Prop :=
  ∀ c ∈ t.columns, c ∉ S → t.cell old c = t.cell new c

def WidthChanges (old new : t.Row) (c : t.Column) : Prop :=
  (t.cell old c).render.length ≠ (t.cell new c).render.length

/-- A column that an edit can change, and that is no enum. -/
structure Free (c : t.Column) : Prop where
  mem : c ∈ t.columns
  wide : t.type c ≠ .enum
  varies : ∃ r r', t.cell r c ≠ t.cell r' c

end Tracked

/-- The columns of Users that users_mysql_insert copies. -/
@[ext] structure UsersRow where
  idGroup : UInt32
  addr : Text
  mac : Text
  onActive : Bool
  deriving DecidableEq

inductive UsersColumn where
  | idGroup
  | addr
  | mac
  | onActive
  deriving DecidableEq

def UsersRow.cell (r : UsersRow) : UsersColumn → Cell
  | .idGroup => .unsigned r.idGroup.toNat
  | .addr => .text r.addr
  | .mac => .text r.mac
  | .onActive => .enum r.onActive

/-- The columns of Rules and Type_Traffic that rules_mysql_load copies, without the rule's id; a
double is held as its text. -/
@[ext] structure RulesRow where
  idType : UInt32
  idGroup : UInt32
  direct : UInt8
  proto : UInt8
  net : Text
  mask : UInt8
  ports : UInt32
  action : UInt8
  onActive : Bool
  price : Text
  deriving DecidableEq

inductive RulesColumn where
  | id
  | idType
  | idGroup
  | direct
  | proto
  | net
  | mask
  | ports
  | action
  | onActive
  | price
  deriving DecidableEq

def RulesRow.cell (id : UInt32) (r : RulesRow) : RulesColumn → Cell
  | .id => .unsigned id.toNat
  | .idType => .unsigned r.idType.toNat
  | .idGroup => .unsigned r.idGroup.toNat
  | .direct => .unsigned r.direct.toNat
  | .proto => .unsigned r.proto.toNat
  | .net => .text r.net
  | .mask => .unsigned r.mask.toNat
  | .ports => .unsigned r.ports.toNat
  | .action => .unsigned r.action.toNat
  | .onActive => .enum r.onActive
  | .price => .text r.price

/-- The columns of Rules_GroupTraffic that insert_limit copies. -/
@[ext] structure LimitRow where
  idUser : Int32
  idGroup : Int32
  type : Int8
  limitation : Int64
  onBlocked : Bool
  deriving DecidableEq

inductive LimitColumn where
  | idUser
  | idGroup
  | type
  | limitation
  | onBlocked
  deriving DecidableEq

def LimitRow.cell (r : LimitRow) : LimitColumn → Cell
  | .idUser => .signed r.idUser.toInt
  | .idGroup => .signed r.idGroup.toInt
  | .type => .signed r.type.toInt
  | .limitation => .signed r.limitation.toInt
  | .onBlocked => .enum r.onBlocked

/-- The columns of Policy_Time_Def that insert_policy_time copies. -/
@[ext] structure IntervalRow where
  idPolicy : Int32
  weekDay : UInt8
  timeBegin : UInt32
  timeEnd : UInt32
  target : Bool
  deriving DecidableEq

inductive IntervalColumn where
  | idPolicy
  | weekDay
  | timeBegin
  | timeEnd
  | target
  deriving DecidableEq

def IntervalRow.cell (r : IntervalRow) : IntervalColumn → Cell
  | .idPolicy => .signed r.idPolicy.toInt
  | .weekDay => .unsigned r.weekDay.toNat
  | .timeBegin => .unsigned r.timeBegin.toNat
  | .timeEnd => .unsigned r.timeEnd.toNat
  | .target => .enum r.target

/-- users_sync, line 471. -/
def usersTracked : Tracked where
  Row := UsersRow
  Column := UsersColumn
  columns := [.idGroup, .addr, .mac, .onActive]
  type
    | .idGroup => .unsigned
    | .addr | .mac => .text
    | .onActive => .enum
  cell := UsersRow.cell
  typed _ c := by cases c <;> rfl
  faithful h := by
    simp only [List.forall_mem_cons, UsersRow.cell, Cell.unsigned.injEq, Cell.text.injEq,
      Cell.enum.injEq, UInt32.toNat_inj] at h
    obtain ⟨hgroup, haddr, hmac, hactive, -⟩ := h
    exact UsersRow.ext hgroup haddr hmac hactive

/-- rules_sync, for the rule with the id. -/
def rulesTracked (id : UInt32) : Tracked where
  Row := RulesRow
  Column := RulesColumn
  columns := [.id, .idType, .idGroup, .direct, .proto, .net, .mask, .ports, .action, .onActive,
    .price]
  type
    | .net | .price => .text
    | .onActive => .enum
    | _ => .unsigned
  cell := RulesRow.cell id
  typed _ c := by cases c <;> rfl
  faithful h := by
    simp only [List.forall_mem_cons, RulesRow.cell, Cell.unsigned.injEq, Cell.text.injEq,
      Cell.enum.injEq, UInt32.toNat_inj, UInt8.toNat_inj] at h
    obtain ⟨-, htype, hgroup, hdirect, hproto, hnet, hmask, hports, haction, hactive, hprice, -⟩ :=
      h
    exact RulesRow.ext htype hgroup hdirect hproto hnet hmask hports haction hactive hprice

/-- sync_limits. -/
def limitsTracked : Tracked where
  Row := LimitRow
  Column := LimitColumn
  columns := [.idUser, .idGroup, .type, .limitation, .onBlocked]
  type
    | .onBlocked => .enum
    | _ => .signed
  cell := LimitRow.cell
  typed _ c := by cases c <;> rfl
  faithful h := by
    simp only [List.forall_mem_cons, LimitRow.cell, Cell.signed.injEq, Cell.enum.injEq,
      Int32.toInt_inj, Int8.toInt_inj, Int64.toInt_inj] at h
    obtain ⟨huser, hgroup, htype, hlimitation, hblocked, -⟩ := h
    exact LimitRow.ext huser hgroup htype hlimitation hblocked

/-- sync_time_list. -/
def intervalsTracked : Tracked where
  Row := IntervalRow
  Column := IntervalColumn
  columns := [.idPolicy, .weekDay, .timeBegin, .timeEnd, .target]
  type
    | .idPolicy => .signed
    | .target => .enum
    | _ => .unsigned
  cell := IntervalRow.cell
  typed _ c := by cases c <;> rfl
  faithful h := by
    simp only [List.forall_mem_cons, IntervalRow.cell, Cell.signed.injEq, Cell.unsigned.injEq,
      Cell.enum.injEq, Int32.toInt_inj, UInt32.toNat_inj, UInt8.toNat_inj] at h
    obtain ⟨hpolicy, hday, hbegin, hend, htarget, -⟩ := h
    exact IntervalRow.ext hpolicy hday hbegin hend htarget

/-- The tables of the four passes; a rule keeps its id. -/
inductive TrackedTable where
  | users
  | rules (id : UInt32)
  | limits
  | intervals

def TrackedTable.tracked : TrackedTable → Tracked
  | .users => usersTracked
  | .rules id => rulesTracked id
  | .limits => limitsTracked
  | .intervals => intervalsTracked

theorem decimal_injective : Function.Injective decimal := by
  intro m n h
  have hread := congrArg (fun s => Nat.ofDigitChars 10 s 0) h
  simpa only [decimal, Nat.ofDigitChars_ten_toDigits] using hread

/-- A minus sign is no digit. -/
theorem decimal_ne_minus (n : Nat) (s : Text) : decimal n ≠ '-' :: s := by
  intro h
  have hminus : '-' ∈ Nat.toDigits 10 n := by
    rw [show Nat.toDigits 10 n = '-' :: s from h]
    exact List.mem_cons_self
  exact absurd (Nat.isDigit_of_mem_toDigits (by decide) (by decide) hminus) (by decide)

theorem signed_injective : Function.Injective signed := by
  intro m n h
  unfold signed at h
  split_ifs at h with hm hn hn
  · have habs := decimal_injective (List.cons.inj h).2
    omega
  · exact absurd h.symm (decimal_ne_minus _ _)
  · exact absurd h (decimal_ne_minus _ _)
  · have habs := decimal_injective h
    omega

theorem enum01_injective : Function.Injective enum01 := by
  unfold Function.Injective
  decide

/-- Cells of one type that are rendered alike are alike. -/
theorem Cell.render_injective {a b : Cell} (htype : a.type = b.type) (h : a.render = b.render) :
    a = b := by
  cases a with
  | unsigned n =>
    cases b <;> cases htype
    exact congrArg Cell.unsigned (decimal_injective h)
  | signed n =>
    cases b <;> cases htype
    exact congrArg Cell.signed (signed_injective h)
  | text s =>
    cases b <;> cases htype
    exact congrArg Cell.text h
  | enum on =>
    cases b <;> cases htype
    exact congrArg Cell.enum (enum01_injective h)

namespace Tracked

variable {t : Tracked} {old new : t.Row}

/-- Contents that differ somewhere are rendered differently in some column. -/
theorem texts_differ (hne : old ≠ new) :
    ∃ c ∈ t.columns, (t.cell old c).render ≠ (t.cell new c).render := by
  by_contra hall
  push Not at hall
  apply hne
  apply t.faithful
  intro c hc
  exact Cell.render_injective ((t.typed old c).trans (t.typed new c).symm) (hall c hc)

theorem Free.ne {c d : t.Column} (hc : t.Free c) (hd : t.type d = .enum) : c ≠ d := by
  intro h
  exact hc.wide (by rw [h, hd])

/-- A column that is not free is as wide in every row. -/
theorem width_of_not_free {c : t.Column} (hc : c ∈ t.columns) (hfree : ¬ t.Free c) :
    ¬ t.WidthChanges old new c := by
  by_cases henum : t.type c = .enum
  · have hwidth (r : t.Row) : (t.cell r c).render.length = 1 := by
      have htype := (t.typed r c).trans henum
      cases hcell : t.cell r c with
      | enum b => cases b <;> rfl
      | unsigned n => rw [hcell] at htype; cases htype
      | signed n => rw [hcell] at htype; cases htype
      | text s => rw [hcell] at htype; cases htype
    exact not_not.mpr ((hwidth old).trans (hwidth new).symm)
  · have hsame : t.cell old c = t.cell new c := by
      by_contra hne
      exact hfree ⟨hc, henum, old, new, hne⟩
    exact not_not.mpr (by rw [hsame])

/-- An edit that changes the width of one column at most is detected. -/
theorem detected_of_widths {δ : Type} {md5 : Text → δ} (hinj : Function.Injective md5)
    (hne : old ≠ new)
    (hw : ∀ c ∈ t.columns, ∀ d ∈ t.columns, t.WidthChanges old new c → t.WidthChanges old new d →
      c = d) : t.Detected md5 old new := by
  intro hsame
  have hflat : (t.texts old).flatten = (t.texts new).flatten := hinj hsame
  obtain ⟨e, he, hdiffer⟩ := texts_differ hne
  by_cases hwide : ∃ c ∈ t.columns, t.WidthChanges old new c
  · obtain ⟨c, hc, hchange⟩ := hwide
    have hrest : ∀ d ∈ t.columns, d ≠ c →
        (t.cell old d).render.length = (t.cell new d).render.length := by
      intro d hd hdc
      by_contra hchanged
      exact hdc (hw d hd c hc hchanged hchange)
    exact hdiffer (Boundary.eq_of_widths_but hflat hrest e he)
  · have hall : ∀ d ∈ t.columns,
        (t.cell old d).render.length = (t.cell new d).render.length := by
      intro d hd
      by_contra hchanged
      exact hwide ⟨d, hd, hchanged⟩
    exact hdiffer (Boundary.eq_of_widths hflat hall e he)

/-- Rows that have a column longer by one digit than the rest, all digits being alike, read alike
when joined. -/
structure Ones (t : Tracked) where
  row : t.Column → t.Row
  joined : Text
  flatten_eq : ∀ {c}, t.Free c → (t.texts (row c)).flatten = joined
  others : ∀ {c d e}, e ≠ c → e ≠ d → t.cell (row c) e = t.cell (row d) e
  longer : ∀ {c d}, t.Free c → c ≠ d → t.cell (row c) c ≠ t.cell (row d) c

/-- Two free columns can take the digit from each other. -/
theorem Ones.missed (ones : t.Ones) {δ : Type} (md5 : Text → δ) {c d : t.Column} (hc : t.Free c)
    (hd : t.Free d) (hcd : c ≠ d) : ∃ old new, old ≠ new ∧
      (∀ e, e ≠ c → e ≠ d → t.cell old e = t.cell new e) ∧ ¬ t.Detected md5 old new := by
  refine ⟨ones.row c, ones.row d, ?_, fun e hec hed => ones.others hec hed, ?_⟩
  · intro hsame
    exact ones.longer hc hcd (by rw [hsame])
  · intro hdetected
    apply hdetected
    rw [fingerprint, fingerprint, ones.flatten_eq hc, ones.flatten_eq hd]

/-- The edits of a set of columns are all detected exactly when one of them at most is free. -/
theorem Ones.detected_iff (ones : t.Ones) {δ : Type} {md5 : Text → δ}
    (hinj : Function.Injective md5) (S : Set t.Column) :
    (∀ old new, t.ConfinedTo S old new → old ≠ new → t.Detected md5 old new) ↔
      ∀ c ∈ S, ∀ d ∈ S, t.Free c → t.Free d → c = d := by
  constructor
  · intro hall c hc d hd hcfree hdfree
    by_contra hcd
    obtain ⟨old, new, hne, hsame, hmissed⟩ := ones.missed md5 hcfree hdfree hcd
    have hconfined : t.ConfinedTo S old new := by
      intro e _ he
      exact hsame e (fun h => he (h ▸ hc)) (fun h => he (h ▸ hd))
    exact hmissed (hall old new hconfined hne)
  · intro hone old new hconfined hne
    have hchanged : ∀ c ∈ t.columns, t.WidthChanges old new c → c ∈ S ∧ t.Free c := by
      intro c hc hchange
      constructor
      · by_contra hout
        exact hchange (by rw [hconfined c hc hout])
      · by_contra hfree
        exact width_of_not_free hc hfree hchange
    apply detected_of_widths hinj hne
    intro c hc d hd hcw hdw
    obtain ⟨hcS, hcfree⟩ := hchanged c hc hcw
    obtain ⟨hdS, hdfree⟩ := hchanged d hd hdw
    exact hone c hcS d hdS hcfree hdfree

end Tracked

/-- 11 in the column, 1 in all others. -/
def UsersRow.ones (c : UsersColumn) : UsersRow where
  idGroup := if c = .idGroup then 11 else 1
  addr := if c = .addr then ['1', '1'] else ['1']
  mac := if c = .mac then ['1', '1'] else ['1']
  onActive := true

def RulesRow.ones (c : RulesColumn) : RulesRow where
  idType := if c = .idType then 11 else 1
  idGroup := if c = .idGroup then 11 else 1
  direct := if c = .direct then 11 else 1
  proto := if c = .proto then 11 else 1
  net := if c = .net then ['1', '1'] else ['1']
  mask := if c = .mask then 11 else 1
  ports := if c = .ports then 11 else 1
  action := if c = .action then 11 else 1
  onActive := true
  price := if c = .price then ['1', '1'] else ['1']

def LimitRow.ones (c : LimitColumn) : LimitRow where
  idUser := if c = .idUser then 11 else 1
  idGroup := if c = .idGroup then 11 else 1
  type := if c = .type then 11 else 1
  limitation := if c = .limitation then 11 else 1
  onBlocked := true

def IntervalRow.ones (c : IntervalColumn) : IntervalRow where
  idPolicy := if c = .idPolicy then 11 else 1
  weekDay := if c = .weekDay then 11 else 1
  timeBegin := if c = .timeBegin then 11 else 1
  timeEnd := if c = .timeEnd then 11 else 1
  target := true

theorem UsersRow.ones_others {c d e : UsersColumn} (hc : e ≠ c) (hd : e ≠ d) :
    (UsersRow.ones c).cell e = (UsersRow.ones d).cell e := by
  cases e <;> simp [UsersRow.cell, UsersRow.ones, Ne.symm hc, Ne.symm hd]

theorem UsersRow.ones_longer {c d : UsersColumn} (henum : c ≠ .onActive) (hcd : c ≠ d) :
    (UsersRow.ones c).cell c ≠ (UsersRow.ones d).cell c := by
  cases c <;> simp_all [UsersRow.cell, UsersRow.ones, Ne.symm hcd]

def usersOnes : usersTracked.Ones where
  row := UsersRow.ones
  joined := List.replicate 5 '1'
  flatten_eq {c} hc := by
    have henum : c ≠ .onActive := hc.ne rfl
    cases c <;> first | rfl | contradiction
  others hc hd := UsersRow.ones_others hc hd
  longer {c d} hc hcd := by
    have henum : c ≠ .onActive := hc.ne rfl
    exact UsersRow.ones_longer henum hcd

theorem RulesRow.ones_others (id : UInt32) {c d e : RulesColumn} (hc : e ≠ c) (hd : e ≠ d) :
    (RulesRow.ones c).cell id e = (RulesRow.ones d).cell id e := by
  cases e <;> simp [RulesRow.cell, RulesRow.ones, Ne.symm hc, Ne.symm hd]

theorem RulesRow.ones_longer (id : UInt32) {c d : RulesColumn} (henum : c ≠ .onActive)
    (hid : c ≠ .id) (hcd : c ≠ d) :
    (RulesRow.ones c).cell id c ≠ (RulesRow.ones d).cell id c := by
  cases c <;> simp_all [RulesRow.cell, RulesRow.ones, Ne.symm hcd]

theorem id_not_free (id : UInt32) : ¬ (rulesTracked id).Free RulesColumn.id := by
  intro h
  obtain ⟨r, r', hvaries⟩ := h.varies
  exact hvaries rfl

def rulesOnes (id : UInt32) : (rulesTracked id).Ones where
  row := RulesRow.ones
  joined := decimal id.toNat ++ List.replicate 11 '1'
  flatten_eq {c} hc := by
    have henum : c ≠ .onActive := hc.ne rfl
    have hid : c ≠ .id := fun h => id_not_free id (h ▸ hc)
    cases c <;> first | rfl | contradiction
  others hc hd := RulesRow.ones_others id hc hd
  longer {c d} hc hcd := by
    have henum : c ≠ .onActive := hc.ne rfl
    have hid : c ≠ .id := fun h => id_not_free id (h ▸ hc)
    exact RulesRow.ones_longer id henum hid hcd

theorem LimitRow.ones_others {c d e : LimitColumn} (hc : e ≠ c) (hd : e ≠ d) :
    (LimitRow.ones c).cell e = (LimitRow.ones d).cell e := by
  cases e <;> simp [LimitRow.cell, LimitRow.ones, Ne.symm hc, Ne.symm hd]

theorem LimitRow.ones_longer {c d : LimitColumn} (henum : c ≠ .onBlocked) (hcd : c ≠ d) :
    (LimitRow.ones c).cell c ≠ (LimitRow.ones d).cell c := by
  cases c <;> simp_all [LimitRow.cell, LimitRow.ones, Ne.symm hcd]

def limitsOnes : limitsTracked.Ones where
  row := LimitRow.ones
  joined := List.replicate 6 '1'
  flatten_eq {c} hc := by
    have henum : c ≠ .onBlocked := hc.ne rfl
    cases c <;> first | rfl | contradiction
  others hc hd := LimitRow.ones_others hc hd
  longer {c d} hc hcd := by
    have henum : c ≠ .onBlocked := hc.ne rfl
    exact LimitRow.ones_longer henum hcd

theorem IntervalRow.ones_others {c d e : IntervalColumn} (hc : e ≠ c) (hd : e ≠ d) :
    (IntervalRow.ones c).cell e = (IntervalRow.ones d).cell e := by
  cases e <;> simp [IntervalRow.cell, IntervalRow.ones, Ne.symm hc, Ne.symm hd]

theorem IntervalRow.ones_longer {c d : IntervalColumn} (henum : c ≠ .target) (hcd : c ≠ d) :
    (IntervalRow.ones c).cell c ≠ (IntervalRow.ones d).cell c := by
  cases c <;> simp_all [IntervalRow.cell, IntervalRow.ones, Ne.symm hcd]

def intervalsOnes : intervalsTracked.Ones where
  row := IntervalRow.ones
  joined := List.replicate 6 '1'
  flatten_eq {c} hc := by
    have henum : c ≠ .target := hc.ne rfl
    cases c <;> first | rfl | contradiction
  others hc hd := IntervalRow.ones_others hc hd
  longer {c d} hc hcd := by
    have henum : c ≠ .target := hc.ne rfl
    exact IntervalRow.ones_longer henum hcd

def TrackedTable.ones : (table : TrackedTable) → table.tracked.Ones
  | .users => usersOnes
  | .rules id => rulesOnes id
  | .limits => limitsOnes
  | .intervals => intervalsOnes

/-- A change of a row is detected exactly when it is no recut of the same characters, and always
when one column at most changes its width. For the edits of a set of columns this comes to: all of
them are detected exactly when at most one of the columns is free, that is no enum and not the
rule's id. -/
theorem edit_detected_iff {δ : Type} (md5 : Text → δ) (hinj : Function.Injective md5)
    (table : TrackedTable) :
    (∀ old new : table.tracked.Row, table.tracked.Detected md5 old new ↔
      ¬ Boundary.Recut (table.tracked.texts old) (table.tracked.texts new)) ∧
    (∀ old new : table.tracked.Row, old ≠ new →
      (∀ c ∈ table.tracked.columns, ∀ d ∈ table.tracked.columns,
        table.tracked.WidthChanges old new c → table.tracked.WidthChanges old new d → c = d) →
      table.tracked.Detected md5 old new) ∧
    ∀ S : Set table.tracked.Column,
      (∀ old new, table.tracked.ConfinedTo S old new → old ≠ new →
        table.tracked.Detected md5 old new) ↔
      ∀ c ∈ S, ∀ d ∈ S, table.tracked.Free c → table.tracked.Free d → c = d := by
  refine ⟨?_, fun _ _ hne hw => Tracked.detected_of_widths hinj hne hw,
    table.ones.detected_iff hinj⟩
  intro old new
  have hlength : (table.tracked.texts old).length = (table.tracked.texts new).length := by
    rw [Tracked.texts, Tracked.texts, List.length_map, List.length_map]
  rw [Tracked.Detected, fingerprint, fingerprint, ← Boundary.flatten_eq_iff hlength, ne_eq,
    hinj.eq_iff]

/-- 192.168.0.1 of group 1. -/
def userBefore : UsersRow :=
  ⟨1, ['1', '9', '2', '.', '1', '6', '8', '.', '0', '.', '1'], [], true⟩

/-- 192.168.0.1 of group 2. -/
def userMoved : UsersRow :=
  ⟨2, ['1', '9', '2', '.', '1', '6', '8', '.', '0', '.', '1'], [], true⟩

theorem edit_detected_group : userBefore ≠ userMoved ∧
    usersTracked.Detected (fun s => s) userBefore userMoved := by
  have hne : userBefore ≠ userMoved := by decide
  refine ⟨hne, ((edit_detected_iff (fun s => s) Function.injective_id .users).2.2
    {UsersColumn.idGroup}).mpr ?_ userBefore userMoved ?_ hne⟩
  · intro c hc d hd _ _
    exact hc.trans hd.symm
  · intro c _ hc
    cases c with
    | idGroup => exact absurd rfl hc
    | _ => rfl

/-- 92.168.0.1 of group 11. -/
def userAfter : UsersRow := ⟨11, ['9', '2', '.', '1', '6', '8', '.', '0', '.', '1'], [], true⟩

/-- The group takes over the first digit of the address and the fingerprint stays. -/
theorem edit_missed :
    userBefore ≠ userAfter ∧ ¬ usersTracked.Detected (fun s => s) userBefore userAfter := by
  refine ⟨by decide, fun h => h ?_⟩
  decide

end IPStat
