import IPStat.Lib.Aged
import IPStat.Policy.Steps
import Mathlib.Data.List.Infix
import Mathlib.Data.List.Sort

namespace IPStat

/-- A row of Policy_Time_Def or of Policy_URL_Def. -/
structure DefRow (ρ : Type) where
  id : IpId
  row : ρ
  deriving DecidableEq, Repr

/-- What a module does with its definitions: the columns it copies, the fingerprint that the
queries compute, the nodes it keeps, and when and how a node decides. -/
structure DefKind (ρ δ κ : Type) where
  read : ρ → δ
  md5 : ρ → Md5
  accepts : δ → Bool
  applies : κ → δ → Bool
  target : δ → UInt8

/-- A policy at an instant: st_week_day and the seconds since st_begin_period. -/
structure TimeQuestion where
  idPolicy : IpId
  weekDay : UInt8
  tekTime : TimeT
  deriving DecidableEq, Repr

structure UrlQuestion where
  idPolicy : IpId
  url : List UInt8
  deriving DecidableEq, Repr

/-- The columns of Policy_URL_Def. -/
structure PatternRow where
  idPolicy : IpId
  pattern : List UInt8
  target : UInt8
  deriving DecidableEq, Repr

def timeKind (md5 : TimeDef → Md5) : DefKind TimeDef TimeDef TimeQuestion where
  read d := d
  md5 := md5
  accepts _ := true
  applies q d := d.idPolicy = q.idPolicy ∧ q.weekDay = d.weekDay ∧
    (d.timeBegin.toNat : Int) ≤ q.tekTime ∧ q.tekTime ≤ d.timeEnd.toNat
  target := TimeDef.target

/-- regcomp and regexec are the library's; a node holds the first 99 bytes of its pattern. -/
def urlKind (md5 : PatternRow → Md5) (regcomp : List UInt8 → Bool)
    (regexec : List UInt8 → List UInt8 → Bool) : DefKind PatternRow PatternDef UrlQuestion where
  read row := ⟨row.idPolicy, row.pattern.take 99, row.target⟩
  md5 := md5
  accepts d := regcomp d.pattern
  applies q d := d.idPolicy = q.idPolicy ∧ regexec d.pattern q.url
  target := PatternDef.target

section
variable {ρ δ κ : Type} (k : DefKind ρ δ κ)

/-- The check_policy functions: the first node that applies decides, else the default. -/
def checkPolicy (l : List (PolicyNode δ)) (q : κ) (dflt : UInt8) : Bool :=
  (match l.find? fun node => k.applies q node.data with
    | some node => k.target node.data
    | none => dflt) ≠ 0

def DefRow.node (r : DefRow ρ) (now : TimeT) : PolicyNode δ := ⟨r.id, k.read r.row, k.md5 r.row, now⟩

/-- init_policy_list and init_pattern_list: "order by id", and a pattern that does not compile
is passed over. -/
def initPolicyList (now : DefRow ρ → TimeT) (rows : List (DefRow ρ)) : List (PolicyNode δ) :=
  ((rows.insertionSort fun r s => r.id ≤ s.id).filter fun r => k.accepts (k.read r.row)).map fun r =>
    r.node k (now r)

/-- A row as a pass meets it: listed with its fingerprint, and read when it is asked for. -/
def DefRow.listed (queried now : DefRow ρ → TimeT) (r : DefRow ρ) : PolicyRow δ :=
  ⟨r.id, k.md5 r.row, ⟨true, some (some ⟨k.read r.row, k.md5 r.row⟩), queried r⟩, now r⟩

/-- Whatever a pass is answered, a row it reads is one that the table has held. -/
def PolicyEnv.ReadsHeld (held : DefRow ρ → Prop) (env : PolicyEnv δ) : Prop :=
  ∀ rows, env.rows = some rows → ∀ row ∈ rows, ∀ rec, row.query.row = some (some rec) →
    ∃ c, held ⟨row.id, c⟩ ∧ rec = ⟨k.read c, k.md5 c⟩

/-- The lists that a start and passes lead to, the table being edited at will within `held`. -/
inductive Reached (held : DefRow ρ → Prop) : List (PolicyNode δ) → Prop
  | start (rows : List (DefRow ρ)) (now : DefRow ρ → TimeT) (hids : (rows.map DefRow.id).Nodup)
      (hheld : ∀ r ∈ rows, held r) : Reached held (initPolicyList k now rows)
  | pass {l l' : List (PolicyNode δ)} (env : PolicyEnv δ) (hl : Reached held l)
      (henv : env.ReadsHeld k held) (h : syncPolicyList k.accepts env l = some l') :
      Reached held l'

/-- A pass, no longer than 90 seconds, that reads all rows of a table in some order. -/
def PolicyEnv.ReadsAll (table : List (DefRow ρ)) (env : PolicyEnv δ) : Prop :=
  env.opened = true ∧ ∃ (order : List (DefRow ρ)) (queried now : DefRow ρ → TimeT),
    order.Perm table ∧ env.rows = some (order.map (DefRow.listed k queried now)) ∧
      ∀ i, ∀ r ∈ order, env.age i - queried r ≤ 90 ∧ env.age i - now r ≤ 90

/-- The list after a history whose last pass reads the table, with every vanished row swept. -/
def SettledOn (held : DefRow ρ → Prop) (table : List (DefRow ρ)) (l : List (PolicyNode δ)) : Prop :=
  (∃ before env, Reached k held before ∧ env.ReadsAll k table ∧
    syncPolicyList k.accepts env before = some l) ∧
  ∀ node ∈ l, ∃ r ∈ table, r.id = node.id

/-- No row of the table has held other columns with the same fingerprint. -/
def Detected (held : DefRow ρ → Prop) (table : List (DefRow ρ)) : Prop :=
  ∀ r ∈ table, ∀ c, held ⟨r.id, c⟩ → k.md5 c = k.md5 r.row → k.read c = k.read r.row

/-- Rows that apply to one question answer it alike. -/
def Unambiguous (table : List (DefRow ρ)) : Prop :=
  ∀ r ∈ table, ∀ s ∈ table, ∀ q, k.applies q (k.read r.row) = true →
    k.applies q (k.read s.row) = true →
    (k.target (k.read r.row) = 0 ↔ k.target (k.read s.row) = 0)

/-- All histories that end at the table decide alike, and as a daemon started on it. -/
def Independent (held : DefRow ρ → Prop) (table : List (DefRow ρ)) : Prop :=
  ∀ l l', SettledOn k held table l → SettledOn k held table l' → ∀ q dflt,
    checkPolicy k l q dflt = checkPolicy k l' q dflt ∧
      ∀ now, checkPolicy k l q dflt = checkPolicy k (initPolicyList k now table) q dflt

end

section
variable {ρ δ κ : Type} {k : DefKind ρ δ κ} {held : DefRow ρ → Prop} {table : List (DefRow ρ)}
  {l l' : List (PolicyNode δ)}

/-- The node is a row that the table has held. -/
def FromHeld (k : DefKind ρ δ κ) (held : DefRow ρ → Prop) (node : PolicyNode δ) : Prop :=
  ∃ c, held ⟨node.id, c⟩ ∧ node.data = k.read c ∧ node.md5 = k.md5 c

/-- What every history keeps. -/
structure Mirrors (k : DefKind ρ δ κ) (held : DefRow ρ → Prop) (l : List (PolicyNode δ)) :
    Prop where
  nodup : (l.map PolicyNode.id).Nodup
  rows : ∀ node ∈ l, FromHeld k held node

theorem initPolicyList_mem (now : DefRow ρ → TimeT) (node : PolicyNode δ) :
    node ∈ initPolicyList k now table ↔
      ∃ r ∈ table, k.accepts (k.read r.row) = true ∧ r.node k (now r) = node := by
  simp only [initPolicyList, List.mem_map, List.mem_filter, List.mem_insertionSort, and_assoc]

theorem initPolicyList_mirrors (now : DefRow ρ → TimeT) (hids : (table.map DefRow.id).Nodup)
    (hheld : ∀ r ∈ table, held r) : Mirrors k held (initPolicyList k now table) := by
  constructor
  · have hsorted : ((table.insertionSort fun r s => r.id ≤ s.id).map DefRow.id).Nodup :=
      (((List.perm_insertionSort _ table).map DefRow.id).nodup_iff).mpr hids
    have hkeys : (initPolicyList k now table).map PolicyNode.id =
        ((table.insertionSort fun r s => r.id ≤ s.id).filter fun r =>
          k.accepts (k.read r.row)).map DefRow.id := by
      simp [initPolicyList, DefRow.node, Function.comp_def]
    rw [hkeys]
    exact hsorted.sublist (List.filter_sublist.map DefRow.id)
  · intro node hm
    obtain ⟨r, hr, -, rfl⟩ := (initPolicyList_mem now node).mp hm
    exact ⟨r.row, hheld r hr, rfl, rfl⟩

theorem Mirrors.row (hi : Mirrors k held l) {row : PolicyRow δ}
    (hheld : ∀ rec, row.query.row = some (some rec) →
      ∃ c, held ⟨row.id, c⟩ ∧ rec = ⟨k.read c, k.md5 c⟩)
    (h : syncPolicyRow k.accepts l row = some l') : Mirrors k held l' := by
  have hput (node : PolicyNode δ) (hid : node.id = row.id) (hnode : FromHeld k held node)
      (hfound : ∃ a ∈ l, a.id = row.id) :
      Mirrors k held (Keyed.put PolicyNode.id row.id { node with timeLive := row.now } l) := by
    have hputs : Keyed.Puts PolicyNode.id row.id (FromHeld k held) True l
        (Keyed.put PolicyNode.id row.id { node with timeLive := row.now } l) :=
      Keyed.Puts.put hi.nodup hfound hid hnode
    exact ⟨hputs.nodup, hputs.forall hi.rows⟩
  rcases syncPolicyRow_cases h with ⟨node, node', hf, hwritten, rfl⟩ | ⟨hf, hinsert⟩
  · obtain ⟨hm, hid⟩ := policyFind_some hf
    have hold : FromHeld k held node := hi.rows node hm
    rcases hwritten with ⟨-, rfl⟩ | ⟨-, hu⟩
    · exact hput node' hid hold ⟨node', hm, hid⟩
    · rcases updatePolicy_cases hu with ⟨rfl, -⟩ | ⟨rec, hrec, rfl⟩
      · exact hput node' hid hold ⟨node', hm, hid⟩
      · obtain ⟨c, hc, rfl⟩ := hheld rec hrec
        have hread : FromHeld k held { node with
            data := k.read c, md5 := k.md5 c, timeLive := row.query.now } :=
          ⟨c, by rwa [← hid] at hc, rfl, rfl⟩
        exact hput _ hid hread ⟨node, hm, hid⟩
  · rcases insertPolicy_cases hinsert with ⟨rfl, -⟩ | ⟨rec, hrec, rfl⟩
    · exact hi
    · obtain ⟨c, hc, rfl⟩ := hheld rec hrec
      have hnew : FromHeld k held ⟨row.id, k.read c, k.md5 c, row.query.now⟩ :=
        ⟨c, hc, rfl, rfl⟩
      have hputs : Keyed.Puts PolicyNode.id row.id (FromHeld k held) True l
          (l ++ [⟨row.id, k.read c, k.md5 c, row.query.now⟩]) :=
        Keyed.Puts.append hi.nodup (policyFind_none hf) rfl hnew
      exact ⟨hputs.nodup, hputs.forall hi.rows⟩

theorem Mirrors.sweep (hi : Mirrors k held l) (stale : Nat → PolicyNode δ → Bool)
    (ns : List (PolicyNode δ)) : Mirrors k held (Aged.sweep PolicyNode.id stale 0 ns l) := by
  have hsub : (Aged.sweep PolicyNode.id stale 0 ns l).Sublist l := Aged.sweep_sublist stale 0 ns l
  constructor
  · exact hi.nodup.sublist (hsub.map PolicyNode.id)
  · intro node hm
    exact hi.rows node (hsub.subset hm)

theorem Mirrors.pass (hi : Mirrors k held l) {env : PolicyEnv δ} (henv : env.ReadsHeld k held)
    (h : syncPolicyList k.accepts env l = some l') : Mirrors k held l' := by
  rcases syncPolicyList_cases h with ⟨rfl, -⟩ | ⟨-, rows, l1, hr, he, rfl⟩
  · exact hi
  · have hguard : Run.Guarded (syncPolicyRow k.accepts) (fun _ row =>
        ∀ rec, row.query.row = some (some rec) →
          ∃ c, held ⟨row.id, c⟩ ∧ rec = ⟨k.read c, k.md5 c⟩) l rows :=
      Run.guarded_of_forall (fun row hrow _ => henv rows hr row hrow) l
    have hlisted : Mirrors k held l1 :=
      Run.exec_invariant (fun _ _ _ hi hg hs => Mirrors.row hi hg hs) hi hguard he
    exact hlisted.sweep _ l1

theorem Reached.mirrors (h : Reached k held l) : Mirrors k held l := by
  induction h with
  | start rows now hids hheld => exact initPolicyList_mirrors now hids hheld
  | pass env hl henv h ih => exact ih.pass henv h

/-- A row of such a pass is written over the node of its id, or added. -/
theorem listed_puts {r : DefRow ρ} {queried now : DefRow ρ → TimeT}
    (haccept : k.accepts (k.read r.row) = true) (hnodup : (l.map PolicyNode.id).Nodup)
    (hknows : ∀ node ∈ l, node.id = r.id → node.md5 = k.md5 r.row → node.data = k.read r.row)
    (h : syncPolicyRow k.accepts l (r.listed k queried now) = some l') :
    Keyed.Puts PolicyNode.id r.id
      (fun node => node.data = k.read r.row ∧
        (node.timeLive = now r ∨ node.timeLive = queried r)) True l l' := by
  have hquery : (r.listed k queried now).query =
      ⟨true, some (some ⟨k.read r.row, k.md5 r.row⟩), queried r⟩ := rfl
  have hputs := syncPolicyRow_puts hquery rfl haccept hnodup hknows h
  exact hputs.imp fun node hnode => ⟨hnode.1, hnode.2.2⟩

/-- After a pass over the table its rows are in the list, with their columns. -/
theorem PolicyEnv.ReadsAll.written {env : PolicyEnv δ} (hi : Mirrors k held l)
    (hids : (table.map DefRow.id).Nodup) (haccepts : ∀ r ∈ table, k.accepts (k.read r.row) = true)
    (hdetected : Detected k held table) (hall : env.ReadsAll k table)
    (h : syncPolicyList k.accepts env l = some l') :
    ∀ r ∈ table, (∃ node ∈ l', node.id = r.id) ∧
      ∀ node ∈ l', node.id = r.id → node.data = k.read r.row := by
  obtain ⟨hopened, order, queried, now, hperm, hrows, hclock⟩ := hall
  rcases syncPolicyList_cases h with ⟨-, hclosed | hfailed⟩ | ⟨-, rows, l1, hr, he, rfl⟩
  · rw [hopened] at hclosed
    cases hclosed
  · rw [hrows] at hfailed
    cases hfailed
  · rw [hrows] at hr
    cases hr
    rw [Run.exec_map] at he
    have horder : (order.map DefRow.id).Nodup := ((hperm.map DefRow.id).nodup_iff).mpr hids
    have hknows : ∀ r ∈ order, ∀ node ∈ l, node.id = r.id →
        node.md5 = k.md5 r.row → node.data = k.read r.row := by
      intro r hr node hnode hid hmd5
      obtain ⟨c, hc, hdata, hc5⟩ := hi.rows node hnode
      rw [hid] at hc
      rw [hc5] at hmd5
      rw [hdata]
      exact hdetected r (hperm.mem_iff.mp hr) c hc hmd5
    have hfresh : ∀ r ∈ order, ∀ node : PolicyNode δ, (node.data = k.read r.row ∧
        (node.timeLive = now r ∨ node.timeLive = queried r)) →
        ∀ j, expired env.age j node.timeLive = false := by
      intro r hr node hright j
      obtain ⟨hqueried, hnow⟩ := hclock j r hr
      rw [expired_eq_false_iff]
      rcases hright.2 with hstamp | hstamp
      · rw [hstamp]
        exact hnow
      · rw [hstamp]
        exact hqueried
    obtain ⟨-, hright, hshown⟩ := Keyed.sweep_puts (fun l => l) DefRow.id
      (fun r hr l l' hnodup hbefore hs =>
        listed_puts (haccepts r (hperm.mem_iff.mp hr)) hnodup hbefore hs)
      hi.nodup horder hknows hfresh he
    intro r hr
    have hm : r ∈ order := hperm.mem_iff.mpr hr
    refine ⟨hshown r hm trivial, ?_⟩
    intro node hnode hid
    exact (hright r hm node hnode hid).1

/-- The list holds exactly the columns of the table's rows. -/
structure Reflects (k : DefKind ρ δ κ) (table : List (DefRow ρ)) (l : List (PolicyNode δ)) :
    Prop where
  sound : ∀ node ∈ l, ∃ r ∈ table, node.data = k.read r.row
  complete : ∀ r ∈ table, ∃ node ∈ l, node.data = k.read r.row

theorem SettledOn.reflects (h : SettledOn k held table l) (hids : (table.map DefRow.id).Nodup)
    (haccepts : ∀ r ∈ table, k.accepts (k.read r.row) = true)
    (hdetected : Detected k held table) : Reflects k table l := by
  obtain ⟨⟨before, env, hreached, hall, hpass⟩, hswept⟩ := h
  have hwritten := hall.written hreached.mirrors hids haccepts hdetected hpass
  constructor
  · intro node hm
    obtain ⟨r, hr, hid⟩ := hswept node hm
    exact ⟨r, hr, (hwritten r hr).2 node hm hid.symm⟩
  · intro r hr
    obtain ⟨⟨node, hm, hid⟩, hdata⟩ := hwritten r hr
    exact ⟨node, hm, hdata node hm hid⟩

theorem initPolicyList_reflects (now : DefRow ρ → TimeT)
    (haccepts : ∀ r ∈ table, k.accepts (k.read r.row) = true) :
    Reflects k table (initPolicyList k now table) := by
  constructor
  · intro node hm
    obtain ⟨r, hr, -, rfl⟩ := (initPolicyList_mem now node).mp hm
    exact ⟨r, hr, rfl⟩
  · intro r hr
    exact ⟨r.node k (now r), (initPolicyList_mem now _).mpr ⟨r, hr, haccepts r hr, rfl⟩, rfl⟩

/-- Some row that applies decides, or the default does because none applies. -/
theorem Reflects.decided (h : Reflects k table l) (q : κ) (dflt : UInt8) :
    (∃ r ∈ table, k.applies q (k.read r.row) = true ∧
        checkPolicy k l q dflt = decide (k.target (k.read r.row) ≠ 0)) ∨
      (∀ r ∈ table, k.applies q (k.read r.row) = false) ∧
        checkPolicy k l q dflt = decide (dflt ≠ 0) := by
  cases hf : l.find? fun node => k.applies q node.data with
  | some node =>
    obtain ⟨r, hr, hdata⟩ := h.sound node (List.mem_of_find?_eq_some hf)
    have hp := List.find?_some hf
    have happlies : k.applies q node.data = true := hp
    refine .inl ⟨r, hr, hdata ▸ happlies, ?_⟩
    simp [checkPolicy, hf, hdata]
  | none =>
    refine .inr ⟨?_, ?_⟩
    · intro r hr
      obtain ⟨node, hm, hdata⟩ := h.complete r hr
      have hno : ¬ (k.applies q node.data = true) := List.find?_eq_none.mp hf node hm
      rw [← hdata]
      exact Bool.eq_false_iff.mpr hno
    · simp [checkPolicy, hf]

/-- Where rows that apply together answer alike, the answer is the table's, not the list's. -/
theorem Reflects.checkPolicy (h : Reflects k table l) (h' : Reflects k table l')
    (hu : Unambiguous k table) (q : κ) (dflt : UInt8) :
    IPStat.checkPolicy k l q dflt = IPStat.checkPolicy k l' q dflt := by
  rcases h.decided q dflt with ⟨r, hr, happlies, hl⟩ | ⟨hnone, hl⟩
  · rcases h'.decided q dflt with ⟨s, hs, happlies', hl'⟩ | ⟨hnone, -⟩
    · have halike := hu r hr s hs q happlies happlies'
      rw [hl, hl']
      simp [halike]
    · rw [hnone r hr] at happlies
      cases happlies
  · rcases h'.decided q dflt with ⟨s, hs, happlies, -⟩ | ⟨-, hl'⟩
    · rw [hnone s hs] at happlies
      cases happlies
    · rw [hl, hl']

/-- A pass from an empty list that reads the rows in this order. -/
def firstPass (k : DefKind ρ δ κ) (order : List (DefRow ρ)) : PolicyEnv δ where
  opened := true
  rows := some (order.map (DefRow.listed k (fun _ => 0) fun _ => 0))
  age := fun _ => 0

theorem exec_firstPass (order : List (DefRow ρ)) (l : List (PolicyNode δ))
    (hids : (order.map DefRow.id).Nodup) (hnew : ∀ r ∈ order, ∀ node ∈ l, node.id ≠ r.id)
    (haccepts : ∀ r ∈ order, k.accepts (k.read r.row) = true) :
    Run.exec (syncPolicyRow k.accepts) l (order.map (DefRow.listed k (fun _ => 0) fun _ => 0)) =
      some (l ++ order.map fun r => r.node k 0) := by
  induction order generalizing l with
  | nil => simp
  | cons r order ih =>
    rw [List.map_cons, List.nodup_cons] at hids
    have hfind : policyFind l r.id = none := by
      apply List.find?_eq_none.mpr
      intro node hm
      simpa using hnew r List.mem_cons_self node hm
    have hstep : syncPolicyRow k.accepts l (r.listed k (fun _ => 0) fun _ => 0) =
        some (l ++ [r.node k 0]) := by
      simp [syncPolicyRow, insertPolicy, DefRow.listed, DefRow.node, hfind,
        haccepts r List.mem_cons_self]
    have hnew' : ∀ s ∈ order, ∀ node ∈ l ++ [r.node k 0], node.id ≠ s.id := by
      intro s hs node hm
      rcases List.mem_append.mp hm with hold | hadded
      · exact hnew s (List.mem_cons_of_mem r hs) node hold
      · intro heq
        rw [List.mem_singleton.mp hadded] at heq
        exact hids.1 (List.mem_map.mpr ⟨s, hs, heq.symm⟩)
    rw [List.map_cons, Run.exec_cons _ _ hstep,
      ih (l ++ [r.node k 0]) hids.2 hnew' fun s hs => haccepts s (List.mem_cons_of_mem r hs)]
    simp

/-- Any order of the table's rows is the list of some history. -/
theorem settledOn_order {order : List (DefRow ρ)} (hperm : order.Perm table)
    (hids : (table.map DefRow.id).Nodup)
    (haccepts : ∀ r ∈ table, k.accepts (k.read r.row) = true) :
    SettledOn k held table (order.map fun r => r.node k 0) := by
  have horder : (order.map DefRow.id).Nodup := ((hperm.map DefRow.id).nodup_iff).mpr hids
  have hempty : initPolicyList k (fun _ => 0) [] = [] := by simp [initPolicyList]
  have hstart : Reached k held [] := hempty ▸ Reached.start [] (fun _ => 0) (by simp) (by simp)
  refine ⟨⟨[], firstPass k order, hstart, ?_, ?_⟩, ?_⟩
  · exact ⟨rfl, order, fun _ => 0, fun _ => 0, hperm, rfl, fun i r _ => by simp [firstPass]⟩
  · have hexec := exec_firstPass order [] horder (by simp)
      fun r hr => haccepts r (hperm.mem_iff.mp hr)
    rw [List.nil_append] at hexec
    have hsweep : sweepPolicy (fun _ => 0) 0 (order.map fun r => r.node k 0)
        (order.map fun r => r.node k 0) = order.map fun r => r.node k 0 := by
      rw [sweepPolicy_sweep]
      apply Aged.sweep_fresh
      intro j node hm
      obtain ⟨r, -, rfl⟩ := List.mem_map.mp hm
      exact expired_eq_false_iff.mpr (by simp [DefRow.node])
    simp [syncPolicyList, firstPass, hexec, hsweep]
  · intro node hm
    obtain ⟨r, hr, rfl⟩ := List.mem_map.mp hm
    exact ⟨r, hperm.mem_iff.mp hr, rfl⟩

theorem checkPolicy_first (r : DefRow ρ) (order : List (DefRow ρ)) (q : κ) (dflt : UInt8)
    (h : k.applies q (k.read r.row) = true) :
    checkPolicy k ((r :: order).map fun r => r.node k 0) q dflt =
      decide (k.target (k.read r.row) ≠ 0) := by
  simp [checkPolicy, DefRow.node, h]

theorem independent_iff (hids : (table.map DefRow.id).Nodup)
    (haccepts : ∀ r ∈ table, k.accepts (k.read r.row) = true)
    (hdetected : Detected k held table) :
    Independent k held table ↔ Unambiguous k table := by
  constructor
  · intro h r hr s hs q hrq hsq
    obtain ⟨before, after, hsplit⟩ := List.append_of_mem hr
    obtain ⟨before', after', hsplit'⟩ := List.append_of_mem hs
    -- two histories that differ in the row the first listing begins with
    have hrfirst : (r :: (before ++ after)).Perm table := hsplit ▸ List.perm_middle.symm
    have hsfirst : (s :: (before' ++ after')).Perm table := hsplit' ▸ List.perm_middle.symm
    have hsame := (h _ _ (settledOn_order hrfirst hids haccepts)
      (settledOn_order hsfirst hids haccepts) q 0).1
    rw [checkPolicy_first r _ q 0 hrq, checkPolicy_first s _ q 0 hsq] at hsame
    exact not_iff_not.mp (decide_eq_decide.mp hsame)
  · intro hu l l' hl hl' q dflt
    have hr := hl.reflects hids haccepts hdetected
    have hr' := hl'.reflects hids haccepts hdetected
    refine ⟨hr.checkPolicy hr' hu q dflt, ?_⟩
    intro now
    exact hr.checkPolicy (initPolicyList_reflects now haccepts) hu q dflt

end

/-- For both definitions tables: where every pattern compiles and no edit hides behind an
unchanged fingerprint, the histories that end at a table decide alike exactly when its rows
that apply together answer alike. -/
theorem decisions_independent (regcomp : List UInt8 → Bool)
    (regexec : List UInt8 → List UInt8 → Bool) :
    (∀ (md5 : TimeDef → Md5) (held : DefRow TimeDef → Prop) (table : List (DefRow TimeDef)),
      (table.map DefRow.id).Nodup → Detected (timeKind md5) held table →
      (Independent (timeKind md5) held table ↔ Unambiguous (timeKind md5) table)) ∧
    ∀ (md5 : PatternRow → Md5) (held : DefRow PatternRow → Prop)
      (table : List (DefRow PatternRow)), (table.map DefRow.id).Nodup →
      (∀ r ∈ table, regcomp (r.row.pattern.take 99) = true) →
      Detected (urlKind md5 regcomp regexec) held table →
      (Independent (urlKind md5 regcomp regexec) held table ↔
        Unambiguous (urlKind md5 regcomp regexec) table) := by
  constructor
  · intro md5 held table hids hdetected
    exact independent_iff hids (fun _ _ => rfl) hdetected
  · intro md5 held table hids hcompiles hdetected
    exact independent_iff hids hcompiles hdetected

/-- A stand-in for the fingerprint of a time policy: it tells apart the rows used here. -/
def beginMd5 (d : TimeDef) : Md5 := BitVec.ofNat 128 d.timeBegin.toNat

/-- Policy 1 on Mondays: allowed up to a minute, denied from then on. -/
def apart : List (DefRow TimeDef) := [⟨1, ⟨1, 1, 0, 60, 1⟩⟩, ⟨2, ⟨1, 1, 61, 120, 0⟩⟩]

def overlapping : List (DefRow TimeDef) := [⟨1, ⟨1, 1, 0, 100, 1⟩⟩, ⟨2, ⟨1, 1, 50, 150, 0⟩⟩]

/-- Policy 1 denies the letter a. -/
def letter : List (DefRow PatternRow) := [⟨1, ⟨1, [97], 0⟩⟩]

theorem decisions_independent_apart :
    Independent (timeKind beginMd5) (· ∈ apart) apart ∧
      Independent (urlKind (fun _ => 0) (fun _ => true) fun pattern url => pattern <:+: url)
        (· ∈ letter) letter := by
  constructor
  · apply ((decisions_independent (fun _ => true) fun _ _ => true).1 beginMd5 (· ∈ apart) apart
      (by decide) _).mpr
    · -- one row ends before the other begins
      intro r hr s hs q hrq hsq
      simp only [apart, List.mem_cons, List.not_mem_nil, or_false] at hr hs
      rcases hr with rfl | rfl <;> rcases hs with rfl | rfl
      · rfl
      · have hle := (of_decide_eq_true hrq).2.2.2
        have hge := (of_decide_eq_true hsq).2.2.1
        change (60 : Int) ≥ q.tekTime at hle
        change (61 : Int) ≤ q.tekTime at hge
        omega
      · have hge := (of_decide_eq_true hrq).2.2.1
        have hle := (of_decide_eq_true hsq).2.2.2
        change (60 : Int) ≥ q.tekTime at hle
        change (61 : Int) ≤ q.tekTime at hge
        omega
      · rfl
    · intro r hr c hc hmd5
      simp only [apart, List.mem_cons, List.not_mem_nil, or_false, DefRow.mk.injEq] at hr hc
      rcases hr with rfl | rfl <;> rcases hc with ⟨hid, rfl⟩ | ⟨hid, rfl⟩
      · rfl
      · cases hid
      · cases hid
      · rfl
  · apply ((decisions_independent (fun _ => true) fun pattern url => pattern <:+: url).2
      (fun _ => 0) (· ∈ letter) letter (by decide) (fun _ _ => rfl) _).mpr
    · intro r hr s hs q hrq hsq
      rw [List.mem_singleton.mp hr, List.mem_singleton.mp hs]
    · intro r hr c hc _
      cases List.mem_singleton.mp hr
      cases List.mem_singleton.mp hc
      rfl

/-- Two rows of one policy overlap: the row that the first listing happened to begin with
decides, and a restart may decide otherwise. -/
theorem decision_depends_on_order :
    ∃ l l', SettledOn (timeKind beginMd5) (· ∈ overlapping) overlapping l ∧
      SettledOn (timeKind beginMd5) (· ∈ overlapping) overlapping l' ∧
      checkPolicy (timeKind beginMd5) l ⟨1, 1, 60⟩ 0 = true ∧
      checkPolicy (timeKind beginMd5) l' ⟨1, 1, 60⟩ 0 = false ∧
      checkPolicy (timeKind beginMd5)
        (initPolicyList (timeKind beginMd5) (fun _ => 0) overlapping) ⟨1, 1, 60⟩ 0 = true := by
  have hids : (overlapping.map DefRow.id).Nodup := by decide
  refine ⟨_, _, settledOn_order (List.Perm.refl overlapping) hids fun _ _ => rfl,
    settledOn_order (List.reverse_perm overlapping) hids fun _ _ => rfl, by decide, by decide,
    by decide⟩

end IPStat
