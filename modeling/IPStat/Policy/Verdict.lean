import IPStat.Policy.DayClock

namespace IPStat

/-- The four fields of `ret` that autz looks up. -/
structure RequestIds where
  idUser : IpId
  idGroupUser : IpId
  idTypeTraffic : IpId
  idGroupTraffic : IpId
  deriving DecidableEq, Repr

def Request.ids : Request → Option RequestIds
  | .traffic _ ret => some ⟨ret.idUser, ret.idGroupUser, ret.idTrafficType, ret.idTrafficGroup⟩
  | .squid _ ret => some ⟨ret.idUser, ret.idGroupUser, ret.idTrafficType, ret.idTrafficGroup⟩
  | .other _ => none

namespace TimePolicy

/-- The check functions; `none` is FALSE, and `some` the two out-parameters. -/
def checkUser (s : TimePolicy) (idUser : IpId) : Option PolicyRef :=
  (policyFind s.policyUsers idUser).map (·.data)

def checkGroupUser (s : TimePolicy) (idGroupUser : IpId) : Option PolicyRef :=
  (policyFind s.policyGroupUsers idGroupUser).map (·.data)

def checkTypeTraffic (s : TimePolicy) (idTypeTraffic : IpId) : Option PolicyRef :=
  (policyFind s.policyTypeTraffic idTypeTraffic).map (·.data)

def checkGroupTraffic (s : TimePolicy) (idGroupTraffic : IpId) : Option PolicyRef :=
  (policyFind s.policyGroupTraffic idGroupTraffic).map (·.data)

variable (md5 : TimeDef → Md5) (clock : DayClock)

/-- What autz does with the answer of a check function; `rest` is what follows it. -/
def gate (s : TimePolicy) (found : Option PolicyRef) (rest : Bool) : Bool :=
  match found with
  | some ref =>
    if checkPolicy (timeKind md5) s.policyTime (clock.question ref.idPolicy) ref.defTarget then rest
    else false
  | none => rest

/-- autz of the time policies, at the instant of `clock`. -/
def autz (s : TimePolicy) (req : Request) : Bool :=
  match req.ids with
  | none => false
  | some ids =>
    s.gate md5 clock (s.checkUser ids.idUser) <|
    s.gate md5 clock (s.checkGroupUser ids.idGroupUser) <|
    s.gate md5 clock (s.checkTypeTraffic ids.idTypeTraffic) <|
    s.gate md5 clock (s.checkGroupTraffic ids.idGroupTraffic) true

end TimePolicy

/-- What a request is judged by. -/
inductive Dimension where
  | user
  | groupUser
  | typeTraffic
  | groupTraffic
  deriving DecidableEq, Repr

def RequestIds.idOf (ids : RequestIds) : Dimension → IpId
  | .user => ids.idUser
  | .groupUser => ids.idGroupUser
  | .typeTraffic => ids.idTypeTraffic
  | .groupTraffic => ids.idGroupTraffic

def TimePolicy.entries (s : TimePolicy) : Dimension → List (PolicyNode PolicyRef)
  | .user => s.policyUsers
  | .groupUser => s.policyGroupUsers
  | .typeTraffic => s.policyTypeTraffic
  | .groupTraffic => s.policyGroupTraffic

def TimePolicy.setEntries (s : TimePolicy) (d : Dimension) (l : List (PolicyNode PolicyRef)) :
    TimePolicy :=
  match d with
  | .user => { s with policyUsers := l }
  | .groupUser => { s with policyGroupUsers := l }
  | .typeTraffic => { s with policyTypeTraffic := l }
  | .groupTraffic => { s with policyGroupTraffic := l }

/-- `a` is the first of the list that `p` holds of. -/
def IsFirst {α : Type} (p : α → Prop) (l : List α) (a : α) : Prop :=
  ∃ before after, l = before ++ a :: after ∧ p a ∧ ∀ b ∈ before, ¬ p b

/-- An interval of the policy, on today's weekday, that the instant lies in. -/
def Covers (clock : DayClock) (idPolicy : IpId) (node : PolicyNode TimeDef) : Prop :=
  node.data.idPolicy = idPolicy ∧ node.data.weekDay = clock.stWeekDay ∧
    (node.data.timeBegin.toNat : Int) ≤ clock.clock - clock.stBeginPeriod ∧
    clock.clock - clock.stBeginPeriod ≤ node.data.timeEnd.toNat

/-- The first interval that covers the instant has the say, and the entry's default where none
does. -/
def PolicyAllows (times : List (PolicyNode TimeDef)) (clock : DayClock) (ref : PolicyRef) : Prop :=
  (∃ node, IsFirst (Covers clock ref.idPolicy) times node ∧ node.data.target ≠ 0) ∨
    (∀ node ∈ times, ¬ Covers clock ref.idPolicy node) ∧ ref.defTarget ≠ 0

/-- The id has no entry, or its first entry's policy allows. -/
def DimensionAllows (s : TimePolicy) (clock : DayClock) (d : Dimension) (id : IpId) : Prop :=
  (∀ node ∈ s.entries d, node.id ≠ id) ∨
    ∃ node, IsFirst (fun node => node.id = id) (s.entries d) node ∧
      PolicyAllows s.policyTime clock node.data

/-- The verdict as it is meant, on all dimensions at once. -/
def Permitted (s : TimePolicy) (clock : DayClock) (req : Request) : Prop :=
  ∃ ids, req.ids = some ids ∧ ∀ d, DimensionAllows s clock d (ids.idOf d)

section
variable {α : Type} {p : α → Bool} {l : List α}

theorem find?_isFirst {a : α} (h : l.find? p = some a) : IsFirst (p · = true) l a := by
  obtain ⟨ha, before, after, hl, hbefore⟩ := List.find?_eq_some_iff_append.mp h
  refine ⟨before, after, hl, ha, ?_⟩
  intro b hb
  simpa using hbefore b hb

theorem IsFirst.find? {a : α} (h : IsFirst (p · = true) l a) : l.find? p = some a := by
  obtain ⟨before, after, hl, ha, hbefore⟩ := h
  apply List.find?_eq_some_iff_append.mpr
  refine ⟨ha, before, after, hl, ?_⟩
  intro b hb
  simpa using hbefore b hb

theorem isFirst_iff (a : α) : IsFirst (p · = true) l a ↔ l.find? p = some a :=
  ⟨IsFirst.find?, find?_isFirst⟩

end

section
variable {s : TimePolicy} {clock : DayClock} {md5 : TimeDef → Md5}

theorem applies_iff (idPolicy : IpId) (node : PolicyNode TimeDef) :
    (timeKind md5).applies (clock.question idPolicy) node.data = true ↔
      Covers clock idPolicy node := by
  rw [Covers, eq_comm (a := node.data.weekDay)]
  exact decide_eq_true_iff

/-- The loop of check_policy stops at the first interval that covers the instant. -/
theorem checkPolicy_iff (times : List (PolicyNode TimeDef)) (ref : PolicyRef) :
    checkPolicy (timeKind md5) times (clock.question ref.idPolicy) ref.defTarget = true ↔
      PolicyAllows times clock ref := by
  have hcovers : Covers clock ref.idPolicy = fun node =>
      (timeKind md5).applies (clock.question ref.idPolicy) node.data = true := by
    funext node
    exact propext (applies_iff ref.idPolicy node).symm
  rw [PolicyAllows, hcovers]
  simp only [isFirst_iff (p := fun node : PolicyNode TimeDef =>
    (timeKind md5).applies (clock.question ref.idPolicy) node.data)]
  rw [checkPolicy]
  cases hf : times.find? fun node =>
      (timeKind md5).applies (clock.question ref.idPolicy) node.data with
  | some node =>
    have hsome := List.find?_some hf
    have hm := List.mem_of_find?_eq_some hf
    constructor
    · intro h
      exact .inl ⟨node, rfl, by simpa [timeKind] using h⟩
    · intro h
      obtain ⟨node', he, htarget⟩ | ⟨hnone, -⟩ := h
      · cases he
        simpa [timeKind] using htarget
      · exact absurd hsome (hnone node hm)
  | none =>
    have hnone := List.find?_eq_none.mp hf
    simp only [reduceCtorEq, false_and, exists_false, false_or, decide_eq_true_eq]
    exact ⟨fun h => ⟨hnone, h⟩, fun h => h.2⟩

theorem gate_iff (found : Option PolicyRef) (rest : Bool) :
    s.gate md5 clock found rest = true ↔
      (∀ ref, found = some ref → PolicyAllows s.policyTime clock ref) ∧ rest = true := by
  cases found with
  | none => simp [TimePolicy.gate]
  | some ref =>
    simp only [TimePolicy.gate, Option.some.injEq, forall_eq', ← @checkPolicy_iff clock md5]
    cases checkPolicy (timeKind md5) s.policyTime (clock.question ref.idPolicy) ref.defTarget with
    | false => simp
    | true => simp

/-- What a check function answers decides its dimension. -/
theorem dimensionAllows_iff (d : Dimension) (id : IpId) : DimensionAllows s clock d id ↔
    ∀ ref, (policyFind (s.entries d) id).map (·.data) = some ref →
      PolicyAllows s.policyTime clock ref := by
  have hfirst (node : PolicyNode PolicyRef) :
      IsFirst (fun node => node.id = id) (s.entries d) node ↔
        policyFind (s.entries d) id = some node := by
    rw [policyFind, ← isFirst_iff]
    simp only [decide_eq_true_eq]
  rw [DimensionAllows]
  simp only [hfirst]
  cases hf : policyFind (s.entries d) id with
  | none =>
    have hnone := policyFind_none hf
    exact iff_of_true (.inl hnone) (by simp)
  | some node =>
    obtain ⟨hm, hid⟩ := policyFind_some hf
    simp only [Option.some.injEq, exists_eq_left', Option.map_some, forall_eq']
    constructor
    · intro h
      obtain hnone | hallows := h
      · exact absurd hid (hnone node hm)
      · exact hallows
    · exact .inr

theorem autz_iff (req : Request) : s.autz md5 clock req = true ↔ Permitted s clock req := by
  rw [TimePolicy.autz, Permitted]
  cases req.ids with
  | none => simp
  | some ids =>
    simp only [gate_iff, Option.some.injEq, exists_eq_left', dimensionAllows_iff, and_true]
    constructor
    · intro h
      obtain ⟨huser, hgroupUser, htype, hgroup⟩ := h
      intro d
      cases d with
      | user => exact huser
      | groupUser => exact hgroupUser
      | typeTraffic => exact htype
      | groupTraffic => exact hgroup
    · intro h
      exact ⟨h .user, h .groupUser, h .typeTraffic, h .groupTraffic⟩

@[simp] theorem setEntries_policyTime (d : Dimension) (l : List (PolicyNode PolicyRef)) :
    (s.setEntries d l).policyTime = s.policyTime := by
  cases d <;> rfl

@[simp] theorem setEntries_same (d : Dimension) (l : List (PolicyNode PolicyRef)) :
    (s.setEntries d l).entries d = l := by
  cases d <;> rfl

theorem setEntries_other {d d' : Dimension} (hd : d' ≠ d) (l : List (PolicyNode PolicyRef)) :
    (s.setEntries d l).entries d' = s.entries d' := by
  cases d <;> cases d' <;> first | rfl | exact absurd rfl hd

theorem policyFind_insert {before after : List (PolicyNode PolicyRef)} {id : IpId}
    {node : PolicyNode PolicyRef} (hid : node.id ≠ id) :
    policyFind (before ++ node :: after) id = policyFind (before ++ after) id := by
  simp [policyFind, List.find?_append, hid]

/-- A new entry, wherever it stands, asks for more. -/
theorem dimensionAllows_of_assigned {d d' : Dimension} {before after : List (PolicyNode PolicyRef)}
    {node : PolicyNode PolicyRef} {id : IpId} (hl : s.entries d = before ++ after)
    (hnew : ∀ n ∈ s.entries d, n.id ≠ node.id)
    (h : DimensionAllows (s.setEntries d (before ++ node :: after)) clock d' id) :
    DimensionAllows s clock d' id := by
  by_cases hd : d' = d
  · subst hd
    by_cases hid : node.id = id
    · -- the id had no entry at all
      apply Or.inl
      intro n hn
      rw [← hid]
      exact hnew n hn
    · rw [dimensionAllows_iff] at h ⊢
      rw [setEntries_same, setEntries_policyTime, policyFind_insert hid, ← hl] at h
      exact h
  · rw [dimensionAllows_iff] at h ⊢
    rw [setEntries_other hd, setEntries_policyTime] at h
    exact h

end

/-- The verdict is the conjunction of the four dimensions, and an entry for an id that had none
turns no refusal into an acceptance. -/
theorem time_verdict (md5 : TimeDef → Md5) (clock : DayClock) (s : TimePolicy) (req : Request) :
    (s.autz md5 clock req = true ↔ Permitted s clock req) ∧
    ∀ (d : Dimension) (before after : List (PolicyNode PolicyRef)) (node : PolicyNode PolicyRef),
      s.entries d = before ++ after → (∀ n ∈ s.entries d, n.id ≠ node.id) →
      (s.setEntries d (before ++ node :: after)).autz md5 clock req = true →
      s.autz md5 clock req = true := by
  refine ⟨autz_iff req, ?_⟩
  intro d before after node hl hnew h
  rw [autz_iff] at h ⊢
  obtain ⟨ids, hids, hallows⟩ := h
  refine ⟨ids, hids, ?_⟩
  intro d'
  exact dimensionAllows_of_assigned hl hnew (hallows d')

/-- User 5 may come in Monday's first minute. -/
def firstMinute : TimePolicy where
  policyTime := [⟨1, ⟨1, 1, 0, 60, 1⟩, 0, 0⟩]
  policyUsers := [⟨5, ⟨1, 0⟩, 0, 0⟩]
  policyGroupUsers := []
  policyTypeTraffic := []
  policyGroupTraffic := []

/-- Half a minute into a Monday. -/
def mondayMorning : DayClock := ⟨1, 0, 30, fun _ => .idle, 30, 30⟩

def userFive : Request := .squid ⟨[], 0⟩ ⟨.squid, 5, 7, 0, 0, 0, 0⟩

/-- Group 7 is given a policy without intervals that denies by default. -/
theorem time_verdict_assigned : firstMinute.autz beginMd5 mondayMorning userFive = true ∧
    (firstMinute.setEntries .groupUser [⟨7, ⟨2, 0⟩, 0, 0⟩]).autz beginMd5 mondayMorning userFive =
      false ∧
    ((firstMinute.setEntries .groupUser [⟨7, ⟨2, 1⟩, 0, 0⟩]).autz beginMd5 mondayMorning userFive =
      true → firstMinute.autz beginMd5 mondayMorning userFive = true) := by
  refine ⟨by decide, by decide, ?_⟩
  exact (time_verdict beginMd5 mondayMorning firstMinute userFive).2 .groupUser [] []
    ⟨7, ⟨2, 1⟩, 0, 0⟩ rfl (by simp [firstMinute, TimePolicy.entries])

end IPStat
