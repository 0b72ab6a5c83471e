import IPStat.Policy.Decision

namespace IPStat

/-- regcomp on a regex_t and a pattern, with what it leaves in the regex_t whether or not it
succeeds, and whether regexec on a regex_t finds a text. Both are the C library's. -/
structure RegexApi (ρ : Type) where
  regcomp : ρ → List UInt8 → ρ × Bool
  regexec : ρ → List UInt8 → Bool

/-- The columns of NODE_POLICY_PATTERN, its `reg` among them. -/
structure PatternReg (ρ : Type) where
  columns : PatternDef
  reg : ρ
  deriving DecidableEq, Repr

def PatternRow.columns (row : PatternRow) : PatternDef :=
  ⟨row.idPolicy, row.pattern.take 99, row.target⟩

section
variable {ρ : Type} (api : RegexApi ρ)

/-- What update_policy_pattern makes of the node it has found, and its result; `none` is the
read through a NULL row. -/
def updatePattern (query : PolicyQuery PatternRow) (node : PolicyNode (PatternReg ρ)) :
    Option (PolicyNode (PatternReg ρ) × Bool) :=
  if query.opened then
    match query.row with
    | none => some (node, false)
    | some none => none
    | some (some row) =>
      let compiled := api.regcomp node.data.reg row.data.columns.pattern
      some ({ node with
        data := ⟨row.data.columns, compiled.1⟩
        md5 := row.md5
        timeLive := query.now }, compiled.2)
  else some (node, false)

def updatePolicyPattern (query : PolicyQuery PatternRow) (id : IpId)
    (l : List (PolicyNode (PatternReg ρ))) : Option (List (PolicyNode (PatternReg ρ)) × Bool) :=
  match policyFind l id with
  | none => some (l, false)
  | some node =>
    match updatePattern api query node with
    | none => none
    | some (node, done) => some (Keyed.put PolicyNode.id id node l, done)

/-- check_policy of ipstat_url_policy.c. -/
def checkPatterns (l : List (PolicyNode (PatternReg ρ))) (idPolicy : IpId) (url : List UInt8)
    (dflt : UInt8) : Bool :=
  (match l.find? fun node =>
      decide (node.data.columns.idPolicy = idPolicy) && api.regexec node.data.reg url with
    | some node => node.data.columns.target
    | none => dflt) ≠ 0

/-- The test of sync_pattern_list's listing loop that leads to an update. -/
def callsUpdate (l : List (PolicyNode (PatternReg ρ))) (id : IpId) (md5 : Md5) : Bool :=
  match policyFind l id with
  | some node => node.md5 ≠ md5
  | none => false

/-- The node is as it was but for its clock, every URL is decided as before, and a fingerprint
that would have led to an update still does. -/
structure PatternKept (id : IpId) (l l' : List (PolicyNode (PatternReg ρ))) : Prop where
  node : (policyFind l' id).map (fun node => (node.data, node.md5)) =
    (policyFind l id).map fun node => (node.data, node.md5)
  decides : ∀ idPolicy url dflt,
    checkPatterns api l' idPolicy url dflt = checkPatterns api l idPolicy url dflt
  retried : ∀ md5, callsUpdate l id md5 = true → callsUpdate l' id md5 = true

/-- The row read for a node compiles, or it holds what the node already has and a failing
regcomp leaves the regex_t alone. -/
def RowSafe (query : PolicyQuery PatternRow) (node : PolicyNode (PatternReg ρ)) : Prop :=
  query.opened = true → ∀ row, query.row = some (some row) →
    (api.regcomp node.data.reg row.data.columns.pattern).2 = true ∨
      row.data.columns = node.data.columns ∧ row.md5 = node.md5 ∧
        (api.regcomp node.data.reg row.data.columns.pattern).1 = node.data.reg

end

section
variable {ρ : Type} {api : RegexApi ρ} {l l' : List (PolicyNode (PatternReg ρ))} {id : IpId}
  {query : PolicyQuery PatternRow} {node node' : PolicyNode (PatternReg ρ)} {done : Bool}

theorem updatePattern_id (h : updatePattern api query node = some (node', done)) :
    node'.id = node.id := by
  rw [updatePattern] at h
  split at h
  · split at h
    · cases h
      rfl
    · cases h
    · cases h
      rfl
  · cases h
    rfl

/-- A failing update has kept its node exactly where the row was safe. -/
theorem updatePattern_kept_iff (h : updatePattern api query node = some (node', done)) :
    (done = false → node'.data = node.data ∧ node'.md5 = node.md5) ↔ RowSafe api query node := by
  rw [updatePattern] at h
  rw [RowSafe]
  cases ho : query.opened with
  | false =>
    simp only [ho] at h
    cases h
    simp
  | true =>
    simp only [ho, if_true] at h
    cases hr : query.row with
    | none =>
      simp only [hr] at h
      cases h
      simp
    | some row =>
      cases row with
      | none => simp [hr] at h
      | some row =>
        simp only [hr] at h
        cases h
        simp only [forall_const, Option.some.injEq, forall_eq']
        obtain ⟨id, ⟨columns, reg⟩, md5, timeLive⟩ := node
        cases (api.regcomp reg row.data.columns.pattern).2 with
        | true => simp
        | false =>
          simp only [PatternReg.mk.injEq, Bool.false_eq_true, false_or, true_implies]
          tauto

/-- What check_policy says is read off the columns and expressions in their order. -/
theorem checkPatterns_congr (h : l'.map PolicyNode.data = l.map PolicyNode.data) (idPolicy : IpId)
    (url : List UInt8) (dflt : UInt8) :
    checkPatterns api l' idPolicy url dflt = checkPatterns api l idPolicy url dflt := by
  have hread (l : List (PolicyNode (PatternReg ρ))) :
      checkPatterns api l idPolicy url dflt =
        decide ((((l.map PolicyNode.data).find? fun data =>
          decide (data.columns.idPolicy = idPolicy) && api.regexec data.reg url).map
            fun data => data.columns.target).getD dflt ≠ 0) := by
    simp only [checkPatterns, List.find?_map, Function.comp_def]
    cases l.find? _ <;> rfl
  rw [hread, hread, h]

theorem callsUpdate_found (hfound : policyFind l id = some node) (md5 : Md5) :
    callsUpdate l id md5 = decide (node.md5 ≠ md5) := by
  rw [callsUpdate, hfound]

theorem updatePolicyPattern_found (h : updatePolicyPattern api query id l = some (l', done))
    (hfound : policyFind l id = some node) :
    ∃ node', updatePattern api query node = some (node', done) ∧
      l' = Keyed.put PolicyNode.id id node' l := by
  rw [updatePolicyPattern, hfound] at h
  cases hu : updatePattern api query node with
  | none => simp [hu] at h
  | some q =>
    simp only [hu] at h
    cases h
    exact ⟨q.1, rfl, rfl⟩

/-- An update of a pattern that returns FALSE changes nothing that decides or is compared exactly
where the row it read compiles or holds nothing new. -/
theorem update_policy_pattern_kept_iff
    (h : updatePolicyPattern api query id l = some (l', done)) :
    (done = false → PatternKept api id l l') ↔
      ∀ node, policyFind l id = some node → RowSafe api query node := by
  cases hfound : policyFind l id with
  | none =>
    rw [updatePolicyPattern, hfound] at h
    cases h
    refine iff_of_true ?_ ?_
    · intro _
      exact ⟨rfl, fun _ _ _ => rfl, fun _ hcalls => hcalls⟩
    · rintro node ⟨⟩
  | some node =>
    obtain ⟨node', hupdate, rfl⟩ := updatePolicyPattern_found h hfound
    have hid : node'.id = id := (updatePattern_id hupdate).trans (policyFind_some hfound).2
    have hfound' : policyFind (Keyed.put PolicyNode.id id node' l) id = some node' :=
      Keyed.find?_put hid hfound
    simp only [Option.some.injEq, forall_eq']
    rw [← updatePattern_kept_iff hupdate]
    refine imp_congr_right fun hfalse => ?_
    constructor
    · intro hkept
      obtain ⟨hnode, -, -⟩ := hkept
      rw [hfound, hfound', Option.map_some, Option.map_some, Option.some.injEq, Prod.mk.injEq]
        at hnode
      exact hnode
    · intro hboth
      obtain ⟨hdata, hmd5⟩ := hboth
      apply PatternKept.mk
      · rw [hfound, hfound', Option.map_some, Option.map_some, hdata, hmd5]
      · exact checkPatterns_congr (Keyed.map_put PolicyNode.data hdata hfound)
      · intro md5 hcalls
        rw [callsUpdate_found hfound] at hcalls
        rw [callsUpdate_found hfound', hmd5]
        exact hcalls

end

/-- A library that holds the pattern itself as its compiled form: a pattern that is one opening
bracket does not compile, and a letter is found where it stands. -/
def letterApi : RegexApi (List UInt8) where
  regcomp _ pattern := if pattern = [40] then ([], false) else (pattern, true)
  regexec reg url := ∃ c ∈ reg, c ∈ url

/-- Pattern 3 of policy 5 forbids URLs with an x. -/
def forbidsX : List (PolicyNode (PatternReg (List UInt8))) := [⟨3, ⟨⟨5, [120], 0⟩, [120]⟩, 17, 1000⟩]

/-- The row that pattern 3 has now. -/
def readsPattern (pattern : List UInt8) : PolicyQuery PatternRow :=
  ⟨true, some (some ⟨⟨5, pattern, 0⟩, 18⟩), 1060⟩

theorem update_policy_pattern_kept_compiled :
    ∃ l', updatePolicyPattern letterApi (readsPattern [121]) 3 forbidsX = some (l', true) ∧
      ((true = false → PatternKept letterApi 3 forbidsX l') ↔
        ∀ node, policyFind forbidsX 3 = some node →
          RowSafe letterApi (readsPattern [121]) node) := by
  have hrun : updatePolicyPattern letterApi (readsPattern [121]) 3 forbidsX =
      some ([⟨3, ⟨⟨5, [121], 0⟩, [121]⟩, 18, 1060⟩], true) := by rfl
  exact ⟨_, hrun, update_policy_pattern_kept_iff hrun⟩

/-- The pattern and fingerprint of a row that does not compile replace the old ones, and the
next listing leads to no update. -/
theorem update_policy_pattern_overwrites :
    ∃ l', updatePolicyPattern letterApi (readsPattern [40]) 3 forbidsX = some (l', false) ∧
      callsUpdate forbidsX 3 18 = true ∧ callsUpdate l' 3 18 = false ∧
        ¬PatternKept letterApi 3 forbidsX l' := by
  refine ⟨_, rfl, rfl, rfl, ?_⟩
  intro hkept
  have hagain := hkept.retried 18 rfl
  cases hagain

end IPStat
