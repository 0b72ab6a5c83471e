import IPStat.Core.UserTraffic
import IPStat.Policy.Steps

namespace IPStat

/-- Some entry of the id is at most 90 seconds old when the sweep reads the clock for it; its
stamps are the old ones but for the listing's last one on the first entry. -/
def Fresh (clock : Nat → TimeT) (touches : List (IpId × TimeT)) (id : IpId)
    (stamps : List (Option TimeT)) : Prop :=
  ∃ i t, (Aged.restampBy (Aged.lastTouch id touches) stamps)[i]? = some (some t) ∧
    clock i - t ≤ 90

theorem fresh_iff {clock : Nat → TimeT} {touches : List (IpId × TimeT)} {id : IpId}
    {v w : List (Option TimeT)} {n : Nat}
    (h : w = Aged.restampBy (Aged.lastTouch id touches) v ++ List.replicate n none) :
    (∃ i t, w[i]? = some (some t) ∧ expired clock i t = false) ↔ Fresh clock touches id v := by
  subst h
  simp only [Aged.padded_get, expired_eq_false_iff]
  rfl

/-- For every pass, table and entry whose row the listing shows if it is read: the entry is
still in the table when the pass ends exactly when `fresh` says so. -/
def KeepsExactly {σ ε α : Type} (sync : ε → σ → Option σ) (table : σ → List α)
    (key : α → IpId) (lists : ε → IpId → Prop) (fresh : ε → List α → IpId → Prop) : Prop :=
  ∀ env s s' id, sync env s = some s' → (∃ a ∈ table s, key a = id) → lists env id →
    ((∃ a ∈ table s', key a = id) ↔ fresh env (table s) id)

section
variable {δ : Type}

def PolicyEnv.Lists (env : PolicyEnv δ) (id : IpId) : Prop :=
  ∀ rows, env.opened = true → env.rows = some rows → ∃ row ∈ rows, row.id = id

/-- A policy list keeps an entry when it could not be listed, or the entry is fresh. -/
def PolicyFresh (env : PolicyEnv δ) (l : List (PolicyNode δ)) (id : IpId) : Prop :=
  env.opened = false ∨ env.rows = none ∨
    ∃ rows, env.rows = some rows ∧ Fresh env.age (rows.map fun row => (row.id, row.now)) id
      (Aged.stamps PolicyNode.id PolicyNode.timeLive id l)

/-- A row of a listing touches its list. -/
theorem syncPolicyRow_touch {accepts : δ → Bool} {l l' : List (PolicyNode δ)}
    {row : PolicyRow δ} (h : syncPolicyRow accepts l row = some l') :
    Aged.Touch PolicyNode.id PolicyNode.timeLive row.id row.now l l' := by
  rcases syncPolicyRow_cases h with ⟨node, node', hf, hwritten, rfl⟩ | ⟨hf, hi⟩
  · obtain ⟨hm, hid⟩ := policyFind_some hf
    have hid' : node'.id = row.id := by
      rcases hwritten with ⟨-, rfl⟩ | ⟨-, hu⟩
      · exact hid
      · exact (updatePolicy_id hu).trans hid
    apply Aged.Touch.found fun _ : PolicyNode δ => ({ node' with timeLive := row.now } :
      PolicyNode δ)
    · exact ⟨node, hm, hid⟩
    · intro _ _
      exact ⟨hid', rfl⟩
  · have habsent := policyFind_none hf
    rcases insertPolicy_cases hi with ⟨rfl, -⟩ | ⟨rec, -, rfl⟩
    · have hsame : Aged.Touch PolicyNode.id PolicyNode.timeLive row.id row.now l' (l' ++ []) :=
        Aged.Touch.missed [] habsent (by simp)
      rwa [List.append_nil] at hsame
    · exact Aged.Touch.missed _ habsent (by simp)

theorem syncPolicyList_keeps {accepts : δ → Bool} {env : PolicyEnv δ}
    {l l' : List (PolicyNode δ)} {id : IpId} (h : syncPolicyList accepts env l = some l')
    (hin : ∃ node ∈ l, node.id = id) :
    (∃ node ∈ l', node.id = id) ↔ PolicyFresh env l id := by
  rw [PolicyFresh]
  rcases syncPolicyList_cases h with ⟨rfl, hsilent⟩ | ⟨ho, rows, l1, hr, he, rfl⟩
  · rcases hsilent with ho | hr
    · simp [ho, hin]
    · simp [hr, hin]
  · obtain ⟨n, hn⟩ := Aged.stamps_exec (fun l => l) (fun row : PolicyRow δ => (row.id, row.now))
      (fun _ _ _ hs => syncPolicyRow_touch hs) hin he
    rw [Aged.kept_iff PolicyNode.id PolicyNode.timeLive (expired env.age), fresh_iff hn]
    simp [ho, hr]

end

theorem usersSyncTraffic_ids {env : TrafficEnv} {d d' : Core} (id : IpId)
    (h : usersSyncTraffic env d = some d') :
    (∃ node ∈ d'.users.idUsers, node.id = id) ↔ ∃ node ∈ d.users.idUsers, node.id = id := by
  rcases usersSyncTraffic_cases h with ⟨-, rfl⟩ | ⟨-, ns, l, he, rfl⟩
  · rfl
  · have hids := exportUsers_map NodeUser.id (fun _ _ _ => rfl) he
    change (∃ node ∈ ns, node.id = id) ↔ _
    rw [← List.mem_map, ← List.mem_map, hids]

def SyncEnv.Lists (env : SyncEnv) (id : IpId) : Prop :=
  ∀ rows, env.opened = true → env.rows = some rows → ∃ row ∈ rows, row.id = id

/-- users_sync keeps a user when its query failed, or the user is fresh; when the store cannot
be opened it sweeps all the same. -/
def UsersFresh (env : SyncEnv) (ns : List NodeUser) (id : IpId) : Prop :=
  env.opened = true ∧ env.rows = none ∨
    Fresh env.sweep.age env.touches id (Aged.stamps NodeUser.id NodeUser.timeLive id ns)

theorem usersSync_keeps {env : SyncEnv} {d d' : Core} {id : IpId}
    (h : usersSync env d = some d') (hin : ∃ node ∈ d.users.idUsers, node.id = id) :
    (∃ node ∈ d'.users.idUsers, node.id = id) ↔ UsersFresh env d.users.idUsers id := by
  rw [UsersFresh]
  by_cases hfail : env.opened = true ∧ env.rows = none
  · rcases usersSync_cases h with ⟨-, -, rfl⟩ | ⟨d1, hl, -, -⟩
    · exact iff_of_true hin (.inl hfail)
    · rw [usersListing, if_pos hfail.1, hfail.2] at hl
      cases hl
  · rcases usersSync_cases h with ⟨ho, hr, -⟩ | ⟨d1, -, he, ht⟩
    · exact absurd ⟨ho, hr⟩ hfail
    · obtain ⟨n, hn⟩ := Aged.stamps_exec (fun d : Core => d.users.idUsers)
        (fun row : ListingRow => (row.id, row.now)) (fun _ _ _ hs => usersSyncRow_touch hs) hin he
      rw [usersSyncTraffic_ids id ht]
      change (∃ node ∈ (sweepUsers env.sweep 0 d1.users.idUsers d1.users).idUsers,
        node.id = id) ↔ _
      rw [sweepUsers_sweep,
        Aged.kept_iff NodeUser.id NodeUser.timeLive (expired env.sweep.age), fresh_iff hn]
      simp only [hfail, false_or]
      rfl

/-- A pass that is syncPolicyList on one list of its module. -/
theorem keepsExactly_policy {δ σ : Type} {sync : PolicyEnv δ → σ → Option σ}
    {table : σ → List (PolicyNode δ)} (accepts : δ → Bool)
    (h : ∀ env s, (sync env s).map table = syncPolicyList accepts env (table s)) :
    KeepsExactly sync table PolicyNode.id PolicyEnv.Lists PolicyFresh := by
  intro env s s' id hs hin _
  have hl := h env s
  rw [hs, Option.map_some] at hl
  exact syncPolicyList_keeps hl.symm hin

/-- Each of the eight passes keeps an entry that is still in the database exactly when it
sweeps nothing or reads the clock for it no more than 90 seconds after the entry's stamp. -/
theorem sync_keeps_iff (regcomp : List UInt8 → Bool) :
    KeepsExactly usersSync (·.users.idUsers) NodeUser.id SyncEnv.Lists UsersFresh ∧
    KeepsExactly TimePolicy.syncUsersList (·.policyUsers) PolicyNode.id PolicyEnv.Lists
      PolicyFresh ∧
    KeepsExactly TimePolicy.syncGroupUsersList (·.policyGroupUsers) PolicyNode.id
      PolicyEnv.Lists PolicyFresh ∧
    KeepsExactly TimePolicy.syncTypeTrafficList (·.policyTypeTraffic) PolicyNode.id
      PolicyEnv.Lists PolicyFresh ∧
    KeepsExactly TimePolicy.syncGroupTrafficList (·.policyGroupTraffic) PolicyNode.id
      PolicyEnv.Lists PolicyFresh ∧
    KeepsExactly TimePolicy.syncTimeList (·.policyTime) PolicyNode.id PolicyEnv.Lists
      PolicyFresh ∧
    KeepsExactly UrlPolicy.syncUsersList (·.policyUsers) PolicyNode.id PolicyEnv.Lists
      PolicyFresh ∧
    KeepsExactly (UrlPolicy.syncPatternList regcomp) (·.policyPattern) PolicyNode.id
      PolicyEnv.Lists PolicyFresh := by
  refine ⟨?_, ?_, ?_, ?_, ?_, ?_, ?_, ?_⟩
  · intro env d d' id h hin _
    exact usersSync_keeps h hin
  · apply keepsExactly_policy fun _ => true
    intro env s
    simp [TimePolicy.syncUsersList, Function.comp_def]
  · apply keepsExactly_policy fun _ => true
    intro env s
    simp [TimePolicy.syncGroupUsersList, Function.comp_def]
  · apply keepsExactly_policy fun _ => true
    intro env s
    simp [TimePolicy.syncTypeTrafficList, Function.comp_def]
  · apply keepsExactly_policy fun _ => true
    intro env s
    simp [TimePolicy.syncGroupTrafficList, Function.comp_def]
  · apply keepsExactly_policy fun _ => true
    intro env s
    simp [TimePolicy.syncTimeList, Function.comp_def]
  · apply keepsExactly_policy fun _ => true
    intro env s
    simp [UrlPolicy.syncUsersList, Function.comp_def]
  · apply keepsExactly_policy fun d => regcomp d.pattern
    intro env s
    simp [UrlPolicy.syncPatternList, Function.comp_def]

/-- Pattern 7, stamped at second 0, and a pass that lists it at once and sweeps at `now`. -/
def patternSeven : UrlPolicy := ⟨[⟨7, ⟨1, [], 0⟩, 0, 0⟩], []⟩

def patternPass (now : TimeT) : PolicyEnv PatternDef where
  opened := true
  rows := some [⟨7, 0, ⟨true, some none, 0⟩, 0⟩]
  age := fun _ => now

/-- A pass that takes a minute keeps the pattern. -/
theorem sync_keeps_prompt : ∃ s',
    UrlPolicy.syncPatternList (fun _ => true) (patternPass 60) patternSeven = some s' ∧
      ∃ node ∈ s'.policyPattern, node.id = 7 := by
  refine ⟨_, rfl, ?_⟩
  apply ((sync_keeps_iff fun _ => true).2.2.2.2.2.2.2 (patternPass 60) patternSeven _ 7 rfl
    ⟨_, List.mem_singleton.mpr rfl, rfl⟩ _).mpr
  · exact .inr (.inr ⟨_, rfl, 0, 0, rfl, by decide⟩)
  · intro rows _ hrows
    cases hrows
    exact ⟨_, List.mem_singleton.mpr rfl, rfl⟩

/-- A pass that takes two minutes evicts it, and users_sync evicts user 7 when the store has
been out of reach for as long. -/
theorem sync_evicts_listed :
    (∃ s', UrlPolicy.syncPatternList (fun _ => true) (patternPass 120) patternSeven = some s' ∧
      (patternPass 120).Lists 7 ∧ (∃ node ∈ patternSeven.policyPattern, node.id = 7) ∧
      ¬ ∃ node ∈ s'.policyPattern, node.id = 7) ∧
    ∃ d', usersSync ⟨false, none, ⟨fun _ => 120, fun _ => 120⟩, ⟨false, fun _ => ⟨false, ⟨false,
        fun _ => storeUp⟩⟩⟩⟩ ⟨squidUsers [], coreInit.ledger⟩ = some d' ∧
      (∃ node ∈ (squidUsers []).idUsers, node.id = 7) ∧
      ¬ ∃ node ∈ d'.users.idUsers, node.id = 7 := by
  constructor
  · refine ⟨_, rfl, ?_, by decide, by decide⟩
    intro rows _ hrows
    cases hrows
    exact ⟨_, List.mem_singleton.mpr rfl, rfl⟩
  · exact ⟨_, rfl, by decide, by decide⟩

end IPStat
