import IPStat.Core.Agreement
import IPStat.Core.Steps
import Mathlib.Data.UInt

namespace IPStat

open Tally
open scoped UInt32.CommRing

theorem bump_apply (f : IpId → IpSize) (id r : IpId) (n : IpSize) :
    bump f id n r = f r + if id = r then n else 0 := by
  by_cases h : r = id
  · subst h
    simp [bump]
  · simp [bump, h, Ne.symm h]

/-- The squid loop visits the first squid rule and ends there. -/
theorem acctSquid_visited (len : IpSize) (i : Nat) (rs : List NodeRule) (t : IpSize) :
    ∃ ps, Chain.visited (fun r : NodeRule => some (r.service = .squid)) (fun _ => true) i rs =
        some ps ∧
      acctSquid len i rs t =
        ⟨Chain.applyAt (·.charge len) (ps.map Prod.fst) i rs,
          ps.foldl (fun t q => chargeUser q.2 len t) t, ps.map Prod.fst⟩ := by
  refine ⟨_, Chain.visited_find (fun r : NodeRule => decide (r.service = .squid)) i rs, ?_⟩
  rw [acctSquid_find]
  simp [Function.comp_def, List.foldl_map]

/-- What one users_acct call did: it scanned the rules of one user and charged those it visited. -/
structure Charged (users : Users) (req : Request) (user : NodeUser) (qs : List (Nat × NodeRule))
    (s : AcctScan) : Prop where
  found : usersFind users req.idUser = some user
  visited : ∃ test stop, Chain.visited test stop 0 user.idRules = some qs
  rules : s.rules = Chain.applyAt (·.charge req.len) (qs.map Prod.fst) 0 user.idRules
  traffic : s.traffic = qs.foldl (fun t q => chargeUser q.2 req.len t) user.traffic
  charged : s.charged = qs.map Prod.fst

/-- A call that reaches its hooks charged the rules it visited, or was for another service. -/
theorem acctRules_charged {users users' : Users} {req : Request} {charged : List Nat}
    (h : acctRules users req = some (some (users', charged))) :
    users' = users ∧ charged = [] ∨ ∃ user qs s, Charged users req user qs s ∧
      users' = users.account req.idUser s ∧ charged = s.charged := by
  cases req with
  | other service =>
    cases h
    exact .inl ⟨rfl, rfl⟩
  | squid info ret =>
    simp only [acctRules] at h
    cases hu : usersFind users ret.idUser with
    | none => simp [hu] at h
    | some user =>
      simp only [hu] at h
      obtain ⟨qs, hv, hs⟩ := acctSquid_visited ret.len 0 user.idRules user.traffic
      rw [hs] at h
      cases h
      exact .inr ⟨user, qs, _, ⟨hu, ⟨_, _, hv⟩, rfl, rfl, rfl⟩, rfl, rfl⟩
  | traffic info ret =>
    simp only [acctRules] at h
    cases hu : usersFind users ret.idUser with
    | none => simp [hu] at h
    | some user =>
      simp only [hu, Option.bind_eq_bind, Option.bind_eq_some_iff] at h
      obtain ⟨s, hs, h⟩ := h
      rw [acctTraffic_chain, Option.map_eq_some_iff] at hs
      obtain ⟨qs, hv, rfl⟩ := hs
      cases h
      exact .inr ⟨user, qs, _, ⟨hu, ⟨_, _, hv⟩, rfl, rfl, rfl⟩, rfl, rfl⟩

section
variable {key : IpId} {rules : List NodeRule} {len : IpSize} {qs : List (Nat × NodeRule)}

theorem charge_cons (l : Ledger) {q : Nat × NodeRule} (h : rules[q.1]? = some q.2) :
    l.charge key rules len ((q :: qs).map Prod.fst) =
      Ledger.charge key rules len { l with
        rulesCharged := bump l.rulesCharged q.2.id len
        usersAdded := if q.2.noSum then l.usersAdded else bump l.usersAdded key len }
        (qs.map Prod.fst) := by
  rw [List.map_cons, Ledger.charge, h]

/-- A call adds its length to each rule it visited and to its user, and exports nothing. -/
theorem charge_sums (l : Ledger) (h : ∀ q ∈ qs, rules[q.1]? = some q.2) :
    (∀ r, (l.charge key rules len (qs.map Prod.fst)).rulesCharged r =
        l.rulesCharged r + tally (fun rule => if rule.id = r then len else 0) (qs.map Prod.snd)) ∧
      (∀ id, (l.charge key rules len (qs.map Prod.fst)).usersAdded id =
        l.usersAdded id + if key = id then
          tally (fun rule => if rule.noSum then 0 else len) (qs.map Prod.snd) else 0) ∧
      (l.charge key rules len (qs.map Prod.fst)).rulesCommitted = l.rulesCommitted ∧
      (l.charge key rules len (qs.map Prod.fst)).usersExported = l.usersExported := by
  induction qs generalizing l with
  | nil => simp [Ledger.charge]
  | cons q qs ih =>
    rw [charge_cons l (h q List.mem_cons_self)]
    obtain ⟨hr, hu, hc, he⟩ := ih { l with
      rulesCharged := bump l.rulesCharged q.2.id len
      usersAdded := if q.2.noSum then l.usersAdded else bump l.usersAdded key len }
      fun p hp => h p (List.mem_cons_of_mem q hp)
    refine ⟨?_, ?_, hc, he⟩
    · intro r
      rw [hr, List.map_cons, tally_cons]
      change bump l.rulesCharged q.2.id len r + _ = _
      rw [bump_apply, add_assoc]
    · intro id
      rw [hu, List.map_cons, tally_cons]
      cases hn : q.2.noSum with
      | true => simp
      | false =>
        by_cases hk : key = id
        · simp [bump_apply, hk, add_assoc]
        · simp [bump_apply, hk]

end

theorem chargeUser_sum (len t : IpSize) (qs : List (Nat × NodeRule)) :
    qs.foldl (fun t q => chargeUser q.2 len t) t =
      t + tally (fun rule => if rule.noSum then 0 else len) (qs.map Prod.snd) := by
  induction qs generalizing t with
  | nil => simp
  | cons q qs ih =>
    rw [List.foldl_cons, ih, List.map_cons, tally_cons, chargeUser]
    cases q.2.noSum with
    | true => simp
    | false => simp [add_assoc]

theorem modify_tally {M : Type} [AddCommMonoid M] {users : Users} {key : IpId} {node : NodeUser}
    (f : NodeUser → M) (e : NodeUser → NodeUser) (h : usersFind users key = some node) :
    tally f (users.modify key e).idUsers + f node = tally f users.idUsers + f (e node) := by
  have hr := tally_replace (f := f) e h
  simpa [Users.modify] using hr

/-- The write of users_acct, seen through a sum over the users. -/
theorem account_tally {M : Type} [AddCommMonoid M] {users : Users} {key : IpId} {user : NodeUser}
    (f : NodeUser → M) (s : AcctScan) (h : usersFind users key = some user) :
    tally f (users.account key s).idUsers + f user =
      tally f users.idUsers + f { user with traffic := s.traffic, idRules := s.rules } :=
  modify_tally f _ h

/-- The places of the rules that a users_acct call charges. -/
def chargedAt (users : Users) (req : Request) : List Nat :=
  match acctRules users req with
  | some (some (_, charged)) => charged
  | _ => []

/-- A users_acct call charges one user along the rules it visited, or leaves everything. -/
theorem coreAcct_cases {req : Request} {d d' : Core} (h : coreAcct req d = some d') :
    d' = d ∧ chargedAt d.users req = [] ∨
      ∃ user qs s, Charged d.users req user qs s ∧ chargedAt d.users req = qs.map Prod.fst ∧
        d' = ⟨d.users.account req.idUser s, d.ledger.charge req.idUser user.idRules req.len
          (qs.map Prod.fst)⟩ := by
  rw [coreAcct] at h
  rcases ha : acctRules d.users req with _ | _ | ⟨users', charged⟩
  · simp [ha] at h
  · simp only [ha] at h
    cases h
    exact .inl ⟨rfl, by rw [chargedAt, ha]⟩
  · have hat : chargedAt d.users req = charged := by rw [chargedAt, ha]
    simp only [ha] at h
    rcases acctRules_charged ha with ⟨rfl, rfl⟩ | ⟨user, qs, s, hc, rfl, rfl⟩
    · cases hu : usersFind d.users req.idUser with
      | none =>
        simp only [hu] at h
        cases h
        exact .inl ⟨rfl, hat⟩
      | some user =>
        simp only [hu] at h
        cases h
        exact .inl ⟨rfl, hat⟩
    · simp only [hc.found] at h
      cases h
      rw [hc.charged]
      exact .inr ⟨user, qs, s, hc, hat.trans hc.charged, rfl⟩

end IPStat
