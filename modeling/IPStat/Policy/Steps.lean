import IPStat.Lib.Keyed
import IPStat.Policy.Lists

namespace IPStat

section
variable {δ : Type} {l l' : List (PolicyNode δ)}

theorem policyFind_none {id : IpId} (h : policyFind l id = none) : ∀ node ∈ l, node.id ≠ id := by
  intro node hm
  simpa using List.find?_eq_none.mp h node hm

theorem policyFind_some {id : IpId} {node : PolicyNode δ} (h : policyFind l id = some node) :
    node ∈ l ∧ node.id = id := by
  constructor
  · exact List.mem_of_find?_eq_some h
  · have hp := List.find?_some h
    exact of_decide_eq_true hp

/-- An update leaves a node that has not been read, or that is the row read. -/
theorem updatePolicy_cases {query : PolicyQuery δ} {node node' : PolicyNode δ}
    (h : updatePolicy query node = some node') :
    node' = node ∧ (query.opened = false ∨ query.row = none) ∨
      ∃ rec, query.row = some (some rec) ∧
        node' = { node with data := rec.data, md5 := rec.md5, timeLive := query.now } := by
  rw [updatePolicy] at h
  cases ho : query.opened with
  | false =>
    simp only [ho] at h
    cases h
    exact .inl ⟨rfl, .inl rfl⟩
  | true =>
    rcases hr : query.row with _ | _ | rec
    · simp only [ho, hr, if_true] at h
      cases h
      exact .inl ⟨rfl, .inr rfl⟩
    · simp [ho, hr] at h
    · simp only [ho, hr, if_true] at h
      cases h
      exact .inr ⟨rec, rfl, rfl⟩

theorem updatePolicy_id {query : PolicyQuery δ} {node node' : PolicyNode δ}
    (h : updatePolicy query node = some node') : node'.id = node.id := by
  rcases updatePolicy_cases h with ⟨rfl, -⟩ | ⟨rec, -, rfl⟩
  · rfl
  · rfl

theorem insertPolicy_cases {accepts : δ → Bool} {query : PolicyQuery δ} {id : IpId}
    (h : insertPolicy accepts query id l = some l') :
    l' = l ∧ (query.opened = false ∨ query.row = none ∨
        ∃ rec, query.row = some (some rec) ∧ accepts rec.data = false) ∨
      ∃ rec, query.row = some (some rec) ∧ l' = l ++ [⟨id, rec.data, rec.md5, query.now⟩] := by
  rw [insertPolicy] at h
  cases ho : query.opened with
  | false =>
    simp only [ho] at h
    cases h
    exact .inl ⟨rfl, .inl rfl⟩
  | true =>
    rcases hr : query.row with _ | _ | rec
    · simp only [ho, hr, if_true] at h
      cases h
      exact .inl ⟨rfl, .inr (.inl rfl)⟩
    · simp [ho, hr] at h
    · simp only [ho, hr, if_true] at h
      cases ha : accepts rec.data with
      | true =>
        simp only [ha, if_true] at h
        cases h
        exact .inr ⟨rec, rfl, rfl⟩
      | false =>
        simp only [ha] at h
        cases h
        exact .inl ⟨rfl, .inr (.inr ⟨rec, rfl, ha⟩)⟩

/-- The entry that the body of the listing loop writes over, or adds. -/
theorem syncPolicyRow_cases {accepts : δ → Bool} {row : PolicyRow δ}
    (h : syncPolicyRow accepts l row = some l') :
    (∃ node node', policyFind l row.id = some node ∧
        (node.md5 = row.md5 ∧ node' = node ∨
          node.md5 ≠ row.md5 ∧ updatePolicy row.query node = some node') ∧
        l' = Keyed.put PolicyNode.id row.id { node' with timeLive := row.now } l) ∨
      policyFind l row.id = none ∧ insertPolicy accepts row.query row.id l = some l' := by
  rw [syncPolicyRow] at h
  cases hf : policyFind l row.id with
  | none =>
    simp only [hf] at h
    exact .inr ⟨rfl, h⟩
  | some node =>
    simp only [hf] at h
    by_cases hmd5 : node.md5 = row.md5
    · rw [if_neg (not_not.mpr hmd5)] at h
      cases h
      exact .inl ⟨node, node, rfl, .inl ⟨hmd5, rfl⟩, rfl⟩
    · rw [if_pos hmd5] at h
      cases hu : updatePolicy row.query node with
      | none => simp [hu] at h
      | some node' =>
        simp only [hu] at h
        cases h
        exact .inl ⟨node, node', rfl, .inr ⟨hmd5, hu⟩, rfl⟩

/-- A row that is read as it is listed is written over the node of its id, or added. -/
theorem syncPolicyRow_puts {accepts : δ → Bool} {row : PolicyRow δ} {rec : PolicyRecord δ}
    (hquery : row.query = ⟨true, some (some rec), row.query.now⟩) (hmd5 : rec.md5 = row.md5)
    (haccept : accepts rec.data = true) (hnodup : (l.map PolicyNode.id).Nodup)
    (hknows : ∀ node ∈ l, node.id = row.id → node.md5 = row.md5 → node.data = rec.data)
    (h : syncPolicyRow accepts l row = some l') :
    Keyed.Puts PolicyNode.id row.id (fun node => node.data = rec.data ∧ node.md5 = row.md5 ∧
      (node.timeLive = row.now ∨ node.timeLive = row.query.now)) True l l' := by
  have hopened : row.query.opened = true := by rw [hquery]
  have hrow : row.query.row = some (some rec) := by rw [hquery]
  rcases syncPolicyRow_cases h with ⟨node, node', hf, hwritten, rfl⟩ | ⟨hf, hinsert⟩
  · obtain ⟨hm, hid⟩ := policyFind_some hf
    have hnode' : node'.id = row.id ∧ node'.data = rec.data ∧ node'.md5 = row.md5 := by
      rcases hwritten with ⟨hsame, rfl⟩ | ⟨-, hu⟩
      · exact ⟨hid, hknows node' hm hid hsame, hsame⟩
      · rcases updatePolicy_cases hu with ⟨-, hclosed | hfailed⟩ | ⟨rec', hrec, rfl⟩
        · rw [hopened] at hclosed
          cases hclosed
        · rw [hrow] at hfailed
          cases hfailed
        · rw [hrow] at hrec
          cases hrec
          exact ⟨hid, rfl, hmd5⟩
    have hid' : { node' with timeLive := row.now : PolicyNode δ }.id = row.id := hnode'.1
    exact Keyed.Puts.put hnodup ⟨node, hm, hid⟩ hid' ⟨hnode'.2.1, hnode'.2.2, .inl rfl⟩
  · have habsent := policyFind_none hf
    rcases insertPolicy_cases hinsert with ⟨-, hclosed | hfailed | hrefused⟩ | ⟨rec', hrec, rfl⟩
    · rw [hopened] at hclosed
      cases hclosed
    · rw [hrow] at hfailed
      cases hfailed
    · obtain ⟨rec', hrec, hno⟩ := hrefused
      rw [hrow] at hrec
      cases hrec
      rw [haccept] at hno
      cases hno
    · rw [hrow] at hrec
      cases hrec
      exact Keyed.Puts.append hnodup habsent rfl ⟨rfl, hmd5, .inr rfl⟩

theorem sweepPolicy_sweep (age : Nat → TimeT) (i : Nat) (ns l : List (PolicyNode δ)) :
    sweepPolicy age i ns l =
      Aged.sweep PolicyNode.id (fun i n => expired age i n.timeLive) i ns l := by
  induction ns generalizing i l with
  | nil => rfl
  | cons node ns ih => exact ih (i + 1) _

/-- A pass leaves the list as it was, or lists and sweeps. -/
theorem syncPolicyList_cases {accepts : δ → Bool} {env : PolicyEnv δ}
    (h : syncPolicyList accepts env l = some l') :
    (l' = l ∧ (env.opened = false ∨ env.rows = none)) ∨
      env.opened = true ∧ ∃ rows l1, env.rows = some rows ∧
        Run.exec (syncPolicyRow accepts) l rows = some l1 ∧
        l' = Aged.sweep PolicyNode.id (fun i n => expired env.age i n.timeLive) 0 l1 l1 := by
  rw [syncPolicyList] at h
  cases ho : env.opened with
  | false =>
    simp only [ho] at h
    cases h
    exact .inl ⟨rfl, .inl rfl⟩
  | true =>
    cases hr : env.rows with
    | none =>
      simp only [ho, hr, if_true] at h
      cases h
      exact .inl ⟨rfl, .inr rfl⟩
    | some rows =>
      simp only [ho, hr, if_true, Option.map_eq_some_iff] at h
      obtain ⟨l1, he, rfl⟩ := h
      exact .inr ⟨rfl, rows, l1, rfl, he, sweepPolicy_sweep env.age 0 l1 l1⟩

end

end IPStat
