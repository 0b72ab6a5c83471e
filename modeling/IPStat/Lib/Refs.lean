import Mathlib.Data.List.Basic
import Mathlib.Data.List.Nodup

namespace Refs

variable {α β κ : Type}

/-- Every row names, in a column, the key of some row of another table. -/
def Refers (rows : List α) (col : α → κ) (targets : List β) (key : β → κ) : Prop :=
  ∀ r ∈ rows, ∃ t ∈ targets, key t = col r

instance [DecidableEq κ] (rows : List α) (col : α → κ) (targets : List β) (key : β → κ) :
    Decidable (Refers rows col targets key) :=
  inferInstanceAs (Decidable (∀ r ∈ rows, ∃ t ∈ targets, key t = col r))

section
variable {rows rows' : List α} {col : α → κ} {targets : List β} {key : β → κ} {keep : β → Bool}

theorem Refers.of_subset (h : Refers rows col targets key) (hsub : rows' ⊆ rows) :
    Refers rows' col targets key := by
  intro r hr
  exact h r (hsub hr)

theorem Refers.filter (h : Refers rows col targets key) (p : α → Bool) :
    Refers (rows.filter p) col targets key :=
  h.of_subset List.filter_sublist.subset

/-- References outlive a deletion when the rows that name what is deleted go too. -/
theorem Refers.cascade (h : Refers rows col targets key) (hsub : rows' ⊆ rows)
    (hkeep : ∀ r ∈ rows', ∀ t ∈ targets, key t = col r → keep t = true) :
    Refers rows' col (targets.filter keep) key := by
  intro r hr
  obtain ⟨t, ht, hk⟩ := h r (hsub hr)
  exact ⟨t, List.mem_filter.mpr ⟨ht, hkeep r hr t ht hk⟩, hk⟩

/-- On a primary key, references outlive a deletion exactly when no row names what is
deleted. -/
theorem refers_filter_iff (h : Refers rows col targets key) (hkey : (targets.map key).Nodup) :
    Refers rows col (targets.filter keep) key ↔
      ∀ r ∈ rows, ∀ t ∈ targets, key t = col r → keep t = true := by
  constructor
  · intro h' r hr t ht hk
    obtain ⟨t', ht', hk'⟩ := h' r hr
    obtain ⟨hm, hkeep⟩ := List.mem_filter.mp ht'
    have heq : t = t' := List.inj_on_of_nodup_map hkey ht hm (hk.trans hk'.symm)
    rw [heq]
    exact hkeep
  · exact h.cascade fun r hr => hr

/-- Deleting one key. -/
theorem refers_delete_iff [DecidableEq κ] (h : Refers rows col targets key) (k : κ) :
    Refers rows col (targets.filter fun t => key t ≠ k) key ↔ ∀ r ∈ rows, col r ≠ k := by
  constructor
  · intro h' r hr hk
    obtain ⟨t, ht, hkt⟩ := h' r hr
    obtain ⟨-, hkeep⟩ := List.mem_filter.mp ht
    exact of_decide_eq_true hkeep (hkt.trans hk)
  · intro hne
    apply h.cascade fun r hr => hr
    intro r hr t ht hk
    apply decide_eq_true
    intro hkt
    exact hne r hr (hk.symm.trans hkt)

theorem nodup_map_filter (hkey : (targets.map key).Nodup) (keep : β → Bool) :
    ((targets.filter keep).map key).Nodup :=
  hkey.sublist (List.filter_sublist.map key)

end

end Refs
