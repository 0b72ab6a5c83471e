import IPStat.Inet
import IPStat.Lib.BitPrefix

namespace IPStat

/-- The networks that a mask tells apart: the first bits of the two addresses in network byte
order, 32 at most. -/
def SameNetwork (ip net : IpAddr) (mask : IpMask) : Prop :=
  BitPrefix.Same (min mask.toNat 32) (octet ip) (octet net)

/-- compare_with_mask reads the four bytes of each address alone, and compares their prefixes. -/
def ComparesPrefix (ip net : IpAddr) (mask : IpMask) : Prop :=
  ∃ same, compareWithMask ip net mask = some same ∧ (same = true ↔ SameNetwork ip net mask)

section
variable {ip net : IpAddr} {mask : IpMask}

theorem boundaryBits_eq (mask : IpMask) :
    boundaryBits mask = BitPrefix.top (mask.toNat % 8) := by
  have hshift : 8 - mask % 8 = UInt8.ofNat (8 - mask.toNat % 8) := by
    rw [← UInt8.toNat_inj]
    have hle : mask % 8 ≤ 8 := by
      rw [UInt8.le_iff_toNat_le, UInt8.toNat_mod]
      simp
      omega
    rw [UInt8.toNat_sub_of_le _ _ hle, UInt8.toNat_mod, UInt8.toNat_ofNat']
    simp
    omega
  rw [boundaryBits, hshift, BitPrefix.top]

theorem mod_eq_zero_iff : mask % 8 = 0 ↔ mask.toNat % 8 = 0 := by
  rw [← UInt8.toNat_inj, UInt8.toNat_mod]
  rfl

/-- The four bytes make up the address. -/
theorem octets_eq_iff : (∀ j < 4, octet ip j = octet net j) ↔ ip = net := by
  constructor
  · intro h
    have h0 := h 0 (by decide)
    have h1 := h 1 (by decide)
    have h2 := h 2 (by decide)
    have h3 := h 3 (by decide)
    simp only [octet, ← UInt8.toNat_inj, UInt32.toNat_toUInt8, UInt32.toNat_shiftRight,
      Nat.shiftRight_eq_div_pow] at h0 h1 h2 h3
    simp at h0 h1 h2 h3
    have hip := ip.toNat_lt
    have hnet := net.toNat_lt
    rw [← UInt32.toNat_inj]
    omega
  · intro h j _
    rw [h]

/-- Up to 32 bits the source's bytes and its shifted mask are the prefix. -/
theorem compareWithMask_leading (h : mask.toNat ≤ 32) : ComparesPrefix ip net mask := by
  have hmin : min mask.toNat 32 = mask.toNat := Nat.min_eq_left h
  rw [ComparesPrefix, SameNetwork, hmin, BitPrefix.same_iff]
  have hin : ¬ 4 < mask.toNat / 8 := by omega
  have hall : ((List.range (mask.toNat / 8)).all fun i => octet ip i == octet net i) = true ↔
      ∀ j < mask.toNat / 8, octet ip j = octet net j := by
    simp
  simp only [compareWithMask, if_neg hin]
  by_cases hbytes : ∀ j < mask.toNat / 8, octet ip j = octet net j
  · rw [if_pos (hall.mpr hbytes)]
    by_cases hwhole : mask.toNat % 8 = 0
    · rw [if_pos (mod_eq_zero_iff.mpr hwhole)]
      exact ⟨true, rfl, iff_of_true rfl ⟨hbytes, .inl hwhole⟩⟩
    · have hlast : ¬ mask.toNat / 8 = 4 := by omega
      rw [if_neg (mt mod_eq_zero_iff.mp hwhole), if_neg hlast, boundaryBits_eq]
      refine ⟨_, rfl, ?_⟩
      rw [beq_iff_eq, and_iff_right hbytes, or_iff_right hwhole]
  · rw [if_neg (mt hall.mp hbytes)]
    exact ⟨false, rfl, by simp [hbytes]⟩

/-- Past 32 bits it reads on, unless it has found a difference in the four bytes before. -/
theorem compareWithMask_beyond (h : 32 < mask.toNat) : ComparesPrefix ip net mask ↔
    mask.toNat < 40 ∧ ip ≠ net := by
  have hmin : min mask.toNat 32 = 32 := Nat.min_eq_right (Nat.le_of_lt h)
  have hsame : SameNetwork ip net mask ↔ ip = net := by
    rw [SameNetwork, hmin, BitPrefix.same_iff]
    simp [octets_eq_iff]
  rw [ComparesPrefix, hsame]
  simp only [compareWithMask]
  by_cases hfar : 4 < mask.toNat / 8
  · rw [if_pos hfar]
    have hnot : ¬ mask.toNat < 40 := by omega
    simp [hnot]
  · have hfour : mask.toNat / 8 = 4 := by omega
    have hnear : mask.toNat < 40 := by omega
    have hrest : ¬ mask % 8 = 0 := by
      rw [mod_eq_zero_iff]
      omega
    have hall : ((List.range (mask.toNat / 8)).all fun i => octet ip i == octet net i) = true ↔
        ip = net := by
      rw [hfour, ← octets_eq_iff]
      simp
    rw [if_neg hfar]
    by_cases heq : ip = net
    · rw [if_pos (hall.mpr heq), if_neg hrest, if_pos hfour]
      simp [heq]
    · rw [if_neg (mt hall.mp heq)]
      simp [heq, hnear]

end

/-- Network matching is prefix matching up to 32 bits, and up to 39 for different addresses. -/
theorem compare_with_mask_iff (ip net : IpAddr) (mask : IpMask) :
    ComparesPrefix ip net mask ↔ mask.toNat ≤ 32 ∨ mask.toNat < 40 ∧ ip ≠ net := by
  by_cases hmask : mask.toNat ≤ 32
  · exact iff_of_true (compareWithMask_leading hmask) (.inl hmask)
  · rw [compareWithMask_beyond (Nat.lt_of_not_le hmask)]
    simp [hmask]

/-- 10.0.0.1 against itself with a mask of 33: the fifth byte is read. -/
theorem compare_with_mask_overruns : compareWithMask 16777226 16777226 33 = none ∧
    ¬ ComparesPrefix 16777226 16777226 33 := by
  have hnone : compareWithMask 16777226 16777226 33 = none := by decide
  refine ⟨hnone, ?_⟩
  intro hcompares
  obtain ⟨same, hsome, -⟩ := hcompares
  rw [hnone] at hsome
  cases hsome

end IPStat
