import IPStat.Collect.Statements
import IPStat.System.Schedule

namespace IPStat

/-- The options that a `*/%d * * * *` is made of: those of core_set_sched, time_init, ip_init,
squid_init, and of the policy and limit modules. -/
inductive TimeoutOption where
  | coreSync
  | timeAggregation
  | timeGroup
  | ipAggregation
  | squidAggregation
  | syncUrlPolicy
  | syncTimePolicy
  | syncGroupLimit
  | syncUsersGroupLimit
  deriving DecidableEq, Repr

/-- The size of `str`, which every one of these functions declares for itself. -/
def TimeoutOption.strSize : TimeoutOption → Nat
  | .coreSync => 20
  | .timeAggregation => 20
  | .timeGroup => 20
  | .ipAggregation => 20
  | .squidAggregation => 20
  | .syncUrlPolicy => 20
  | .syncTimePolicy => 20
  | .syncGroupLimit => 20
  | .syncUsersGroupLimit => 20

/-- The size of `tmp`, to which thr_pppd_client writes an address with `%u`. -/
def tmpSize : Nat := 10

theorem length_fmtU_le_iff (n : UInt32) {k : Nat} (hk : 0 < k) :
    (fmtU n).length ≤ k ↔ n.toNat < 10 ^ k := by
  rw [fmtU, Numeral.text, List.length_map]
  exact Numeral.length_ofNat_le_iff hk

/-- The sign takes the place of a digit. -/
theorem length_signedText_le_iff (n : Int) {k : Nat} (hk : 0 < k) :
    (signedText n).length ≤ k + 1 ↔ -(10 ^ k : Int) < n ∧ n < 10 ^ (k + 1) := by
  rw [signedText]
  split_ifs with hneg
  · have hlength := Numeral.length_ofNat_le_iff hk (n := n.natAbs)
    have habs : n.natAbs < 10 ^ k ↔ -(10 ^ k : Int) < n := by
      rw [← Int.ofNat_lt, Int.natCast_natAbs, abs_of_neg hneg]
      push_cast
      omega
    have hpos : (0 : Int) < 10 ^ (k + 1) := by positivity
    rw [List.length_cons, Numeral.text, List.length_map, Nat.add_le_add_iff_right, hlength, habs]
    constructor
    · intro h
      exact ⟨h, by omega⟩
    · exact fun h => h.1
  · have hlength := Numeral.length_ofNat_le_iff k.succ_pos (n := n.natAbs)
    have habs : n.natAbs < 10 ^ (k + 1) ↔ n < 10 ^ (k + 1) := by
      rw [← Int.ofNat_lt, Int.natCast_natAbs, abs_of_nonneg (by omega)]
      push_cast
      exact Iff.rfl
    have hpos : (0 : Int) < 10 ^ k := by positivity
    rw [Numeral.text, List.length_map, hlength, habs]
    constructor
    · intro h
      exact ⟨by omega, h⟩
    · exact fun h => h.2

theorem length_timeoutCrontab (timeout : Int) :
    (timeoutCrontab timeout).length = (signedText timeout).length + 10 := by
  simp [timeoutCrontab]

/-- An address fits `tmp` when it has at most nine digits; a timeout fits `str` when it has at most
nine, or eight and a sign. -/
theorem formats_fit_iff (addr : IpAddr) (tmp : List UInt8) (htmp : tmp.length = tmpSize)
    (option : TimeoutOption) (timeout : Int32) (str : List UInt8)
    (hstr : str.length = option.strSize) :
    ((CString.sprintf tmp (fmtU addr)).isSome ↔ addr.toNat < 1000000000) ∧
    ((CString.sprintf str (timeoutCrontab timeout.toInt)).isSome ↔
      -100000000 < timeout.toInt ∧ timeout.toInt < 1000000000) := by
  have hsize : option.strSize = 20 := by cases option <;> rfl
  constructor
  · rw [CString.sprintf_isSome_iff, htmp, tmpSize, Nat.lt_succ_iff,
      length_fmtU_le_iff addr (by decide)]
    norm_num
  · rw [CString.sprintf_isSome_iff, hstr, hsize, length_timeoutCrontab]
    have hlength := length_signedText_le_iff timeout.toInt (k := 8) (by decide)
    norm_num at hlength
    rw [← hlength]
    omega

/-- A half-hour timeout, and the address 1.2.3.4. -/
theorem formats_fit_short :
    ((CString.sprintf (List.replicate 10 0) (fmtU 0x04030201)).isSome ↔
        (0x04030201 : IpAddr).toNat < 1000000000) ∧
      ((CString.sprintf (List.replicate 20 0) (timeoutCrontab (30 : Int32).toInt)).isSome ↔
        -100000000 < (30 : Int32).toInt ∧ (30 : Int32).toInt < 1000000000) :=
  formats_fit_iff 0x04030201 (List.replicate 10 0) rfl .timeGroup 30 (List.replicate 20 0) rfl

/-- The address 192.168.0.100 has ten digits, and so has a timeout of a milliard. -/
theorem formats_overflow : CString.sprintf (List.replicate 10 0) (fmtU 0x6400a8c0) = none ∧
    ∀ option : TimeoutOption, CString.sprintf (List.replicate option.strSize 0)
      (timeoutCrontab (1000000000 : Int32).toInt) = none := by
  constructor
  · decide +kernel
  · intro option
    have hsize : option.strSize = 20 := by cases option <;> rfl
    rw [hsize]
    decide +kernel

end IPStat
