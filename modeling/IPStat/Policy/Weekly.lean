import IPStat.Lib.Numeral
import IPStat.Policy.Decision

namespace IPStat

/-- The texts that the form of a weekly policy sends, Monday's period first. -/
structure PolicyForm where
  period1 : List UInt8
  period2 : List UInt8
  period3 : List UInt8
  period4 : List UInt8
  period5 : List UInt8
  period6 : List UInt8
  period7 : List UInt8

/-- PHP's explode, of a text at a one-byte separator. -/
def explode (sep : UInt8) (str : List UInt8) : List (List UInt8) := str.splitOn sep

/-- strToSec: a part that is missing counts as zero. -/
def strToSec (str : List UInt8) : Int × Int :=
  let arr1 := explode 45 str
  let arrBegin := explode 58 (arr1.getD 0 [])
  let arrEnd := explode 58 (arr1.getD 1 [])
  (Numeral.leading (arrBegin.getD 0 []) * 3600 + Numeral.leading (arrBegin.getD 1 []) * 60,
    Numeral.leading (arrEnd.getD 0 []) * 3600 + Numeral.leading (arrEnd.getD 1 []) * 60)

/-- The array of periods by Week_Day: Sunday comes first. -/
def PolicyForm.arr (GET : PolicyForm) : Fin 7 → Int × Int
  | 0 => strToSec GET.period7
  | 1 => strToSec GET.period1
  | 2 => strToSec GET.period2
  | 3 => strToSec GET.period3
  | 4 => strToSec GET.period4
  | 5 => strToSec GET.period5
  | 6 => strToSec GET.period6

/-- A number written to an int(10) unsigned column, which is cut to the column's range. -/
def unsignedColumn (n : Int) : UInt32 := UInt32.ofNat (min n.toNat (2 ^ 32 - 1))

/-- What processingAddPolicy inserts: Def of Policy_Time, and the rows of Policy_Time_Def. -/
structure SavedPolicy where
  deflt : UInt8
  rows : List (DefRow TimeDef)

/-- `lastID` is mysql_insert_id, and `ids` are those that auto_increment gives the rows. -/
def processingAddPolicy (GET : PolicyForm) (lastID : IpId) (ids : Fin 7 → IpId) : SavedPolicy where
  deflt := 0
  rows := (List.finRange 7).map fun i => ⟨ids i, lastID, UInt8.ofNat i.val,
    unsignedColumn (GET.arr i).1, unsignedColumn (GET.arr i).2, 1⟩

/-- A period as it is entered, "h1:m1-h2:m2" in decimal digits. -/
structure Period where
  h1 : List (Fin 10)
  m1 : List (Fin 10)
  h2 : List (Fin 10)
  m2 : List (Fin 10)

namespace Period

def text (p : Period) : List UInt8 :=
  (Numeral.text p.h1 ++ 58 :: Numeral.text p.m1) ++
    45 :: (Numeral.text p.h2 ++ 58 :: Numeral.text p.m2)

def begins (p : Period) : Nat := Numeral.value p.h1 * 3600 + Numeral.value p.m1 * 60

def ends (p : Period) : Nat := Numeral.value p.h2 * 3600 + Numeral.value p.m2 * 60

/-- What the form puts into a field that was left empty. -/
def empty : Period := ⟨Numeral.zeros 1, Numeral.zeros 2, Numeral.zeros 1, Numeral.zeros 2⟩

end Period

inductive Weekday where
  | monday
  | tuesday
  | wednesday
  | thursday
  | friday
  | saturday
  | sunday
  deriving DecidableEq, Repr

/-- tm_wday. -/
def Weekday.wday : Weekday → UInt8
  | monday => 1
  | tuesday => 2
  | wednesday => 3
  | thursday => 4
  | friday => 5
  | saturday => 6
  | sunday => 0

/-- The form as it is filled in for the days of a week. -/
def formOf (week : Weekday → Period) : PolicyForm where
  period1 := (week .monday).text
  period2 := (week .tuesday).text
  period3 := (week .wednesday).text
  period4 := (week .thursday).text
  period5 := (week .friday).text
  period6 := (week .saturday).text
  period7 := (week .sunday).text

/-- The daemon holds the table: as it was started on it, or after passes over it. -/
def Loaded {ρ δ κ : Type} (k : DefKind ρ δ κ) (table : List (DefRow ρ))
    (l : List (PolicyNode δ)) : Prop :=
  (∃ now, l = initPolicyList k now table) ∨ ∃ held, Detected k held table ∧ SettledOn k held table l

theorem Loaded.reflects {ρ δ κ : Type} {k : DefKind ρ δ κ} {table : List (DefRow ρ)}
    {l : List (PolicyNode δ)} (h : Loaded k table l) (hids : (table.map DefRow.id).Nodup)
    (haccepts : ∀ r ∈ table, k.accepts (k.read r.row) = true) : Reflects k table l := by
  rcases h with ⟨now, rfl⟩ | ⟨held, hdetected, hsettled⟩
  · exact initPolicyList_reflects now haccepts
  · exact hsettled.reflects hids haccepts hdetected

theorem explode_pair {sep : UInt8} {s t : List UInt8} (hs : sep ∉ s) (ht : sep ∉ t) :
    explode sep (s ++ sep :: t) = [s, t] := by
  rw [explode, List.splitOn_append_cons_self, List.splitOn_eq_singleton hs,
    List.splitOn_eq_singleton ht, List.singleton_append]

theorem not_mem_text {sep : UInt8} (hsep : Numeral.isDigit sep = false) (ds : List (Fin 10)) :
    sep ∉ Numeral.text ds := by
  intro hm
  exact Numeral.ne_of_mem_text hsep hm rfl

/-- A period reads back as the seconds at which it begins and ends. -/
theorem strToSec_text (p : Period) : strToSec p.text = (↑p.begins, ↑p.ends) := by
  have hcolon (ds : List (Fin 10)) : (58 : UInt8) ∉ Numeral.text ds := not_mem_text (by decide) ds
  have hdash (ds : List (Fin 10)) : (45 : UInt8) ∉ Numeral.text ds := not_mem_text (by decide) ds
  have hhalf (h m : List (Fin 10)) : (45 : UInt8) ∉ Numeral.text h ++ 58 :: Numeral.text m := by
    simp [hdash]
  have harr : explode 45 p.text =
      [Numeral.text p.h1 ++ 58 :: Numeral.text p.m1, Numeral.text p.h2 ++ 58 :: Numeral.text p.m2] :=
    explode_pair (hhalf p.h1 p.m1) (hhalf p.h2 p.m2)
  have hbegin := explode_pair (hcolon p.h1) (hcolon p.m1)
  have hend := explode_pair (hcolon p.h2) (hcolon p.m2)
  simp [strToSec, harr, hbegin, hend, Numeral.leading_text, Period.begins, Period.ends]

/-- The row of a day: the form begins the week on Monday, the table on Sunday. -/
theorem formOf_arr (week : Weekday → Period) (d : Weekday) :
    ∃ i, (formOf week).arr i = (↑(week d).begins, ↑(week d).ends) ∧
      UInt8.ofNat i.val = d.wday := by
  cases d
  · exact ⟨1, strToSec_text _, rfl⟩
  · exact ⟨2, strToSec_text _, rfl⟩
  · exact ⟨3, strToSec_text _, rfl⟩
  · exact ⟨4, strToSec_text _, rfl⟩
  · exact ⟨5, strToSec_text _, rfl⟩
  · exact ⟨6, strToSec_text _, rfl⟩
  · exact ⟨0, strToSec_text _, rfl⟩

theorem unsignedColumn_toNat {n : Nat} (hn : n ≤ 86400) : (unsignedColumn n).toNat = n := by
  have hmin : min n (2 ^ 32 - 1) = n := by omega
  have hlt : n < UInt32.size := by
    change n < 4294967296
    omega
  rw [unsignedColumn, Int.toNat_natCast, hmin, UInt32.toNat_ofNat_of_lt' hlt]

/-- The rows that the form writes have distinct weekdays. -/
theorem weekday_inj {i j : Fin 7} (h : UInt8.ofNat i.val = UInt8.ofNat j.val) : i = j := by
  revert i j
  decide

/-- Of the saved rows, those of a day's weekday say that day's period. -/
theorem processingAddPolicy_row {week : Weekday → Period} {lastID : IpId} {ids : Fin 7 → IpId}
    {d : Weekday} (hday : (week d).ends ≤ 86400) (hle : (week d).begins ≤ (week d).ends) :
    (∃ r ∈ (processingAddPolicy (formOf week) lastID ids).rows, r.row.weekDay = d.wday) ∧
      ∀ r ∈ (processingAddPolicy (formOf week) lastID ids).rows, r.row.weekDay = d.wday →
        r.row.idPolicy = lastID ∧ r.row.target = 1 ∧
          r.row.timeBegin.toNat = (week d).begins ∧ r.row.timeEnd.toNat = (week d).ends := by
  obtain ⟨i, harr, hwday⟩ := formOf_arr week d
  constructor
  · refine ⟨_, List.mem_map.mpr ⟨i, List.mem_finRange i, rfl⟩, hwday⟩
  · intro r hr hrday
    obtain ⟨j, -, rfl⟩ := List.mem_map.mp hr
    have hij : j = i := weekday_inj (hrday.trans hwday.symm)
    subst hij
    have hbegins : (week d).begins ≤ 86400 := by omega
    refine ⟨rfl, rfl, ?_, ?_⟩
    · simp only [harr]
      exact unsignedColumn_toNat hbegins
    · simp only [harr]
      exact unsignedColumn_toNat hday

/-- The comparison with time_end is not strict: a second is judged as the entered period says
unless it is the one at which the period ends. -/
theorem check_policy_weekly (md5 : TimeDef → Md5) (week : Weekday → Period) (lastID : IpId)
    (ids : Fin 7 → IpId) (others : List (DefRow TimeDef)) (l : List (PolicyNode TimeDef))
    (hweek : ∀ d, (week d).begins ≤ (week d).ends ∧ (week d).ends ≤ 86400)
    (hothers : ∀ r ∈ others, r.row.idPolicy ≠ lastID)
    (hids : ((others ++ (processingAddPolicy (formOf week) lastID ids).rows).map DefRow.id).Nodup)
    (hl : Loaded (timeKind md5) (others ++ (processingAddPolicy (formOf week) lastID ids).rows) l)
    (d : Weekday) (s : Nat) :
    (checkPolicy (timeKind md5) l ⟨lastID, d.wday, s⟩
          (processingAddPolicy (formOf week) lastID ids).deflt = true ↔
        (week d).begins ≤ s ∧ s < (week d).ends) ↔
      s ≠ (week d).ends := by
  have hreflects := hl.reflects hids fun _ _ => rfl
  obtain ⟨⟨row, hrow, hrowday⟩, hperiod⟩ :=
    @processingAddPolicy_row week lastID ids d (hweek d).2 (hweek d).1
  have hallows : checkPolicy (timeKind md5) l ⟨lastID, d.wday, s⟩
      (processingAddPolicy (formOf week) lastID ids).deflt = true ↔
      (week d).begins ≤ s ∧ s ≤ (week d).ends := by
    have happly (r : DefRow TimeDef)
        (hr : r ∈ (processingAddPolicy (formOf week) lastID ids).rows)
        (hday : r.row.weekDay = d.wday) :
        (timeKind md5).applies ⟨lastID, d.wday, s⟩ r.row = true ↔
          (week d).begins ≤ s ∧ s ≤ (week d).ends := by
      obtain ⟨hid, -, hbegin, hend⟩ := hperiod r hr hday
      simp [timeKind, hid, hday, hbegin, hend]
    rcases hreflects.decided ⟨lastID, d.wday, s⟩
      (processingAddPolicy (formOf week) lastID ids).deflt with ⟨r, hr, happlies, hres⟩ | ⟨hnone, hres⟩
    · have hsame : r.row.idPolicy = lastID ∧ d.wday = r.row.weekDay := by
        have hq := of_decide_eq_true happlies
        exact ⟨hq.1, hq.2.1⟩
      have hmine : r ∈ (processingAddPolicy (formOf week) lastID ids).rows := by
        rcases List.mem_append.mp hr with hother | hmine
        · exact absurd hsame.1 (hothers r hother)
        · exact hmine
      have htarget := (hperiod r hmine hsame.2.symm).2.1
      rw [hres]
      refine iff_of_true ?_ ((happly r hmine hsame.2.symm).mp happlies)
      simp [timeKind, htarget]
    · have hno := hnone row (List.mem_append_right others hrow)
      rw [hres]
      apply iff_of_false (by simp [processingAddPolicy])
      intro hin
      have hyes := (happly row hrow hrowday).mpr hin
      rw [show (timeKind md5).read row.row = row.row from rfl, hyes] at hno
      cases hno
  have hle := (hweek d).1
  rw [hallows]
  omega

/-- Nine to six from Monday to Friday, and the weekend left empty. -/
def officeHours : Weekday → Period
  | .saturday => .empty
  | .sunday => .empty
  | _ => ⟨Numeral.ofNat 9, Numeral.zeros 2, Numeral.ofNat 18, Numeral.zeros 2⟩

/-- The list of a daemon started on the rows of the office's policy. -/
def officeList : List (PolicyNode TimeDef) :=
  initPolicyList (timeKind beginMd5) (fun _ => 0)
    (processingAddPolicy (formOf officeHours) 1 fun i => UInt32.ofNat (i.val + 1)).rows

theorem check_policy_weekly_office :
    (checkPolicy (timeKind beginMd5) officeList ⟨1, Weekday.monday.wday, 40000⟩ 0 = true ↔
        32400 ≤ 40000 ∧ 40000 < 64800) ↔ 40000 ≠ 64800 := by
  have hweek : ∀ d, (officeHours d).begins ≤ (officeHours d).ends ∧
      (officeHours d).ends ≤ 86400 := by
    intro d
    cases d <;> decide
  exact check_policy_weekly beginMd5 officeHours 1 (fun i => UInt32.ofNat (i.val + 1)) []
    officeList hweek (by simp) (by decide) (.inl ⟨fun _ => 0, rfl⟩) .monday 40000

/-- An empty day is allowed during its first second. -/
theorem empty_day_allowed :
    (officeHours .sunday).text = [48, 58, 48, 48, 45, 48, 58, 48, 48] ∧
      checkPolicy (timeKind beginMd5) officeList ⟨1, Weekday.sunday.wday, 0⟩ 0 = true ∧
      ¬ ((officeHours .sunday).begins ≤ 0 ∧ 0 < (officeHours .sunday).ends) := by
  decide

end IPStat
