import IPStat.System.Schedule

namespace IPStat

/-- A field of a crontab line: '*', a value from `lo` to `hi`, or '*/N'. -/
inductive CronField (lo hi : Nat) where
  | every
  | value (ds : List (Fin 10)) (nonempty : ds ≠ []) (low : lo ≤ Numeral.value ds)
      (high : Numeral.value ds ≤ hi)
  | step (ds : List (Fin 10)) (positive : 1 ≤ Numeral.value ds)

namespace CronField

variable {lo hi : Nat}

def text : CronField lo hi → List UInt8
  | .every => [42]
  | .value ds _ _ _ => Numeral.text ds
  | .step ds _ => 42 :: 47 :: Numeral.text ds

/-- What a field asks of the calendar's value, or of the one in struct tm. -/
def Holds (f : CronField lo hi) (calendar tmValue : Int) : Prop :=
  match f with
  | .every => True
  | .value ds _ _ _ => (Numeral.value ds : Int) = calendar
  | .step ds _ => (Numeral.value ds : Int) ∣ tmValue

/-- N as an int. -/
def divisor (ds : List (Fin 10)) : Int := atoi (Numeral.text ds)

/-- What a field asks with N as an int, and everything else in struct tm. -/
def HoldsAsInt (f : CronField lo hi) (tmValue : Int) : Prop :=
  match f with
  | .every => True
  | .value ds _ _ _ => (Numeral.value ds : Int) = tmValue
  | .step ds _ => divisor ds ∣ tmValue

def Divides : CronField lo hi → Prop
  | .step ds _ => divisor ds ≠ 0
  | _ => True

/-- N is an int. -/
def Fits : CronField lo hi → Prop
  | .step ds _ => Numeral.value ds < 2147483648
  | _ => True

def month? : CronField lo hi → Option Nat
  | .value ds _ _ _ => some (Numeral.value ds)
  | _ => none

end CronField

/-- A schedule of five fields. -/
structure Schedule where
  min : CronField 0 59
  hour : CronField 0 23
  mday : CronField 1 31
  mon : CronField 1 12
  wday : CronField 0 6

namespace Schedule

def texts (fs : Schedule) : List (List UInt8) :=
  [fs.min.text, fs.hour.text, fs.mday.text, fs.mon.text, fs.wday.text]

/-- The fields but the month's are as the time. -/
@[mk_iff] structure OthersHold (fs : Schedule) (tm : Tm) : Prop where
  min : fs.min.Holds tm.min tm.min
  hour : fs.hour.Holds tm.hour tm.hour
  mday : fs.mday.Holds tm.mday tm.mday
  wday : fs.wday.Holds tm.wday tm.wday

/-- The calendar's months start from 1, those of struct tm from 0. -/
def Matches (fs : Schedule) (tm : Tm) : Prop :=
  fs.OthersHold tm ∧ fs.mon.Holds (tm.mon + 1) tm.mon

@[mk_iff] structure MatchesAsInt (fs : Schedule) (tm : Tm) : Prop where
  min : fs.min.HoldsAsInt tm.min
  hour : fs.hour.HoldsAsInt tm.hour
  mday : fs.mday.HoldsAsInt tm.mday
  mon : fs.mon.HoldsAsInt tm.mon
  wday : fs.wday.HoldsAsInt tm.wday

@[mk_iff] structure Divides (fs : Schedule) : Prop where
  min : fs.min.Divides
  hour : fs.hour.Divides
  mday : fs.mday.Divides
  mon : fs.mon.Divides
  wday : fs.wday.Divides

structure Fits (fs : Schedule) : Prop where
  min : fs.min.Fits
  hour : fs.hour.Fits
  mday : fs.mday.Fits
  mon : fs.mon.Fits
  wday : fs.wday.Fits

end Schedule

/-- The text gets a node that time_cmp finds due exactly when the schedule is. -/
def MeansSchedule (crontab : List UInt8) (fs : Schedule) (tm : Tm) : Prop :=
  ∃ node res, schedulersRegisterNode crontab = some node ∧ timeCmp node tm = some res ∧
    (res = true ↔ fs.Matches tm)

/-- A text that is kept whole, with numbers that are ints, asks for no month, or for neither the
current nor the last one, or is not due anyway. Any other text is cut to one that still is a
schedule, or its numbers wrap, and what is read gives the same answer. -/
def Schedule.ReadAsMeant (fs : Schedule) (text : List UInt8) (tm : Tm) : Prop :=
  (text.length ≤ 50 ∧ fs.Fits → ∀ month, fs.mon.month? = some month → fs.OthersHold tm →
    (month : Int) ≠ tm.mon ∧ (month : Int) ≠ tm.mon + 1) ∧
  (¬ (text.length ≤ 50 ∧ fs.Fits) → ∃ wday, keptTokens text = { fs with wday }.texts ∧
    { fs with wday }.Divides ∧ ({ fs with wday }.MatchesAsInt tm ↔ fs.Matches tm))

namespace CronField

variable {lo hi : Nat} {f : CronField lo hi} {ds : List (Fin 10)}

theorem divisor_eq (h : Numeral.value ds < 2147483648) : divisor ds = Numeral.value ds := by
  rw [divisor, atoi, strtol, Numeral.leading_text]
  have hclip : max (-2 ^ 63) (min (2 ^ 63 - 1) (Numeral.value ds : Int)) = Numeral.value ds := by
    omega
  rw [hclip]
  apply Int.bmod_eq_of_le
  · have hlow : (-2147483648 : Int) ≤ Numeral.value ds := by omega
    exact hlow
  · have hhigh : (Numeral.value ds : Int) < 2147483648 := by omega
    exact hhigh

theorem head_text (ds : List (Fin 10)) : (Numeral.text ds).head? ≠ some 42 := by
  intro hhead
  have hmem := List.mem_of_head? hhead
  exact Numeral.ne_of_mem_text (by decide) hmem rfl

theorem slash_not_mem (ds : List (Fin 10)) : 47 ∉ Numeral.text ds := by
  intro hmem
  exact Numeral.ne_of_mem_text (by decide) hmem rfl

/-- What parse_vol reads in a field. -/
theorem parseVol_text (hhi : hi < 2147483648) (f : CronField lo hi) : parseVol f.text =
    match f with
    | .every => (-1, -1)
    | .value ds _ _ _ => ((Numeral.value ds : Int), -1)
    | .step ds _ => (-1, divisor ds) := by
  cases f with
  | every => rfl
  | value ds nonempty low high =>
    have hvalue := divisor_eq (Nat.lt_of_le_of_lt high hhi)
    rw [divisor] at hvalue
    rw [text, parseVol, if_neg (slash_not_mem ds), if_neg (head_text ds), hvalue]
  | step ds positive => simp [text, parseVol, divisor]

theorem decides_text (hhi : hi < 2147483648) (f : CronField lo hi) (now : Int) :
    Decides (parseVol f.text).1 (parseVol f.text).2 now ↔ f.HoldsAsInt now := by
  rw [parseVol_text hhi, Decides]
  cases f with
  | every => simp [HoldsAsInt]
  | value ds nonempty low high =>
    have hne : (Numeral.value ds : Int) ≠ -1 := by omega
    simp [HoldsAsInt, hne]
  | step ds positive =>
    -- -1, which stands for no divisor, divides every number
    by_cases habsent : divisor ds = -1
    · simp [HoldsAsInt, habsent]
    · simp [HoldsAsInt, habsent]

theorem divides_text (hhi : hi < 2147483648) (f : CronField lo hi) :
    (parseVol f.text).2 ≠ 0 ↔ f.Divides := by
  rw [parseVol_text hhi]
  cases f <;> simp [Divides]

theorem Fits.divides (h : f.Fits) : f.Divides := by
  cases f with
  | every => trivial
  | value ds nonempty low high => trivial
  | step ds positive =>
    show divisor ds ≠ 0
    rw [divisor_eq h]
    omega

theorem Fits.holds_iff (h : f.Fits) (now : Int) : f.HoldsAsInt now ↔ f.Holds now now := by
  cases f with
  | every => exact Iff.rfl
  | value ds nonempty low high => exact Iff.rfl
  | step ds positive =>
    rw [HoldsAsInt, divisor_eq h]
    rfl

/-- A weekday's field that is cut is one still, or divides by zero. -/
theorem take_text (f : CronField 0 6) {n : Nat} (hn : 0 < n) :
    (∃ g : CronField 0 6, g.text = f.text.take n) ∨ (parseVol (f.text.take n)).2 = 0 := by
  obtain ⟨n, rfl⟩ : ∃ k, n = k + 1 := ⟨n - 1, by omega⟩
  cases f with
  | every => exact .inl ⟨.every, by simp [text]⟩
  | value ds nonempty low high =>
    left
    refine ⟨.value (ds.take (n + 1)) ?_ (Nat.zero_le _)
      (Nat.le_trans (Numeral.value_take_le ds (n + 1)) high), ?_⟩
    · simpa using nonempty
    · exact List.map_take
  | step ds positive =>
    cases n with
    | zero => exact .inl ⟨.every, rfl⟩
    | succ n =>
      have htake : (text (.step ds positive : CronField 0 6)).take (n + 1 + 1) =
          42 :: 47 :: Numeral.text (ds.take n) := by
        rw [text, List.take_succ_cons, List.take_succ_cons, Numeral.text, Numeral.text,
          List.map_take]
      rw [htake]
      by_cases hpos : 1 ≤ Numeral.value (ds.take n)
      · exact .inl ⟨.step (ds.take n) hpos, rfl⟩
      · right
        have hzero : Numeral.value (ds.take n) = 0 := by omega
        have hdivisor : divisor (ds.take n) = Numeral.value (ds.take n) :=
          divisor_eq (by omega)
        rw [hzero, divisor] at hdivisor
        simpa [parseVol] using hdivisor

end CronField

section
variable {crontab text : List UInt8} {fs gs : Schedule} {tm : Tm}

def Schedule.node (gs : Schedule) : CronNode :=
  cronNode gs.min.text gs.hour.text gs.mday.text gs.mon.text gs.wday.text

theorem Schedule.node_divides_iff : gs.node.Divides ↔ gs.Divides := by
  rw [CronNode.divides_iff, Schedule.divides_iff]
  simp (disch := decide) only [Schedule.node, cronNode, CronField.divides_text]

theorem Schedule.node_decides_iff : gs.node.Decides tm ↔ gs.MatchesAsInt tm := by
  rw [CronNode.decides_iff, Schedule.matchesAsInt_iff]
  simp (disch := decide) only [Schedule.node, cronNode, CronField.decides_text]

/-- What a text means whose kept part is a schedule. -/
theorem meansSchedule_of_kept (h : CString.text crontab = some text)
    (hkept : keptTokens text = gs.texts) : MeansSchedule crontab fs tm ↔
      gs.Divides ∧ (gs.MatchesAsInt tm ↔ fs.Matches tm) := by
  have hnode : schedulersRegisterNode crontab = some gs.node := by
    rw [schedulersRegisterNode_eq h, hkept]
    rfl
  rw [← Schedule.node_divides_iff, ← Schedule.node_decides_iff]
  constructor
  · intro hmeans
    obtain ⟨node, res, hsome, hres, hiff⟩ := hmeans
    cases hnode.symm.trans hsome
    obtain ⟨hdivides, hdecides⟩ := timeCmp_eq_some_iff.mp hres
    exact ⟨hdivides, hdecides.symm.trans hiff⟩
  · intro hmeans
    obtain ⟨hdivides, hiff⟩ := hmeans
    refine ⟨gs.node, decide (gs.node.Decides tm), hnode, ?_, ?_⟩
    · exact timeCmp_eq_some_iff.mpr ⟨hdivides, decide_eq_true_iff⟩
    · rw [decide_eq_true_iff, hiff]

/-- A text that gets a node on which every time can be compared keeps four fields whole, and of the
last one at least a part that is a field. -/
theorem exists_kept (h : CString.text crontab = some text)
    (hfields : Tokens.tokens (isDelim [32]) text = fs.texts)
    (hmeans : MeansSchedule crontab fs tm) : ∃ wday, keptTokens text = { fs with wday }.texts := by
  obtain ⟨node, res, hnode, hres, -⟩ := hmeans
  obtain ⟨k, last, htake, hlast⟩ := Tokens.tokens_take (isDelim [32]) text 50
  rw [hfields] at htake hlast
  have hsafe : RunsSafely crontab := by
    refine ⟨node, hnode, fun tm' => ?_⟩
    obtain ⟨hdivides, -⟩ := timeCmp_eq_some_iff.mp hres
    exact Option.isSome_iff_exists.mpr ⟨decide (node.Decides tm'),
      timeCmp_eq_some_iff.mpr ⟨hdivides, decide_eq_true_iff⟩⟩
  obtain ⟨hfive, hdivide⟩ := (runsSafely_iff h).mp hsafe
  have hkept : keptTokens text = fs.texts.take k ++ last := htake
  rw [hkept, List.length_append, List.length_take] at hfive
  have htexts : fs.texts.length = 5 := rfl
  obtain rfl | ⟨tok, j, htok, hj, rfl⟩ := hlast
  · rw [List.length_nil] at hfive
    have hall : fs.texts.take k = fs.texts := List.take_of_length_le (by omega)
    exact ⟨fs.wday, by rw [hkept, List.append_nil, hall]⟩
  · have hk := (List.getElem?_eq_some_iff.mp htok).1
    rw [List.length_singleton] at hfive
    obtain rfl : k = 4 := by omega
    cases htok
    obtain ⟨wday, hwday⟩ | hzero := CronField.take_text fs.wday hj
    · refine ⟨wday, ?_⟩
      rw [hkept, Schedule.texts, Schedule.texts, hwday]
      rfl
    · have hin : fs.wday.text.take j ∈ (keptTokens text).take 5 := by
        rw [hkept]
        simp [Schedule.texts]
      rw [parseVol_div] at hzero
      split_ifs at hzero with hslash
      exact absurd hzero (hdivide _ hin hslash)

theorem Schedule.Fits.divides (h : fs.Fits) : fs.Divides :=
  ⟨h.min.divides, h.hour.divides, h.mday.divides, h.mon.divides, h.wday.divides⟩

/-- With numbers that are ints only the month is read otherwise. -/
theorem Schedule.Fits.matchesAsInt_iff (h : fs.Fits) :
    fs.MatchesAsInt tm ↔ fs.OthersHold tm ∧ fs.mon.Holds tm.mon tm.mon := by
  rw [Schedule.matchesAsInt_iff, Schedule.othersHold_iff, h.min.holds_iff, h.hour.holds_iff,
    h.mday.holds_iff, h.mon.holds_iff, h.wday.holds_iff]
  tauto

theorem month_agrees_iff : (fs.OthersHold tm ∧ fs.mon.Holds tm.mon tm.mon ↔ fs.Matches tm) ↔
    ∀ month, fs.mon.month? = some month → fs.OthersHold tm →
      (month : Int) ≠ tm.mon ∧ (month : Int) ≠ tm.mon + 1 := by
  rw [Schedule.Matches]
  by_cases hothers : fs.OthersHold tm
  · cases fs.mon with
    | every => simp [CronField.Holds, CronField.month?]
    | step ds positive => simp [CronField.Holds, CronField.month?]
    | value ds nonempty low high =>
      simp only [CronField.Holds, CronField.month?, hothers, true_and, Option.some.injEq,
        forall_eq', true_implies]
      omega
  · simp [hothers]

end

/-- A schedule is obeyed as it reads, but for its month, and for what is lost of it when it is
longer than fifty bytes or counts further than an int. -/
theorem schedule_means_iff (crontab text : List UInt8) (fs : Schedule) (tm : Tm)
    (h : CString.text crontab = some text)
    (hfields : Tokens.tokens (isDelim [32]) text = fs.texts) :
    MeansSchedule crontab fs tm ↔ fs.ReadAsMeant text tm := by
  rw [Schedule.ReadAsMeant]
  by_cases hwhole : text.length ≤ 50 ∧ fs.Fits
  · obtain ⟨hlength, hfits⟩ := id hwhole
    have hkept : keptTokens text = fs.texts := by
      rw [keptTokens, List.take_of_length_le hlength, hfields]
    rw [meansSchedule_of_kept h hkept, hfits.matchesAsInt_iff, month_agrees_iff]
    simp [hwhole, hfits.divides]
  · simp only [hwhole, false_implies, not_false_eq_true, true_implies, true_and]
    constructor
    · intro hmeans
      obtain ⟨wday, hkept⟩ := exists_kept h hfields hmeans
      exact ⟨wday, hkept, (meansSchedule_of_kept h hkept).mp hmeans⟩
    · intro hread
      obtain ⟨wday, hkept, hsame⟩ := hread
      exact (meansSchedule_of_kept h hkept).mpr hsame

/-- `*/5 8 * * 1`. -/
def fiveMinutes : Schedule where
  min := .step [⟨5, by decide⟩] (by decide)
  hour := .value [⟨8, by decide⟩] (List.cons_ne_nil _ _) (by decide) (by decide)
  mday := .every
  mon := .every
  wday := .value [⟨1, by decide⟩] (List.cons_ne_nil _ _) (by decide) (by decide)

/-- Monday the second of June, 8:15. -/
theorem schedule_means_five_minutes :
    MeansSchedule [42, 47, 53, 32, 56, 32, 42, 32, 42, 32, 49, 0] fiveMinutes ⟨15, 8, 2, 5, 1⟩ ↔
      fiveMinutes.ReadAsMeant [42, 47, 53, 32, 56, 32, 42, 32, 42, 32, 49] ⟨15, 8, 2, 5, 1⟩ :=
  schedule_means_iff _ _ fiveMinutes _ (by decide) (by decide)

/-- `0 0 1 1 *`. -/
def newYear : Schedule where
  min := .value [⟨0, by decide⟩] (List.cons_ne_nil _ _) (by decide) (by decide)
  hour := .value [⟨0, by decide⟩] (List.cons_ne_nil _ _) (by decide) (by decide)
  mday := .value [⟨1, by decide⟩] (List.cons_ne_nil _ _) (by decide) (by decide)
  mon := .value [⟨1, by decide⟩] (List.cons_ne_nil _ _) (by decide) (by decide)
  wday := .every

/-- At midnight of the first of January it is not due; on the first of February it is. -/
theorem schedule_month_late : (∃ node,
      schedulersRegisterNode [48, 32, 48, 32, 49, 32, 49, 32, 42, 0] = some node ∧
        timeCmp node ⟨0, 0, 1, 0, 4⟩ = some false ∧ timeCmp node ⟨0, 0, 1, 1, 0⟩ = some true) ∧
    newYear.Matches ⟨0, 0, 1, 0, 4⟩ ∧
    ¬ MeansSchedule [48, 32, 48, 32, 49, 32, 49, 32, 42, 0] newYear ⟨0, 0, 1, 0, 4⟩ := by
  have hnode : schedulersRegisterNode [48, 32, 48, 32, 49, 32, 49, 32, 42, 0] =
      some ⟨⟨0, 0, 1, 1, -1⟩, ⟨-1, -1, -1, -1, -1⟩⟩ := by decide
  have hdue : newYear.Matches ⟨0, 0, 1, 0, 4⟩ := ⟨⟨rfl, rfl, rfl, trivial⟩, rfl⟩
  refine ⟨⟨_, hnode, by decide, by decide⟩, hdue, ?_⟩
  intro hmeans
  obtain ⟨node, res, hsome, hres, hiff⟩ := hmeans
  cases hnode.symm.trans hsome
  have hfalse : timeCmp ⟨⟨0, 0, 1, 1, -1⟩, ⟨-1, -1, -1, -1, -1⟩⟩ ⟨0, 0, 1, 0, 4⟩ = some false := by
    decide
  cases hres.symm.trans hfalse
  exact absurd (hiff.mpr hdue) (by decide)

end IPStat
