import IPStat.Policy.Decision
import Mathlib.Tactic.Linarith

namespace IPStat

/-- The local calendar, as localtime and mktime know it. -/
structure Zone where
  offset : TimeT → Int
  isDst : TimeT → Bool
  /-- The offset by which mktime takes the midnight of a date, given tm_isdst. -/
  presumed : Int → Bool → Int
  /-- That of a midnight of the date with this tm_isdst, where there is one. -/
  midnight : ∀ t, (t + offset t) % 86400 = 0 → ∃ u, (u + offset u) % 86400 = 0 ∧
    (u + offset u) / 86400 = (t + offset t) / 86400 ∧ isDst u = isDst t ∧
      presumed ((t + offset t) / 86400) (isDst t) = offset u

namespace Zone

/-- The date, in days since the epoch. -/
def day (z : Zone) (t : TimeT) : Int := (t + z.offset t) / 86400

/-- tm_wday; the epoch was a Thursday. -/
def weekDay (z : Zone) (t : TimeT) : UInt8 := UInt8.ofNat ((z.day t + 4) % 7).toNat

/-- The seconds since midnight that the wall clock shows. -/
def seconds (z : Zone) (t : TimeT) : Int := (t + z.offset t) % 86400

/-- mktime of the midnight of a date. -/
def mktime (z : Zone) (day : Int) (isDst : Bool) : TimeT := 86400 * day - z.presumed day isDst

/-- What get_begin_period returns when it reads the clock at `t1`. -/
def beginPeriod (z : Zone) (t1 : TimeT) : TimeT := z.mktime (z.day t1) (z.isDst t1)

end Zone

/-- Where a call of every_day stands: before it reads the clock, with st_week_day to be written
next, and with st_begin_period. -/
inductive EveryDayPc where
  | idle
  | read (t1 : TimeT)
  | written (t1 : TimeT)
  deriving DecidableEq, Repr

/-- The two variables, the clock and the calls of every_day; beside them the readings of the
clock that the variables were last computed from. -/
structure DayClock where
  stWeekDay : UInt8
  stBeginPeriod : TimeT
  clock : TimeT
  call : Nat → EveryDayPc
  weekDayRead : TimeT
  beginRead : TimeT

/-- Time goes on, or a call of every_day takes its next step. -/
inductive DayEvent where
  | tick (now : TimeT)
  | everyDay (c : Nat)

/-- The next step of a call of every_day: the two writes are apart. -/
def everyDay (z : Zone) (s : DayClock) (c : Nat) : DayClock :=
  match s.call c with
  | .idle => { s with call := Function.update s.call c (.read s.clock) }
  | .read t1 => { s with
      stWeekDay := z.weekDay t1
      weekDayRead := t1
      call := Function.update s.call c (.written t1) }
  | .written t1 => { s with
      stBeginPeriod := z.beginPeriod t1
      beginRead := t1
      call := Function.update s.call c .idle }

def dayStep (z : Zone) (s : DayClock) : DayEvent → Option DayClock
  | .tick now => if s.clock ≤ now then some { s with clock := now } else none
  | .everyDay c => some (everyDay z s c)

/-- The module at `now`, loaded with the clock at `t1`. -/
def dayLoad (z : Zone) (t1 now : TimeT) : DayClock where
  stWeekDay := z.weekDay t1
  stBeginPeriod := z.beginPeriod t1
  clock := now
  call := fun _ => .idle
  weekDayRead := t1
  beginRead := t1

/-- What check_policy asks of a definition at the present instant. -/
def DayClock.question (s : DayClock) (idPolicy : IpId) : TimeQuestion :=
  ⟨idPolicy, s.stWeekDay, s.clock - s.stBeginPeriod⟩

/-- What it is meant to ask: the local weekday and the wall clock. -/
def Zone.question (z : Zone) (t : TimeT) (idPolicy : IpId) : TimeQuestion :=
  ⟨idPolicy, z.weekDay t, z.seconds t⟩

def JudgesNow (z : Zone) (s : DayClock) : Prop :=
  ∀ idPolicy, s.question idPolicy = z.question s.clock idPolicy

/-- The clock was last read for st_week_day whole weeks of dates away from now; and since it was
last read for st_begin_period, the UTC offset has moved from that of the midnight by as much as
the date has: by nothing, unless the zone crosses the date line. -/
structure UpToDate (z : Zone) (s : DayClock) : Prop where
  week : (z.day s.clock - z.day s.weekDayRead) % 7 = 0
  offset : z.offset s.clock - z.presumed (z.day s.beginRead) (z.isDst s.beginRead) =
    86400 * (z.day s.clock - z.day s.beginRead)

section
variable {z : Zone} {s s' : DayClock}

theorem weekDay_eq_iff (t u : TimeT) :
    z.weekDay t = z.weekDay u ↔ (z.day u - z.day t) % 7 = 0 := by
  have hlt (d : Int) : ((d + 4) % 7).toNat < 256 := by omega
  have hnat : z.weekDay t = z.weekDay u ↔
      ((z.day t + 4) % 7).toNat = ((z.day u + 4) % 7).toNat := by
    rw [← UInt8.toNat_inj, Zone.weekDay, Zone.weekDay, UInt8.toNat_ofNat_of_lt' (hlt _),
      UInt8.toNat_ofNat_of_lt' (hlt _)]
  rw [hnat]
  omega

/-- The elapsed seconds are those of the wall clock when the offset has moved with the date. -/
theorem elapsed_eq_iff (t t1 : TimeT) :
    t - z.beginPeriod t1 = z.seconds t ↔
      z.offset t - z.presumed (z.day t1) (z.isDst t1) = 86400 * (z.day t - z.day t1) := by
  have hsplit : (t + z.offset t) = 86400 * z.day t + z.seconds t :=
    (Int.mul_ediv_add_emod (t + z.offset t) 86400).symm
  show t - (86400 * z.day t1 - z.presumed (z.day t1) (z.isDst t1)) = z.seconds t ↔ _
  constructor
  · intro h
    linarith
  · intro h
    linarith

/-- The variables are what their readings gave. -/
structure DayInv (z : Zone) (s : DayClock) : Prop where
  weekDay : s.stWeekDay = z.weekDay s.weekDayRead
  beginPeriod : s.stBeginPeriod = z.beginPeriod s.beginRead

theorem DayInv.step (h : DayInv z s) {e : DayEvent} (hs : dayStep z s e = some s') :
    DayInv z s' := by
  cases e with
  | tick now =>
    rw [dayStep] at hs
    split_ifs at hs
    cases hs
    exact ⟨h.weekDay, h.beginPeriod⟩
  | everyDay c =>
    cases hs
    unfold everyDay
    cases s.call c with
    | idle => exact ⟨h.weekDay, h.beginPeriod⟩
    | read t1 => exact ⟨rfl, h.beginPeriod⟩
    | written t1 => exact ⟨h.weekDay, rfl⟩

theorem DayInv.judgesNow_iff (h : DayInv z s) : JudgesNow z s ↔ UpToDate z s := by
  have hweek := weekDay_eq_iff (z := z) s.weekDayRead s.clock
  have helapsed := elapsed_eq_iff (z := z) s.clock s.beginRead
  constructor
  · intro hjudges
    have hasked := hjudges 0
    simp only [DayClock.question, Zone.question, TimeQuestion.mk.injEq, true_and, h.weekDay,
      h.beginPeriod] at hasked
    exact ⟨hweek.mp hasked.1, helapsed.mp hasked.2⟩
  · intro hdate idPolicy
    simp only [DayClock.question, Zone.question, TimeQuestion.mk.injEq, true_and, h.weekDay,
      h.beginPeriod]
    exact ⟨hweek.mpr hdate.week, helapsed.mpr hdate.offset⟩

end

/-- From the load on, in any calendar and whenever the calls of every_day take their steps: at
each instant check_policy judges by the local weekday and wall clock exactly when the readings
are up to date. -/
theorem judgesNow_iff_upToDate (z : Zone) (t1 now : TimeT) (es : List DayEvent) :
    Run.Always (dayStep z) (fun s => JudgesNow z s ↔ UpToDate z s) (dayLoad z t1 now) es := by
  have hstart : DayInv z (dayLoad z t1 now) := ⟨rfl, rfl⟩
  have hstep : ∀ s e s', DayInv z s → True → dayStep z s e = some s' → DayInv z s' :=
    fun _ _ _ h _ hs => h.step hs
  have halways : Run.Always (dayStep z) (DayInv z) (dayLoad z t1 now) es :=
    Run.always_of_invariant hstep hstart (Run.guarded_of_forall (fun _ _ _ => trivial) _)
  exact halways.imp fun _ h => h.judgesNow_iff

/-- A zone without changes. -/
def greenwich : Zone where
  offset _ := 0
  isDst _ := false
  presumed _ _ := 0
  midnight t ht := ⟨t, ht, rfl, rfl, rfl⟩

/-- On day 0 the clocks go forward at two. -/
def springForward : Zone where
  offset t := if 7200 ≤ t then 3600 else 0
  isDst t := 7200 ≤ t
  presumed _ isDst := if isDst then 3600 else 0
  midnight t ht := ⟨t, ht, rfl, rfl, by simp⟩

/-- Past midnight check_policy still judges by the day before, until the job has run; between
its two writes it judges by the new weekday and the old midnight; and after the clocks have gone
forward it is an hour behind. -/
theorem judges_stale :
    (∃ s, Run.exec (dayStep greenwich) (dayLoad greenwich 0 0) [.tick 86400] = some s ∧
      s.question 1 = ⟨1, 4, 86400⟩ ∧ greenwich.question s.clock 1 = ⟨1, 5, 0⟩ ∧
        ¬ JudgesNow greenwich s) ∧
    (∃ s, Run.exec (dayStep greenwich) (dayLoad greenwich 0 0)
        [.tick 86400, .everyDay 0, .everyDay 0] = some s ∧
      s.question 1 = ⟨1, 5, 86400⟩ ∧ ¬ JudgesNow greenwich s) ∧
    ∃ s, Run.exec (dayStep springForward) (dayLoad springForward 0 0) [.tick 10800] = some s ∧
      s.question 1 = ⟨1, 4, 10800⟩ ∧ springForward.question s.clock 1 = ⟨1, 4, 14400⟩ ∧
        ¬ JudgesNow springForward s := by
  refine ⟨⟨_, rfl, by decide, by decide, ?_⟩, ⟨_, rfl, by decide, ?_⟩, ⟨_, rfl, by decide,
    by decide, ?_⟩⟩
  · intro h
    exact absurd (h 1) (by decide)
  · intro h
    exact absurd (h 1) (by decide)
  · intro h
    exact absurd (h 1) (by decide)

end IPStat
