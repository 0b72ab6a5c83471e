import IPStat.Lib.Run
import Mathlib

namespace IPStat

/-- The boundaries of a period in local time: midnights, Monday midnights or firsts of months.
Nothing is known of their distances, which a change of the UTC offset may shift. -/
structure Calendar where
  boundary : Nat → Int
  increasing : StrictMono boundary

/-- The query of the check_correct functions: `value` is the timestamp in System_Table. -/
def checkCorrect (limit : Int) (now value : Int) : Bool := limit < now - value

def checkCorrectDay : Int → Int → Bool := checkCorrect 86400
def checkCorrectWeek : Int → Int → Bool := checkCorrect 604800
def checkCorrectMonth : Int → Int → Bool := checkCorrect 2678400

/-- The three rotations, each with its own timestamp. -/
inductive Rotation where
  | everyDay
  | everyWeek
  | everyMonth
  deriving DecidableEq, Repr

def Rotation.overdue : Rotation → Int → Int → Bool
  | .everyDay => checkCorrectDay
  | .everyWeek => checkCorrectWeek
  | .everyMonth => checkCorrectMonth

/-- The daemon and its clock, the running period, the timestamp and the times of one task's
executions, newest first, and the periods in which the daemon was up. -/
structure RotState where
  up : Bool
  clock : Int
  period : Nat
  value : Int
  executed : List Int
  upIn : List Nat
  deriving Repr

/-- The daemon starts or stops, or a boundary comes and its minute's job is run at `now`. -/
inductive RotEvent where
  | start (now : Int)
  | stop (now : Int)
  | boundary (now : Int)
  deriving DecidableEq, Repr

/-- The task: its transaction and save_timestamp. -/
def RotState.task (s : RotState) (now : Int) : RotState :=
  { s with value := now, executed := now :: s.executed }

def rotStart (r : Rotation) (s : RotState) (now : Int) : RotState :=
  let s := if r.overdue now s.value then s.task now else s
  { s with up := true, clock := now, upIn := s.period :: s.upIn }

/-- The scheduler runs its jobs at the first second of a minute, if the daemon is up then. -/
def rotBoundary (s : RotState) (now : Int) : RotState :=
  if s.up then
    { s.task now with clock := now, period := s.period + 1, upIn := (s.period + 1) :: s.upIn }
  else { s with clock := now, period := s.period + 1 }

def rotStep (c : Calendar) (r : Rotation) (s : RotState) : RotEvent → Option RotState
  | .start now =>
    if s.up = false ∧ s.clock ≤ now ∧ now < c.boundary (s.period + 1) then some (rotStart r s now)
    else none
  | .stop now =>
    if s.up = true ∧ s.clock ≤ now ∧ now < c.boundary (s.period + 1) then
      some { s with up := false, clock := now }
    else none
  | .boundary now =>
    if c.boundary (s.period + 1) ≤ now ∧ now < c.boundary (s.period + 2) then
      some (rotBoundary s now)
    else none

/-- The daemon down, with the first rotation recorded at `value`. -/
def rotInit (clock value : Int) (period : Nat) : RotState :=
  ⟨false, clock, period, value, [value], []⟩

/-- The executions within a period. -/
def executions (c : Calendar) (m : Nat) (executed : List Int) : Nat :=
  executed.countP fun t => c.boundary m ≤ t ∧ t < c.boundary (m + 1)

/-- At a start, the elapsed seconds tell whether a boundary has passed since the last run. -/
def ElapsedTells (c : Calendar) (r : Rotation) (s : RotState) : RotEvent → Prop
  | .start now => r.overdue now s.value = true ↔ s.value < c.boundary s.period
  | _ => True

/-- Every period seen so far has its one execution, and the running one has it exactly when
the timestamp lies in it. -/
structure RotInv (c : Calendar) (s : RotState) : Prop where
  inside : c.boundary s.period ≤ s.clock ∧ s.clock < c.boundary (s.period + 1)
  past : ∀ t ∈ s.executed, t ≤ s.clock
  value : s.value ≤ s.clock
  current : executions c s.period s.executed = if c.boundary s.period ≤ s.value then 1 else 0
  upNow : s.up = true → c.boundary s.period ≤ s.value
  seen : ∀ m ∈ s.upIn, m ≤ s.period ∧ executions c m s.executed = 1

section
variable {c : Calendar} {r : Rotation} {s s' : RotState} {now : Int}

theorem executions_cons (c : Calendar) (m : Nat) (t : Int) (l : List Int) :
    executions c m (t :: l) =
      executions c m l + if c.boundary m ≤ t ∧ t < c.boundary (m + 1) then 1 else 0 := by
  simp [executions, List.countP_cons]

/-- No execution is counted in a period that has not begun. -/
theorem executions_future {m : Nat} (h : ∀ t ∈ s.executed, t < c.boundary m) :
    executions c m s.executed = 0 := by
  unfold executions
  rw [List.countP_eq_zero]
  intro t ht hin
  have hlt := h t ht
  have hle := (of_decide_eq_true hin).1
  omega

theorem executions_other {m p : Nat} (l : List Int) (hm : m < p)
    (hnow : c.boundary p ≤ now) : executions c m (now :: l) = executions c m l := by
  have hle : c.boundary (m + 1) ≤ c.boundary p := c.increasing.monotone hm
  have hout : ¬ (c.boundary m ≤ now ∧ now < c.boundary (m + 1)) := by omega
  rw [executions_cons, if_neg hout, Nat.add_zero]

/-- An execution in a period that has had none gives it its one, and no earlier period another. -/
theorem RotInv.execute (h : RotInv c s) {p : Nat} (hclock : s.clock ≤ now) (hp : s.period ≤ p)
    (hfrom : c.boundary p ≤ now) (hto : now < c.boundary (p + 1))
    (hzero : executions c p s.executed = 0) :
    RotInv c ⟨true, now, p, now, now :: s.executed, p :: s.upIn⟩ := by
  have hone : executions c p (now :: s.executed) = 1 := by
    rw [executions_cons, hzero, if_pos ⟨hfrom, hto⟩]
  refine ⟨⟨hfrom, hto⟩, ?_, le_refl now, ?_, fun _ => hfrom, ?_⟩
  · intro t ht
    rcases List.mem_cons.mp ht with heq | ht
    · exact le_of_eq heq
    · exact (h.past t ht).trans hclock
  · change executions c p (now :: s.executed) = if c.boundary p ≤ now then 1 else 0
    rw [hone, if_pos hfrom]
  · intro m hm
    rcases List.mem_cons.mp hm with heq | hm
    · rw [heq]
      exact ⟨Nat.le_refl _, hone⟩
    · obtain ⟨hle, hcount⟩ := h.seen m hm
      have hne : m ≠ p := by
        intro heq
        rw [heq, hzero] at hcount
        cases hcount
      have hlt : m < p := by omega
      refine ⟨hle.trans hp, ?_⟩
      change executions c m (now :: s.executed) = 1
      rw [executions_other s.executed hlt hfrom]
      exact hcount

theorem RotInv.start (h : RotInv c s) (hg : ElapsedTells c r s (.start now))
    (hclock : s.clock ≤ now) (hnow : now < c.boundary (s.period + 1)) :
    RotInv c (rotStart r s now) := by
  obtain ⟨hin, -⟩ := h.inside
  cases hover : r.overdue now s.value with
  | true =>
    have hold : s.value < c.boundary s.period := hg.mp hover
    have hzero : executions c s.period s.executed = 0 := by
      rw [h.current, if_neg (by omega)]
    have hstart : rotStart r s now =
        ⟨true, now, s.period, now, now :: s.executed, s.period :: s.upIn⟩ := by
      simp [rotStart, hover, RotState.task]
    rw [hstart]
    exact h.execute hclock (Nat.le_refl _) (hin.trans hclock) hnow hzero
  | false =>
    have hnew : c.boundary s.period ≤ s.value := by
      by_contra hlt
      have htrue := hg.mpr (by omega)
      rw [hover] at htrue
      cases htrue
    have hstart : rotStart r s now = { s with
        up := true, clock := now, upIn := s.period :: s.upIn } := by
      simp [rotStart, hover]
    rw [hstart]
    refine ⟨⟨hin.trans hclock, hnow⟩, ?_, h.value.trans hclock, h.current, fun _ => hnew, ?_⟩
    · intro t ht
      exact (h.past t ht).trans hclock
    · intro m hm
      rcases List.mem_cons.mp hm with heq | hm
      · rw [heq]
        refine ⟨Nat.le_refl _, ?_⟩
        change executions c s.period s.executed = 1
        rw [h.current, if_pos hnew]
      · exact h.seen m hm

/-- The boundary's job opens a new period, with its one execution or with none. -/
theorem RotInv.boundary (h : RotInv c s) (hfrom : c.boundary (s.period + 1) ≤ now)
    (hto : now < c.boundary (s.period + 2)) : RotInv c (rotBoundary s now) := by
  obtain ⟨-, hend⟩ := h.inside
  have hclock : s.clock ≤ now := by omega
  have hzero : executions c (s.period + 1) s.executed = 0 := by
    apply executions_future
    intro t ht
    exact lt_of_le_of_lt (h.past t ht) hend
  cases hup : s.up with
  | true =>
    have hnext : rotBoundary s now =
        ⟨true, now, s.period + 1, now, now :: s.executed, (s.period + 1) :: s.upIn⟩ := by
      simp [rotBoundary, hup, RotState.task]
    rw [hnext]
    exact h.execute hclock (Nat.le_succ _) hfrom hto hzero
  | false =>
    have hnext : rotBoundary s now = { s with clock := now, period := s.period + 1 } := by
      simp [rotBoundary, hup]
    have hvalue := h.value
    rw [hnext]
    refine ⟨⟨hfrom, hto⟩, ?_, hvalue.trans hclock, ?_, ?_, ?_⟩
    · intro t ht
      exact (h.past t ht).trans hclock
    · change executions c (s.period + 1) s.executed =
        if c.boundary (s.period + 1) ≤ s.value then 1 else 0
      rw [hzero, if_neg (by omega)]
    · intro hup'
      exact absurd hup' (by simp [hup])
    · intro m hm
      obtain ⟨hle, hcount⟩ := h.seen m hm
      exact ⟨Nat.le_succ_of_le hle, hcount⟩

theorem RotInv.step (h : RotInv c s) {e : RotEvent} (hg : ElapsedTells c r s e)
    (hs : rotStep c r s e = some s') : RotInv c s' := by
  cases e with
  | start now =>
    simp only [rotStep] at hs
    split_ifs at hs with hok
    cases hs
    exact h.start hg hok.2.1 hok.2.2
  | stop now =>
    simp only [rotStep] at hs
    split_ifs at hs with hok
    cases hs
    obtain ⟨-, hclock, hnow⟩ := hok
    refine ⟨⟨h.inside.1.trans hclock, hnow⟩, ?_, h.value.trans hclock, h.current, ?_, h.seen⟩
    · intro t ht
      exact (h.past t ht).trans hclock
    · intro hup
      cases hup
  | boundary now =>
    simp only [rotStep] at hs
    split_ifs at hs with hok
    cases hs
    exact h.boundary hok.1 hok.2

/-- While the elapsed seconds tell at every start whether a boundary has passed, each task is
executed exactly once in every period in which the daemon is up. -/
theorem rotates_once (c : Calendar) (r : Rotation) (clock value : Int) (period : Nat)
    (hin : c.boundary period ≤ clock ∧ clock < c.boundary (period + 1)) (hvalue : value ≤ clock)
    (events : List RotEvent) (s : RotState)
    (hrun : Run.exec (rotStep c r) (rotInit clock value period) events = some s)
    (hg : Run.Guarded (rotStep c r) (ElapsedTells c r) (rotInit clock value period) events) :
    ∀ m ∈ s.upIn, executions c m s.executed = 1 := by
  have hstart : RotInv c (rotInit clock value period) := by
    refine ⟨hin, ?_, hvalue, ?_, ?_, ?_⟩
    · intro t ht
      rw [List.mem_singleton.mp ht]
      exact hvalue
    · have hlt : value < c.boundary (period + 1) := by omega
      change executions c period [value] = if c.boundary period ≤ value then 1 else 0
      rw [executions_cons]
      simp [executions, hlt]
    · intro hup
      cases hup
    · intro m hm
      cases hm
  have hinv : RotInv c s :=
    Run.exec_invariant (fun s e s' h hg hs => RotInv.step h hg hs) hstart hg hrun
  intro m hm
  exact (hinv.seen m hm).2

end

instance (c : Calendar) (r : Rotation) (s : RotState) : ∀ e, Decidable (ElapsedTells c r s e)
  | .start now =>
    inferInstanceAs (Decidable (r.overdue now s.value = true ↔ s.value < c.boundary s.period))
  | .stop _ | .boundary _ => inferInstanceAs (Decidable True)

/-- Periods of `d` seconds, the first of them `extra` seconds longer. -/
def Calendar.every (d extra : Int) (hd : 0 < d) (hextra : 0 ≤ extra) : Calendar where
  boundary := fun n => if n = 0 then 0 else d * n + extra
  increasing := by
    apply strictMono_nat_of_lt_succ
    intro n
    cases n with
    | zero =>
      simp only [if_true, Nat.succ_ne_zero, if_false]
      omega
    | succ n =>
      simp only [Nat.succ_ne_zero, if_false]
      have hstep : d * ((n + 1 + 1 : Nat) : Int) = d * ((n + 1 : Nat) : Int) + d := by
        push_cast
        rw [Int.mul_add d ((n : Int) + 1) 1, Int.mul_one]
      omega

def days : Calendar := .every 86400 0 (by decide) (by decide)

/-- The state that a run of the day's task ends in, where it has one. -/
def dayRun (events : List RotEvent) : RotState :=
  (Run.exec (rotStep days .everyDay) (rotInit 30000 30000 0) events).getD (rotInit 0 0 0)

/-- A day the daemon comes up late in, after a midnight it slept through. -/
def lateStart : List RotEvent :=
  [.start 31000, .stop 60000, .boundary 86400, .start 126400, .boundary 172801, .stop 172900,
    .start 180000]

theorem rotates_once_late :
    executions days 1 (dayRun lateStart).executed = 1 ∧
      executions days 2 (dayRun lateStart).executed = 1 := by
  have honce := rotates_once days .everyDay 30000 30000 0 (by decide) (by decide) lateStart
    (dayRun lateStart) (by rfl) (by decide)
  exact ⟨honce 1 (by decide), honce 2 (by decide)⟩

/-- The seconds that a rotation's check compares with. -/
def Rotation.seconds : Rotation → Int
  | .everyDay => 86400
  | .everyWeek => 604800
  | .everyMonth => 2678400

/-- A period that the daemon sleeps into, less than its length after the last catch-up, is
never rotated; one that is an hour longer is rotated twice by a restart in its last hour. -/
theorem rotation_fails :
    (∀ r : Rotation, ∃ c s, Run.exec (rotStep c r) (rotInit (r.seconds / 4) (r.seconds / 4) 0)
        [.start (r.seconds / 4), .stop (r.seconds / 2), .boundary r.seconds,
          .start (r.seconds + r.seconds / 8)] = some s ∧
      1 ∈ s.upIn ∧ executions c 1 s.executed = 0) ∧
    ∀ r : Rotation, ∃ c s, Run.exec (rotStep c r) (rotInit 0 0 0)
        [.start 60, .stop 120, .start (r.seconds + 1800)] = some s ∧
      0 ∈ s.upIn ∧ executions c 0 s.executed = 2 := by
  constructor
  · intro r
    refine ⟨.every r.seconds 0 (by cases r <;> decide) (by decide), ?_⟩
    cases r <;> exact ⟨_, rfl, by decide, by decide⟩
  · intro r
    refine ⟨.every r.seconds 3600 (by cases r <;> decide) (by decide), ?_⟩
    cases r <;> exact ⟨_, rfl, by decide, by decide⟩

end IPStat
