import IPStat.System.Schedule
import IPStat.Lib.Run
import Mathlib.Data.List.Count
import Mathlib.Data.List.Nodup

/-! The scheduler thread of sched.c, the threads it starts, and the modules that register jobs
meanwhile. Time is in seconds and passes between any two steps. The runs are those before the first
signal: every signal that the daemon handles makes it exit. -/

namespace IPStat

/-- localtime. Zones are whole minutes from UTC, so `tm_sec` is the seconds modulo 60. -/
structure LocalTime where
  tm : Nat → Tm
  sameMinute : ∀ s t, s / 60 = t / 60 → tm s = tm t

inductive SchedulerStatus where
  | sleep
  | run
  deriving DecidableEq, Repr

/-- NODE_SCHEDULER; `since` is the time of its registration, for the record only. -/
structure Scheduler.NodeScheduler where
  name : List UInt8
  cron : CronNode
  status : SchedulerStatus
  lastRuns : Nat
  delayTime : Nat
  lastStatus : Bool
  since : Nat
  deriving DecidableEq, Repr

/-- How far a thr_scheduler_child has come: not begun, in `func` or behind it, with its
`start_time`. -/
inductive ChildPhase where
  | created
  | running (start : Nat)
  | returned (start : Nat)
  deriving DecidableEq, Repr

/-- Where thr_scheduler stands: at the head of its loop, in sleep, or at `t_tmp` with the lock. -/
inductive SchedulerThread where
  | looping
  | asleep
  | scanning (tTmp : List Nat)
  deriving DecidableEq, Repr

/-- What came of a node in one pass over the list. -/
inductive CheckResult where
  | idle
  | busy
  | started
  | notCreated
  deriving DecidableEq, Repr

structure Check where
  node : Nat
  time : Nat
  result : CheckResult
  deriving DecidableEq, Repr

/-- `target` is the end of the last sleep, and `checks` the record of all passes. A node is named
by its place in `nodes`, where it stays when it leaves the list. -/
structure Scheduler where
  clock : Nat
  target : Nat
  thread : SchedulerThread
  schedList : List Nat
  nodes : List Scheduler.NodeScheduler
  children : List (Nat × ChildPhase)
  checks : List Check

inductive SchedulerEvent where
  | tick (seconds : Nat)
  | loop
  | wake
  | check (created : Bool)
  | unlock
  | register (name crontab : List UInt8)
  | unregister (name : List UInt8)
  | begin (node : Nat)
  | finish (node start : Nat) (result : Bool)
  | leave (node start : Nat)

namespace Scheduler

def isScanning : SchedulerThread → Bool
  | .scanning _ => true
  | _ => false

/-- The body of the loop over the list, for one node; `none` is a division by zero in time_cmp. -/
def checkNode (lt : LocalTime) (s : Scheduler) (created : Bool) (i : Nat) (rest : List Nat) :
    Option Scheduler := do
  let node ← s.nodes[i]?
  let due ← timeCmp node.cron (lt.tm s.clock)
  let result : CheckResult :=
    if due then
      if node.status = .sleep then if created then .started else .notCreated else .busy
    else .idle
  some { s with
    thread := .scanning rest
    children := if result = .started then (i, .created) :: s.children else s.children
    checks := ⟨i, s.clock, result⟩ :: s.checks }

/-- schedulers_register, whose node and whose copy of the crontab are allocated. `name` is without
its NUL. -/
def schedulersRegister (s : Scheduler) (name crontab : List UInt8) : Option Scheduler := do
  let cron ← schedulersRegisterNode crontab
  some { s with
    schedList := s.nodes.length :: s.schedList
    nodes := s.nodes ++ [⟨name.take 50, cron, .sleep, 0, 0, true, s.clock⟩] }

def schedulersUnregister (s : Scheduler) (name : List UInt8) : Scheduler :=
  match s.schedList.find? fun i => (s.nodes[i]?.map (·.name)) = some (name.take 50) with
  | some i => { s with schedList := s.schedList.erase i }
  | none => s

def step (lt : LocalTime) (s : Scheduler) : SchedulerEvent → Option Scheduler
  | .tick seconds => some { s with clock := s.clock + seconds }
  | .loop =>
    if s.thread = .looping then
      some { s with target := s.clock + (60 - s.clock % 60), thread := .asleep }
    else none
  | .wake =>
    if s.thread = .asleep ∧ s.target ≤ s.clock then
      some { s with thread := .scanning s.schedList }
    else none
  | .check created =>
    match s.thread with
    | .scanning (i :: rest) => checkNode lt s created i rest
    | _ => none
  | .unlock => if s.thread = .scanning [] then some { s with thread := .looping } else none
  | .register name crontab =>
    if isScanning s.thread then none else schedulersRegister s name crontab
  | .unregister name =>
    if isScanning s.thread then none else some (schedulersUnregister s name)
  | .begin i =>
    if (i, .created) ∈ s.children then
      some { s with
        children := (i, .running s.clock) :: s.children.erase (i, .created)
        nodes := s.nodes.modify i fun node => { node with lastRuns := s.clock, status := .run } }
    else none
  | .finish i start result =>
    if (i, .running start) ∈ s.children then
      some { s with
        children := (i, .returned start) :: s.children.erase (i, .running start)
        nodes := s.nodes.modify i fun node =>
          { node with lastStatus := result, status := .sleep } }
    else none
  | .leave i start =>
    if (i, .returned start) ∈ s.children then
      some { s with
        children := s.children.erase (i, .returned start)
        nodes := s.nodes.modify i fun node => { node with delayTime := s.clock - start } }
    else none

/-- After schedulers_init, before the first pass. -/
def start (clock : Nat) : Scheduler :=
  ⟨clock, clock - clock % 60, .looping, [], [], [], []⟩

variable {lt : LocalTime} {s s' : Scheduler}

theorem step_loop (h : step lt s .loop = some s') : s.thread = .looping ∧
    s' = { s with target := s.clock + (60 - s.clock % 60), thread := .asleep } := by
  rw [step] at h
  split at h
  · next hthread => exact ⟨hthread, (Option.some.inj h).symm⟩
  · cases h

theorem step_wake (h : step lt s .wake = some s') : s.thread = .asleep ∧ s.target ≤ s.clock ∧
    s' = { s with thread := .scanning s.schedList } := by
  rw [step] at h
  split at h
  · next hthread => exact ⟨hthread.1, hthread.2, (Option.some.inj h).symm⟩
  · cases h

/-- What a pass makes of one node. -/
theorem step_check {created : Bool} (h : step lt s (.check created) = some s') :
    ∃ i rest node due, s.thread = .scanning (i :: rest) ∧ s.nodes[i]? = some node ∧
      timeCmp node.cron (lt.tm s.clock) = some due ∧
      ∃ result : CheckResult, result = (if due then
        if node.status = .sleep then if created then .started else .notCreated else .busy
        else .idle) ∧
      s' = { s with
        thread := .scanning rest
        children := if result = .started then (i, .created) :: s.children else s.children
        checks := ⟨i, s.clock, result⟩ :: s.checks } := by
  rw [step] at h
  split at h
  · next i rest hthread =>
    simp only [checkNode, Option.bind_eq_bind, Option.bind_eq_some_iff] at h
    obtain ⟨node, hnode, due, hdue, hs'⟩ := h
    exact ⟨i, rest, node, due, hthread, hnode, hdue, _, rfl, (Option.some.inj hs').symm⟩
  · cases h

theorem step_unlock (h : step lt s .unlock = some s') : s.thread = .scanning [] ∧
    s' = { s with thread := .looping } := by
  rw [step] at h
  split at h
  · next hthread => exact ⟨hthread, (Option.some.inj h).symm⟩
  · cases h

theorem step_register {name crontab : List UInt8}
    (h : step lt s (.register name crontab) = some s') : isScanning s.thread = false ∧
    ∃ node : NodeScheduler, node.status = .sleep ∧ node.since = s.clock ∧ s' = { s with
      schedList := s.nodes.length :: s.schedList
      nodes := s.nodes ++ [node] } := by
  rw [step] at h
  split at h
  · cases h
  · next hscan =>
    obtain ⟨cron, hcron, hs'⟩ := Option.bind_eq_some_iff.mp h
    exact ⟨by simpa using hscan, _, rfl, rfl, (Option.some.inj hs').symm⟩

/-- At most one node leaves the list. -/
theorem step_unregister {name : List UInt8} (h : step lt s (.unregister name) = some s') :
    isScanning s.thread = false ∧ ∃ schedList, schedList.Sublist s.schedList ∧
      s' = { s with schedList := schedList } := by
  rw [step] at h
  split at h
  · cases h
  · next hscan =>
    refine ⟨by simpa using hscan, ?_⟩
    rw [← Option.some.inj h, schedulersUnregister]
    split
    · next i _ => exact ⟨_, List.erase_sublist, rfl⟩
    · exact ⟨_, List.Sublist.refl _, rfl⟩

theorem step_begin {i : Nat} (h : step lt s (.begin i) = some s') :
    (i, .created) ∈ s.children ∧ s' = { s with
      children := (i, .running s.clock) :: s.children.erase (i, .created)
      nodes := s.nodes.modify i fun node =>
        { node with lastRuns := s.clock, status := .run } } := by
  rw [step] at h
  split at h
  · next hmem => exact ⟨hmem, (Option.some.inj h).symm⟩
  · cases h

theorem step_finish {i start : Nat} {result : Bool}
    (h : step lt s (.finish i start result) = some s') :
    (i, .running start) ∈ s.children ∧ s' = { s with
      children := (i, .returned start) :: s.children.erase (i, .running start)
      nodes := s.nodes.modify i fun node =>
        { node with lastStatus := result, status := .sleep } } := by
  rw [step] at h
  split at h
  · next hmem => exact ⟨hmem, (Option.some.inj h).symm⟩
  · cases h

theorem step_leave {i start : Nat} (h : step lt s (.leave i start) = some s') :
    (i, .returned start) ∈ s.children ∧ s' = { s with
      children := s.children.erase (i, .returned start)
      nodes := s.nodes.modify i fun node =>
        { node with delayTime := s.clock - start } } := by
  rw [step] at h
  split at h
  · next hmem => exact ⟨hmem, (Option.some.inj h).symm⟩
  · cases h

/-- What holds of the passes in every run: no node is looked at twice in a minute. -/
structure Sound (s : Scheduler) : Prop where
  nodup : s.schedList.Nodup
  listed : ∀ i ∈ s.schedList, i < s.nodes.length
  sublist : ∀ rest, s.thread = .scanning rest → rest.Sublist s.schedList
  whole : s.target % 60 = 0
  past : ∀ c ∈ s.checks, c.time ≤ s.clock
  asleep : s.thread = .asleep → ∀ c ∈ s.checks, c.time < s.target
  scanning : ∀ rest, s.thread = .scanning rest →
    s.target ≤ s.clock ∧ ∀ c ∈ s.checks, c.node ∈ rest → c.time < s.target
  ordered : s.checks.Pairwise fun a b => a.node = b.node → b.time / 60 < a.time / 60

/-- A step of another thread changes the nodes and the children, and time has passed. -/
theorem Sound.aside (hs : Sound s) {clock : Nat} {children : List (Nat × ChildPhase)}
    {nodes : List NodeScheduler} (hclock : s.clock ≤ clock)
    (hnodes : nodes.length = s.nodes.length) :
    Sound { s with clock := clock, children := children, nodes := nodes } where
  nodup := hs.nodup
  listed i hi := hnodes ▸ hs.listed i hi
  sublist := hs.sublist
  whole := hs.whole
  past c hc := (hs.past c hc).trans hclock
  asleep := hs.asleep
  scanning rest hrest := ⟨(hs.scanning rest hrest).1.trans hclock, (hs.scanning rest hrest).2⟩
  ordered := hs.ordered

theorem not_scanning {thread : SchedulerThread} (h : isScanning thread = false)
    (rest : List Nat) : thread ≠ .scanning rest := by
  intro hthread
  rw [hthread] at h
  cases h

theorem sound_start (clock : Nat) : Sound (start clock) := by
  refine ⟨List.nodup_nil, by simp [start], ?_, ?_, by simp [start], ?_, ?_, List.Pairwise.nil⟩
  · intro rest h
    cases h
  · simp only [start]
    omega
  · intro h
    cases h
  · intro rest h
    cases h

theorem Sound.step (hs : Sound s) {e : SchedulerEvent} (h : step lt s e = some s') :
    Sound s' := by
  cases e with
  | tick seconds =>
    cases h
    exact hs.aside (Nat.le_add_right _ _) rfl
  | loop =>
    obtain ⟨hthread, rfl⟩ := step_loop h
    refine ⟨hs.nodup, hs.listed, ?_, ?_, hs.past, ?_, ?_, hs.ordered⟩
    · intro rest hrest
      cases hrest
    · show (s.clock + (60 - s.clock % 60)) % 60 = 0
      omega
    · intro _ c hc
      show c.time < s.clock + (60 - s.clock % 60)
      have hpast := hs.past c hc
      omega
    · intro rest hrest
      cases hrest
  | wake =>
    obtain ⟨hthread, htarget, rfl⟩ := step_wake h
    refine ⟨hs.nodup, hs.listed, ?_, hs.whole, hs.past, ?_, ?_, hs.ordered⟩
    · intro rest hrest
      cases hrest
      exact List.Sublist.refl _
    · intro hasleep
      cases hasleep
    · intro rest _
      exact ⟨htarget, fun c hc _ => hs.asleep hthread c hc⟩
  | check created =>
    obtain ⟨i, rest, node, due, hthread, -, -, result, -, rfl⟩ := step_check h
    have hsub := hs.sublist _ hthread
    obtain ⟨htarget, hbefore⟩ := hs.scanning _ hthread
    have hnodup := List.nodup_cons.mp (hsub.nodup hs.nodup)
    refine ⟨hs.nodup, hs.listed, ?_, hs.whole, ?_, ?_, ?_, ?_⟩
    · intro rest' hrest'
      cases hrest'
      exact (List.sublist_cons_self i rest).trans hsub
    · intro c hc
      rcases List.mem_cons.mp hc with rfl | hc
      · exact Nat.le_refl _
      · exact hs.past c hc
    · intro hasleep
      cases hasleep
    · intro rest' hrest'
      cases hrest'
      refine ⟨htarget, ?_⟩
      intro c hc hmem
      rcases List.mem_cons.mp hc with rfl | hc
      · exact absurd hmem hnodup.1
      · exact hbefore c hc (List.mem_cons_of_mem i hmem)
    · refine List.pairwise_cons.mpr ⟨?_, hs.ordered⟩
      -- what was looked at before was looked at before the minute this pass began in
      intro c hc hnode
      have hnode : i = c.node := hnode
      have hc' := hbefore c hc (hnode ▸ List.mem_cons_self)
      have hwhole := hs.whole
      show c.time / 60 < s.clock / 60
      omega
  | unlock =>
    obtain ⟨hthread, rfl⟩ := step_unlock h
    refine ⟨hs.nodup, hs.listed, ?_, hs.whole, hs.past, ?_, ?_, hs.ordered⟩
    · intro rest hrest
      cases hrest
    · intro hasleep
      cases hasleep
    · intro rest hrest
      cases hrest
  | register name crontab =>
    obtain ⟨hscan, node, -, -, rfl⟩ := step_register h
    refine ⟨?_, ?_, ?_, hs.whole, hs.past, hs.asleep, hs.scanning, hs.ordered⟩
    · refine List.nodup_cons.mpr ⟨?_, hs.nodup⟩
      intro hmem
      exact Nat.lt_irrefl _ (hs.listed _ hmem)
    · intro i hi
      show i < (s.nodes ++ [_]).length
      rw [List.length_append, List.length_singleton]
      rcases List.mem_cons.mp hi with rfl | hi
      · exact Nat.lt_succ_self _
      · exact Nat.lt_succ_of_lt (hs.listed i hi)
    · intro rest hrest
      exact absurd hrest (not_scanning hscan rest)
  | unregister name =>
    obtain ⟨hscan, schedList, hsub, rfl⟩ := step_unregister h
    refine ⟨hsub.nodup hs.nodup, ?_, ?_, hs.whole, hs.past, hs.asleep, hs.scanning, hs.ordered⟩
    · intro j hj
      exact hs.listed j (hsub.subset hj)
    · intro rest hrest
      exact absurd hrest (not_scanning hscan rest)
  | begin i =>
    obtain ⟨-, rfl⟩ := step_begin h
    exact hs.aside (Nat.le_refl _) (List.length_modify _ _ _)
  | finish i start result =>
    obtain ⟨-, rfl⟩ := step_finish h
    exact hs.aside (Nat.le_refl _) (List.length_modify _ _ _)
  | leave i start =>
    obtain ⟨-, rfl⟩ := step_leave h
    exact hs.aside (Nat.le_refl _) (List.length_modify _ _ _)

/-- A node that is there keeps its crontab and the time of its registration. -/
theorem step_node {e : SchedulerEvent} (h : step lt s e = some s') {i : Nat}
    {node : NodeScheduler} (hnode : s.nodes[i]? = some node) :
    ∃ node', s'.nodes[i]? = some node' ∧ node'.cron = node.cron ∧ node'.since = node.since := by
  have hmodify (j : Nat) (f : NodeScheduler → NodeScheduler)
      (hf : ∀ node, (f node).cron = node.cron ∧ (f node).since = node.since) :
      ∃ node', (s.nodes.modify j f)[i]? = some node' ∧ node'.cron = node.cron ∧
        node'.since = node.since := by
    rw [List.getElem?_modify, hnode]
    by_cases hij : j = i
    · exact ⟨f node, by simp [hij], hf node⟩
    · exact ⟨node, by simp [hij], rfl, rfl⟩
  cases e with
  | tick seconds =>
    cases h
    exact ⟨node, hnode, rfl, rfl⟩
  | loop =>
    obtain ⟨-, rfl⟩ := step_loop h
    exact ⟨node, hnode, rfl, rfl⟩
  | wake =>
    obtain ⟨-, -, rfl⟩ := step_wake h
    exact ⟨node, hnode, rfl, rfl⟩
  | check created =>
    obtain ⟨-, -, -, -, -, -, -, -, -, rfl⟩ := step_check h
    exact ⟨node, hnode, rfl, rfl⟩
  | unlock =>
    obtain ⟨-, rfl⟩ := step_unlock h
    exact ⟨node, hnode, rfl, rfl⟩
  | register name crontab =>
    obtain ⟨-, added, -, -, rfl⟩ := step_register h
    obtain ⟨hlt, -⟩ := List.getElem?_eq_some_iff.mp hnode
    exact ⟨node, (List.getElem?_append_left hlt).trans hnode, rfl, rfl⟩
  | unregister name =>
    obtain ⟨-, schedList, -, rfl⟩ := step_unregister h
    exact ⟨node, hnode, rfl, rfl⟩
  | begin j =>
    obtain ⟨-, rfl⟩ := step_begin h
    exact hmodify j _ fun _ => ⟨rfl, rfl⟩
  | finish j start result =>
    obtain ⟨-, rfl⟩ := step_finish h
    exact hmodify j _ fun _ => ⟨rfl, rfl⟩
  | leave j start =>
    obtain ⟨-, rfl⟩ := step_leave h
    exact hmodify j _ fun _ => ⟨rfl, rfl⟩

theorem modify_since {i : Nat} {f : NodeScheduler → NodeScheduler} {nodes : List NodeScheduler}
    (hf : ∀ node, (f node).since = node.since) (j : Nat) (node' : NodeScheduler)
    (h : (nodes.modify i f)[j]? = some node') :
    ∃ node, nodes[j]? = some node ∧ node'.since = node.since := by
  rw [List.getElem?_modify] at h
  obtain ⟨node, hnode, heq⟩ := Option.map_eq_some_iff.mp h
  refine ⟨node, hnode, ?_⟩
  rw [← heq]
  split
  · exact hf node
  · rfl

/-- No step takes the clock back, and a node is as old as it was or registered now. -/
theorem step_since {e : SchedulerEvent} (h : step lt s e = some s') :
    s.clock ≤ s'.clock ∧ ∀ (i : Nat) (node' : NodeScheduler), s'.nodes[i]? = some node' →
      node'.since = s.clock ∨ ∃ node, s.nodes[i]? = some node ∧ node'.since = node.since := by
  have hsame (i : Nat) (node : NodeScheduler) (hnode : s.nodes[i]? = some node) :
      node.since = s.clock ∨ ∃ old, s.nodes[i]? = some old ∧ node.since = old.since :=
    Or.inr ⟨node, hnode, rfl⟩
  cases e with
  | tick seconds =>
    cases h
    exact ⟨Nat.le_add_right _ _, hsame⟩
  | loop =>
    obtain ⟨-, rfl⟩ := step_loop h
    exact ⟨Nat.le_refl _, hsame⟩
  | wake =>
    obtain ⟨-, -, rfl⟩ := step_wake h
    exact ⟨Nat.le_refl _, hsame⟩
  | check created =>
    obtain ⟨-, -, -, -, -, -, -, -, -, rfl⟩ := step_check h
    exact ⟨Nat.le_refl _, hsame⟩
  | unlock =>
    obtain ⟨-, rfl⟩ := step_unlock h
    exact ⟨Nat.le_refl _, hsame⟩
  | register name crontab =>
    obtain ⟨-, added, -, hsince, rfl⟩ := step_register h
    refine ⟨Nat.le_refl _, ?_⟩
    intro i node' hnode'
    by_cases hlt : i < s.nodes.length
    · exact hsame i node' ((List.getElem?_append_left hlt).symm.trans hnode')
    · have hnew : (s.nodes ++ [added])[i]? = some node' := hnode'
      rw [List.getElem?_append_right (Nat.not_lt.mp hlt)] at hnew
      have hmem : node' ∈ [added] := List.mem_of_getElem? hnew
      exact Or.inl (List.mem_singleton.mp hmem ▸ hsince)
  | unregister name =>
    obtain ⟨-, schedList, -, rfl⟩ := step_unregister h
    exact ⟨Nat.le_refl _, hsame⟩
  | begin j =>
    obtain ⟨-, rfl⟩ := step_begin h
    refine ⟨Nat.le_refl _, fun i node' hnode' => Or.inr ?_⟩
    refine modify_since ?_ i node' hnode'
    intro _
    rfl
  | finish j start result =>
    obtain ⟨-, rfl⟩ := step_finish h
    refine ⟨Nat.le_refl _, fun i node' hnode' => Or.inr ?_⟩
    refine modify_since ?_ i node' hnode'
    intro _
    rfl
  | leave j start =>
    obtain ⟨-, rfl⟩ := step_leave h
    refine ⟨Nat.le_refl _, fun i node' hnode' => Or.inr ?_⟩
    refine modify_since ?_ i node' hnode'
    intro _
    rfl

/-- Only the look at a node goes into the record. -/
theorem step_record {e : SchedulerEvent} (h : step lt s e = some s') :
    s'.checks = s.checks ∨ ∃ created, e = .check created := by
  cases e with
  | check created => exact Or.inr ⟨created, rfl⟩
  | tick seconds =>
    cases h
    exact Or.inl rfl
  | loop =>
    obtain ⟨-, rfl⟩ := step_loop h
    exact Or.inl rfl
  | wake =>
    obtain ⟨-, -, rfl⟩ := step_wake h
    exact Or.inl rfl
  | unlock =>
    obtain ⟨-, rfl⟩ := step_unlock h
    exact Or.inl rfl
  | register name crontab =>
    obtain ⟨-, node, -, -, rfl⟩ := step_register h
    exact Or.inl rfl
  | unregister name =>
    obtain ⟨-, schedList, -, rfl⟩ := step_unregister h
    exact Or.inl rfl
  | begin j =>
    obtain ⟨-, rfl⟩ := step_begin h
    exact Or.inl rfl
  | finish j start result =>
    obtain ⟨-, rfl⟩ := step_finish h
    exact Or.inl rfl
  | leave j start =>
    obtain ⟨-, rfl⟩ := step_leave h
    exact Or.inl rfl

/-- What the record says of a pass is what the crontab of the node said at that time. -/
structure Truthful (lt : LocalTime) (s : Scheduler) : Prop where
  registered : ∀ (i : Nat) (node : NodeScheduler), s.nodes[i]? = some node →
    node.since ≤ s.clock
  checked : ∀ c ∈ s.checks, ∃ node, s.nodes[c.node]? = some node ∧ node.since ≤ c.time ∧
    timeCmp node.cron (lt.tm c.time) = some (decide (c.result ≠ .idle))

theorem truthful_start (lt : LocalTime) (clock : Nat) : Truthful lt (start clock) := by
  refine ⟨?_, ?_⟩
  · intro i node hnode
    cases hnode
  · intro c hc
    cases hc

theorem Truthful.step (ht : Truthful lt s) {e : SchedulerEvent} (h : step lt s e = some s') :
    Truthful lt s' := by
  obtain ⟨hclock, hsince⟩ := step_since h
  have hold (c : Check) (hc : c ∈ s.checks) : ∃ node, s'.nodes[c.node]? = some node ∧
      node.since ≤ c.time ∧
      timeCmp node.cron (lt.tm c.time) = some (decide (c.result ≠ .idle)) := by
    obtain ⟨node, hnode, hle, hcmp⟩ := ht.checked c hc
    obtain ⟨node', hnode', hcron, hsame⟩ := step_node h hnode
    exact ⟨node', hnode', hsame ▸ hle, by rw [hcron, hcmp]⟩
  refine ⟨?_, ?_⟩
  · intro i node' hnode'
    rcases hsince i node' hnode' with hnow | ⟨node, hnode, hsame⟩
    · exact hnow ▸ hclock
    · exact hsame ▸ (ht.registered i node hnode).trans hclock
  · intro c hc
    rcases step_record h with hsame | ⟨created, rfl⟩
    · exact hold c (hsame ▸ hc)
    · obtain ⟨i, rest, node, due, hthread, hnode, hdue, result, hresult, rfl⟩ := step_check h
      rcases List.mem_cons.mp hc with rfl | hc
      · refine ⟨node, hnode, ht.registered i node hnode, ?_⟩
        show timeCmp node.cron (lt.tm s.clock) = some (decide (result ≠ .idle))
        rw [hdue, hresult]
        cases due with
        | false => rfl
        | true =>
          simp only [if_true]
          split
          · cases created <;> rfl
          · rfl
      · exact hold c hc

/-- The node was looked at in this minute. -/
def Looked (s : Scheduler) (i minute : Nat) : Prop :=
  ∃ c ∈ s.checks, c.node = i ∧ c.time / 60 = minute

/-- The minutes a node on the list has behind it: those before the minute of the last wake-up, and
that one too once the pass is beyond the node. -/
def Behind (s : Scheduler) (i minute : Nat) : Prop :=
  minute < s.target / 60 ∨ minute = s.target / 60 ∧ s.thread ≠ .asleep ∧
    ∀ rest, s.thread = .scanning rest → i ∉ rest

/-- Every node on the list was looked at in every minute it has behind it. -/
structure Covers (s : Scheduler) : Prop where
  near : s.target ≤ s.clock + 60
  awake : s.thread ≠ .asleep → s.target ≤ s.clock
  looked : ∀ i ∈ s.schedList, ∀ node, s.nodes[i]? = some node →
    ∀ minute, node.since / 60 < minute → Behind s i minute → Looked s i minute

/-- A pass ends in the minute it was woken for. -/
def punctual (s : Scheduler) : SchedulerEvent → Prop
  | .check _ | .loop => s.clock < s.target + 60
  | _ => True

instance (s : Scheduler) : (e : SchedulerEvent) → Decidable (punctual s e)
  | .check _ | .loop => inferInstanceAs (Decidable (s.clock < s.target + 60))
  | .tick _ | .wake | .unlock | .register .. | .unregister _ | .begin _ | .finish .. | .leave .. =>
    isTrue trivial

theorem covers_start (clock : Nat) : Covers (start clock) := by
  refine ⟨?_, ?_, ?_⟩
  · simp only [start]
    omega
  · intro _
    simp only [start]
    omega
  · intro i hi
    cases hi

/-- A step of another thread. -/
theorem Covers.aside (hc : Covers s) {clock : Nat} {children : List (Nat × ChildPhase)}
    {nodes : List NodeScheduler} (hclock : s.clock ≤ clock)
    (hsince : ∀ (i : Nat) (node' : NodeScheduler), nodes[i]? = some node' →
      ∃ node, s.nodes[i]? = some node ∧ node'.since = node.since) :
    Covers { s with clock := clock, children := children, nodes := nodes } where
  near := hc.near.trans (Nat.add_le_add_right hclock 60)
  awake hthread := (hc.awake hthread).trans hclock
  looked i hi node' hnode' minute hminute hbehind := by
    obtain ⟨node, hnode, hsame⟩ := hsince i node' hnode'
    exact hc.looked i hi node hnode minute (hsame ▸ hminute) hbehind

theorem Covers.step (hs : Sound s) (hc : Covers s) {e : SchedulerEvent} (hg : punctual s e)
    (h : step lt s e = some s') : Covers s' := by
  have hwhole := hs.whole
  cases e with
  | tick seconds =>
    cases h
    exact hc.aside (Nat.le_add_right _ _) fun i node' hnode' => ⟨node', hnode', rfl⟩
  | loop =>
    obtain ⟨hthread, rfl⟩ := step_loop h
    have hawake : s.target ≤ s.clock := hc.awake (by simp [hthread])
    have hlate : s.clock < s.target + 60 := hg
    refine ⟨?_, ?_, ?_⟩
    · show s.clock + (60 - s.clock % 60) ≤ s.clock + 60
      omega
    · intro hasleep
      exact absurd rfl hasleep
    · intro i hi node hnode minute hminute hbehind
      apply hc.looked i hi node hnode minute hminute
      -- the sleep ends with the minute of the last wake-up
      rcases hbehind with hlt | hlast
      · have hlt : minute < (s.clock + (60 - s.clock % 60)) / 60 := hlt
        by_cases heq : minute = s.target / 60
        · exact Or.inr ⟨heq, by simp [hthread], by simp [hthread]⟩
        · exact Or.inl (by omega)
      · exact absurd rfl hlast.2.1
  | wake =>
    obtain ⟨hthread, htarget, rfl⟩ := step_wake h
    refine ⟨hc.near, fun _ => htarget, ?_⟩
    intro i hi node hnode minute hminute hbehind
    apply hc.looked i hi node hnode minute hminute
    rcases hbehind with hlt | hlast
    · exact Or.inl hlt
    · exact absurd hi (hlast.2.2 _ rfl)
  | check created =>
    obtain ⟨i, rest, node, due, hthread, hnode, -, result, -, rfl⟩ := step_check h
    have hawake : s.target ≤ s.clock := hc.awake (by simp [hthread])
    have hlate : s.clock < s.target + 60 := hg
    refine ⟨hc.near, fun _ => hawake, ?_⟩
    intro j hj node' hnode' minute hminute hbehind
    have hold : Looked s j minute →
        ∃ c ∈ ⟨i, s.clock, result⟩ :: s.checks, c.node = j ∧ c.time / 60 = minute := by
      intro hlooked
      obtain ⟨c, hmem, hc⟩ := hlooked
      exact ⟨c, List.mem_cons_of_mem _ hmem, hc⟩
    rcases hbehind with hlt | ⟨heq, -, hrest⟩
    · exact hold (hc.looked j hj node' hnode' minute hminute (Or.inl hlt))
    · by_cases hji : j = i
      · refine ⟨⟨i, s.clock, result⟩, List.mem_cons_self, hji.symm, ?_⟩
        rw [heq]
        show s.clock / 60 = s.target / 60
        omega
      · have hawake : s.thread ≠ .asleep := by simp [hthread]
        apply hold (hc.looked j hj node' hnode' minute hminute (Or.inr ⟨heq, hawake, ?_⟩))
        intro rest' hrest'
        rw [hthread] at hrest'
        cases hrest'
        simp only [List.mem_cons, not_or]
        exact ⟨hji, hrest rest rfl⟩
  | unlock =>
    obtain ⟨hthread, rfl⟩ := step_unlock h
    refine ⟨hc.near, fun _ => hc.awake (by simp [hthread]), ?_⟩
    intro i hi node hnode minute hminute hbehind
    apply hc.looked i hi node hnode minute hminute
    rcases hbehind with hlt | ⟨heq, -, -⟩
    · exact Or.inl hlt
    · exact Or.inr ⟨heq, by simp [hthread], by simp [hthread]⟩
  | register name crontab =>
    obtain ⟨hscan, added, -, hsince, rfl⟩ := step_register h
    refine ⟨hc.near, hc.awake, ?_⟩
    intro i hi node hnode minute hminute hbehind
    rcases List.mem_cons.mp hi with rfl | hi
    · have hsince : node.since = s.clock := by
        have hnew : (s.nodes ++ [added])[s.nodes.length]? = some node := hnode
        rw [List.getElem?_concat_length] at hnew
        cases hnew
        exact hsince
      -- no minute has gone by since the registration
      rw [hsince] at hminute
      have hnear := hc.near
      rcases hbehind with hlt | ⟨heq, hasleep, -⟩
      · have hlt : minute < s.target / 60 := hlt
        omega
      · have heq : minute = s.target / 60 := heq
        have hawake := hc.awake hasleep
        omega
    · have hold : s.nodes[i]? = some node := by
        rw [← hnode]
        exact (List.getElem?_append_left (hs.listed i hi)).symm
      exact hc.looked i hi node hold minute hminute hbehind
  | unregister name =>
    obtain ⟨hscan, schedList, hsub, rfl⟩ := step_unregister h
    exact ⟨hc.near, hc.awake, fun j hj => hc.looked j (hsub.subset hj)⟩
  | begin i =>
    obtain ⟨-, rfl⟩ := step_begin h
    exact hc.aside (Nat.le_refl _) (modify_since fun _ => rfl)
  | finish i start result =>
    obtain ⟨-, rfl⟩ := step_finish h
    exact hc.aside (Nat.le_refl _) (modify_since fun _ => rfl)
  | leave i start =>
    obtain ⟨-, rfl⟩ := step_leave h
    exact hc.aside (Nat.le_refl _) (modify_since fun _ => rfl)

/-- An instance of the job that is in `func`. -/
def runningOf (i : Nat) : Nat × ChildPhase → Bool
  | (j, .running _) => j = i
  | _ => false

/-- An instance of the job that is not behind its `func`. -/
def aliveOf (i : Nat) : Nat × ChildPhase → Bool
  | (_, .returned _) => false
  | (j, _) => j = i

/-- No job runs twice at a time. -/
def Single (s : Scheduler) : Prop := ∀ i, s.children.countP (aliveOf i) ≤ 1

/-- The status says whether `func` runs. -/
structure StatusExact (s : Scheduler) : Prop where
  known : ∀ c ∈ s.children, c.1 < s.nodes.length
  status : ∀ (i : Nat) (node : NodeScheduler), s.nodes[i]? = some node →
    (node.status = .run ↔ 0 < s.children.countP (runningOf i))

/-- The pass starts no job whose last thread has not begun. -/
def prompt (lt : LocalTime) (s : Scheduler) : SchedulerEvent → Prop
  | .check created => ∀ (i : Nat) (rest : List Nat) (node : NodeScheduler),
      s.thread = .scanning (i :: rest) → s.nodes[i]? = some node →
      timeCmp node.cron (lt.tm s.clock) = some true → node.status = .sleep → created = true →
      (i, .created) ∉ s.children
  | _ => True

/-- One child is replaced by another. -/
theorem countP_replace {p : Nat × ChildPhase → Bool} {l : List (Nat × ChildPhase)}
    {x y : Nat × ChildPhase} (hy : y ∈ l) :
    (x :: l.erase y).countP p + (p y).toNat = l.countP p + (p x).toNat := by
  have hcons (z : Nat × ChildPhase) (l : List (Nat × ChildPhase)) :
      (z :: l).countP p = l.countP p + (p z).toNat := by
    rw [List.countP_cons]
    cases p z <;> rfl
  rw [hcons, (List.perm_cons_erase hy).countP_eq p, hcons]
  omega

theorem runningOf_le_aliveOf (i : Nat) (l : List (Nat × ChildPhase)) :
    l.countP (runningOf i) ≤ l.countP (aliveOf i) := by
  apply List.countP_mono_left
  intro c _ hc
  match c, hc with
  | (j, .running _), hc => exact hc

/-- The node's status is what its thread writes; the other nodes keep theirs. -/
theorem StatusExact.modify {i : Nat} {f : NodeScheduler → NodeScheduler}
    {nodes : List NodeScheduler} {children children' : List (Nat × ChildPhase)}
    (hx : ∀ (j : Nat) (node : NodeScheduler), nodes[j]? = some node →
      (node.status = .run ↔ 0 < children.countP (runningOf j)))
    (hself : ∀ node, nodes[i]? = some node →
      ((f node).status = .run ↔ 0 < children'.countP (runningOf i)))
    (hother : ∀ j, j ≠ i → children'.countP (runningOf j) = children.countP (runningOf j))
    (j : Nat) (node' : NodeScheduler) (hnode' : (nodes.modify i f)[j]? = some node') :
    (node'.status = .run ↔ 0 < children'.countP (runningOf j)) := by
  rw [List.getElem?_modify] at hnode'
  obtain ⟨node, hnode, heq⟩ := Option.map_eq_some_iff.mp hnode'
  by_cases hij : i = j
  · subst hij
    rw [if_pos rfl] at heq
    rw [← heq]
    exact hself node hnode
  · rw [if_neg hij] at heq
    rw [← heq, hother j (Ne.symm hij)]
    exact hx j node hnode

theorem single_step {e : SchedulerEvent} (hx : StatusExact s) (hs : Single s)
    (h : step lt s e = some s') : StatusExact s' ∧ (Single s' ↔ prompt lt s e) := by
  cases e with
  | tick seconds =>
    cases h
    exact ⟨⟨hx.known, hx.status⟩, iff_of_true hs trivial⟩
  | loop =>
    obtain ⟨-, rfl⟩ := step_loop h
    exact ⟨⟨hx.known, hx.status⟩, iff_of_true hs trivial⟩
  | wake =>
    obtain ⟨-, -, rfl⟩ := step_wake h
    exact ⟨⟨hx.known, hx.status⟩, iff_of_true hs trivial⟩
  | unlock =>
    obtain ⟨-, rfl⟩ := step_unlock h
    exact ⟨⟨hx.known, hx.status⟩, iff_of_true hs trivial⟩
  | unregister name =>
    obtain ⟨-, schedList, -, rfl⟩ := step_unregister h
    exact ⟨⟨hx.known, hx.status⟩, iff_of_true hs trivial⟩
  | register name crontab =>
    obtain ⟨-, added, hsleep, -, rfl⟩ := step_register h
    refine ⟨⟨?_, ?_⟩, iff_of_true hs trivial⟩
    · intro c hc
      show c.1 < (s.nodes ++ [_]).length
      rw [List.length_append]
      exact Nat.lt_add_right _ (hx.known c hc)
    · intro i node hnode
      by_cases hlt : i < s.nodes.length
      · exact hx.status i node ((List.getElem?_append_left hlt).symm.trans hnode)
      · -- no thread knows the new node
        have hnone : s.children.countP (runningOf i) = 0 := by
          apply List.countP_eq_zero.mpr
          intro c hc
          have hknown := hx.known c hc
          match c, hknown with
          | (j, .running _), hknown =>
            have hne : j ≠ i := by
              have hknown : j < s.nodes.length := hknown
              omega
            simp [runningOf, hne]
          | (_, .created), _ => simp [runningOf]
          | (_, .returned _), _ => simp [runningOf]
        have hmem : node ∈ [added] := by
          have hnew : (s.nodes ++ [added])[i]? = some node := hnode
          rw [List.getElem?_append_right (Nat.not_lt.mp hlt)] at hnew
          exact List.mem_of_getElem? hnew
        show node.status = .run ↔ 0 < s.children.countP (runningOf i)
        rw [List.mem_singleton.mp hmem, hsleep, hnone]
        simp
  | check created =>
    obtain ⟨i, rest, node, due, hthread, hnode, hdue, result, hresult, rfl⟩ := step_check h
    obtain ⟨hlt, -⟩ := List.getElem?_eq_some_iff.mp hnode
    by_cases hstarted : result = .started
    · -- a thread is created for a job that is due and asleep
      have hcond : due = true ∧ node.status = .sleep ∧ created = true := by
        rw [hstarted] at hresult
        split_ifs at hresult with hd hsleep hcreated
        exact ⟨hd, hsleep, hcreated⟩
      obtain ⟨rfl, hsleep, rfl⟩ := hcond
      have hnotrun : s.children.countP (runningOf i) = 0 := by
        have hiff := hx.status i node hnode
        rw [hsleep] at hiff
        have hnot : ¬ 0 < s.children.countP (runningOf i) := by
          intro hpos
          simpa using hiff.mpr hpos
        omega
      have hcount (j : Nat) : ((i, .created) :: s.children).countP (aliveOf j) =
          s.children.countP (aliveOf j) + if i = j then 1 else 0 := by
        rw [List.countP_cons]
        simp [aliveOf]
      simp only [hstarted, if_true]
      refine ⟨⟨?_, ?_⟩, ?_, ?_⟩
      · intro c hc
        rcases List.mem_cons.mp hc with rfl | hc
        · exact hlt
        · exact hx.known c hc
      · intro j node' hnode'
        show node'.status = .run ↔ 0 < ((i, .created) :: s.children).countP (runningOf j)
        rw [List.countP_cons_of_neg (by simp [runningOf])]
        exact hx.status j node' hnode'
      · intro hsingle i' rest' node' hthread' _ _ _ _ hmem
        rw [hthread] at hthread'
        cases hthread'
        have hi : ((i, .created) :: s.children).countP (aliveOf i) ≤ 1 := hsingle i
        rw [hcount, if_pos rfl] at hi
        have hpos : 0 < s.children.countP (aliveOf i) :=
          List.countP_pos_iff.mpr ⟨_, hmem, by simp [aliveOf]⟩
        omega
      · intro hprompt j
        show ((i, .created) :: s.children).countP (aliveOf j) ≤ 1
        rw [hcount]
        split_ifs with hij
        · subst hij
          have hnone : s.children.countP (aliveOf i) = 0 := by
            apply List.countP_eq_zero.mpr
            intro c hc halive
            match c, hc, halive with
            | (j, .created), hc, halive =>
              obtain rfl : j = i := by simpa [aliveOf] using halive
              exact hprompt j rest node hthread hnode hdue hsleep rfl hc
            | (j, .running st), hc, halive =>
              exact List.countP_eq_zero.mp hnotrun _ hc halive
          omega
        · exact hs j
    · simp only [hstarted, if_false]
      refine ⟨⟨hx.known, hx.status⟩, iff_of_true hs ?_⟩
      intro i' rest' node' hthread' hnode' hdue' hsleep hcreated
      rw [hthread] at hthread'
      cases hthread'
      rw [hnode] at hnode'
      cases hnode'
      rw [hdue] at hdue'
      cases hdue'
      exact absurd (by simp [hresult, hsleep, hcreated]) hstarted
  | begin i =>
    obtain ⟨hmem, rfl⟩ := step_begin h
    have hrun (j : Nat) := @countP_replace (runningOf j) s.children (i, .running s.clock) _ hmem
    have halive (j : Nat) := @countP_replace (aliveOf j) s.children (i, .running s.clock) _ hmem
    refine ⟨⟨?_, StatusExact.modify hx.status ?_ ?_⟩, iff_of_true ?_ trivial⟩
    · intro c hc
      show c.1 < (s.nodes.modify _ _).length
      rw [List.length_modify]
      rcases List.mem_cons.mp hc with rfl | hc
      · exact hx.known (i, .created) hmem
      · exact hx.known c (List.mem_of_mem_erase hc)
    · intro node _
      have hi := hrun i
      simp only [runningOf, decide_true, Bool.toNat_true, Bool.toNat_false] at hi
      have hpos : 0 < ((i, .running s.clock) :: s.children.erase (i, .created)).countP
          (runningOf i) := by omega
      exact iff_of_true rfl hpos
    · intro j hj
      have hj' := hrun j
      simpa [runningOf, Ne.symm hj] using hj'
    · intro j
      have hj := halive j
      have hle := hs j
      simp only [aliveOf] at hj
      show (_ :: _).countP (aliveOf j) ≤ 1
      omega
  | finish i start result =>
    obtain ⟨hmem, rfl⟩ := step_finish h
    have hrun (j : Nat) := @countP_replace (runningOf j) s.children (i, .returned start) _ hmem
    have halive (j : Nat) := @countP_replace (aliveOf j) s.children (i, .returned start) _ hmem
    refine ⟨⟨?_, StatusExact.modify hx.status ?_ ?_⟩, iff_of_true ?_ trivial⟩
    · intro c hc
      show c.1 < (s.nodes.modify _ _).length
      rw [List.length_modify]
      rcases List.mem_cons.mp hc with rfl | hc
      · exact hx.known (i, .running start) hmem
      · exact hx.known c (List.mem_of_mem_erase hc)
    · intro node _
      have hi := hrun i
      have hle := (runningOf_le_aliveOf i s.children).trans (hs i)
      simp only [runningOf, decide_true, Bool.toNat_true, Bool.toNat_false] at hi
      have hzero : ¬ 0 < ((i, .returned start) :: s.children.erase (i, .running start)).countP
          (runningOf i) := by omega
      exact iff_of_false (by simp) hzero
    · intro j hj
      have hj' := hrun j
      simpa [runningOf, Ne.symm hj] using hj'
    · intro j
      have hj := halive j
      have hle := hs j
      simp only [aliveOf, Bool.toNat_false] at hj
      show (_ :: _).countP (aliveOf j) ≤ 1
      omega
  | leave i start =>
    obtain ⟨hmem, rfl⟩ := step_leave h
    have hsame (p : Nat × ChildPhase → Bool) (hp : p (i, .returned start) = false) :
        (s.children.erase (i, .returned start)).countP p = s.children.countP p := by
      rw [(List.perm_cons_erase hmem).countP_eq p, List.countP_cons_of_neg (by simp [hp])]
    refine ⟨⟨?_, StatusExact.modify hx.status ?_ ?_⟩, iff_of_true ?_ trivial⟩
    · intro c hc
      show c.1 < (s.nodes.modify _ _).length
      rw [List.length_modify]
      exact hx.known c (List.mem_of_mem_erase hc)
    · intro node hnode
      rw [hsame _ rfl]
      exact hx.status i node hnode
    · intro j _
      exact hsame _ rfl
    · intro j
      show (s.children.erase _).countP (aliveOf j) ≤ 1
      rw [hsame _ rfl]
      exact hs j

/-- `func` is called for the node when its thread begins. -/
def calls (i : Nat) : SchedulerEvent → Bool
  | .begin j => j = i
  | _ => false

def waitingOf (i : Nat) (c : Nat × ChildPhase) : Bool := c = (i, .created)

def startedOf (i : Nat) (c : Check) : Bool := c.node = i && c.result = .started

/-- Each thread comes from one pass, and calls `func` once. -/
theorem step_ledger {e : SchedulerEvent} (h : step lt s e = some s') (i : Nat) :
    s'.checks.countP (startedOf i) + s.children.countP (waitingOf i) =
      s.checks.countP (startedOf i) + s'.children.countP (waitingOf i) + (calls i e).toNat := by
  cases e with
  | tick seconds =>
    cases h
    rfl
  | loop =>
    obtain ⟨-, rfl⟩ := step_loop h
    rfl
  | wake =>
    obtain ⟨-, -, rfl⟩ := step_wake h
    rfl
  | unlock =>
    obtain ⟨-, rfl⟩ := step_unlock h
    rfl
  | register name crontab =>
    obtain ⟨-, added, -, -, rfl⟩ := step_register h
    rfl
  | unregister name =>
    obtain ⟨-, schedList, -, rfl⟩ := step_unregister h
    rfl
  | check created =>
    obtain ⟨j, rest, node, due, -, -, -, result, -, rfl⟩ := step_check h
    simp only [List.countP_cons, calls, Bool.toNat_false]
    by_cases hresult : result = .started
    · by_cases hji : j = i
      · simp only [hresult, hji, startedOf, waitingOf, if_true, List.countP_cons]
        simp
        omega
      · simp only [hresult, startedOf, waitingOf, if_true, List.countP_cons]
        simp [hji]
    · simp [hresult, startedOf]
  | begin j =>
    obtain ⟨hmem, rfl⟩ := step_begin h
    have hcount := @countP_replace (waitingOf i) s.children (j, .running s.clock) _ hmem
    have hnew : waitingOf i (j, .running s.clock) = false := by simp [waitingOf]
    have hold : waitingOf i (j, .created) = calls i (.begin j) := by simp [waitingOf, calls]
    rw [hnew, hold, Bool.toNat_false] at hcount
    show s.checks.countP (startedOf i) + _ = s.checks.countP (startedOf i) +
      (_ :: s.children.erase _).countP (waitingOf i) + _
    omega
  | finish j start result =>
    obtain ⟨hmem, rfl⟩ := step_finish h
    have hcount := @countP_replace (waitingOf i) s.children (j, .returned start) _ hmem
    have hnew : waitingOf i (j, .returned start) = false := by simp [waitingOf]
    have hold : waitingOf i (j, .running start) = false := by simp [waitingOf]
    rw [hnew, hold] at hcount
    show s.checks.countP (startedOf i) + _ = s.checks.countP (startedOf i) +
      (_ :: s.children.erase _).countP (waitingOf i) + 0
    omega
  | leave j start =>
    obtain ⟨hmem, rfl⟩ := step_leave h
    show s.checks.countP (startedOf i) + _ = s.checks.countP (startedOf i) +
      (s.children.erase _).countP (waitingOf i) + 0
    rw [(List.perm_cons_erase hmem).countP_eq,
      List.countP_cons_of_neg (by simp [waitingOf]), Nat.add_zero]

/-- The clock at each call of the node's `func`. -/
def callTimes (lt : LocalTime) (i : Nat) : Scheduler → List SchedulerEvent → List Nat
  | _, [] => []
  | s, e :: es =>
    match step lt s e with
    | none => []
    | some s' => (if calls i e then [s.clock] else []) ++ callTimes lt i s' es

/-- The looks that started a thread for the node, the first one first. -/
def starts (i : Nat) (s : Scheduler) : List Check := (s.checks.filter (startedOf i)).reverse

/-- The calls so far have each a start of their own that came before, in order; the other starts
are those of the threads that have not begun. -/
structure Matched (i : Nat) (s : Scheduler) (times : List Nat) : Prop where
  count : (starts i s).length = s.children.countP (waitingOf i) + times.length
  before : List.Forall₂ (fun c t => c.time ≤ t) ((starts i s).take times.length) times

theorem length_starts (i : Nat) (s : Scheduler) :
    (starts i s).length = s.checks.countP (startedOf i) := by
  rw [starts, List.length_reverse, List.countP_eq_length_filter]

theorem mem_starts {i : Nat} {c : Check} (h : c ∈ starts i s) :
    c ∈ s.checks ∧ startedOf i c = true :=
  List.mem_filter.mp (List.mem_reverse.mp h)

theorem step_starts {e : SchedulerEvent} (h : step lt s e = some s') (i : Nat) :
    ∃ new, starts i s' = starts i s ++ new := by
  obtain hsame | ⟨created, rfl⟩ := step_record h
  · exact ⟨[], by rw [starts, starts, hsame, List.append_nil]⟩
  · obtain ⟨j, rest, node, due, -, -, -, result, -, rfl⟩ := step_check h
    refine ⟨([(⟨j, s.clock, result⟩ : Check)].filter (startedOf i)).reverse, ?_⟩
    rw [starts, starts, ← List.reverse_append, ← List.filter_append]
    rfl

/-- A thread that begins takes the first start that has no call yet. -/
theorem Matched.step {e : SchedulerEvent} {i : Nat} {times : List Nat} (hm : Matched i s times)
    (hs : Sound s) (h : step lt s e = some s') :
    Matched i s' (times ++ if calls i e then [s.clock] else []) := by
  have hledger := step_ledger h i
  obtain ⟨new, hnew⟩ := step_starts h i
  have hcount := hm.count
  rw [length_starts] at hcount
  constructor
  · rw [length_starts, List.length_append]
    cases hcall : calls i e with
    | false =>
      simp only [hcall, Bool.toNat_false, Bool.false_eq_true, if_false, List.length_nil] at hledger ⊢
      omega
    | true =>
      simp only [hcall, Bool.toNat_true, if_true, List.length_singleton] at hledger ⊢
      omega
  · cases hcall : calls i e with
    | false =>
      have hle : times.length ≤ (starts i s).length := by
        rw [length_starts]
        omega
      simp only [Bool.false_eq_true, if_false, List.append_nil]
      rw [hnew, List.take_append_of_le_length hle]
      exact hm.before
    | true =>
      have hbegin : e = .begin i := by
        cases e <;> simp_all [calls]
      subst hbegin
      obtain ⟨hwaiting, -⟩ := step_begin h
      have hpos : 0 < s.children.countP (waitingOf i) :=
        List.countP_pos_iff.mpr ⟨_, hwaiting, by simp [waitingOf]⟩
      have hlt : times.length < (starts i s).length := by
        rw [length_starts]
        omega
      have hpast : (starts i s)[times.length].time ≤ s.clock :=
        hs.past _ (mem_starts (List.getElem_mem hlt)).1
      simp only [if_true, List.length_append, List.length_singleton]
      rw [hnew, List.take_append_of_le_length hlt, ← List.take_append_getElem hlt]
      exact List.rel_append hm.before (.cons hpast .nil)

/-- What one step keeps, a run keeps. -/
theorem Matched.run {es : List SchedulerEvent} {i : Nat} {times : List Nat} (hm : Matched i s times)
    (hs : Sound s) (h : Run.exec (Scheduler.step lt) s es = some s') :
    Matched i s' (times ++ callTimes lt i s es) := by
  induction es generalizing s times with
  | nil =>
    cases h
    rwa [callTimes, List.append_nil]
  | cons e es ih =>
    obtain ⟨t, hstep, hrun⟩ := Run.exec_cons_some h
    have hrest := ih (hm.step hs hstep) (hs.step hstep) hrun
    rwa [callTimes, hstep, ← List.append_assoc]

theorem run_sound {clock : Nat} {es : List SchedulerEvent}
    (h : Run.exec (step lt) (start clock) es = some s) : Sound s ∧ Truthful lt s := by
  have hstep : ∀ s e s', Sound s ∧ Truthful lt s → True → step lt s e = some s' →
      Sound s' ∧ Truthful lt s' := by
    intro s e s' hs _ hstep
    exact ⟨hs.1.step hstep, hs.2.step hstep⟩
  exact Run.exec_invariant hstep ⟨sound_start clock, truthful_start lt clock⟩
    (Run.guarded_of_forall (fun _ _ _ => trivial) _) h

/-- The minutes up to `now` in which the job is due. -/
def dueMinutes (lt : LocalTime) (node : NodeScheduler) (now : Nat) : List Nat :=
  (List.range (now / 60 + 1)).filter fun minute =>
    node.since / 60 ≤ minute ∧ timeCmp node.cron (lt.tm (60 * minute)) = some true

theorem dueMinutes_of_started (hs : Sound s) (ht : Truthful lt s) {i : Nat}
    {node : NodeScheduler} (hnode : s.nodes[i]? = some node) {c : Check} (hc : c ∈ s.checks)
    (hstarted : startedOf i c = true) : c.time / 60 ∈ dueMinutes lt node s.clock := by
  obtain ⟨hi, hresult⟩ : c.node = i ∧ c.result = .started := by simpa [startedOf] using hstarted
  obtain ⟨node', hnode', hsince, hdue⟩ := ht.checked c hc
  rw [hi, hnode] at hnode'
  cases hnode'
  have hpast := hs.past c hc
  rw [lt.sameMinute c.time (60 * (c.time / 60)) (by omega), hresult] at hdue
  simp only [dueMinutes, List.mem_filter, List.mem_range, decide_eq_true_eq]
  exact ⟨by omega, by omega, hdue⟩

/-- In any run, however late the passes are and however long the jobs take: the calls of a job have
each a look of their own that came before them, found the job due and started its thread, and
these looks are in minutes of their own in which the job is due. -/
theorem scheduler_calls_due (lt : LocalTime) (clock : Nat) (es : List SchedulerEvent)
    (u : Scheduler) (i : Nat) (node : NodeScheduler)
    (h : Run.exec (step lt) (start clock) es = some u) (hnode : u.nodes[i]? = some node) :
    ∃ looks : List Check,
      (∀ c ∈ looks, c ∈ u.checks ∧ startedOf i c = true ∧
        c.time / 60 ∈ dueMinutes lt node u.clock) ∧
      looks.Pairwise (fun a b => a.time / 60 < b.time / 60) ∧
      List.Forall₂ (fun c t => c.time ≤ t) looks (callTimes lt i (start clock) es) := by
  obtain ⟨hs, ht⟩ := run_sound h
  have hmatched : Matched i (start clock) [] := ⟨rfl, .nil⟩
  have hrun := hmatched.run (sound_start clock) h
  rw [List.nil_append] at hrun
  refine ⟨_, ?_, ?_, hrun.before⟩
  · intro c hc
    obtain ⟨hmem, hstarted⟩ := mem_starts (List.mem_of_mem_take hc)
    exact ⟨hmem, hstarted, dueMinutes_of_started hs ht hnode hmem hstarted⟩
  · have hordered : (starts i u).Pairwise fun a b => a.time / 60 < b.time / 60 := by
      rw [starts, List.pairwise_reverse]
      refine (hs.ordered.filter _).imp_of_mem ?_
      intro a b ha hb hab
      have ha := (List.mem_filter.mp ha).2
      have hb := (List.mem_filter.mp hb).2
      simp only [startedOf, Bool.and_eq_true, decide_eq_true_eq] at ha hb
      exact hab (ha.1.trans hb.1.symm)
    exact hordered.sublist (List.take_sublist _ _)

/-- UTC on 1 January 1970. -/
def firstDay : LocalTime where
  tm t := ⟨(t / 60 % 60 : Nat), (t / 3600 % 24 : Nat), 1, 0, 4⟩
  sameMinute s t h := by
    have hhour : s / 3600 = t / 3600 := by omega
    rw [h, hhour]

/-- A job registered at 00:00:10 for every second minute, and the passes up to 00:02:01. -/
def everyOther : List SchedulerEvent :=
  [.register [106] [42, 47, 50, 32, 42, 32, 42, 32, 42, 32, 42, 0], .loop, .tick 50, .wake,
    .check true, .unlock, .loop, .tick 61, .wake, .check true, .unlock, .begin 0,
    .finish 0 121 true]

theorem scheduler_calls_due_everyOther : ∃ u node,
    Run.exec (step firstDay) (start 10) everyOther = some u ∧ u.nodes[0]? = some node ∧
      callTimes firstDay 0 (start 10) everyOther = [121] ∧
      ∃ looks : List Check,
        (∀ c ∈ looks, c ∈ u.checks ∧ startedOf 0 c = true ∧
          c.time / 60 ∈ dueMinutes firstDay node u.clock) ∧
        looks.Pairwise (fun a b => a.time / 60 < b.time / 60) ∧
        List.Forall₂ (fun c t => c.time ≤ t) looks
          (callTimes firstDay 0 (start 10) everyOther) :=
  ⟨_, _, rfl, rfl, rfl, scheduler_calls_due firstDay 10 everyOther _ 0 _ rfl rfl⟩

theorem run_covers {clock : Nat} {es : List SchedulerEvent}
    (h : Run.exec (step lt) (start clock) es = some s)
    (hg : Run.Guarded (step lt) punctual (start clock) es) :
    (Sound s ∧ Truthful lt s) ∧ Covers s := by
  have hstep : ∀ s e s', (Sound s ∧ Truthful lt s) ∧ Covers s → punctual s e →
      step lt s e = some s' → (Sound s' ∧ Truthful lt s') ∧ Covers s' := by
    intro s e s' hs hpunctual hstep
    exact ⟨⟨hs.1.1.step hstep, hs.1.2.step hstep⟩, hs.2.step hs.1.1 hpunctual hstep⟩
  exact Run.exec_invariant hstep
    ⟨⟨sound_start clock, truthful_start lt clock⟩, covers_start clock⟩ hg h

/-- Where every pass ends in the minute it was woken for, each node on the list is looked at in
every minute after that of its registration, once, and found due exactly when its crontab says
so. -/
theorem scheduler_misses_no_minute (lt : LocalTime) (clock : Nat) (es : List SchedulerEvent)
    (u : Scheduler) (h : Run.exec (step lt) (start clock) es = some u)
    (hg : Run.Guarded (step lt) punctual (start clock) es) (i : Nat) (hi : i ∈ u.schedList)
    (node : NodeScheduler) (hnode : u.nodes[i]? = some node) (minute : Nat)
    (hafter : node.since / 60 < minute) (hbefore : minute < u.target / 60) :
    (∃! c, c ∈ u.checks ∧ c.node = i ∧ c.time / 60 = minute) ∧
      ∀ c ∈ u.checks, c.node = i → c.time / 60 = minute →
        (c.result ≠ .idle ↔ timeCmp node.cron (lt.tm (60 * minute)) = some true) := by
  obtain ⟨⟨hs, ht⟩, hc⟩ := run_covers h hg
  obtain ⟨c, hmem, hci, hcm⟩ := hc.looked i hi node hnode minute hafter (Or.inl hbefore)
  refine ⟨⟨c, ⟨hmem, hci, hcm⟩, ?_⟩, ?_⟩
  · intro c' hc'
    obtain ⟨hmem', hci', hcm'⟩ := hc'
    by_contra hne
    -- of two passes over one node, the record says which came in the earlier minute
    have hsymm : Std.Symm fun a b : Check => a.node = b.node → b.time / 60 ≠ a.time / 60 :=
      ⟨fun a b hab heq => (hab heq.symm).symm⟩
    have hordered : u.checks.Pairwise fun a b => a.node = b.node → b.time / 60 ≠ a.time / 60 :=
      hs.ordered.imp fun hab heq => (hab heq).ne
    exact hordered.forall hmem hmem' (Ne.symm hne) (hci.trans hci'.symm) (hcm'.trans hcm.symm)
  · intro c' hmem' hci' hcm'
    obtain ⟨node', hnode', -, hcmp⟩ := ht.checked c' hmem'
    rw [hci', hnode] at hnode'
    cases hnode'
    rw [← lt.sameMinute c'.time (60 * minute) (by omega), hcmp]
    simp

theorem scheduler_misses_no_minute_everyOther : ∃ u node,
    Run.exec (step firstDay) (start 10) everyOther = some u ∧ u.nodes[0]? = some node ∧
      ((∃! c, c ∈ u.checks ∧ c.node = 0 ∧ c.time / 60 = 1) ∧
        ∀ c ∈ u.checks, c.node = 0 → c.time / 60 = 1 →
          (c.result ≠ .idle ↔ timeCmp node.cron (firstDay.tm (60 * 1)) = some true)) :=
  ⟨_, _, rfl, rfl, scheduler_misses_no_minute firstDay 10 everyOther _ rfl
    (by decide) 0 (by decide) _ rfl 1 (by decide) (by decide)⟩

theorem single_start (clock : Nat) : StatusExact (start clock) ∧ Single (start clock) := by
  refine ⟨⟨?_, ?_⟩, ?_⟩
  · intro c hc
    cases hc
  · intro i node hnode
    cases hnode
  · intro i
    exact Nat.zero_le 1

/-- No job runs twice at a time, throughout a run, exactly when no pass finds a job due whose last
thread has not begun: the status is set by the thread itself. -/
theorem scheduler_single_iff (lt : LocalTime) (clock : Nat) (es : List SchedulerEvent)
    (u : Scheduler) (h : Run.exec (step lt) (start clock) es = some u) :
    Run.Always (step lt) Single (start clock) es ↔
      Run.Guarded (step lt) (prompt lt) (start clock) es :=
  Run.always_iff_guarded (fun _ _ _ hx hs hstep => single_step hx hs hstep)
    (single_start clock).1 (single_start clock).2 h

theorem scheduler_single_iff_everyOther :
    Run.Always (step firstDay) Single (start 10) everyOther ↔
      Run.Guarded (step firstDay) (prompt firstDay) (start 10) everyOther :=
  scheduler_single_iff firstDay 10 everyOther _ rfl

end Scheduler

end IPStat
