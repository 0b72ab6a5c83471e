import IPStat.Threads.Pool

namespace IPStat

section
variable {ρ γ : Type}

/-- IPStat_request_enqueue on the pool: the semaphore is posted for a request that was put. -/
def Pool.requestEnqueue (s : Pool ρ γ) (request : Option ρ) (block : Option (Nat → Option ρ)) :
    Option (Pool ρ γ) :=
  let queue := { s.queue with requestCount := s.queue.requestCount + 1 }
  let queue := queue.rewind
  if queue.numEntries = queue.queueSize - 1 then
    if 65536 ≤ queue.queueSize then some { s with queue := queue }
    else match block with
      | none => some { s with queue := queue }
      | some block => (queue.grow block).map fun queue =>
        { s with queue := queue.put request, semaphore := s.semaphore + 1 }
  else some { s with queue := queue.put request, semaphore := s.semaphore + 1 }

/-- IPStat_spawn_thread from its test to its return; `started` is what pthread_create says. -/
def Pool.spawnThread (cfg : PoolConfig) (s : Pool ρ γ) (now : TimeT) (started : Bool) :
    Pool ρ γ :=
  if (cfg.maxThreads : Int) ≤ s.totalThreads then s
  else if started then s.createHandle.linkHandle s.created now
  else s

/-- IPStat_pool_addrequest, with its answer. -/
def Pool.addrequest (cfg : PoolConfig) (s : Pool ρ γ) (now : TimeT) (started : Bool)
    (request : Option ρ) (block : Option (Nat → Option ρ)) : Option (Pool ρ γ × Int) :=
  let s := if s.queue.activeThreads = s.totalThreads then s.spawnThread cfg now started else s
  (s.requestEnqueue request block).map fun s => (s, 1)

/-- The requests in the ring, oldest first. -/
def ThreadPool.entries (pool : ThreadPool ρ) : List (Option ρ) :=
  (List.range pool.numEntries).map fun i =>
    pool.queue ((pool.queueHead + i) % pool.queueSize)

/-- The ring is full, and is at its ceiling or gets no larger block. -/
def ThreadPool.Refuses (pool : ThreadPool ρ) (block : Option (Nat → Option ρ)) : Prop :=
  pool.numEntries = pool.queueSize - 1 ∧ (65536 ≤ pool.queueSize ∨ block.isNone)

instance (pool : ThreadPool ρ) (block : Option (Nat → Option ρ)) :
    Decidable (pool.Refuses block) :=
  inferInstanceAs (Decidable (_ ∧ _))

/-- The ring and its indices are the same. -/
structure ThreadPool.SameRing (pool pool' : ThreadPool ρ) : Prop where
  queueHead : pool'.queueHead = pool.queueHead
  queueTail : pool'.queueTail = pool.queueTail
  queueSize : pool'.queueSize = pool.queueSize
  queue : pool'.queue = pool.queue

/-- The call returns; an answer of 1 means that the request is in the queue and the semaphore was
posted for it; a refused request gets another answer, and leaves the ring as it was. -/
def ReportsRejection (s : Pool ρ γ) (request : Option ρ) (block : Option (Nat → Option ρ))
    (after : Option (Pool ρ γ × Int)) : Prop :=
  ∃ s' answer, after = some (s', answer) ∧
    (answer = 1 → request ∈ s'.queue.entries ∧ s'.semaphore = s.semaphore + 1) ∧
    (s.queue.Refuses block → answer ≠ 1 ∧ s.queue.SameRing s'.queue)

variable {pool : ThreadPool ρ} {q : List (Option ρ)} {s : Pool ρ γ}

theorem Represents.entries (h : Represents pool q) : pool.entries = q := by
  apply List.ext_getElem
  · simp [ThreadPool.entries, h.numEntries]
  · intro i hi hq
    simp only [ThreadPool.entries, List.getElem_map, List.getElem_range]
    exact h.holds.cells i hq

theorem spawnThread_same (cfg : PoolConfig) (s : Pool ρ γ) (now : TimeT) (started : Bool) :
    (s.spawnThread cfg now started).queue = s.queue ∧
      (s.spawnThread cfg now started).semaphore = s.semaphore := by
  unfold Pool.spawnThread
  split_ifs
  · exact ⟨rfl, rfl⟩
  · unfold Pool.linkHandle
    cases ht : s.createHandle.tail with
    | none => exact ⟨rfl, rfl⟩
    | some t => exact ⟨rfl, rfl⟩
  · exact ⟨rfl, rfl⟩

/-- A ring that is full is not empty, and is not rewound. -/
theorem Represents.full_rewind (h : Represents pool q)
    (hfull : pool.numEntries = pool.queueSize - 1) : pool.rewind = pool := by
  rw [ThreadPool.rewind, if_neg]
  intro he
  have hq : q = [] := h.holds.empty_iff.mp he.1
  have hsize := h.size_ge
  rw [h.numEntries, hq, List.length_nil] at hfull
  omega

/-- A refused request is counted, and nothing else happens to the queue. -/
theorem Represents.refused (h : Represents pool q) (request : Option ρ)
    {block : Option (Nat → Option ρ)} (hr : pool.Refuses block) :
    requestEnqueue pool request block =
      some { pool with requestCount := pool.requestCount + 1 } := by
  obtain ⟨hfull, hceiling⟩ := hr
  unfold requestEnqueue
  dsimp only
  rw [h.numEntries_rewind, h.counted.full_rewind hfull, if_pos hfull]
  dsimp only
  split_ifs with hsize
  · rfl
  · obtain hmax | hnone := hceiling
    · exact absurd hmax hsize
    · rw [Option.isNone_iff_eq_none.mp hnone]

/-- A full ring that is neither at its ceiling nor without a larger block writes outside it. -/
theorem Represents.overrun (h : Represents pool q) (request : Option ρ)
    {block : Option (Nat → Option ρ)} (hfull : pool.numEntries = pool.queueSize - 1)
    (hr : ¬ pool.Refuses block) : requestEnqueue pool request block = none := by
  have hlt : pool.queueSize < 65536 := by
    by_contra hsize
    exact hr ⟨hfull, .inl (by omega)⟩
  cases block with
  | none => exact absurd ⟨hfull, .inr rfl⟩ hr
  | some block => exact h.enqueue_full request block hfull hlt

/-- The queue of the pool is the queue by itself, and the semaphore is posted for a request that
was not refused. -/
theorem requestEnqueue_eq (h : Represents s.queue q) (request : Option ρ)
    (block : Option (Nat → Option ρ)) :
    s.requestEnqueue request block = (requestEnqueue s.queue request block).map fun queue =>
      { s with
        queue := queue
        semaphore := if s.queue.Refuses block then s.semaphore else s.semaphore + 1 } := by
  unfold Pool.requestEnqueue requestEnqueue
  dsimp only
  rw [h.numEntries_rewind, rewind_size]
  dsimp only
  by_cases hfull : s.queue.numEntries = s.queue.queueSize - 1
  · rw [if_pos hfull, if_pos hfull]
    by_cases hsize : 65536 ≤ s.queue.queueSize
    · have hr : s.queue.Refuses block := ⟨hfull, .inl hsize⟩
      rw [if_pos hsize, if_pos hsize, Option.map_some, if_pos hr]
    · rw [if_neg hsize, if_neg hsize]
      cases block with
      | none =>
        have hr : s.queue.Refuses none := ⟨hfull, .inr rfl⟩
        simp only [Option.map_some, if_pos hr]
      | some block =>
        have hr : ¬ s.queue.Refuses (some block) := by
          intro hr
          obtain hmax | hnone := hr.2
          · exact hsize hmax
          · cases hnone
        simp only [Option.map_map, if_neg hr, Function.comp_def]
  · rw [if_neg hfull, if_neg hfull, Option.map_some, if_neg fun hr => hfull hr.1]

theorem Represents.next {s s' : QueueRun ρ} (h : Represents s.pool q) (op : QueueOp ρ)
    (hs : queueStep s op = some s') : ∃ q, Represents s'.pool q := by
  cases op with
  | dequeue =>
    cases hs
    exact ⟨q.tail, h.dequeue.1⟩
  | enqueue request block =>
    obtain ⟨pool, henqueue, rfl⟩ := Option.map_eq_some_iff.mp hs
    by_cases hfull : s.pool.numEntries = s.pool.queueSize - 1
    · by_cases hr : s.pool.Refuses block
      · rw [h.refused request hr] at henqueue
        cases henqueue
        exact ⟨q, h.counted⟩
      · rw [h.overrun request hfull hr] at henqueue
        cases henqueue
    · obtain ⟨pool', hput, hring⟩ := h.enqueue request block hfull
      rw [hput] at henqueue
      cases henqueue
      exact ⟨q ++ [request], hring⟩

/-- Every state that the queue comes to is the ring of some list. -/
theorem queue_represented {block : Nat → Option ρ} {ops : List (QueueOp ρ)} {s : QueueRun ρ}
    (hrun : Run.exec queueStep (queueStart block) ops = some s) : ∃ q, Represents s.pool q := by
  have hstep : ∀ (s : QueueRun ρ) (op : QueueOp ρ) s', (∃ q, Represents s.pool q) → True →
      queueStep s op = some s' → ∃ q, Represents s'.pool q := by
    intro s op s' h _ hs
    obtain ⟨q, hq⟩ := h
    exact hq.next op hs
  exact Run.exec_invariant hstep ⟨[], represents_init block⟩
    (Run.guarded_of_forall (fun _ _ _ => trivial) _) hrun

/-- The spawn comes first, and touches neither the queue nor the semaphore. -/
theorem addrequest_eq (cfg : PoolConfig) (s : Pool ρ γ) (now : TimeT) (started : Bool)
    (request : Option ρ) (block : Option (Nat → Option ρ)) :
    ∃ s₁ : Pool ρ γ, s₁.queue = s.queue ∧ s₁.semaphore = s.semaphore ∧
      s.addrequest cfg now started request block =
        (s₁.requestEnqueue request block).map fun s => (s, 1) := by
  unfold Pool.addrequest
  split_ifs
  · obtain ⟨hqueue, hsemaphore⟩ := spawnThread_same cfg s now started
    exact ⟨_, hqueue, hsemaphore, rfl⟩
  · exact ⟨s, rfl, rfl, rfl⟩

end

/-- The call reports what it did exactly when the ring is not full. A refused request leaves the
ring as it was, and is answered 1. -/
theorem pool_addrequest_reports_iff {ρ γ : Type} (cfg : PoolConfig) (s : Pool ρ γ) (now : TimeT)
    (started : Bool) (request : Option ρ) (block : Option (Nat → Option ρ))
    (h : ∃ q, Represents s.queue q) :
    (ReportsRejection s request block (s.addrequest cfg now started request block) ↔
      s.queue.numEntries ≠ s.queue.queueSize - 1) ∧
    (s.queue.Refuses block →
      ∃ s', s.addrequest cfg now started request block = some (s', 1) ∧
        s.queue.SameRing s'.queue ∧ s'.semaphore = s.semaphore) := by
  obtain ⟨q, hq⟩ := h
  obtain ⟨s₁, hqueue, hsemaphore, hcall⟩ := addrequest_eq cfg s now started request block
  have hq₁ : Represents s₁.queue q := hqueue ▸ hq
  rw [requestEnqueue_eq hq₁, hqueue, hsemaphore] at hcall
  have hrefused (hr : s.queue.Refuses block) :
      ∃ s', s.addrequest cfg now started request block = some (s', 1) ∧
        s.queue.SameRing s'.queue ∧ s'.semaphore = s.semaphore := by
    rw [hcall, hq.refused request hr, if_pos hr]
    exact ⟨_, rfl, ⟨rfl, rfl, rfl, rfl⟩, rfl⟩
  refine ⟨?_, hrefused⟩
  constructor
  · intro hreport hfull
    obtain ⟨s', answer, hafter, -, hother⟩ := hreport
    by_cases hr : s.queue.Refuses block
    · obtain ⟨s₂, hs₂, -⟩ := hrefused hr
      rw [hs₂] at hafter
      cases hafter
      exact (hother hr).1 rfl
    · rw [hcall, hq.overrun request hfull hr] at hafter
      cases hafter
  · intro hfull
    obtain ⟨pool, hput, hring⟩ := hq.enqueue request block hfull
    have hr : ¬ s.queue.Refuses block := fun hr => hfull hr.1
    rw [hput, if_neg hr] at hcall
    refine ⟨_, 1, hcall, fun _ => ⟨?_, rfl⟩, fun hyes => absurd hyes hr⟩
    show request ∈ pool.entries
    rw [hring.entries]
    exact List.mem_append_right q List.mem_cons_self

/-- A pool of one thread, and its queue after `n` requests that no one took. -/
def oneThread : PoolConfig := ⟨1, 1, 0, 0, 0, 0⟩

def pendingQueue (n : Nat) : ThreadPool Nat :=
  ((Run.exec queueStep (queueStart fun _ => none) (fill n)).map QueueRun.pool).getD
    (poolInit fun _ => none)

def pendingPool (n : Nat) : Pool Nat Unit :=
  { poolStart oneThread (fun _ => none) () 0 with queue := pendingQueue n }

theorem pool_addrequest_reports_room :
    ReportsRejection (pendingPool 0) (some 7) none
        ((pendingPool 0).addrequest oneThread 0 true (some 7) none) ∧
      ((pendingPool 0).queue.Refuses none →
        ∃ s', (pendingPool 0).addrequest oneThread 0 true (some 7) none = some (s', 1) ∧
          (pendingPool 0).queue.SameRing s'.queue ∧
          s'.semaphore = (pendingPool 0).semaphore) := by
  have hring : ∃ q, Represents (pendingPool 0).queue q := ⟨[], represents_init fun _ => none⟩
  have hreports := pool_addrequest_reports_iff oneThread (pendingPool 0) 0 true (some 7) none hring
  exact ⟨hreports.1.mpr (by decide), hreports.2⟩

/-- With 255 requests pending and no larger block to be had, the next is discarded and answered
1; with a larger block, the call writes outside of it. -/
theorem pool_addrequest_discards :
    ((pendingPool 255).addrequest oneThread 0 true (some 300) none).any (fun after =>
        after.2 = 1 ∧ some 300 ∉ after.1.queue.entries ∧
          after.1.semaphore = (pendingPool 255).semaphore) = true ∧
      ¬ ReportsRejection (pendingPool 255) (some 300) none
        ((pendingPool 255).addrequest oneThread 0 true (some 300) none) ∧
      (pendingPool 255).addrequest oneThread 0 true (some 300) (some fun _ => none) = none := by
  have hrefused : (pendingPool 255).queue.Refuses none := by decide +kernel
  have hanswered : ((pendingPool 255).addrequest oneThread 0 true (some 300) none).all (fun after =>
      after.2 = 1) := by decide +kernel
  refine ⟨by decide +kernel, ?_, ?_⟩
  · intro hreport
    obtain ⟨s', answer, hafter, -, hother⟩ := hreport
    rw [hafter, Option.all_some, decide_eq_true_eq] at hanswered
    exact (hother hrefused).1 hanswered
  · rw [← Option.isNone_iff_eq_none]
    decide +kernel

end IPStat
