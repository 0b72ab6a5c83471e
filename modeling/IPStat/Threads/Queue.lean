import IPStat.Lib.Ring
import IPStat.Lib.Run
import Mathlib.Algebra.Order.Ring.Nat
import Mathlib.Data.List.ReduceOption

namespace IPStat

section
variable {ρ : Type}

/-- The fields of THREAD_POOL that the queue functions use. A request pointer is `none`
when NULL; `queue` is the memory from the block's first element on. -/
structure ThreadPool (ρ : Type) where
  requestCount : UInt64
  activeThreads : Int
  queueHead : Nat
  queueTail : Nat
  queueSize : Nat
  queue : Nat → Option ρ

/-- sizeof(request_queue_t), one pointer. -/
def sizeofEntry : Nat := 8

def setNull (mem : Nat → Option ρ) (start n : Nat) : Nat → Option ρ :=
  fun i => if start ≤ i ∧ i < start + n then none else mem i

/-- memset of `n` elements to NULL, in a block of `size` elements; `none` is a write outside
the block. -/
def memsetNull (size : Nat) (mem : Nat → Option ρ) (start n : Nat) : Option (Nat → Option ρ) :=
  if start + n ≤ size then some (setNull mem start n) else none

def memcpy (dst src : Nat → Option ρ) (n : Nat) : Nat → Option ρ :=
  fun i => if i < n then src i else dst i

/-- IPStat_pool_init on a fresh block, which its memset fills. -/
def poolInit (block : Nat → Option ρ) : ThreadPool ρ :=
  { requestCount := 0
    activeThreads := 0
    queueHead := 0
    queueTail := 0
    queueSize := 256
    queue := setNull block 0 256 }

def requestDequeue (pool : ThreadPool ρ) : ThreadPool ρ × Option ρ :=
  if pool.queueHead = pool.queueTail then (pool, none)
  else
    ({ pool with
        queueHead := (pool.queueHead + 1) &&& (pool.queueSize - 1)
        activeThreads := pool.activeThreads + 1 },
      pool.queue pool.queueHead)

/-- Restart an empty ring at cell 0. -/
def ThreadPool.rewind (pool : ThreadPool ρ) : ThreadPool ρ :=
  if pool.queueHead = pool.queueTail ∧ pool.queueHead ≠ 0 then
    { pool with queueHead := 0, queueTail := 0 }
  else pool

def ThreadPool.numEntries (pool : ThreadPool ρ) : Nat :=
  (pool.queueTail + pool.queueSize - pool.queueHead) % pool.queueSize

/-- The doubling of the ring. The memset's start is scaled twice, by the pointer arithmetic
and by sizeof. -/
def ThreadPool.grow (pool : ThreadPool ρ) (block : Nat → Option ρ) : Option (ThreadPool ρ) := do
  let queue ← memsetNull (pool.queueSize * 2) (memcpy block pool.queue pool.queueSize)
    (sizeofEntry * pool.queueSize) pool.queueSize
  return { pool with queue := queue, queueSize := pool.queueSize * 2 }

def ThreadPool.put (pool : ThreadPool ρ) (request : Option ρ) : ThreadPool ρ :=
  { pool with
    queue := Function.update pool.queue pool.queueTail request
    queueTail := (pool.queueTail + 1) &&& (pool.queueSize - 1) }

/-- IPStat_request_enqueue; `block` is what malloc gives if the ring has to grow, and `none` a
write outside it. -/
def requestEnqueue (pool : ThreadPool ρ) (request : Option ρ)
    (block : Option (Nat → Option ρ)) : Option (ThreadPool ρ) :=
  let pool := { pool with requestCount := pool.requestCount + 1 }
  let pool := pool.rewind
  if pool.numEntries = pool.queueSize - 1 then
    if 65536 ≤ pool.queueSize then some pool
    else match block with
      | none => some pool
      | some block => (pool.grow block).map fun pool => pool.put request
  else some (pool.put request)

inductive QueueOp (ρ : Type) where
  | enqueue (request : Option ρ) (block : Option (Nat → Option ρ))
  | dequeue

/-- The pool, with what dequeue has handed back so far. -/
structure QueueRun (ρ : Type) where
  pool : ThreadPool ρ
  replies : List (Option ρ)

def queueStart (block : Nat → Option ρ) : QueueRun ρ := ⟨poolInit block, []⟩

/-- One critical section of the pool's mutex. -/
def queueStep (s : QueueRun ρ) : QueueOp ρ → Option (QueueRun ρ)
  | .enqueue request block =>
    (requestEnqueue s.pool request block).map fun pool => { s with pool := pool }
  | .dequeue =>
    let (pool, request) := requestDequeue s.pool
    some ⟨pool, s.replies ++ [request]⟩

/-- The queue as it is meant: a list, oldest request first. -/
structure Fifo (ρ : Type) where
  pending : List (Option ρ)
  replies : List (Option ρ)

def fifoStep (q : Fifo ρ) : QueueOp ρ → Fifo ρ
  | .enqueue request _ => { q with pending := q.pending ++ [request] }
  | .dequeue => ⟨q.pending.tail, q.replies ++ [q.pending.head?.getD none]⟩

def fifoRun (ops : List (QueueOp ρ)) : Fifo ρ := ops.foldl fifoStep ⟨[], []⟩

/-- An enqueue that needs room can have it. -/
def Roomy (s : QueueRun ρ) : QueueOp ρ → Prop
  | .enqueue _ block => s.pool.numEntries = s.pool.queueSize - 1 →
      s.pool.queueSize < 65536 ∧ block.isSome
  | .dequeue => True

/-- An enqueue does not find the ring full. -/
def NotFull (s : QueueRun ρ) : QueueOp ρ → Prop
  | .enqueue _ _ => s.pool.numEntries ≠ s.pool.queueSize - 1
  | .dequeue => True

/-- The pool's ring holds `q`, and its size is one that masks can count in. -/
structure Represents (pool : ThreadPool ρ) (q : List (Option ρ)) : Prop where
  size : ∃ k, pool.queueSize = 2 ^ (k + 8)
  holds : Ring.Holds pool.queueSize pool.queueHead pool.queueTail pool.queue q

/-- The run has come to what the FIFO has come to. -/
structure Follows (s : QueueRun ρ) (q : Fifo ρ) : Prop where
  ring : Represents s.pool q.pending
  replies : s.replies = q.replies

variable {pool : ThreadPool ρ} {q : List (Option ρ)}

theorem Represents.mask (h : Represents pool q) (n : Nat) :
    n &&& (pool.queueSize - 1) = n % pool.queueSize := by
  obtain ⟨k, hk⟩ := h.size
  rw [hk]
  exact Nat.and_two_pow_sub_one_eq_mod n (k + 8)

theorem Represents.size_ge (h : Represents pool q) : 256 ≤ pool.queueSize := by
  obtain ⟨k, hk⟩ := h.size
  rw [hk, show 256 = 2 ^ 8 from rfl]
  exact Nat.pow_le_pow_right (by decide) (by omega)

theorem represents_init (block : Nat → Option ρ) : Represents (poolInit block) [] where
  size := ⟨0, rfl⟩
  holds := Ring.holds_nil (show 0 < 256 by decide)

theorem Represents.numEntries (h : Represents pool q) : pool.numEntries = q.length :=
  h.holds.length_eq

theorem Represents.rewind (h : Represents pool q) : Represents pool.rewind q := by
  rw [ThreadPool.rewind]
  by_cases he : pool.queueHead = pool.queueTail ∧ pool.queueHead ≠ 0
  · rw [if_pos he]
    have hq : q = [] := h.holds.empty_iff.mp he.1
    subst hq
    have hpos := h.size_ge
    exact ⟨h.size, Ring.holds_nil (by simp only; omega)⟩
  · rw [if_neg he]
    exact h

theorem Represents.counted (h : Represents pool q) :
    Represents { pool with requestCount := pool.requestCount + 1 } q :=
  ⟨h.size, h.holds⟩

theorem Represents.put (h : Represents pool q) (request : Option ρ)
    (hr : q.length + 1 < pool.queueSize) : Represents (pool.put request) (q ++ [request]) := by
  refine ⟨h.size, ?_⟩
  have hp := h.holds.push (a := request) hr
  rw [← h.mask] at hp
  exact hp

theorem Represents.dequeue (h : Represents pool q) :
    Represents (requestDequeue pool).1 q.tail ∧
      (requestDequeue pool).2 = q.head?.getD none := by
  rw [requestDequeue]
  cases q with
  | nil =>
    rw [if_pos (h.holds.empty_iff.mpr rfl)]
    exact ⟨h, rfl⟩
  | cons request q =>
    have hne : ¬ pool.queueHead = pool.queueTail := by
      intro he
      exact absurd (h.holds.empty_iff.mp he) (by simp)
    rw [if_neg hne]
    obtain ⟨hread, hrest⟩ := h.holds.pop
    rw [← h.mask] at hrest
    exact ⟨⟨h.size, hrest⟩, hread⟩

@[simp] theorem rewind_size (pool : ThreadPool ρ) : pool.rewind.queueSize = pool.queueSize := by
  rw [ThreadPool.rewind]
  split_ifs <;> rfl

/-- The memset of a growth lies behind the new block, wherever the ring starts in the old one. -/
theorem grow_outside (block : Nat → Option ρ) (hpos : 0 < pool.queueSize) :
    pool.grow block = none := by
  have houtside : ¬ sizeofEntry * pool.queueSize + pool.queueSize ≤ pool.queueSize * 2 := by
    rw [sizeofEntry]
    omega
  rw [ThreadPool.grow, memsetNull, if_neg houtside]
  rfl

/-- The entries that IPStat_request_enqueue counts, behind its two first assignments. -/
theorem Represents.numEntries_rewind (h : Represents pool q) :
    (ThreadPool.rewind { pool with requestCount := pool.requestCount + 1 }).numEntries =
      pool.numEntries :=
  h.counted.rewind.numEntries.trans h.numEntries.symm

theorem Represents.enqueue (h : Represents pool q) (request : Option ρ)
    (block : Option (Nat → Option ρ)) (hfull : pool.numEntries ≠ pool.queueSize - 1) :
    ∃ pool', requestEnqueue pool request block = some pool' ∧
      Represents pool' (q ++ [request]) := by
  have hring := h.counted.rewind
  have hlength : q.length + 1 < pool.queueSize := by
    have hroom := h.holds.room
    rw [h.numEntries] at hfull
    omega
  refine ⟨_, ?_, hring.put request (by rwa [rewind_size])⟩
  unfold requestEnqueue
  dsimp only
  rw [h.numEntries_rewind, rewind_size, if_neg hfull]

/-- An enqueue that finds the ring full, and gets its larger block, writes outside of it. -/
theorem Represents.enqueue_full (h : Represents pool q) (request : Option ρ)
    (block : Nat → Option ρ) (hfull : pool.numEntries = pool.queueSize - 1)
    (hlt : pool.queueSize < 65536) : requestEnqueue pool request (some block) = none := by
  have hsize := h.counted.rewind.size_ge
  unfold requestEnqueue
  dsimp only
  rw [h.numEntries_rewind, rewind_size, if_pos hfull, if_neg (Nat.not_le.mpr hlt),
    grow_outside block (by omega), Option.map_none]

section
variable {s : QueueRun ρ} {fifo : Fifo ρ}

theorem Follows.step (h : Follows s fifo) (op : QueueOp ρ) (hfull : NotFull s op) :
    ∃ s', queueStep s op = some s' ∧ Follows s' (fifoStep fifo op) := by
  cases op with
  | enqueue request block =>
    obtain ⟨pool', henqueue, hring⟩ := h.ring.enqueue request block hfull
    exact ⟨{ s with pool := pool' }, by rw [queueStep, henqueue, Option.map_some], hring, h.replies⟩
  | dequeue =>
    obtain ⟨hring, hreply⟩ := h.ring.dequeue
    refine ⟨_, rfl, hring, ?_⟩
    show s.replies ++ [(requestDequeue s.pool).2] = _
    rw [h.replies, hreply]
    rfl

theorem Follows.stop (h : Follows s fifo) (op : QueueOp ρ) (hroom : Roomy s op)
    (hfull : ¬ NotFull s op) : queueStep s op = none := by
  cases op with
  | dequeue => exact absurd trivial hfull
  | enqueue request block =>
    have hentries : s.pool.numEntries = s.pool.queueSize - 1 := not_not.mp hfull
    obtain ⟨hlt, hblock⟩ := hroom hentries
    obtain ⟨b, rfl⟩ := Option.isSome_iff_exists.mp hblock
    rw [queueStep, h.ring.enqueue_full request b hentries hlt, Option.map_none]

end

def enqueued (ops : List (QueueOp ρ)) : List ρ :=
  ops.filterMap fun
    | .enqueue request _ => request
    | .dequeue => none

/-- What a FIFO has returned and what it still holds is what it had and was given, in order. -/
theorem fifo_conserves (fifo : Fifo ρ) (ops : List (QueueOp ρ)) :
    (ops.foldl fifoStep fifo).replies.reduceOption ++
        (ops.foldl fifoStep fifo).pending.reduceOption =
      fifo.replies.reduceOption ++ fifo.pending.reduceOption ++ enqueued ops := by
  induction ops generalizing fifo with
  | nil => simp [enqueued]
  | cons op ops ih =>
    have hstep : (fifoStep fifo op).replies.reduceOption ++
        (fifoStep fifo op).pending.reduceOption =
          fifo.replies.reduceOption ++ fifo.pending.reduceOption ++ enqueued [op] := by
      cases op with
      | enqueue request block =>
        cases request <;> simp [fifoStep, enqueued, List.reduceOption_append]
      | dequeue =>
        cases hp : fifo.pending with
        | nil => simp [fifoStep, enqueued, hp, List.reduceOption_append]
        | cons request rest =>
          cases request <;>
            simp [fifoStep, enqueued, hp, List.reduceOption_append,
              List.reduceOption_cons_of_some]
    have hsplit : enqueued (op :: ops) = enqueued [op] ++ enqueued ops :=
      List.filterMap_append (l := [op])
    rw [List.foldl_cons, ih, hstep, List.append_assoc, hsplit]

/-- While the ring can have the room it asks for, the pool's queue answers as a FIFO, and loses
and invents nothing, exactly as long as no enqueue finds the ring full. -/
theorem queue_refines_fifo (block : Nat → Option ρ) (ops : List (QueueOp ρ))
    (hroom : Run.Guarded queueStep Roomy (queueStart block) ops) :
    (∃ s, Run.exec queueStep (queueStart block) ops = some s ∧
        s.replies = (fifoRun ops).replies ∧
        s.replies.reduceOption ++ (fifoRun ops).pending.reduceOption = enqueued ops) ↔
      Run.Guarded queueStep NotFull (queueStart block) ops := by
  have hinit : Follows (queueStart block) ⟨[], []⟩ := ⟨represents_init block, rfl⟩
  have hstep : ∀ (s : QueueRun ρ) fifo op, Follows s fifo → NotFull s op →
      ∃ s', queueStep s op = some s' ∧ Follows s' (fifoStep fifo op) :=
    fun _ _ op h hfull => h.step op hfull
  have hstop : ∀ (s : QueueRun ρ) fifo op, Follows s fifo → Roomy s op → ¬ NotFull s op →
      queueStep s op = none := fun _ _ op h hr hfull => h.stop op hr hfull
  obtain ⟨hruns, hguarded⟩ := Run.exec_follows hstep hstop hinit hroom
  constructor
  · intro hrun
    obtain ⟨s, hs, -⟩ := hrun
    exact hguarded s hs
  · intro hg
    obtain ⟨s, hs, hfollows⟩ := hruns hg
    refine ⟨s, hs, hfollows.replies, ?_⟩
    rw [hfollows.replies]
    exact fifo_conserves ⟨[], []⟩ ops

instance (s : QueueRun ρ) : ∀ op, Decidable (Roomy s op)
  | .enqueue _ block => inferInstanceAs (Decidable (_ → _ ∧ block.isSome = true))
  | .dequeue => inferInstanceAs (Decidable True)

instance (s : QueueRun ρ) : ∀ op, Decidable (NotFull s op)
  | .enqueue _ _ => inferInstanceAs (Decidable (_ ≠ _))
  | .dequeue => inferInstanceAs (Decidable True)

end

/-- `n` requests, with a block at hand for each. -/
def fill (n : Nat) : List (QueueOp Nat) :=
  (List.range n).map fun i => .enqueue (some i) (some fun _ => none)

/-- Two of the requests that fill the ring are taken, it wraps as two more come, and is emptied. -/
def fillAndDrain : List (QueueOp Nat) :=
  fill 255 ++ [.dequeue, .dequeue] ++ fill 2 ++ List.replicate 255 .dequeue

theorem queue_refines_fifo_wrapped :
    Run.Guarded queueStep NotFull (queueStart fun _ => none) fillAndDrain ∧
      ∃ s, Run.exec queueStep (queueStart fun _ => none) fillAndDrain = some s ∧
        s.replies = (fifoRun fillAndDrain).replies ∧
        s.replies.reduceOption ++ (fifoRun fillAndDrain).pending.reduceOption =
          enqueued fillAndDrain := by
  have hfull : Run.Guarded queueStep NotFull (queueStart fun _ => none) fillAndDrain := by
    decide +kernel
  exact ⟨hfull, (queue_refines_fifo _ _ (by decide +kernel)).mpr hfull⟩

/-- The 256th request finds the ring full, and its doubling writes outside the new block. -/
theorem queue_grows_outside :
    Run.Guarded queueStep Roomy (queueStart fun _ => none) (fill 256) ∧
      Run.Guarded queueStep NotFull (queueStart fun _ => none) (fill 255) ∧
      ¬ ∃ s, Run.exec queueStep (queueStart fun _ => none) (fill 256) = some s ∧
        s.replies = (fifoRun (fill 256)).replies ∧
        s.replies.reduceOption ++ (fifoRun (fill 256)).pending.reduceOption =
          enqueued (fill 256) := by
  have hnone : Run.exec queueStep (queueStart fun _ => none) (fill 256) = none := by
    rw [← Option.isNone_iff_eq_none]
    decide +kernel
  refine ⟨by decide +kernel, by decide +kernel, ?_⟩
  intro hrun
  obtain ⟨s, hs, -⟩ := hrun
  rw [hnone] at hs
  cases hs

end IPStat
