import IPStat.Lib.DList
import IPStat.Threads.Queue
import IPStat.Types
import Mathlib.Data.Fintype.Basic

namespace IPStat

inductive HandleStatus where
  | running
  | cancelled
  | exited
  deriving DecidableEq, Repr

/-- The fields of THREAD_HANDLE that the pool reads, pointers being the numbers of the handles;
`asleep` is request == STATUS_SLEEP. -/
structure ThreadHandle where
  prev : Option Nat
  next : Option Nat
  status : HandleStatus
  asleep : Bool
  requestCount : UInt32
  freed : Bool
  deriving DecidableEq, Repr

/-- INIT_POOL. -/
structure PoolConfig where
  startThreads : Nat
  maxThreads : Nat
  minSpareThreads : Int
  maxSpareThreads : Int
  maxRequestsPerThread : UInt32
  cleanupDelay : TimeT

/-- Where a worker stands in IPStat_request_handler. -/
inductive WorkerPc where
  | waiting
  | woken
  | taken
  | serving
  | served
  | looping
  | leaving
  | dead
  deriving DecidableEq, Repr

/-- Between taking a request and finishing it. -/
def WorkerPc.working : WorkerPc → Bool
  | .taken | .serving | .served => true
  | _ => false

/-- How sem_timedwait returns. -/
inductive Wake where
  | post
  | timeout
  | error
  deriving DecidableEq, Repr

/-- What follows a spawn: IPStat_pool_addrequest enqueues, the loops of IPStat_pool_clean and
IPStat_pool_init have `k` spawns left. -/
inductive AfterSpawn (ρ : Type) where
  | put (request : Option ρ)
  | spawns (k : Nat)

/-- Where a call stands: in IPStat_pool_addrequest, in IPStat_spawn_thread (before its test,
its pthread_create, its list operation), or in IPStat_pool_clean (in its loops, at a handle). -/
inductive CallPc (ρ : Type) where
  | idle
  | add (request : Option ρ)
  | test (after : AfterSpawn ρ) (now : TimeT)
  | create (after : AfterSpawn ρ) (now : TimeT)
  | link (after : AfterSpawn ρ) (now : TimeT) (handle : Nat)
  | put (request : Option ρ)
  | walk (now : TimeT) (handle : Option Nat)
  | spare (now : TimeT)
  | counted (now : TimeT) (activeThreads : Int)
  | cancel (spare : Int) (handle : Option Nat)
  | retire (handle : Option Nat)

/-- THREAD_POOL with its handles and threads, and the calls under way. -/
structure Pool (ρ γ : Type) where
  queue : ThreadPool ρ
  head : Option Nat
  tail : Option Nat
  totalThreads : Int
  timeLastSpawned : TimeT
  lastCleaned : TimeT
  semaphore : Nat
  handles : Nat → ThreadHandle
  created : Nat
  worker : Nat → WorkerPc
  call : γ → CallPc ρ

section
variable {ρ γ : Type}

namespace Pool

def goTo [DecidableEq γ] (s : Pool ρ γ) (c : γ) (pc : CallPc ρ) : Pool ρ γ :=
  { s with call := Function.update s.call c pc }

def setHandle (s : Pool ρ γ) (p : Nat) (f : ThreadHandle → ThreadHandle) : Pool ρ γ :=
  { s with handles := Function.update s.handles p (f (s.handles p)) }

def setWorker (s : Pool ρ γ) (p : Nat) (pc : WorkerPc) : Pool ρ γ :=
  { s with worker := Function.update s.worker p pc }

/-- The malloc and the pthread_create of IPStat_spawn_thread: the worker runs from here on. -/
def createHandle (s : Pool ρ γ) : Pool ρ γ :=
  { s with
    handles := Function.update s.handles s.created ⟨none, none, .running, true, 0, false⟩
    worker := Function.update s.worker s.created .waiting
    created := s.created + 1 }

/-- The list operation of IPStat_spawn_thread. -/
def linkHandle (s : Pool ρ γ) (p : Nat) (now : TimeT) : Pool ρ γ :=
  let s := { s with totalThreads := s.totalThreads + 1, timeLastSpawned := now }
  match s.tail with
  | some t => { (s.setHandle t fun h => { h with next := some p }).setHandle p fun h =>
      { h with prev := some t } with tail := some p }
  | none => { s with head := some p, tail := some p }

/-- IPStat_drop_thread. -/
def dropHandle (s : Pool ρ γ) (p : Nat) : Pool ρ γ :=
  let prev := (s.handles p).prev
  let next := (s.handles p).next
  let s := { s with totalThreads := s.totalThreads - 1 }
  let s := match prev with
    | none => { s with head := next }
    | some q => s.setHandle q fun h => { h with next := next }
  let s := match next with
    | none => { s with tail := prev }
    | some q => s.setHandle q fun h => { h with prev := prev }
  s.setHandle p fun h => { h with freed := true }

/-- What the two cancelling loops do to a handle. -/
def cancelHandle (s : Pool ρ γ) (p : Nat) : Pool ρ γ :=
  { s.setHandle p fun h => { h with status := .cancelled } with semaphore := s.semaphore + 1 }

end Pool

/-- The ring is full and at its largest: IPStat_request_enqueue discards the request. -/
def ThreadPool.blocked (pool : ThreadPool ρ) : Prop :=
  pool.rewind.numEntries = pool.rewind.queueSize - 1 ∧ 65536 ≤ pool.rewind.queueSize

instance (pool : ThreadPool ρ) : Decidable pool.blocked :=
  inferInstanceAs (Decidable (_ ∧ _))

/-- IPStat_request_enqueue with its malloc succeeding. -/
def Pool.enqueue (s : Pool ρ γ) (request : Option ρ) (block : Nat → Option ρ) :
    Option (Pool ρ γ) :=
  (requestEnqueue s.queue request (some block)).map fun queue =>
    { s with
      queue := queue
      semaphore := if s.queue.blocked then s.semaphore else s.semaphore + 1 }

/-- IPStat_spawn_thread has refused, or has returned a handle. -/
def AfterSpawn.refused : AfterSpawn ρ → CallPc ρ
  | .put request => .put request
  | .spawns _ => .idle

def AfterSpawn.spawned (now : TimeT) : AfterSpawn ρ → CallPc ρ
  | .put request => .put request
  | .spawns 0 => .idle
  | .spawns (k + 1) => .test (.spawns k) now

/-- The last loop of IPStat_pool_clean, if it has a limit to enforce. -/
def retireFrom (cfg : PoolConfig) (head : Option Nat) : CallPc ρ :=
  if 0 < cfg.maxRequestsPerThread then .retire head else .idle

section
variable [DecidableEq γ]

/-- The next step of a call; `none` is a read of a freed handle, a write outside the ring's block,
or no call. -/
def callStep (cfg : PoolConfig) (s : Pool ρ γ) (c : γ) (now : TimeT) (block : Nat → Option ρ) :
    Option (Pool ρ γ) :=
  match s.call c with
  | .idle => none
  | .add request =>
    if s.queue.activeThreads = s.totalThreads then some (s.goTo c (.test (.put request) now))
    else some (s.goTo c (.put request))
  | .test after t =>
    if (cfg.maxThreads : Int) ≤ s.totalThreads then some (s.goTo c after.refused)
    else some (s.goTo c (.create after t))
  | .create after t => some (s.createHandle.goTo c (.link after t s.created))
  | .link after t p => some ((s.linkHandle p t).goTo c (after.spawned t))
  | .put request => (s.enqueue request block).map fun s => s.goTo c .idle
  | .walk t none => some (s.goTo c (.spare t))
  | .walk t (some p) =>
    if (s.handles p).freed then none
    else
      let next := (s.handles p).next
      if (s.handles p).status = .exited then some ((s.dropHandle p).goTo c (.walk t next))
      else some (s.goTo c (.walk t next))
  | .spare t => some (s.goTo c (.counted t s.queue.activeThreads))
  | .counted t active =>
    let spare := s.totalThreads - active
    if spare < cfg.minSpareThreads then
      some (s.goTo c (.test (.spawns ((cfg.minSpareThreads - spare).toNat - 1)) t))
    else if t = s.lastCleaned then some (s.goTo c .idle)
    else
      let s := { s with lastCleaned := t }
      if t - s.timeLastSpawned < cfg.cleanupDelay then some (s.goTo c .idle)
      else if cfg.maxSpareThreads < spare then
        some (s.goTo c (.cancel (spare - cfg.maxSpareThreads) s.head))
      else some (s.goTo c (retireFrom cfg s.head))
  | .cancel _ none => some (s.goTo c (retireFrom cfg s.head))
  | .cancel spare (some p) =>
    if spare ≤ 0 then some (s.goTo c (retireFrom cfg s.head))
    else if (s.handles p).freed then none
    else if (s.handles p).asleep ∧ (s.handles p).status = .running then
      some ((s.cancelHandle p).goTo c (retireFrom cfg s.head))
    else some (s.goTo c (.cancel spare (s.handles p).next))
  | .retire none => some (s.goTo c .idle)
  | .retire (some p) =>
    if (s.handles p).freed then none
    else if (s.handles p).asleep ∧ (s.handles p).status = .running ∧
        cfg.maxRequestsPerThread < (s.handles p).requestCount then
      some ((s.cancelHandle p).goTo c (.retire (s.handles p).next))
    else some (s.goTo c (.retire (s.handles p).next))

end

/-- The next step of a worker; a NULL request goes back to the loop's condition, as an empty
queue does. -/
def workerStep (s : Pool ρ γ) (p : Nat) (wake : Wake) : Option (Pool ρ γ) :=
  match s.worker p with
  | .waiting =>
    match wake with
    | .post =>
      if s.semaphore = 0 then none
      else some { s.setWorker p .woken with semaphore := s.semaphore - 1 }
    | .timeout =>
      if (s.handles p).status = .cancelled then some (s.setWorker p .leaving) else some s
    | .error => some (s.setWorker p .leaving)
  | .woken =>
    let (queue, request) := requestDequeue s.queue
    some { s.setWorker p (if request.isSome then .taken else .looping) with queue := queue }
  | .taken => some ((s.setHandle p fun h =>
      { h with requestCount := h.requestCount + 1, asleep := false }).setWorker p .serving)
  | .serving => some ((s.setHandle p fun h => { h with asleep := true }).setWorker p .served)
  | .served => some { s.setWorker p .looping with
      queue := { s.queue with activeThreads := s.queue.activeThreads - 1 } }
  | .looping =>
    some (s.setWorker p (if (s.handles p).status = .cancelled then .leaving else .waiting))
  | .leaving => some ((s.setHandle p fun h => { h with status := .exited }).setWorker p .dead)
  | .dead => none

inductive PoolEvent (ρ γ : Type) where
  | addrequest (c : γ) (request : Option ρ)
  | clean (c : γ) (now : TimeT)
  | call (c : γ) (now : TimeT) (block : Nat → Option ρ)
  | worker (p : Nat) (wake : Wake)

def poolStep [DecidableEq γ] (cfg : PoolConfig) (s : Pool ρ γ) : PoolEvent ρ γ → Option (Pool ρ γ)
  | .addrequest c request =>
    match s.call c with
    | .idle => some (s.goTo c (.add request))
    | _ => none
  | .clean c now =>
    match s.call c with
    | .idle => some (s.goTo c (.walk now s.head))
    | _ => none
  | .call c now block => callStep cfg s c now block
  | .worker p wake => workerStep s p wake

/-- IPStat_pool_init before its loop, in the call `c`. -/
def poolStart [DecidableEq γ] (cfg : PoolConfig) (block : Nat → Option ρ) (c : γ) (now : TimeT) :
    Pool ρ γ where
  queue := poolInit block
  head := none
  tail := none
  totalThreads := 0
  timeLastSpawned := 0
  lastCleaned := 0
  semaphore := 0
  handles := fun _ => ⟨none, none, .running, true, 0, false⟩
  created := 0
  worker := fun _ => .dead
  call := Function.update (fun _ => .idle) c (match cfg.startThreads with
    | 0 => .idle
    | k + 1 => .test (.spawns k) now)

/-- The links of the handles. -/
def Pool.prev (s : Pool ρ γ) (p : Nat) : Option Nat := (s.handles p).prev
def Pool.next (s : Pool ρ γ) (p : Nat) : Option Nat := (s.handles p).next

/-- The pool's bookkeeping, as it is meant. -/
structure PoolExact (cfg : PoolConfig) (s : Pool ρ γ) : Prop where
  list : ∃ hs, DList.Links s.prev s.next s.head s.tail hs ∧ s.totalThreads = hs.length
  bound : s.totalThreads ≤ cfg.maxThreads
  active : s.queue.activeThreads = (List.range s.created).countP fun p => (s.worker p).working
  nonneg : 0 ≤ s.queue.activeThreads
  le : s.queue.activeThreads ≤ s.totalThreads

/-- The handle that a spawn has still to link. -/
def CallPc.linking : CallPc ρ → Option Nat
  | .link _ _ p => some p
  | _ => none

/-- In the loops of IPStat_pool_clean, or between them. -/
def CallPc.cleaning : CallPc ρ → Bool
  | .walk .. | .spare _ | .counted .. | .cancel .. | .retire _ => true
  | _ => false

/-- One clean at a time; room for the thread when it is linked; a worker that takes a request is
linked by then, and takes no NULL. -/
def Bookable (cfg : PoolConfig) (s : Pool ρ γ) : PoolEvent ρ γ → Prop
  | .addrequest _ _ => True
  | .clean _ _ => ∀ c, (s.call c).cleaning = false
  | .call c _ _ => (s.call c).linking.isSome → s.totalThreads < cfg.maxThreads
  | .worker p _ => s.worker p = .woken → s.queue.queueHead ≠ s.queue.queueTail →
      (s.queue.queue s.queue.queueHead).isSome ∧ ∀ c, (s.call c).linking ≠ some p

instance [Fintype γ] (cfg : PoolConfig) (s : Pool ρ γ) : ∀ e, Decidable (Bookable cfg s e)
  | .addrequest _ _ => isTrue trivial
  | .clean _ _ => inferInstanceAs (Decidable (∀ c, (s.call c).cleaning = false))
  | .call c _ _ => inferInstanceAs
      (Decidable ((s.call c).linking.isSome → s.totalThreads < cfg.maxThreads))
  | .worker p _ => inferInstanceAs (Decidable (s.worker p = .woken →
      s.queue.queueHead ≠ s.queue.queueTail →
      (s.queue.queue s.queue.queueHead).isSome ∧ ∀ c, (s.call c).linking ≠ some p))

end

end IPStat
