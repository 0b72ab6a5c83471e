import IPStat.Threads.Pool

namespace IPStat

section
variable {ρ γ : Type}

/-- The handle that a loop of IPStat_pool_clean is about to read. -/
def CallPc.reads : CallPc ρ → Option Nat
  | .walk _ h => h
  | .cancel _ h => h
  | .retire h => h
  | _ => none

/-- What guarded steps keep; `hs` are the handles from head to tail. -/
structure PoolInv (cfg : PoolConfig) (s : Pool ρ γ) (hs : List Nat) : Prop where
  links : DList.Links s.prev s.next s.head s.tail hs
  total : s.totalThreads = hs.length
  bound : s.totalThreads ≤ cfg.maxThreads
  active : s.queue.activeThreads = hs.countP fun p => (s.worker p).working
  working : ∀ p, (s.worker p).working = true → p ∈ hs
  known : ∀ p ∈ hs, p < s.created ∧ (s.handles p).freed = false
  unborn : ∀ p, s.created ≤ p → s.worker p = .dead
  placed : ∀ p, s.worker p ≠ .dead → p ∈ hs ∨ ∃ c, (s.call c).linking = some p
  linking : ∀ c p, (s.call c).linking = some p →
    p < s.created ∧ p ∉ hs ∧ s.prev p = none ∧ s.next p = none ∧ (s.handles p).freed = false
  sole : ∀ c c' p, (s.call c).linking = some p → (s.call c').linking = some p → c = c'
  gone : ∀ p, (s.handles p).status = .exited → s.worker p = .dead
  cleaner : ∀ c c', (s.call c).cleaning = true → (s.call c').cleaning = true → c = c'
  reads : ∀ c p, (s.call c).reads = some p → p ∈ hs

section
variable {cfg : PoolConfig} {s : Pool ρ γ} {hs : List Nat}

/-- The bookkeeping is exact where the invariant holds. -/
theorem PoolInv.exact (h : PoolInv cfg s hs) : PoolExact cfg s := by
  have hcount : hs.countP (fun p => (s.worker p).working) =
      (List.range s.created).countP fun p => (s.worker p).working := by
    rw [List.countP_eq_length_filter, List.countP_eq_length_filter]
    apply List.Perm.length_eq
    rw [List.perm_ext_iff_of_nodup (h.links.nodup.filter _) (List.nodup_range.filter _)]
    intro p
    simp only [List.mem_filter, List.mem_range]
    constructor
    · rintro ⟨hm, hw⟩
      exact ⟨(h.known p hm).1, hw⟩
    · rintro ⟨-, hw⟩
      exact ⟨h.working p hw, hw⟩
  have hle := List.countP_le_length (p := fun p => (s.worker p).working) (l := hs)
  have hactive := h.active
  have htotal := h.total
  refine ⟨⟨hs, h.links, h.total⟩, h.bound, ?_, by omega, by omega⟩
  rw [hactive, hcount]

theorem goTo_call [DecidableEq γ] (s : Pool ρ γ) (c : γ) (pc : CallPc ρ) (c' : γ) :
    c' = c ∧ (s.goTo c pc).call c' = pc ∨ c' ≠ c ∧ (s.goTo c pc).call c' = s.call c' := by
  by_cases hc : c' = c
  · exact .inl ⟨hc, by simp [Pool.goTo, hc]⟩
  · exact .inr ⟨hc, by simp [Pool.goTo, hc]⟩

/-- What does not hold of a call that has gone on holds of another call, as before. -/
theorem goTo_other [DecidableEq γ] {c c' : γ} {pc : CallPc ρ} (f : CallPc ρ → Prop)
    (hf : ¬ f pc) (hq : f ((s.goTo c pc).call c')) : c' ≠ c ∧ f (s.call c') := by
  rcases goTo_call s c pc c' with ⟨-, heq⟩ | ⟨hcc, heq⟩
  · rw [heq] at hq
    exact absurd hq hf
  · exact ⟨hcc, heq ▸ hq⟩

/-- A call goes on; it starts no list operation, and reads handles of the list. -/
theorem PoolInv.goTo [DecidableEq γ] (h : PoolInv cfg s hs) {c : γ} {pc : CallPc ρ}
    (hfrom : (s.call c).linking = none) (hl : pc.linking = none)
    (hw : pc.cleaning = true → ∀ c', (s.call c').cleaning = true → c' = c)
    (hr : ∀ p, pc.reads = some p → p ∈ hs) : PoolInv cfg (s.goTo c pc) hs := by
  have hcall := goTo_call s c pc
  have hlinking (c' : γ) (p : Nat) (hp : ((s.goTo c pc).call c').linking = some p) :
      (s.call c').linking = some p :=
    (goTo_other (fun pc => pc.linking = some p) (by simp [hl]) hp).2
  refine ⟨h.links, h.total, h.bound, h.active, h.working, h.known, h.unborn, ?_, ?_, ?_, h.gone,
    ?_, ?_⟩
  · intro p hp
    rcases h.placed p hp with hm | ⟨c', hc'⟩
    · exact .inl hm
    · rcases hcall c' with ⟨rfl, -⟩ | ⟨-, heq⟩
      · rw [hfrom] at hc'
        cases hc'
      · exact .inr ⟨c', heq ▸ hc'⟩
  · intro c' p hp
    exact h.linking c' p (hlinking c' p hp)
  · intro c1 c2 p h1 h2
    exact h.sole c1 c2 p (hlinking c1 p h1) (hlinking c2 p h2)
  · intro c1 c2 h1 h2
    rcases hcall c1 with ⟨rfl, heq1⟩ | ⟨-, heq1⟩
    · rcases hcall c2 with ⟨rfl, -⟩ | ⟨-, heq2⟩
      · rfl
      · exact (hw (heq1 ▸ h1) c2 (heq2 ▸ h2)).symm
    · rcases hcall c2 with ⟨rfl, heq2⟩ | ⟨-, heq2⟩
      · exact hw (heq2 ▸ h2) c1 (heq1 ▸ h1)
      · exact h.cleaner c1 c2 (heq1 ▸ h1) (heq2 ▸ h2)
  · intro c' p hp
    rcases hcall c' with ⟨-, heq⟩ | ⟨-, heq⟩
    · rw [heq] at hp
      exact hr p hp
    · rw [heq] at hp
      exact h.reads c' p hp

/-- A handle's fields change that are no links; it exits only with its worker. -/
theorem PoolInv.setHandle (h : PoolInv cfg s hs) {p : Nat} {f : ThreadHandle → ThreadHandle}
    (hprev : ∀ t, (f t).prev = t.prev) (hnext : ∀ t, (f t).next = t.next)
    (hfreed : ∀ t, (f t).freed = t.freed)
    (hgone : (f (s.handles p)).status = .exited → s.worker p = .dead) :
    PoolInv cfg (s.setHandle p f) hs := by
  have hat (q : Nat) : ((s.setHandle p f).handles q).prev = (s.handles q).prev ∧
      ((s.setHandle p f).handles q).next = (s.handles q).next ∧
      ((s.setHandle p f).handles q).freed = (s.handles q).freed := by
    by_cases hq : q = p
    · subst hq
      simp [Pool.setHandle, hprev, hnext, hfreed]
    · simp [Pool.setHandle, hq]
  have hprevs : (s.setHandle p f).prev = s.prev := funext fun q => (hat q).1
  have hnexts : (s.setHandle p f).next = s.next := funext fun q => (hat q).2.1
  refine ⟨?_, h.total, h.bound, h.active, h.working, ?_, h.unborn, h.placed, ?_, h.sole, ?_,
    h.cleaner, h.reads⟩
  · rw [hprevs, hnexts]
    exact h.links
  · intro q hq
    rw [(hat q).2.2]
    exact h.known q hq
  · intro c q hq
    rw [hprevs, hnexts, (hat q).2.2]
    exact h.linking c q hq
  · intro q hq
    by_cases hqp : q = p
    · subst hqp
      simp only [Pool.setHandle, Function.update_self] at hq
      exact hgone hq
    · simp only [Pool.setHandle, Function.update_of_ne hqp] at hq
      exact h.gone q hq

/-- No dead worker comes to life. -/
theorem setWorker_dead {p q : Nat} {pc : WorkerPc} (hlive : s.worker p ≠ .dead)
    (hq : s.worker q = .dead) : (s.setWorker p pc).worker q = .dead := by
  have hne : q ≠ p := by
    rintro rfl
    exact hlive hq
  simpa [Pool.setWorker, hne] using hq

/-- A live worker goes on without taking or finishing a request. -/
theorem PoolInv.setWorker (h : PoolInv cfg s hs) {p : Nat} {pc : WorkerPc}
    (hw : pc.working = (s.worker p).working) (hlive : s.worker p ≠ .dead) :
    PoolInv cfg (s.setWorker p pc) hs := by
  have hsame (q : Nat) : ((s.setWorker p pc).worker q).working = (s.worker q).working := by
    by_cases hq : q = p
    · subst hq
      simpa [Pool.setWorker] using hw
    · simp [Pool.setWorker, hq]
  refine ⟨h.links, h.total, h.bound, ?_, ?_, h.known, ?_, ?_, h.linking, h.sole, ?_, h.cleaner,
    h.reads⟩
  · simp only [hsame]
    exact h.active
  · intro q hq
    rw [hsame] at hq
    exact h.working q hq
  · intro q hq
    exact setWorker_dead hlive (h.unborn q hq)
  · intro q hq
    exact h.placed q fun hd => hq (setWorker_dead hlive hd)
  · intro q hq
    exact setWorker_dead hlive (h.gone q hq)

theorem countP_update {f : Nat → WorkerPc} {p : Nat} {pc : WorkerPc} (hnodup : hs.Nodup)
    (hp : p ∈ hs) : hs.countP (fun q => (Function.update f p pc q).working) + (f p).working.toNat =
      hs.countP (fun q => (f q).working) + pc.working.toNat := by
  obtain ⟨l, r, rfl⟩ := List.append_of_mem hp
  have hmid := List.nodup_middle.mp hnodup
  have hnot : ∀ q ∈ l ++ r, q ≠ p := by
    rintro q hq rfl
    exact (List.nodup_cons.mp hmid).1 hq
  have hsame (k : List Nat) (hk : ∀ q ∈ k, q ≠ p) :
      k.countP (fun q => (Function.update f p pc q).working) = k.countP fun q => (f q).working := by
    apply List.countP_congr
    intro q hq
    rw [Function.update_of_ne (hk q hq)]
  have hl := hsame l fun q hq => hnot q (List.mem_append_left r hq)
  have hr := hsame r fun q hq => hnot q (List.mem_append_right l hq)
  simp only [List.countP_append, List.countP_cons, hl, hr, Function.update_self]
  cases pc.working <;> cases (f p).working <;> simp <;> omega

/-- A worker of the list takes or finishes a request, and is counted. -/
theorem PoolInv.count (h : PoolInv cfg s hs) {p : Nat} {pc : WorkerPc} {queue : ThreadPool ρ}
    (hp : p ∈ hs) (hlive : s.worker p ≠ .dead)
    (hq : queue.activeThreads + (s.worker p).working.toNat =
      s.queue.activeThreads + pc.working.toNat) :
    PoolInv cfg { s.setWorker p pc with queue := queue } hs := by
  have hcount : hs.countP (fun q => (Function.update s.worker p pc q).working) +
      (s.worker p).working.toNat = hs.countP (fun q => (s.worker q).working) + pc.working.toNat :=
    countP_update h.links.nodup hp
  have hactive := h.active
  refine ⟨h.links, h.total, h.bound, ?_, ?_, h.known, ?_, ?_, h.linking, h.sole, ?_, h.cleaner,
    h.reads⟩
  · change queue.activeThreads =
      ((hs.countP fun q => (Function.update s.worker p pc q).working : Nat) : Int)
    omega
  · intro q hw
    by_cases hqp : q = p
    · exact hqp ▸ hp
    · apply h.working q
      simpa [Pool.setWorker, hqp] using hw
  · intro q hq
    exact setWorker_dead hlive (h.unborn q hq)
  · intro q hq
    exact h.placed q fun hd => hq (setWorker_dead hlive hd)
  · intro q hq
    exact setWorker_dead hlive (h.gone q hq)

/-- What stands outside the list, the threads and the calls. -/
theorem PoolInv.frame (h : PoolInv cfg s hs) (lastCleaned : TimeT) (semaphore : Nat)
    {queue : ThreadPool ρ} (hq : queue.activeThreads = s.queue.activeThreads) :
    PoolInv cfg { s with
      lastCleaned := lastCleaned, semaphore := semaphore, queue := queue } hs :=
  ⟨h.links, h.total, h.bound, hq.trans h.active, h.working, h.known, h.unborn, h.placed,
    h.linking, h.sole, h.gone, h.cleaner, h.reads⟩

theorem PoolInv.cancelHandle (h : PoolInv cfg s hs) (p : Nat) :
    PoolInv cfg (s.cancelHandle p) hs := by
  have hset : PoolInv cfg (s.setHandle p fun t => { t with status := .cancelled }) hs :=
    h.setHandle (fun _ => rfl) (fun _ => rfl) (fun _ => rfl) (by simp)
  exact hset.frame s.lastCleaned (s.semaphore + 1) rfl

theorem CallPc.cleaning_of_reads {pc : CallPc ρ} {p : Nat} (h : pc.reads = some p) :
    pc.cleaning = true := by
  cases pc <;> first | rfl | cases h

theorem CallPc.linking_of_cleaning {pc : CallPc ρ} (h : pc.cleaning = true) :
    pc.linking = none := by
  cases pc <;> first | rfl | cases h

theorem requestEnqueue_active {pool pool' : ThreadPool ρ} {request : Option ρ}
    {block : Option (Nat → Option ρ)} (h : requestEnqueue pool request block = some pool') :
    pool'.activeThreads = pool.activeThreads := by
  have hrewind (pool : ThreadPool ρ) : pool.rewind.activeThreads = pool.activeThreads := by
    unfold ThreadPool.rewind
    split_ifs <;> rfl
  simp only [requestEnqueue] at h
  split_ifs at h
  · cases h
    exact hrewind _
  · cases block with
    | none =>
      cases h
      exact hrewind _
    | some block =>
      obtain ⟨grown, hgrow, rfl⟩ := Option.map_eq_some_iff.mp h
      obtain ⟨queue, -, hgrown⟩ := Option.bind_eq_some_iff.mp hgrow
      cases hgrown
      exact hrewind _
  · cases h
    exact hrewind _

section
variable [DecidableEq γ]

/-- The handle of a new thread stands outside the list until it is linked. -/
theorem PoolInv.create (h : PoolInv cfg s hs) {c : γ} {after : AfterSpawn ρ} {t : TimeT}
    (hc : (s.call c).linking = none) :
    PoolInv cfg (s.createHandle.goTo c (.link after t s.created)) hs := by
  have hold (q : Nat) (hq : q < s.created) : s.createHandle.handles q = s.handles q ∧
      s.createHandle.worker q = s.worker q := by
    have hne : q ≠ s.created := by omega
    simp [Pool.createHandle, hne]
  have hnew : s.createHandle.handles s.created = ⟨none, none, .running, true, 0, false⟩ ∧
      s.createHandle.worker s.created = .waiting := by
    simp [Pool.createHandle]
  have hlt (q : Nat) (hq : q ∈ hs) : q < s.created := (h.known q hq).1
  have hcall (c' : γ) (q : Nat)
      (hq : ((s.createHandle.goTo c (.link after t s.created)).call c').linking = some q) :
      c' = c ∧ q = s.created ∨ c' ≠ c ∧ (s.call c').linking = some q := by
    rcases goTo_call s.createHandle c (.link after t s.created) c' with ⟨hcc, heq⟩ | ⟨hcc, heq⟩
    · rw [heq] at hq
      cases hq
      exact .inl ⟨hcc, rfl⟩
    · rw [heq] at hq
      exact .inr ⟨hcc, hq⟩
  have hlive (q : Nat) (hq : (s.createHandle.worker q).working = true) :
      (s.worker q).working = true := by
    by_cases hqc : q = s.created
    · rw [hqc, hnew.2] at hq
      cases hq
    · simpa [Pool.createHandle, hqc] using hq
  refine ⟨?_, h.total, h.bound, ?_, ?_, ?_, ?_, ?_, ?_, ?_, ?_, ?_, ?_⟩
  · apply h.links.congr
    · intro q hq
      exact congrArg ThreadHandle.prev (hold q (hlt q hq)).1
    · intro q hq
      exact congrArg ThreadHandle.next (hold q (hlt q hq)).1
  · change s.queue.activeThreads = _
    rw [h.active]
    congr 1
    apply List.countP_congr
    intro q hq
    change _ ↔ (s.createHandle.worker q).working = true
    rw [(hold q (hlt q hq)).2]
  · intro q hq
    exact h.working q (hlive q hq)
  · intro q hq
    have hknown := h.known q hq
    refine ⟨Nat.lt_succ_of_lt hknown.1, ?_⟩
    change (s.createHandle.handles q).freed = false
    rw [(hold q hknown.1).1]
    exact hknown.2
  · intro q hq
    have hgt : s.created < q := hq
    have hne : q ≠ s.created := by omega
    have hdead := h.unborn q (by omega)
    simpa [Pool.goTo, Pool.createHandle, hne] using hdead
  · intro q hq
    by_cases hqc : q = s.created
    · exact .inr ⟨c, by simp [Pool.goTo, CallPc.linking, hqc]⟩
    · rcases h.placed q (by simpa [Pool.goTo, Pool.createHandle, hqc] using hq) with hm | ⟨c', hc'⟩
      · exact .inl hm
      · have hcc : c' ≠ c := by
          rintro rfl
          rw [hc] at hc'
          cases hc'
        exact .inr ⟨c', by simpa [Pool.goTo, Pool.createHandle, hcc] using hc'⟩
  · intro c' q hq
    rcases hcall c' q hq with ⟨rfl, rfl⟩ | ⟨-, hq⟩
    · refine ⟨Nat.lt_succ_self _, fun hm => Nat.lt_irrefl _ (hlt _ hm), ?_, ?_, ?_⟩
      · exact congrArg ThreadHandle.prev hnew.1
      · exact congrArg ThreadHandle.next hnew.1
      · exact congrArg ThreadHandle.freed hnew.1
    · obtain ⟨hq1, hq2, hq3, hq4, hq5⟩ := h.linking c' q hq
      have hsame := (hold q hq1).1
      exact ⟨Nat.lt_succ_of_lt hq1, hq2, (congrArg ThreadHandle.prev hsame).trans hq3,
        (congrArg ThreadHandle.next hsame).trans hq4,
        (congrArg ThreadHandle.freed hsame).trans hq5⟩
  · intro c1 c2 q h1 h2
    have hfresh (c' : γ) : (s.call c').linking ≠ some s.created :=
      fun heq => Nat.lt_irrefl _ (h.linking c' _ heq).1
    rcases hcall c1 q h1 with ⟨rfl, rfl⟩ | ⟨-, hold1⟩
    · rcases hcall c2 _ h2 with ⟨rfl, -⟩ | ⟨-, hold2⟩
      · rfl
      · exact absurd hold2 (hfresh c2)
    · rcases hcall c2 q h2 with ⟨rfl, rfl⟩ | ⟨-, hold2⟩
      · exact absurd hold1 (hfresh c1)
      · exact h.sole c1 c2 q hold1 hold2
  · intro q hq
    by_cases hqc : q = s.created
    · rw [hqc] at hq
      change (s.createHandle.handles s.created).status = _ at hq
      rw [hnew.1] at hq
      cases hq
    · have hgone := h.gone q (by simpa [Pool.goTo, Pool.createHandle, hqc] using hq)
      simpa [Pool.goTo, Pool.createHandle, hqc] using hgone
  · intro c1 c2 h1 h2
    have hold1 := (goTo_other (fun pc => pc.cleaning = true) (by simp [CallPc.cleaning]) h1).2
    have hold2 := (goTo_other (fun pc => pc.cleaning = true) (by simp [CallPc.cleaning]) h2).2
    exact h.cleaner c1 c2 hold1 hold2
  · intro c' q hq
    have hold := (goTo_other (fun pc => pc.reads = some q) (by simp [CallPc.reads]) hq).2
    exact h.reads c' q hold

end

/-- The two kinds of links after the list operations, and what these leave alone. -/
theorem linkHandle_links (h : DList.Links s.prev s.next s.head s.tail hs) {p : Nat}
    (now : TimeT) (hp : p ∉ hs) (hprev : s.prev p = none) (hnext : s.next p = none) :
    DList.Links (s.linkHandle p now).prev (s.linkHandle p now).next (s.linkHandle p now).head
      (s.linkHandle p now).tail (hs ++ [p]) := by
  cases ht : s.tail with
  | none =>
    have hhead : s.head = none := by
      have hlast := h.tail
      rw [ht] at hlast
      rw [h.head, List.getLast?_eq_none_iff.mp hlast.symm]
      rfl
    have happend := h.append hp (hprev.trans ht.symm) hnext
    rw [ht, hhead] at happend
    have hlink : s.linkHandle p now = { s with
        totalThreads := s.totalThreads + 1
        timeLastSpawned := now
        head := some p
        tail := some p } := by
      simp [Pool.linkHandle, ht]
    rw [hlink]
    exact happend
  | some t =>
    have htp : t ≠ p := by
      rintro rfl
      exact hp (h.tail_mem ht)
    have hhead : s.head.or (some p) = s.head := by
      have hmem := h.tail_mem ht
      rw [h.head]
      cases hs with
      | nil => cases hmem
      | cons => rfl
    have hcongr : DList.Links (Function.update s.prev p (some t)) s.next s.head s.tail hs :=
      h.congr (fun x hx => Function.update_of_ne (by rintro rfl; exact hp hx) _ _) fun _ _ => rfl
    have happend := hcongr.append hp (by rw [Function.update_self, ht]) hnext
    rw [ht, hhead] at happend
    have hprevs : (s.linkHandle p now).prev = Function.update s.prev p (some t) := by
      funext q
      simp only [Pool.linkHandle, ht, Pool.setHandle, Pool.prev, Function.update_apply]
      split_ifs <;> simp_all
    have hnexts : (s.linkHandle p now).next = DList.relink s.next (some t) (some p) := by
      funext q
      simp only [Pool.linkHandle, ht, Pool.setHandle, Pool.next, DList.relink,
        Function.update_apply]
      split_ifs <;> simp_all
    have hheads : (s.linkHandle p now).head = s.head := by
      simp only [Pool.linkHandle, ht]
      rfl
    have htails : (s.linkHandle p now).tail = some p := by
      simp only [Pool.linkHandle, ht]
    rw [hprevs, hnexts, hheads, htails]
    exact happend

theorem linkHandle_same (s : Pool ρ γ) (p : Nat) (now : TimeT) :
    (s.linkHandle p now).totalThreads = s.totalThreads + 1 ∧
      (s.linkHandle p now).queue = s.queue ∧ (s.linkHandle p now).worker = s.worker ∧
      (s.linkHandle p now).call = s.call ∧ (s.linkHandle p now).created = s.created ∧
      ∀ q, ((s.linkHandle p now).handles q).status = (s.handles q).status ∧
        ((s.linkHandle p now).handles q).freed = (s.handles q).freed ∧
        (q ≠ p → (s.linkHandle p now).prev q = s.prev q) ∧
        (s.tail ≠ some q → (s.linkHandle p now).next q = s.next q) := by
  unfold Pool.linkHandle
  cases ht : s.tail with
  | none => simp [Pool.prev, Pool.next]
  | some t =>
    refine ⟨rfl, rfl, rfl, rfl, rfl, ?_⟩
    intro q
    simp only [Pool.setHandle, Pool.prev, Pool.next, Function.update_apply, ne_eq,
      Option.some.injEq]
    refine ⟨?_, ?_, ?_, ?_⟩
    · split_ifs <;> simp_all
    · split_ifs <;> simp_all
    · intro hq
      split_ifs <;> simp_all
    · intro hq
      split_ifs <;> simp_all

theorem dropHandle_links (h : DList.Links s.prev s.next s.head s.tail hs) {p : Nat}
    (hp : p ∈ hs) : DList.Links (s.dropHandle p).prev (s.dropHandle p).next (s.dropHandle p).head
      (s.dropHandle p).tail (hs.erase p) := by
  have hunlink := h.unlink hp
  have hprevs : (s.dropHandle p).prev = DList.relink s.prev (s.next p) (s.prev p) := by
    funext q
    unfold Pool.dropHandle Pool.prev Pool.next
    cases hprev : (s.handles p).prev <;> cases hnext : (s.handles p).next <;>
      simp only [Pool.setHandle, DList.relink, Function.update_apply] <;> split_ifs <;> simp_all
  have hnexts : (s.dropHandle p).next = DList.relink s.next (s.prev p) (s.next p) := by
    funext q
    unfold Pool.dropHandle Pool.prev Pool.next
    cases hprev : (s.handles p).prev <;> cases hnext : (s.handles p).next <;>
      simp only [Pool.setHandle, DList.relink, Function.update_apply] <;> split_ifs <;> simp_all
  have hhead : (s.dropHandle p).head = if s.prev p = none then s.next p else s.head := by
    unfold Pool.dropHandle Pool.prev Pool.next
    cases (s.handles p).prev <;> cases (s.handles p).next <;> rfl
  have htail : (s.dropHandle p).tail = if s.next p = none then s.prev p else s.tail := by
    unfold Pool.dropHandle Pool.prev Pool.next
    cases (s.handles p).prev <;> cases (s.handles p).next <;> rfl
  rw [hprevs, hnexts, hhead, htail]
  exact hunlink

theorem dropHandle_same (s : Pool ρ γ) (p : Nat) :
    (s.dropHandle p).totalThreads = s.totalThreads - 1 ∧
      (s.dropHandle p).queue = s.queue ∧ (s.dropHandle p).worker = s.worker ∧
      (s.dropHandle p).call = s.call ∧ (s.dropHandle p).created = s.created ∧
      ∀ q, ((s.dropHandle p).handles q).status = (s.handles q).status ∧
        (q ≠ p → ((s.dropHandle p).handles q).freed = (s.handles q).freed) ∧
        (s.next p ≠ some q → (s.dropHandle p).prev q = s.prev q) ∧
        (s.prev p ≠ some q → (s.dropHandle p).next q = s.next q) := by
  unfold Pool.dropHandle Pool.prev Pool.next
  cases hprev : (s.handles p).prev <;> cases hnext : (s.handles p).next <;>
    refine ⟨rfl, rfl, rfl, rfl, rfl, fun q => ⟨?_, ?_, ?_, ?_⟩⟩ <;>
    simp only [Pool.setHandle, Function.update_apply] <;> split_ifs <;> simp_all

section
variable [DecidableEq γ]

/-- The list operation of a spawn, with room for the thread. -/
theorem PoolInv.link (h : PoolInv cfg s hs) {c : γ} {after : AfterSpawn ρ} {t now : TimeT}
    {p : Nat} (hc : s.call c = .link after t p) (hroom : s.totalThreads < cfg.maxThreads) :
    PoolInv cfg ((s.linkHandle p now).goTo c (after.spawned t)) (hs ++ [p]) := by
  have hpc : (s.call c).linking = some p := by rw [hc]; rfl
  obtain ⟨hcreated, hp, hprev, hnext, hfreed⟩ := h.linking c p hpc
  obtain ⟨htotal, hqueue, hworker, hcall, hcreated', hsame⟩ := linkHandle_same s p now
  have hspawned : (after.spawned t).linking = none ∧ (after.spawned t).cleaning = false ∧
      (after.spawned t).reads = none := by
    cases after with
    | put request => exact ⟨rfl, rfl, rfl⟩
    | spawns k => cases k <;> exact ⟨rfl, rfl, rfl⟩
  have hother (c' : γ) (f : CallPc ρ → Prop) (hf : ¬ f (after.spawned t))
      (hq : f (((s.linkHandle p now).goTo c (after.spawned t)).call c')) :
      c' ≠ c ∧ f (s.call c') := by
    rw [← hcall]
    exact goTo_other f hf hq
  have hcount : (s.worker p).working = false := by
    apply Bool.eq_false_iff.mpr
    intro hw
    exact hp (h.working p hw)
  refine ⟨linkHandle_links h.links now hp hprev hnext, ?_, ?_, ?_, ?_, ?_, ?_, ?_, ?_, ?_, ?_,
    ?_, ?_⟩
  · change (s.linkHandle p now).totalThreads = _
    rw [htotal, h.total]
    simp
  · change (s.linkHandle p now).totalThreads ≤ _
    rw [htotal]
    omega
  · change (s.linkHandle p now).queue.activeThreads =
      ((hs ++ [p]).countP fun q => ((s.linkHandle p now).worker q).working : Nat)
    rw [hqueue, hworker, h.active]
    simp [hcount]
  · intro q hq
    change ((s.linkHandle p now).worker q).working = true at hq
    rw [hworker] at hq
    exact List.mem_append_left _ (h.working q hq)
  · intro q hq
    change q < (s.linkHandle p now).created ∧ ((s.linkHandle p now).handles q).freed = false
    rw [hcreated', (hsame q).2.1]
    rcases List.mem_append.mp hq with hold | hnew
    · exact h.known q hold
    · rw [List.mem_singleton.mp hnew]
      exact ⟨hcreated, hfreed⟩
  · intro q hq
    change (s.linkHandle p now).created ≤ q at hq
    change (s.linkHandle p now).worker q = .dead
    rw [hworker]
    exact h.unborn q (hcreated' ▸ hq)
  · intro q hq
    change (s.linkHandle p now).worker q ≠ .dead at hq
    rw [hworker] at hq
    rcases h.placed q hq with hm | ⟨c', hc'⟩
    · exact .inl (List.mem_append_left _ hm)
    · by_cases hcc : c' = c
      · rw [hcc, hpc] at hc'
        cases hc'
        exact .inl (by simp)
      · exact .inr ⟨c', by simpa [Pool.goTo, hcall, hcc] using hc'⟩
  · intro c' q hq
    obtain ⟨hcc, hold⟩ := hother c' (fun pc => pc.linking = some q) (by simp [hspawned.1]) hq
    obtain ⟨h1, h2, h3, h4, h5⟩ := h.linking c' q hold
    have hqp : q ≠ p := by
      rintro rfl
      exact hcc (h.sole c' c q hold hpc)
    have hqt : s.tail ≠ some q := fun heq => h2 (h.links.tail_mem heq)
    refine ⟨?_, by simp [h2, hqp], ((hsame q).2.2.1 hqp).trans h3, ((hsame q).2.2.2 hqt).trans h4,
      (hsame q).2.1.trans h5⟩
    change q < (s.linkHandle p now).created
    rwa [hcreated']
  · intro c1 c2 q h1 h2
    have hold1 := (hother c1 (fun pc => pc.linking = some q) (by simp [hspawned.1]) h1).2
    have hold2 := (hother c2 (fun pc => pc.linking = some q) (by simp [hspawned.1]) h2).2
    exact h.sole c1 c2 q hold1 hold2
  · intro q hq
    change ((s.linkHandle p now).handles q).status = .exited at hq
    change (s.linkHandle p now).worker q = .dead
    rw [hworker]
    exact h.gone q ((hsame q).1 ▸ hq)
  · intro c1 c2 h1 h2
    have hold1 := (hother c1 (fun pc => pc.cleaning = true) (by simp [hspawned.2.1]) h1).2
    have hold2 := (hother c2 (fun pc => pc.cleaning = true) (by simp [hspawned.2.1]) h2).2
    exact h.cleaner c1 c2 hold1 hold2
  · intro c' q hq
    have hold := (hother c' (fun pc => pc.reads = some q) (by simp [hspawned.2.2]) hq).2
    exact List.mem_append_left _ (h.reads c' q hold)

/-- The only clean drops a handle whose worker has exited, and goes on to the next. -/
theorem PoolInv.drop (h : PoolInv cfg s hs) {c : γ} {t : TimeT} {p : Nat}
    (hc : s.call c = .walk t (some p)) (hexited : (s.handles p).status = .exited) :
    PoolInv cfg ((s.dropHandle p).goTo c (.walk t (s.handles p).next)) (hs.erase p) := by
  have hp : p ∈ hs := h.reads c p (by rw [hc]; rfl)
  have hclean : (s.call c).cleaning = true := by rw [hc]; rfl
  have hdead := h.gone p hexited
  obtain ⟨htotal, hqueue, hworker, hcall, hcreated, hsame⟩ := dropHandle_same s p
  have hlen := List.length_erase_of_mem hp
  have hpos := List.length_pos_of_mem hp
  have hother (c' : γ) (hcc : c' ≠ c) :
      ((s.dropHandle p).goTo c (.walk t (s.handles p).next)).call c' = s.call c' := by
    simp [Pool.goTo, hcall, hcc]
  have hself : ((s.dropHandle p).goTo c (.walk t (s.handles p).next)).call c =
      .walk t (s.handles p).next := by
    simp [Pool.goTo]
  have hlinking (c' : γ) (q : Nat) (hq : (((s.dropHandle p).goTo c
      (.walk t (s.handles p).next)).call c').linking = some q) :
      (s.call c').linking = some q := by
    rw [← hcall]
    exact (goTo_other (fun pc => pc.linking = some q) (by simp [CallPc.linking]) hq).2
  refine ⟨dropHandle_links h.links hp, ?_, ?_, ?_, ?_, ?_, ?_, ?_, ?_, ?_, ?_, ?_, ?_⟩
  · change (s.dropHandle p).totalThreads = _
    rw [htotal, h.total, hlen]
    omega
  · change (s.dropHandle p).totalThreads ≤ _
    have hbound := h.bound
    rw [htotal]
    omega
  · change (s.dropHandle p).queue.activeThreads =
      ((hs.erase p).countP fun q => ((s.dropHandle p).worker q).working : Nat)
    rw [hqueue, hworker, h.active, (List.perm_cons_erase hp).countP_eq, List.countP_cons]
    simp [hdead, WorkerPc.working]
  · intro q hq
    change ((s.dropHandle p).worker q).working = true at hq
    rw [hworker] at hq
    have hqp : q ≠ p := by
      rintro rfl
      rw [hdead] at hq
      cases hq
    exact (List.mem_erase_of_ne hqp).mpr (h.working q hq)
  · intro q hq
    have hqp : q ≠ p := by
      rintro rfl
      exact h.links.nodup.not_mem_erase hq
    obtain ⟨h1, h2⟩ := h.known q (List.mem_of_mem_erase hq)
    refine ⟨?_, ((hsame q).2.1 hqp).trans h2⟩
    change q < (s.dropHandle p).created
    rwa [hcreated]
  · intro q hq
    change (s.dropHandle p).created ≤ q at hq
    change (s.dropHandle p).worker q = .dead
    rw [hworker]
    exact h.unborn q (hcreated ▸ hq)
  · intro q hq
    change (s.dropHandle p).worker q ≠ .dead at hq
    rw [hworker] at hq
    have hqp : q ≠ p := by
      rintro rfl
      exact hq hdead
    rcases h.placed q hq with hm | ⟨c', hc'⟩
    · exact .inl ((List.mem_erase_of_ne hqp).mpr hm)
    · have hcc : c' ≠ c := by
        rintro rfl
        rw [hc] at hc'
        cases hc'
      exact .inr ⟨c', by rw [hother c' hcc]; exact hc'⟩
  · intro c' q hq
    obtain ⟨h1, h2, h3, h4, h5⟩ := h.linking c' q (hlinking c' q hq)
    have hqp : q ≠ p := by
      rintro rfl
      exact h2 hp
    have hqn : s.next p ≠ some q := fun heq => h2 (h.links.next_mem hp heq).1
    have hqv : s.prev p ≠ some q := fun heq => h2 (h.links.prev_mem hp heq)
    refine ⟨?_, fun hm => h2 (List.mem_of_mem_erase hm), ((hsame q).2.2.1 hqn).trans h3,
      ((hsame q).2.2.2 hqv).trans h4, ((hsame q).2.1 hqp).trans h5⟩
    change q < (s.dropHandle p).created
    rwa [hcreated]
  · intro c1 c2 q h1 h2
    exact h.sole c1 c2 q (hlinking c1 q h1) (hlinking c2 q h2)
  · intro q hq
    change ((s.dropHandle p).handles q).status = .exited at hq
    change (s.dropHandle p).worker q = .dead
    rw [hworker]
    exact h.gone q ((hsame q).1 ▸ hq)
  · intro c1 c2 h1 h2
    have hold (c' : γ) (hq : (((s.dropHandle p).goTo c
        (.walk t (s.handles p).next)).call c').cleaning = true) :
        (s.call c').cleaning = true := by
      by_cases hcc : c' = c
      · rw [hcc]
        exact hclean
      · rwa [hother c' hcc] at hq
    exact h.cleaner c1 c2 (hold c1 h1) (hold c2 h2)
  · intro c' q hq
    by_cases hcc : c' = c
    · rw [hcc, hself] at hq
      obtain ⟨hmem, hne⟩ := h.links.next_mem hp hq
      exact (List.mem_erase_of_ne hne).mpr hmem
    · rw [hother c' hcc] at hq
      exact absurd (h.cleaner c' c (CallPc.cleaning_of_reads hq) hclean) hcc

/-- A call goes on to a place where it neither links nor reads a handle. -/
theorem PoolInv.goOn (h : PoolInv cfg s hs) {c : γ} {pc : CallPc ρ}
    (hfrom : (s.call c).linking = none) (hl : pc.linking = none)
    (hw : pc.cleaning = true → (s.call c).cleaning = true) (hr : pc.reads = none) :
    PoolInv cfg (s.goTo c pc) hs := by
  refine h.goTo hfrom hl ?_ (by simp [hr])
  intro hpc c' hc'
  exact h.cleaner c' c hc' (hw hpc)

/-- A clean goes on to the handle `q`, which is in the list. -/
theorem PoolInv.goAlong (h : PoolInv cfg s hs) {c : γ} {pc : CallPc ρ} (hl : pc.linking = none)
    (hc : (s.call c).cleaning = true) (hr : ∀ p, pc.reads = some p → p ∈ hs) :
    PoolInv cfg (s.goTo c pc) hs :=
  h.goTo (CallPc.linking_of_cleaning hc) hl (fun _ c' hc' => h.cleaner c' c hc' hc) hr

theorem PoolInv.retireFrom (h : PoolInv cfg s hs) {c : γ} (hc : (s.call c).cleaning = true) :
    PoolInv cfg (s.goTo c (retireFrom cfg s.head)) hs := by
  unfold IPStat.retireFrom
  split_ifs
  · exact h.goAlong rfl hc fun p hp => h.links.head_mem hp
  · exact h.goOn (CallPc.linking_of_cleaning hc) rfl (by simp [CallPc.cleaning]) rfl

theorem PoolInv.call (h : PoolInv cfg s hs) {c : γ} {now : TimeT} {block : Nat → Option ρ}
    {s' : Pool ρ γ} (hroom : (s.call c).linking.isSome → s.totalThreads < cfg.maxThreads)
    (hs' : callStep cfg s c now block = some s') : ∃ hs', PoolInv cfg s' hs' := by
  have hnext (p : Nat) (hp : p ∈ hs) (q : Nat) (hq : (s.handles p).next = some q) : q ∈ hs :=
    (h.links.next_mem hp hq).1
  rw [callStep] at hs'
  cases hc : s.call c with
  | idle => simp [hc] at hs'
  | add request =>
    have hfrom : (s.call c).linking = none := by rw [hc]; rfl
    simp only [hc] at hs'
    split_ifs at hs' <;> cases hs'
    · exact ⟨hs, h.goOn hfrom rfl (by simp [CallPc.cleaning]) rfl⟩
    · exact ⟨hs, h.goOn hfrom rfl (by simp [CallPc.cleaning]) rfl⟩
  | test after t =>
    have hfrom : (s.call c).linking = none := by rw [hc]; rfl
    simp only [hc] at hs'
    split_ifs at hs' <;> cases hs'
    · cases after
      · exact ⟨hs, h.goOn hfrom rfl (by simp [AfterSpawn.refused, CallPc.cleaning]) rfl⟩
      · exact ⟨hs, h.goOn hfrom rfl (by simp [AfterSpawn.refused, CallPc.cleaning]) rfl⟩
    · exact ⟨hs, h.goOn hfrom rfl (by simp [CallPc.cleaning]) rfl⟩
  | create after t =>
    simp only [hc] at hs'
    cases hs'
    exact ⟨hs, h.create (by rw [hc]; rfl)⟩
  | link after t p =>
    simp only [hc] at hs'
    cases hs'
    exact ⟨hs ++ [p], h.link hc (hroom (by rw [hc]; rfl))⟩
  | put request =>
    have hfrom : (s.call c).linking = none := by rw [hc]; rfl
    simp only [hc] at hs'
    obtain ⟨s₁, henqueue, rfl⟩ := Option.map_eq_some_iff.mp hs'
    obtain ⟨queue, hqueue, rfl⟩ := Option.map_eq_some_iff.mp henqueue
    have hput : PoolInv cfg { s with
        queue := queue
        semaphore := if s.queue.blocked then s.semaphore else s.semaphore + 1 } hs :=
      h.frame s.lastCleaned _ (requestEnqueue_active hqueue)
    exact ⟨hs, hput.goOn hfrom rfl (by simp [CallPc.cleaning]) rfl⟩
  | walk t handle =>
    have hclean : (s.call c).cleaning = true := by rw [hc]; rfl
    have hfrom : (s.call c).linking = none := CallPc.linking_of_cleaning hclean
    cases handle with
    | none =>
      simp only [hc] at hs'
      cases hs'
      exact ⟨hs, h.goOn hfrom rfl (fun _ => hclean) rfl⟩
    | some p =>
      have hp : p ∈ hs := h.reads c p (by rw [hc]; rfl)
      simp only [hc] at hs'
      split_ifs at hs' with hfreed hexited <;> cases hs'
      · exact ⟨hs.erase p, h.drop hc hexited⟩
      · exact ⟨hs, h.goAlong rfl hclean (hnext p hp)⟩
  | spare t =>
    have hfrom : (s.call c).linking = none := by rw [hc]; rfl
    simp only [hc] at hs'
    cases hs'
    exact ⟨hs, h.goOn hfrom rfl (fun _ => by rw [hc]; rfl) rfl⟩
  | counted t active =>
    have hclean : (s.call c).cleaning = true := by rw [hc]; rfl
    have hfrom : (s.call c).linking = none := CallPc.linking_of_cleaning hclean
    simp only [hc] at hs'
    have hstamped : PoolInv cfg { s with lastCleaned := t } hs := h.frame t s.semaphore rfl
    split_ifs at hs' <;> cases hs'
    · exact ⟨hs, h.goOn hfrom rfl (by simp [CallPc.cleaning]) rfl⟩
    · exact ⟨hs, h.goOn hfrom rfl (by simp [CallPc.cleaning]) rfl⟩
    · exact ⟨hs, hstamped.goOn hfrom rfl (by simp [CallPc.cleaning]) rfl⟩
    · exact ⟨hs, hstamped.goAlong rfl hclean fun p hp => h.links.head_mem hp⟩
    · exact ⟨hs, hstamped.retireFrom hclean⟩
  | cancel spare handle =>
    have hclean : (s.call c).cleaning = true := by rw [hc]; rfl
    have hfrom : (s.call c).linking = none := CallPc.linking_of_cleaning hclean
    cases handle with
    | none =>
      simp only [hc] at hs'
      cases hs'
      exact ⟨hs, h.retireFrom hclean⟩
    | some p =>
      have hp : p ∈ hs := h.reads c p (by rw [hc]; rfl)
      simp only [hc] at hs'
      split_ifs at hs' <;> cases hs'
      · exact ⟨hs, h.retireFrom hclean⟩
      · exact ⟨hs, (h.cancelHandle p).retireFrom hclean⟩
      · exact ⟨hs, h.goAlong rfl hclean (hnext p hp)⟩
  | retire handle =>
    have hclean : (s.call c).cleaning = true := by rw [hc]; rfl
    have hfrom : (s.call c).linking = none := CallPc.linking_of_cleaning hclean
    cases handle with
    | none =>
      simp only [hc] at hs'
      cases hs'
      exact ⟨hs, h.goOn hfrom rfl (by simp [CallPc.cleaning]) rfl⟩
    | some p =>
      have hp : p ∈ hs := h.reads c p (by rw [hc]; rfl)
      simp only [hc] at hs'
      split_ifs at hs' <;> cases hs'
      · exact ⟨hs, (h.cancelHandle p).goAlong rfl hclean (hnext p hp)⟩
      · exact ⟨hs, h.goAlong rfl hclean (hnext p hp)⟩

end

theorem PoolInv.work (h : PoolInv cfg s hs) {p : Nat} {wake : Wake} {s' : Pool ρ γ}
    (htake : s.worker p = .woken → s.queue.queueHead ≠ s.queue.queueTail →
      (s.queue.queue s.queue.queueHead).isSome ∧ ∀ c, (s.call c).linking ≠ some p)
    (hs' : workerStep s p wake = some s') : PoolInv cfg s' hs := by
  unfold workerStep at hs'
  cases hw : s.worker p with
  | waiting =>
    have hlive : s.worker p ≠ .dead := by simp [hw]
    have hmove (pc : WorkerPc) (hpc : pc.working = false) : PoolInv cfg (s.setWorker p pc) hs :=
      h.setWorker (by rw [hw, hpc]; rfl) hlive
    cases wake with
    | post =>
      simp only [hw] at hs'
      split_ifs at hs'
      cases hs'
      exact (hmove .woken rfl).frame s.lastCleaned (s.semaphore - 1) rfl
    | timeout =>
      simp only [hw] at hs'
      split_ifs at hs' <;> cases hs'
      · exact hmove .leaving rfl
      · exact h
    | error =>
      simp only [hw] at hs'
      cases hs'
      exact hmove .leaving rfl
  | woken =>
    have hlive : s.worker p ≠ .dead := by simp [hw]
    simp only [hw] at hs'
    cases hs'
    by_cases hempty : s.queue.queueHead = s.queue.queueTail
    · have hsame : requestDequeue s.queue = (s.queue, none) := if_pos hempty
      have hback : PoolInv cfg (s.setWorker p .looping) hs := h.setWorker (by rw [hw]; rfl) hlive
      rw [hsame]
      exact hback.frame s.lastCleaned s.semaphore rfl
    · -- a worker that has its request is in the list, by then
      obtain ⟨hsome, hlinked⟩ := htake hw hempty
      have hrequest : (requestDequeue s.queue).2.isSome = true := by
        rw [requestDequeue, if_neg hempty]
        exact hsome
      have hactive : (requestDequeue s.queue).1.activeThreads = s.queue.activeThreads + 1 := by
        rw [requestDequeue, if_neg hempty]
      have hp : p ∈ hs := by
        rcases h.placed p hlive with hm | ⟨c, hc⟩
        · exact hm
        · exact absurd hc (hlinked c)
      simp only [hrequest, if_true]
      apply h.count hp hlive
      rw [hactive, hw]
      simp [WorkerPc.working]
  | taken =>
    simp only [hw] at hs'
    cases hs'
    have hset : PoolInv cfg (s.setHandle p fun t =>
        { t with requestCount := t.requestCount + 1, asleep := false }) hs :=
      h.setHandle (fun _ => rfl) (fun _ => rfl) (fun _ => rfl) (h.gone p)
    exact hset.setWorker (by change _ = (s.worker p).working; rw [hw]; rfl)
      (by change s.worker p ≠ _; simp [hw])
  | serving =>
    simp only [hw] at hs'
    cases hs'
    have hset : PoolInv cfg (s.setHandle p fun t => { t with asleep := true }) hs :=
      h.setHandle (fun _ => rfl) (fun _ => rfl) (fun _ => rfl) (h.gone p)
    exact hset.setWorker (by change _ = (s.worker p).working; rw [hw]; rfl)
      (by change s.worker p ≠ _; simp [hw])
  | served =>
    have hlive : s.worker p ≠ .dead := by simp [hw]
    have hp : p ∈ hs := h.working p (by rw [hw]; rfl)
    simp only [hw] at hs'
    cases hs'
    apply h.count hp hlive
    rw [hw]
    change s.queue.activeThreads - 1 + 1 = s.queue.activeThreads + 0
    omega
  | looping =>
    have hlive : s.worker p ≠ .dead := by simp [hw]
    simp only [hw] at hs'
    cases hs'
    refine h.setWorker ?_ hlive
    split_ifs <;> rw [hw] <;> rfl
  | leaving =>
    simp only [hw] at hs'
    cases hs'
    have hdead : PoolInv cfg (s.setWorker p .dead) hs :=
      h.setWorker (by rw [hw]; rfl) (by simp [hw])
    have hexit : PoolInv cfg ((s.setWorker p .dead).setHandle p fun t =>
        { t with status := .exited }) hs :=
      hdead.setHandle (fun _ => rfl) (fun _ => rfl) (fun _ => rfl)
        fun _ => by simp [Pool.setWorker]
    exact hexit
  | dead => simp [hw] at hs'

theorem PoolInv.step [DecidableEq γ] (h : PoolInv cfg s hs) {e : PoolEvent ρ γ} {s' : Pool ρ γ}
    (hg : Bookable cfg s e) (hs' : poolStep cfg s e = some s') : ∃ hs', PoolInv cfg s' hs' := by
  cases e with
  | addrequest c request =>
    simp only [poolStep] at hs'
    split at hs'
    · rename_i hc
      cases hs'
      exact ⟨hs, h.goOn (by rw [hc]; rfl) rfl (by simp [CallPc.cleaning]) rfl⟩
    · cases hs'
  | clean c now =>
    simp only [poolStep] at hs'
    split at hs'
    · rename_i hc
      cases hs'
      refine ⟨hs, h.goTo (by rw [hc]; rfl) rfl ?_ fun p hp => h.links.head_mem hp⟩
      intro _ c' hc'
      rw [hg c'] at hc'
      cases hc'
    · cases hs'
  | call c now block => exact h.call hg hs'
  | worker p wake => exact ⟨hs, h.work hg hs'⟩

theorem poolStart_inv [DecidableEq γ] (cfg : PoolConfig) (block : Nat → Option ρ) (c : γ)
    (now : TimeT) : PoolInv cfg (poolStart cfg block c now) [] := by
  have hcall (c' : γ) : ((poolStart cfg block c now).call c').linking = none ∧
      ((poolStart cfg block c now).call c').cleaning = false ∧
      ((poolStart cfg block c now).call c').reads = none := by
    by_cases hcc : c' = c
    · subst hcc
      cases hk : cfg.startThreads <;>
        simp [poolStart, hk, CallPc.linking, CallPc.cleaning, CallPc.reads]
    · simp [poolStart, hcc, CallPc.linking, CallPc.cleaning, CallPc.reads]
  constructor
  · exact ⟨List.nodup_nil, rfl, rfl, trivial⟩
  · rfl
  · exact Int.natCast_nonneg _
  · rfl
  · intro p hp
    cases hp
  · simp
  · intro p _
    rfl
  · intro p hp
    exact absurd rfl hp
  · intro c' p hp
    rw [(hcall c').1] at hp
    cases hp
  · intro c1 c2 p hp
    rw [(hcall c1).1] at hp
    cases hp
  · intro p _
    rfl
  · intro c1 c2 h1
    rw [(hcall c1).2.1] at h1
    cases h1
  · intro c' p hp
    rw [(hcall c').2.2] at hp
    cases hp

/-- From the start of IPStat_pool_init on, for any calls and workers in any order: while the
steps meet the condition, the list, the counts and the links agree in every state. -/
theorem pool_exact [DecidableEq γ] (cfg : PoolConfig) (block : Nat → Option ρ) (c : γ)
    (now : TimeT) (es : List (PoolEvent ρ γ))
    (hg : Run.Guarded (poolStep cfg) (Bookable cfg) (poolStart cfg block c now) es) :
    Run.Always (poolStep cfg) (PoolExact cfg) (poolStart cfg block c now) es := by
  have hstep (s : Pool ρ γ) (e : PoolEvent ρ γ) (s' : Pool ρ γ) (hi : ∃ hs, PoolInv cfg s hs)
      (hg : Bookable cfg s e) (hs' : poolStep cfg s e = some s') :
      ∃ hs, PoolInv cfg s' hs := by
    obtain ⟨hs, h⟩ := hi
    exact h.step hg hs'
  have hstart : ∃ hs, PoolInv cfg (poolStart cfg block c now) hs :=
    ⟨[], poolStart_inv cfg block c now⟩
  have halways : Run.Always (poolStep cfg) (fun s => ∃ hs, PoolInv cfg s hs)
      (poolStart cfg block c now) es := Run.always_of_invariant hstep hstart hg
  apply halways.imp
  rintro s ⟨hs, h⟩
  exact h.exact

end

end

/-- One thread at the start, two at most. -/
def twoThreads : PoolConfig := ⟨1, 2, 0, 0, 0, 0⟩

/-- The pool of the examples, with two callers: 0 starts it. -/
def twoStart : Pool Nat (Fin 2) := poolStart twoThreads (fun _ => none) 0 0

def go (c : Fin 2) : PoolEvent Nat (Fin 2) := .call c 0 fun _ => none

/-- A request is served while another caller cleans: a second thread is spawned, and the first
is cancelled, exits and is dropped by the next clean. -/
def servedAndCleaned : List (PoolEvent Nat (Fin 2)) :=
  [go 0, go 0, go 0, .addrequest 0 (some 1), go 0, go 0, .worker 0 .post, .worker 0 .post,
    .worker 0 .post, .addrequest 0 (some 2), go 0, go 0, go 0, go 0, go 0, .clean 1 5, go 1, go 1,
    go 1, go 1, .worker 0 .post, .worker 0 .post, .worker 0 .post, go 1, go 1,
    .worker 0 .timeout, .worker 0 .timeout, .clean 1 6, go 1, go 1]

theorem pool_exact_served :
    Run.Always (poolStep twoThreads) (PoolExact twoThreads) twoStart servedAndCleaned :=
  pool_exact twoThreads (fun _ => none) 0 0 servedAndCleaned (by decide)

/-- Two requests wait when the only worker takes the first; the third one spawns a thread, which
takes the second request before it is counted. -/
def takenUnlinked : List (PoolEvent Nat (Fin 2)) :=
  [go 0, go 0, go 0, .addrequest 0 (some 1), go 0, go 0, .addrequest 0 (some 2), go 0, go 0,
    .worker 0 .post, .worker 0 .post, .addrequest 0 (some 3), go 0, go 0, go 0, .worker 1 .post,
    .worker 1 .post]

/-- A NULL request is counted as active by the worker that passes over it. -/
def takenNull : List (PoolEvent Nat (Fin 2)) :=
  [go 0, go 0, go 0, .addrequest 0 none, go 0, go 0, .worker 0 .post, .worker 0 .post]

theorem pool_miscounts :
    (∃ s, Run.exec (poolStep twoThreads) twoStart takenUnlinked = some s ∧
      s.queue.activeThreads = 2 ∧ s.totalThreads = 1 ∧ ¬ PoolExact twoThreads s) ∧
    ∃ s, Run.exec (poolStep twoThreads) twoStart takenNull = some s ∧
      s.queue.activeThreads = 1 ∧ s.worker 0 = .looping ∧ ¬ PoolExact twoThreads s := by
  constructor
  · refine ⟨_, rfl, rfl, rfl, ?_⟩
    intro h
    have hle : (2 : Int) ≤ 1 := h.le
    omega
  · refine ⟨_, rfl, rfl, rfl, ?_⟩
    intro h
    have hcount : (1 : Int) = (0 : Nat) := h.active
    omega

end IPStat
