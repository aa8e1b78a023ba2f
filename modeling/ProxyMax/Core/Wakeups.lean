import ProxyMax.Core.Server

/-!
The thread pool of `src/core/threading.c` with its condition variable: who sleeps in
`pthread_cond_wait`, and who is woken.

* `SleepingPool`, `wakeStep`: the pool with its sleepers. A signal wakes one sleeper at
  least, a broadcast all of them, and a sleeper may wake for no reason.
* `Awake`: the invariant. While a worker sleeps, the items in the queue are at most the
  workers that are awake and on their way to the queue.
* `no_lost_wakeup`: it holds in every run, and nobody sleeps after the broadcast.
* `wakeRun_simulates`: without its sleepers, the pool is that of `poolStep`.
* `queue_drains`, `workers_exit`: workers left to themselves empty the queue, and leave
  their loops after the broadcast within two steps each, whatever order they run in.
-/

namespace ProxyMax

open LinkedList Machine

variable {F A : Type} {n : ℕ}

/-- The pool, and the workers that sleep in `pthread_cond_wait`. -/
structure SleepingPool (F A : Type) (n : ℕ) where
  pool : ThreadPool F A n
  asleep : Fin n → Bool

/-- After `thread_pool_create` nobody sleeps yet. -/
def sleepingCreate (F A : Type) (n : ℕ) : SleepingPool F A n where
  pool := threadPoolCreate F A n
  asleep := fun _ => false

/-- What happens to the pool: a submission with the sleepers its signal wakes, a pass of a
worker through its critical section, the end of its work, a sleeper that wakes for no
reason, the broadcast of `thread_pool_destroy`. -/
inductive WakeCall (F A : Type) (n : ℕ) where
  | submit (func : Option F) (arg : A) (allocOk : Bool) (woken : Fin n → Bool)
  | pass (w : Fin n)
  | finish (w : Fin n)
  | spurious (w : Fin n)
  | broadcast

/-- `pthread_cond_signal` may wake these: one sleeper at least, if there is any. -/
def SleepingPool.Signals (s : SleepingPool F A n) (woken : Fin n → Bool) : Prop :=
  (∃ w, s.asleep w = true) → ∃ w, s.asleep w = true ∧ woken w = true

instance (s : SleepingPool F A n) (woken : Fin n → Bool) : Decidable (s.Signals woken) :=
  inferInstanceAs (Decidable (_ → _))

/-- A step of the pool; there is none where the worker is not at that point, or sleeps. -/
def wakeStep (s : SleepingPool F A n) :
    WakeCall F A n → Option (Option (PoolReply F A) × SleepingPool F A n)
  | .submit func arg allocOk woken =>
      let r := threadPoolSubmit s.pool func arg allocOk
      if r.1 < 0 then some (some (.submitted r.1), { s with pool := r.2 })
      else if s.Signals woken then
        some (some (.submitted r.1),
          { pool := r.2, asleep := fun w => s.asleep w && !woken w })
      else none
  | .pass w =>
      if s.asleep w then none
      else (poolStep s.pool (.pass w)).map fun r =>
        match r.1 with
        | .passed .waits => (some r.1, { pool := r.2, asleep := Function.update s.asleep w true })
        | _ => (some r.1, { s with pool := r.2 })
  | .finish w =>
      (poolStep s.pool (.finish w)).map fun r => (some r.1, { s with pool := r.2 })
  | .spurious w =>
      if s.asleep w then some (none, { s with asleep := Function.update s.asleep w false })
      else none
  | .broadcast =>
      some (none, { pool := { s.pool with shutdown := true }, asleep := fun _ => false })

/-! ### Counting workers -/

/-- The worker is awake and on its way to the queue. -/
def comes : Worker × Bool → ℕ
  | (.ready, false) => 1
  | _ => 0

/-- The workers that are awake and on their way to the queue. -/
def SleepingPool.coming (s : SleepingPool F A n) : ℕ := ∑ w, comes (s.pool.workers w, s.asleep w)

lemma coming_eq_card (s : SleepingPool F A n) : s.coming =
    (Finset.univ.filter fun w => s.pool.workers w = .ready ∧ s.asleep w = false).card := by
  rw [SleepingPool.coming, Finset.card_filter]
  refine Finset.sum_congr rfl fun w _ => ?_
  cases s.pool.workers w <;> cases s.asleep w <;> rfl

/-- A sum over the workers after one of them has moved. -/
lemma sum_moved (f : Worker × Bool → ℕ) (workers : Fin n → Worker) (asleep : Fin n → Bool)
    (w : Fin n) (a : Worker) (b : Bool) :
    (∑ v, f (Function.update workers w a v, Function.update asleep w b v)) +
        f (workers w, asleep w) =
      (∑ v, f (workers v, asleep v)) + f (a, b) := by
  have hpair : ∀ v, (Function.update workers w a v, Function.update asleep w b v) =
      Function.update (fun v => (workers v, asleep v)) w (a, b) v := by
    intro v
    by_cases hv : v = w
    · subst hv
      simp
    · simp [hv]
  simp only [hpair]
  exact sum_update (fun v => (workers v, asleep v)) f w (a, b)

/-- The same, where it sleeps or does not, as before. -/
lemma sum_worked (f : Worker × Bool → ℕ) (workers : Fin n → Worker) (asleep : Fin n → Bool)
    (w : Fin n) (a : Worker) :
    (∑ v, f (Function.update workers w a v, asleep v)) + f (workers w, asleep w) =
      (∑ v, f (workers v, asleep v)) + f (a, asleep w) := by
  have h := sum_moved f workers asleep w a (asleep w)
  rwa [Function.update_eq_self] at h

/-- The same, where it is at the same point as before. -/
lemma sum_turned (f : Worker × Bool → ℕ) (workers : Fin n → Worker) (asleep : Fin n → Bool)
    (w : Fin n) (b : Bool) :
    (∑ v, f (workers v, Function.update asleep w b v)) + f (workers w, asleep w) =
      (∑ v, f (workers v, asleep v)) + f (workers w, b) := by
  have h := sum_moved f workers asleep w (workers w) b
  rwa [Function.update_eq_self] at h

/-! ### What a step does -/

/-- What a pass of the worker `w` comes to, where the queue links `ns`. -/
inductive Passed (pool : ThreadPool F A n) (w : Fin n) (ns : List (Ptr × WorkItem F A)) :
    PoolReply F A → ThreadPool F A n → Prop
  | waits (hrun : pool.shutdown = false) (hns : ns = []) : Passed pool w ns (.passed .waits) pool
  | takes {work p ns' pool'} (hrun : pool.shutdown = false) (hns : ns.length = ns'.length + 1)
      (hvalid : pool'.Valid ns') (hrun' : pool'.shutdown = false)
      (hworkers : pool'.workers = Function.update pool.workers w (.working p)) :
      Passed pool w ns (.passed (.takes (some work))) pool'
  | exits {pool'} (hstop : pool.shutdown = true) (hvalid : pool'.Valid ns)
      (hstop' : pool'.shutdown = true)
      (hworkers : pool'.workers = Function.update pool.workers w .exited) :
      Passed pool w ns (.passed .exits) pool'

/-- A worker that takes an item is the only one that moves. -/
lemma workerPass_workers {pool pool' : ThreadPool F A n} {w : Fin n} {work : WorkItem F A}
    (h : workerPass pool w = (.takes (some work), pool')) :
    ∃ p, pool'.workers = Function.update pool.workers w (.working p) := by
  rw [workerPass] at h
  split at h
  · cases h
  · split at h
    · cases h
    · split at h
      · cases h
      · obtain ⟨-, rfl⟩ := Prod.mk.inj h
        exact ⟨_, rfl⟩

lemma poolStep_passed {pool pool' : ThreadPool F A n} {ns : List (Ptr × WorkItem F A)} {w : Fin n}
    {reply : PoolReply F A} (hpool : pool.Valid ns)
    (hstep : poolStep pool (.pass w) = some (reply, pool')) :
    pool.workers w = .ready ∧ Passed pool w ns reply pool' := by
  have hw : pool.workers w = .ready ∧ .passed (workerPass pool w).1 = reply ∧
      (workerPass pool w).2 = pool' := by
    cases hw : pool.workers w with
    | working p => simp [poolStep, hw] at hstep
    | exited => simp [poolStep, hw] at hstep
    | ready =>
        simp only [poolStep, hw, Option.some.injEq, Prod.mk.injEq] at hstep
        exact ⟨rfl, hstep⟩
  obtain ⟨hready, hreply, hpool'⟩ := hw
  obtain ⟨-, hrun, hcases⟩ := poolStep_pass hpool hstep
  refine ⟨hready, ?_⟩
  rcases hcases with ⟨hrun₀, rfl, rfl, rfl⟩ | ⟨p, work, ns', hrun₀, rfl, rfl, hvalid, -⟩ |
    ⟨hstop, rfl, hvalid, -⟩
  · exact .waits hrun₀ rfl
  · have hpass : workerPass pool w = (.takes (some work), pool') :=
      Prod.ext (PoolReply.passed.inj hreply) hpool'
    obtain ⟨q, hworkers⟩ := workerPass_workers hpass
    exact .takes hrun₀ List.length_cons hvalid (hrun.trans hrun₀) hworkers
  · refine .exits hstop hvalid (hrun.trans hstop) ?_
    rw [← hpool', workerPass_shutdown hstop]

/-- **The invariant.** While a worker sleeps, the items in the queue are at most the workers
that are awake and on their way to it. Only workers at their loop sleep, and none does
after the broadcast. -/
structure Awake (s : SleepingPool F A n) (ns : List (Ptr × WorkItem F A)) : Prop where
  valid : s.pool.Valid ns
  ready : ∀ w, s.asleep w = true → s.pool.workers w = .ready
  enough : (∃ w, s.asleep w = true) → ns.length ≤ s.coming
  stopped : s.pool.shutdown = true → ∀ w, s.asleep w = false
  loop : ∀ w, s.pool.workers w = .exited → s.pool.shutdown = true

lemma sleepingCreate_awake : Awake (sleepingCreate F A n) [] where
  valid := threadPoolCreate_valid
  ready := fun w h => by cases h
  enough := fun ⟨w, h⟩ => by cases h
  stopped := fun _ _ => rfl
  loop := fun w h => by cases h

section Steps

variable {s s' : SleepingPool F A n} {ns : List (Ptr × WorkItem F A)}

/-- A signal brings at least one worker more to the queue. -/
lemma coming_signal (hs : Awake s ns) {woken : Fin n → Bool} (hsignal : s.Signals woken)
    (hasleep : ∃ w, s.asleep w = true) :
    s.coming < ∑ w, comes (s.pool.workers w, s.asleep w && !woken w) := by
  obtain ⟨v, hv, hwoken⟩ := hsignal hasleep
  refine Finset.sum_lt_sum (fun w _ => ?_) ⟨v, Finset.mem_univ v, ?_⟩
  · cases hw : s.asleep w with
    | false => simp
    | true =>
        have hzero : comes (s.pool.workers w, true) = 0 := by cases s.pool.workers w <;> rfl
        rw [hzero]
        exact Nat.zero_le _
  · rw [hs.ready v hv, hv, hwoken]
    exact Nat.one_pos

/-- A submission that finds memory, with its signal. -/
lemma Awake.submit (hs : Awake s ns) (func : F) (arg : A) {woken : Fin n → Bool}
    (hsignal : s.Signals woken) :
    Awake ⟨(threadPoolSubmit s.pool (some func) arg true).2, fun w => s.asleep w && !woken w⟩
      (ns ++ [(s.pool.queue.fresh, ⟨func, arg⟩)]) where
  valid := (threadPoolSubmit_valid hs.valid func arg).2.1
  ready := fun w h => hs.ready w (Bool.and_elim_left h)
  enough := by
    rintro ⟨w, hw⟩
    have hasleep : ∃ w, s.asleep w = true := ⟨w, Bool.and_elim_left hw⟩
    have hmore := coming_signal hs hsignal hasleep
    have hold := hs.enough hasleep
    calc (ns ++ [(s.pool.queue.fresh, (⟨func, arg⟩ : WorkItem F A))]).length
        = ns.length + 1 := by rw [List.length_append, List.length_singleton]
      _ ≤ s.coming + 1 := Nat.succ_le_succ hold
      _ ≤ ∑ w, comes (s.pool.workers w, s.asleep w && !woken w) := hmore
  stopped := fun hstop w => by simp [hs.stopped hstop w]
  loop := hs.loop

/-- A worker that finds the queue empty goes to sleep. -/
lemma Awake.sleep (hs : Awake s []) {w : Fin n} (hready : s.pool.workers w = .ready)
    (hrun : s.pool.shutdown = false) :
    Awake { s with asleep := Function.update s.asleep w true } [] where
  valid := hs.valid
  ready := by
    intro v hv
    by_cases he : v = w
    · rw [he, hready]
    · exact hs.ready v ((Function.update_of_ne he ..).symm.trans hv)
  enough := fun _ => Nat.zero_le _
  stopped := fun hstop => by
    rw [hrun] at hstop
    cases hstop
  loop := hs.loop

/-- A worker takes an item, which is one item less and one worker less. -/
lemma Awake.take (hs : Awake s ns) {w : Fin n} (hawake : s.asleep w = false)
    (hready : s.pool.workers w = .ready) {pool' : ThreadPool F A n}
    {ns' : List (Ptr × WorkItem F A)} {p : Ptr} (hvalid : pool'.Valid ns')
    (hns : ns.length = ns'.length + 1) (hrun : s.pool.shutdown = false)
    (hrun' : pool'.shutdown = false)
    (hworkers : pool'.workers = Function.update s.pool.workers w (.working p)) :
    Awake { s with pool := pool' } ns' where
  valid := hvalid
  ready := by
    intro v hv
    have hne : v ≠ w := by
      rintro rfl
      rw [hawake] at hv
      cases hv
    rw [hworkers, Function.update_of_ne hne]
    exact hs.ready v hv
  enough := by
    intro hasleep
    have hold := hs.enough hasleep
    have hsum := sum_worked comes s.pool.workers s.asleep w (.working p)
    rw [← hworkers, hready, hawake] at hsum
    have hone : comes (Worker.ready, false) = 1 := rfl
    have hzero : comes (Worker.working p, false) = 0 := rfl
    have hless : SleepingPool.coming { s with pool := pool' } + 1 = s.coming := by
      rw [hone, hzero, Nat.add_zero] at hsum
      exact hsum
    omega
  stopped := fun hstop => by
    rw [hrun'] at hstop
    cases hstop
  loop := by
    intro v hv
    rw [hworkers] at hv
    by_cases he : v = w
    · rw [he, Function.update_self] at hv
      cases hv
    · rw [Function.update_of_ne he] at hv
      rw [hs.loop v hv] at hrun
      cases hrun

/-- Where nobody sleeps, only the queue matters. -/
lemma awake_of_nobody {pool : ThreadPool F A n} {asleep : Fin n → Bool} (hvalid : pool.Valid ns)
    (hnobody : ∀ w, asleep w = false) (hstop : pool.shutdown = true) : Awake ⟨pool, asleep⟩ ns where
  valid := hvalid
  ready := fun w h => by simp [hnobody] at h
  enough := fun ⟨w, h⟩ => by simp [hnobody] at h
  stopped := fun _ => hnobody
  loop := fun _ _ => hstop

/-- Who sleeps after a worker has woken: another one. -/
lemma asleep_of_update {asleep : Fin n → Bool} {v w : Fin n}
    (h : Function.update asleep w false v = true) : v ≠ w ∧ asleep v = true := by
  by_cases hv : v = w
  · rw [hv, Function.update_self] at h
    cases h
  · exact ⟨hv, (Function.update_of_ne hv ..).symm.trans h⟩

/-- A worker comes back from its work, or wakes up: it is awake and at its loop. -/
lemma Awake.wake (hs : Awake s ns) {w : Fin n} {pool' : ThreadPool F A n} (hvalid : pool'.Valid ns)
    (hstop : pool'.shutdown = s.pool.shutdown)
    (hworkers : pool'.workers = Function.update s.pool.workers w .ready) :
    Awake ⟨pool', Function.update s.asleep w false⟩ ns where
  valid := hvalid
  ready := by
    intro v hv
    obtain ⟨hne, hasleep⟩ := asleep_of_update hv
    rw [hworkers, Function.update_of_ne hne]
    exact hs.ready v hasleep
  enough := by
    rintro ⟨v, hv⟩
    have hold := hs.enough ⟨v, (asleep_of_update hv).2⟩
    have hsum := sum_moved comes s.pool.workers s.asleep w .ready false
    rw [← hworkers] at hsum
    have hone : comes (Worker.ready, false) = 1 := rfl
    have hle : comes (s.pool.workers w, s.asleep w) ≤ 1 := by
      cases s.pool.workers w <;> cases s.asleep w <;> simp [comes]
    have hmore : s.coming ≤ SleepingPool.coming ⟨pool', Function.update s.asleep w false⟩ := by
      show (∑ v, comes (s.pool.workers v, s.asleep v)) ≤
        ∑ v, comes (pool'.workers v, Function.update s.asleep w false v)
      omega
    exact hold.trans hmore
  stopped := by
    intro h v
    refine Bool.eq_false_iff.mpr fun hv => ?_
    obtain ⟨-, hasleep⟩ := asleep_of_update hv
    rw [hs.stopped (hstop.symm.trans h) v] at hasleep
    cases hasleep
  loop := by
    intro v hv
    rw [hworkers] at hv
    by_cases he : v = w
    · rw [he, Function.update_self] at hv
      cases hv
    · rw [Function.update_of_ne he] at hv
      exact hstop.trans (hs.loop v hv)

/-- What the workers still do: each item is taken and worked on, a worker at work comes back,
and one at its loop sleeps or leaves. -/
def effort : Worker × Bool → ℕ
  | (.working _, _) => 2
  | (.ready, false) => 1
  | _ => 0

/-- What is left to do, where the queue holds `items` items. -/
def SleepingPool.left (s : SleepingPool F A n) (items : ℕ) : ℕ :=
  (if s.pool.shutdown then 0 else 3 * items) + ∑ w, effort (s.pool.workers w, s.asleep w)

/-- The call is one of a worker. -/
def WakeCall.Works : WakeCall F A n → Prop
  | .pass _ | .finish _ => True
  | _ => False

/-- The worker that makes the step. -/
def WakeCall.worker : WakeCall F A n → Option (Fin n)
  | .pass w | .finish w => some w
  | _ => none

/-- A pass of a worker that is awake. -/
lemma Awake.pass (hs : Awake s ns) {w : Fin n} {out : Option (PoolReply F A)}
    (hstep : wakeStep s (.pass w) = some (out, s')) :
    ∃ ns', Awake s' ns' ∧ s'.pool.shutdown = s.pool.shutdown ∧
      s'.left ns'.length < s.left ns.length := by
  rw [wakeStep] at hstep
  split at hstep
  · cases hstep
  rename_i hawake
  obtain ⟨⟨reply, pool'⟩, hpass, he⟩ := Option.map_eq_some_iff.mp hstep
  obtain ⟨hready, hpassed⟩ := poolStep_passed hs.valid hpass
  rw [Bool.not_eq_true] at hawake
  cases hpassed with
  | waits hrun hns =>
      obtain ⟨-, rfl⟩ := Prod.mk.inj he
      subst hns
      refine ⟨[], hs.sleep hready hrun, rfl, ?_⟩
      have hsum := sum_turned effort s.pool.workers s.asleep w true
      rw [hready, hawake] at hsum
      have hone : effort (Worker.ready, false) = 1 := rfl
      have hzero : effort (Worker.ready, true) = 0 := rfl
      simp only [SleepingPool.left]
      omega
  | @takes work p ns' _ hrun hns hvalid hrun' hworkers =>
      obtain ⟨-, rfl⟩ := Prod.mk.inj he
      refine ⟨_, hs.take hawake hready hvalid hns hrun hrun' hworkers, hrun'.trans hrun.symm, ?_⟩
      have hsum := sum_worked effort s.pool.workers s.asleep w (.working p)
      rw [← hworkers, hready, hawake] at hsum
      have hone : effort (Worker.ready, false) = 1 := rfl
      have htwo : effort (Worker.working p, false) = 2 := rfl
      simp only [SleepingPool.left, hrun, hrun', Bool.false_eq_true, if_false]
      omega
  | exits hstop hvalid hstop' hworkers =>
      obtain ⟨-, rfl⟩ := Prod.mk.inj he
      have hnobody := hs.stopped hstop
      refine ⟨ns, awake_of_nobody hvalid hnobody hstop', hstop'.trans hstop.symm, ?_⟩
      have hsum := sum_worked effort s.pool.workers s.asleep w .exited
      rw [← hworkers, hready, hawake] at hsum
      have hone : effort (Worker.ready, false) = 1 := rfl
      have hzero : effort (Worker.exited, false) = 0 := rfl
      simp only [SleepingPool.left, hstop, hstop', if_true]
      omega

/-- A worker that ends its work is the only one that moves. -/
lemma poolStep_finished {pool pool' : ThreadPool F A n} {w : Fin n} {reply : PoolReply F A}
    (hstep : poolStep pool (.finish w) = some (reply, pool')) :
    ∃ p, pool.workers w = .working p ∧
      pool'.workers = Function.update pool.workers w .ready := by
  cases hw : pool.workers w with
  | ready => simp [poolStep, hw] at hstep
  | exited => simp [poolStep, hw] at hstep
  | working p =>
      simp only [poolStep, hw, Option.some.injEq, Prod.mk.injEq] at hstep
      exact ⟨p, rfl, hstep.2 ▸ rfl⟩

/-- The end of a worker's work. -/
lemma Awake.finish (hs : Awake s ns) {w : Fin n} {out : Option (PoolReply F A)}
    (hstep : wakeStep s (.finish w) = some (out, s')) :
    ∃ ns', Awake s' ns' ∧ s'.pool.shutdown = s.pool.shutdown ∧
      s'.left ns'.length < s.left ns.length := by
  obtain ⟨⟨reply, pool'⟩, hfinish, he⟩ := Option.map_eq_some_iff.mp hstep
  obtain ⟨-, rfl⟩ := Prod.mk.inj he
  obtain ⟨work, -, -, hvalid, -, hrun⟩ := poolStep_finish hs.valid hfinish
  obtain ⟨p, hw, hworkers⟩ := poolStep_finished hfinish
  have hawake : s.asleep w = false := by
    refine Bool.eq_false_iff.mpr fun hasleep => ?_
    rw [hs.ready w hasleep] at hw
    cases hw
  have hsame : Function.update s.asleep w false = s.asleep := by
    rw [← hawake, Function.update_eq_self]
  have hwake := hs.wake hvalid hrun hworkers
  rw [hsame] at hwake
  refine ⟨ns, hwake, hrun, ?_⟩
  have hsum := sum_worked effort s.pool.workers s.asleep w .ready
  rw [← hworkers, hw, hawake] at hsum
  have hone : effort (Worker.ready, false) = 1 := rfl
  have htwo : effort (Worker.working p, false) = 2 := rfl
  simp only [SleepingPool.left, hrun]
  omega

/-- **The step of a worker.** There is less to do after it. -/
lemma Awake.works (hs : Awake s ns) {call : WakeCall F A n} (hcall : call.Works)
    {out : Option (PoolReply F A)} (hstep : wakeStep s call = some (out, s')) :
    ∃ ns', Awake s' ns' ∧ s'.pool.shutdown = s.pool.shutdown ∧
      s'.left ns'.length < s.left ns.length := by
  cases call with
  | pass w => exact hs.pass hstep
  | finish w => exact hs.finish hstep
  | submit func arg allocOk woken => exact hcall.elim
  | spurious w => exact hcall.elim
  | broadcast => exact hcall.elim

/-- After the broadcast, a step leaves its worker less to do, and the others what they had. -/
lemma Awake.works_effort (hs : Awake s ns) (hstop : s.pool.shutdown = true)
    {call : WakeCall F A n} (hcall : call.Works) {out : Option (PoolReply F A)}
    (hstep : wakeStep s call = some (out, s')) (v : Fin n) :
    (if call.worker = some v then 1 else 0) + effort (s'.pool.workers v, s'.asleep v) ≤
      effort (s.pool.workers v, s.asleep v) := by
  -- a worker that moves on its own loses effort, and the others keep theirs
  have hmoved : ∀ {w a}, (s'.pool.workers, s'.asleep) =
      (Function.update s.pool.workers w a, s.asleep) → s.asleep w = false →
      effort (a, false) < effort (s.pool.workers w, false) →
      (if some w = some v then 1 else 0) + effort (s'.pool.workers v, s'.asleep v) ≤
        effort (s.pool.workers v, s.asleep v) := by
    intro w a hs' hawake hless
    obtain ⟨hworkers, hasleep⟩ := Prod.mk.inj hs'
    rw [hworkers, hasleep]
    by_cases hv : w = v
    · subst hv
      rw [Function.update_self, if_pos rfl, hawake]
      omega
    · rw [Function.update_of_ne (Ne.symm hv), if_neg (fun h => hv (Option.some.inj h)),
        Nat.zero_add]
  cases call with
  | pass w =>
      rw [wakeStep] at hstep
      split at hstep
      · cases hstep
      rename_i hawake
      obtain ⟨⟨reply, pool'⟩, hpass, he⟩ := Option.map_eq_some_iff.mp hstep
      obtain ⟨hready, hpassed⟩ := poolStep_passed hs.valid hpass
      rw [Bool.not_eq_true] at hawake
      cases hpassed with
      | waits hrun => simp [hrun] at hstop
      | takes hrun => simp [hrun] at hstop
      | exits _ _ _ hworkers =>
          obtain ⟨-, rfl⟩ := Prod.mk.inj he
          refine hmoved (congrArg (·, s.asleep) hworkers) hawake ?_
          rw [hready]
          decide
  | finish w =>
      obtain ⟨⟨reply, pool'⟩, hfinish, he⟩ := Option.map_eq_some_iff.mp hstep
      obtain ⟨-, rfl⟩ := Prod.mk.inj he
      obtain ⟨p, hw, hworkers⟩ := poolStep_finished hfinish
      refine hmoved (congrArg (·, s.asleep) hworkers) (hs.stopped hstop w) ?_
      rw [hw]
      exact Nat.one_lt_two
  | submit func arg allocOk woken => exact hcall.elim
  | spurious w => exact hcall.elim
  | broadcast => exact hcall.elim

/-- **The step lemma.** Every step keeps the invariant, and nothing ends the shutdown. -/
lemma wakeStep_awake (hs : Awake s ns) {call : WakeCall F A n} {out : Option (PoolReply F A)}
    (hstep : wakeStep s call = some (out, s')) :
    (∃ ns', Awake s' ns') ∧ (s.pool.shutdown = true → s'.pool.shutdown = true) := by
  cases call with
  -- nothing is queued without a function or memory
  | submit func arg allocOk woken =>
      cases func with
      | none =>
          simp only [wakeStep, threadPoolSubmit, Int.reduceNeg, Int.reduceLT, if_true,
            Option.some.injEq, Prod.mk.injEq] at hstep
          obtain ⟨-, rfl⟩ := hstep
          exact ⟨⟨ns, hs⟩, id⟩
      | some func =>
          cases allocOk with
          | false =>
              simp only [wakeStep, threadPoolSubmit, Bool.false_eq_true, if_false, Int.reduceNeg,
                Int.reduceLT, if_true, Option.some.injEq, Prod.mk.injEq] at hstep
              obtain ⟨-, rfl⟩ := hstep
              exact ⟨⟨ns, hs⟩, id⟩
          | true =>
              rw [wakeStep] at hstep
              split at hstep
              · rename_i hneg
                simp [threadPoolSubmit] at hneg
              · split at hstep
                · rename_i hsignal
                  obtain ⟨-, rfl⟩ := Prod.mk.inj (Option.some.inj hstep)
                  exact ⟨⟨_, hs.submit func arg hsignal⟩, id⟩
                · cases hstep
  -- the workers are seen to by their own lemmas
  | pass w =>
      obtain ⟨ns', hs', hstop, -⟩ := hs.pass hstep
      exact ⟨⟨ns', hs'⟩, fun h => hstop.trans h⟩
  | finish w =>
      obtain ⟨ns', hs', hstop, -⟩ := hs.finish hstep
      exact ⟨⟨ns', hs'⟩, fun h => hstop.trans h⟩
  -- a sleeper that wakes has not moved in the pool
  | spurious w =>
      rw [wakeStep] at hstep
      split at hstep
      · rename_i hasleep
        obtain ⟨-, rfl⟩ := Prod.mk.inj (Option.some.inj hstep)
        have hworkers : s.pool.workers = Function.update s.pool.workers w .ready := by
          rw [← hs.ready w hasleep, Function.update_eq_self]
        exact ⟨⟨ns, hs.wake hs.valid rfl hworkers⟩, id⟩
      · cases hstep
  -- everybody wakes
  | broadcast =>
      obtain ⟨-, rfl⟩ := Prod.mk.inj (Option.some.inj hstep)
      have hvalid := hs.valid
      exact ⟨⟨ns, awake_of_nobody ⟨hvalid.queue, hvalid.stored, hvalid.taken, hvalid.apart⟩
        (fun _ => rfl) rfl⟩, fun _ => rfl⟩

end Steps

/-! ### Every run -/

section Runs

variable {log : List (WakeCall F A n × Option (PoolReply F A))} {s : SleepingPool F A n}
  {calls : List (WakeCall F A n)}

lemma wakeRun_awake (hrun : exec wakeStep (sleepingCreate F A n) calls = some (log, s)) :
    ∃ ns, Awake s ns :=
  exec_preserves wakeStep (P := fun s => ∃ ns, Awake s ns)
    (fun _ _ _ _ hstep ⟨_, hs⟩ => (wakeStep_awake hs hstep).1) hrun ⟨[], sleepingCreate_awake⟩

/-- **No wakeup is lost.** In every run, while a worker sleeps, the items in the queue are at
most the workers that are awake and on their way to it, so no item waits for a worker that
sleeps; and after the broadcast of `thread_pool_destroy` no worker sleeps. -/
theorem no_lost_wakeup (calls : List (WakeCall F A n))
    (log : List (WakeCall F A n × Option (PoolReply F A))) (s : SleepingPool F A n)
    (hrun : exec wakeStep (sleepingCreate F A n) calls = some (log, s)) :
    ((∃ w, s.asleep w = true) → s.pool.queue.count ≤
      (Finset.univ.filter fun w => s.pool.workers w = .ready ∧ s.asleep w = false).card) ∧
      (s.pool.shutdown = true → ∀ w, s.asleep w = false) := by
  obtain ⟨ns, hs⟩ := wakeRun_awake hrun
  refine ⟨fun hasleep => ?_, hs.stopped⟩
  rw [hs.valid.queue.count, ← coming_eq_card]
  exact_mod_cast hs.enough hasleep

/-- Two workers sleep, and a submission wakes one of them. -/
def sleepersCalls (v w : Fin n) : List (WakeCall Unit ℕ n) :=
  [.pass v, .pass w, .submit (some ()) 7 true (· = v)]

/-- The other one sleeps while an item is in the queue. -/
theorem no_lost_wakeup_sleepers : ∃ log s,
    exec wakeStep (sleepingCreate Unit ℕ 2) (sleepersCalls 0 1) = some (log, s) ∧
    s.asleep 1 = true ∧ s.pool.queue.count = 1 ∧ s.pool.queue.count ≤
      (Finset.univ.filter fun w => s.pool.workers w = .ready ∧ s.asleep w = false).card :=
  ⟨_, _, rfl, rfl, rfl, (no_lost_wakeup (sleepersCalls 0 1) _ _ rfl).1 ⟨1, rfl⟩⟩

/-- What the pool without its sleepers sees of a step. -/
def poolEvent : WakeCall F A n × Option (PoolReply F A) → Option (PoolCall F A n × PoolReply F A)
  | (.submit func arg allocOk _, some reply) => some (.submit func arg allocOk, reply)
  | (.pass w, some reply) => some (.pass w, reply)
  | (.finish w, some reply) => some (.finish w, reply)
  | _ => none

/-- A step before the shutdown is one of the pool without its sleepers, or none. -/
lemma wakeStep_simulates {s s' : SleepingPool F A n} {ns : List (Ptr × WorkItem F A)}
    (hs : Awake s ns) {call : WakeCall F A n} {out : Option (PoolReply F A)}
    (hstep : wakeStep s call = some (out, s')) (hgo : s'.pool.shutdown = false) :
    s.pool.shutdown = false ∧
      ((poolEvent (call, out) = none ∧ s'.pool = s.pool) ∨
        ∃ e, poolEvent (call, out) = some e ∧ poolStep s.pool e.1 = some (e.2, s'.pool)) := by
  have hgo₀ : s.pool.shutdown = false := by
    refine Bool.eq_false_iff.mpr fun hstop => ?_
    rw [(wakeStep_awake hs hstep).2 hstop] at hgo
    cases hgo
  -- falling asleep and waking up are no steps of the pool
  refine ⟨hgo₀, ?_⟩
  cases call with
  | submit func arg allocOk woken =>
      refine .inr ⟨(.submit func arg allocOk,
        .submitted (threadPoolSubmit s.pool func arg allocOk).1), ?_⟩
      rw [wakeStep] at hstep
      split at hstep
      · obtain ⟨rfl, rfl⟩ := Prod.mk.inj (Option.some.inj hstep)
        exact ⟨rfl, rfl⟩
      · split at hstep
        · obtain ⟨rfl, rfl⟩ := Prod.mk.inj (Option.some.inj hstep)
          exact ⟨rfl, rfl⟩
        · cases hstep
  | pass w =>
      rw [wakeStep] at hstep
      split at hstep
      · cases hstep
      · obtain ⟨⟨reply, pool'⟩, hpass, he⟩ := Option.map_eq_some_iff.mp hstep
        refine .inr ⟨(.pass w, reply), ?_⟩
        dsimp only at he
        split at he
        · obtain ⟨rfl, rfl⟩ := Prod.mk.inj he
          exact ⟨rfl, hpass⟩
        · obtain ⟨rfl, rfl⟩ := Prod.mk.inj he
          exact ⟨rfl, hpass⟩
  | finish w =>
      obtain ⟨⟨reply, pool'⟩, hfinish, he⟩ := Option.map_eq_some_iff.mp hstep
      obtain ⟨rfl, rfl⟩ := Prod.mk.inj he
      exact .inr ⟨(.finish w, reply), rfl, hfinish⟩
  | spurious w =>
      rw [wakeStep] at hstep
      split at hstep
      · obtain ⟨rfl, rfl⟩ := Prod.mk.inj (Option.some.inj hstep)
        exact .inl ⟨rfl, rfl⟩
      · cases hstep
  | broadcast =>
      obtain ⟨-, rfl⟩ := Prod.mk.inj (Option.some.inj hstep)
      cases hgo

/-- **The pool without its sleepers.** A run up to the shutdown is one of `poolStep`. -/
lemma wakeRun_simulates (hrun : exec wakeStep (sleepingCreate F A n) calls = some (log, s))
    (hgo : s.pool.shutdown = false) :
    exec poolStep (threadPoolCreate F A n) ((log.filterMap poolEvent).map Prod.fst) =
      some (log.filterMap poolEvent, s.pool) := by
  refine exec_keeps wakeStep (P := fun log s => s.pool.shutdown = false →
    exec poolStep (threadPoolCreate F A n) ((log.filterMap poolEvent).map Prod.fst) =
      some (log.filterMap poolEvent, s.pool)) ?_ (fun _ => rfl) hrun hgo
  intro log s call out s' hreach hlog hstep hgo'
  obtain ⟨ns, hs⟩ := wakeRun_awake hreach
  obtain ⟨hgo, hcases⟩ := wakeStep_simulates hs hstep hgo'
  have hold := hlog hgo
  rcases hcases with ⟨hnone, hpool⟩ | ⟨e, he, hpool⟩
  · rw [List.filterMap_append, List.filterMap_cons_none hnone, List.filterMap_nil,
      List.append_nil, hpool]
    exact hold
  · rw [List.filterMap_append, List.filterMap_cons_some he, List.filterMap_nil, List.map_append,
      List.map_singleton, exec_snoc poolStep hold, hpool]
    rfl

/-- What is submitted and what is taken, in a log of the pool with its sleepers. -/
def submittedItems (log : List (WakeCall F A n × Option (PoolReply F A))) : List (WorkItem F A) :=
  (log.filterMap poolEvent).filterMap submittedItem

def takenItems (log : List (WakeCall F A n × Option (PoolReply F A))) : List (WorkItem F A) :=
  ((log.filterMap poolEvent).filterMap takenItem).map Prod.snd

/-- The items submitted before the shutdown are those taken, in order, and those in the queue. -/
lemma wakeRun_accounts (hrun : exec wakeStep (sleepingCreate F A n) calls = some (log, s))
    (hgo : s.pool.shutdown = false) :
    ∃ ns, s.pool.Valid ns ∧ submittedItems log = takenItems log ++ ns.map Prod.snd := by
  obtain ⟨ns, hvalid, -, haccount⟩ := exec_keeps poolStep (P := QueueAccounts)
    (fun _ _ _ _ _ _ hlog hstep => poolStep_accounts hlog hstep)
    ⟨[], threadPoolCreate_valid, rfl, rfl⟩ (wakeRun_simulates hrun hgo)
  exact ⟨ns, hvalid, haccount⟩

/-- Steps of workers, one after the other: each leaves less to do. -/
lemma works_left {s s' : SleepingPool F A n} {ns : List (Ptr × WorkItem F A)} (hs : Awake s ns)
    {works : List (WakeCall F A n)} (hworks : ∀ call ∈ works, call.Works)
    {log : List (WakeCall F A n × Option (PoolReply F A))}
    (hrun : exec wakeStep s works = some (log, s')) :
    ∃ ns', Awake s' ns' ∧ s'.pool.shutdown = s.pool.shutdown ∧
      works.length + s'.left ns'.length ≤ s.left ns.length := by
  induction works generalizing s ns log with
  | nil =>
      obtain ⟨-, rfl⟩ := Prod.mk.inj (Option.some.inj hrun)
      exact ⟨ns, hs, rfl, by simp⟩
  | cons call works ih =>
      obtain ⟨out, s₁, log', hstep, hrest, -⟩ := exec_cons wakeStep hrun
      obtain ⟨hcall, hworks⟩ := List.forall_mem_cons.mp hworks
      obtain ⟨ns₁, hs₁, hsame₁, hless⟩ := hs.works hcall hstep
      obtain ⟨ns', hs', hsame', hle⟩ := ih hs₁ hworks hrest
      refine ⟨ns', hs', hsame'.trans hsame₁, ?_⟩
      rw [List.length_cons]
      omega

/-- The same for each worker, after the broadcast. -/
lemma worker_steps_le {s s' : SleepingPool F A n} {ns : List (Ptr × WorkItem F A)}
    (hs : Awake s ns) (hstop : s.pool.shutdown = true) {works : List (WakeCall F A n)}
    (hworks : ∀ call ∈ works, call.Works) {log : List (WakeCall F A n × Option (PoolReply F A))}
    (hrun : exec wakeStep s works = some (log, s')) (w : Fin n) :
    works.countP (fun call => call.worker = some w) + effort (s'.pool.workers w, s'.asleep w) ≤
      effort (s.pool.workers w, s.asleep w) := by
  induction works generalizing s ns log with
  | nil =>
      obtain ⟨-, rfl⟩ := Prod.mk.inj (Option.some.inj hrun)
      rw [List.countP_nil, Nat.zero_add]
  | cons call works ih =>
      obtain ⟨out, s₁, log', hstep, hrest, -⟩ := exec_cons wakeStep hrun
      obtain ⟨hcall, hworks⟩ := List.forall_mem_cons.mp hworks
      obtain ⟨ns₁, hs₁, hsame₁, -⟩ := hs.works hcall hstep
      have hone := hs.works_effort hstop hcall hstep w
      have hmore := ih hs₁ (hsame₁.trans hstop) hworks hrest
      rw [List.countP_cons]
      simp only [decide_eq_true_eq] at hone ⊢
      omega

/-- What is left to do, at most. -/
lemma left_le (s : SleepingPool F A n) (items : ℕ) :
    s.left items ≤ (if s.pool.shutdown then 0 else 3 * items) + 2 * n := by
  have hsum : ∑ w, effort (s.pool.workers w, s.asleep w) ≤ ∑ _w : Fin n, 2 :=
    Finset.sum_le_sum fun w _ => by
      cases s.pool.workers w <;> cases s.asleep w <;> simp [effort]
  rw [Finset.sum_const, Finset.card_univ, Fintype.card_fin, smul_eq_mul, Nat.mul_comm] at hsum
  exact Nat.add_le_add_left hsum _

/-- No worker can go on. -/
def SleepingPool.AtRest (s : SleepingPool F A n) : Prop :=
  ∀ call : WakeCall F A n, call.Works → wakeStep s call = none

/-- A worker that cannot go on sleeps, or has left its loop. -/
lemma atRest_worker (hrest : s.AtRest) (w : Fin n) :
    s.asleep w = true ∨ s.pool.workers w = .exited := by
  have hpass := hrest (.pass w) trivial
  have hfinish := hrest (.finish w) trivial
  cases hasleep : s.asleep w with
  | true => exact .inl rfl
  | false =>
      cases hw : s.pool.workers w with
      | ready => simp [wakeStep, hasleep, poolStep, hw] at hpass
      | working p => simp [wakeStep, poolStep, hw] at hfinish
      | exited => exact .inr rfl

end Runs

/-- **The queue drains.** In a pool that has a worker, before the shutdown, the workers can make
only a bounded number of steps while nothing is submitted and none of them wakes for no
reason, in whatever order; and when none of them can go on, the queue is empty and every item
ever submitted has been taken, in order. -/
theorem queue_drains (hn : 0 < n) (calls works : List (WakeCall F A n))
    (hworks : ∀ call ∈ works, call.Works)
    (log log' : List (WakeCall F A n × Option (PoolReply F A))) (s s' : SleepingPool F A n)
    (hrun : exec wakeStep (sleepingCreate F A n) calls = some (log, s))
    (hgo : s.pool.shutdown = false) (hrun' : exec wakeStep s works = some (log', s')) :
    (works.length : ℤ) ≤ 3 * s.pool.queue.count + 2 * n ∧
      (s'.AtRest → s'.pool.queue.head = none ∧
        takenItems (log ++ log') = submittedItems (log ++ log')) := by
  obtain ⟨ns, hs⟩ := wakeRun_awake hrun
  obtain ⟨ns', hs', hsame, hleft⟩ := works_left hs hworks hrun'
  have hgo' : s'.pool.shutdown = false := hsame.trans hgo
  refine ⟨?_, fun hrest => ?_⟩
  · have hle := left_le s ns.length
    simp only [hgo, Bool.false_eq_true, if_false] at hle
    rw [hs.valid.queue.count]
    omega
  · have hasleep : ∀ w, s'.asleep w = true := by
      intro w
      rcases atRest_worker hrest w with h | h
      · exact h
      · rw [hs'.loop w h] at hgo'
        cases hgo'
    have hnobody : s'.coming = 0 := by
      rw [coming_eq_card, Finset.card_eq_zero, Finset.filter_eq_empty_iff]
      intro w _
      simp [hasleep w]
    have hempty : ns' = [] := by
      have hle := hs'.enough ⟨⟨0, hn⟩, hasleep ⟨0, hn⟩⟩
      rw [hnobody] at hle
      exact List.eq_nil_of_length_eq_zero (Nat.le_zero.mp hle)
    subst hempty
    have hall : exec wakeStep (sleepingCreate F A n) (calls ++ works) = some (log ++ log', s') := by
      rw [exec_append, hrun, Option.bind_some, hrun', Option.map_some]
    obtain ⟨ns, hvalid, haccount⟩ := wakeRun_accounts hall hgo'
    have hhead : s'.pool.queue.head = none := hs'.valid.queue.chain
    have hnil : ns = [] := chain_none (hhead ▸ hvalid.queue.chain)
    rw [hnil, List.map_nil, List.append_nil] at haccount
    exact ⟨hhead, haccount.symm⟩

/-- A sleeping worker is woken by a submission. -/
def wokenCalls (w : Fin n) : List (WakeCall Unit ℕ n) :=
  [.pass w, .submit (some ()) 7 true fun _ => true]

/-- It takes the item, works on it, and sleeps again. -/
def wokenWorks (w : Fin n) : List (WakeCall Unit ℕ n) := [.pass w, .finish w, .pass w]

lemma wokenWorks_work (w : Fin n) : ∀ call ∈ wokenWorks w, call.Works := by
  simp [wokenWorks, WakeCall.Works]

/-- Where the only worker sleeps, no worker can go on. -/
lemma atRest_of_asleep {s : SleepingPool F A 1} (h : s.asleep 0 = true)
    (hw : s.pool.workers 0 = .ready) : s.AtRest := by
  intro call hcall
  cases call with
  | pass w =>
      obtain rfl : w = 0 := Subsingleton.elim ..
      rw [wakeStep, if_pos h]
  | finish w =>
      obtain rfl : w = 0 := Subsingleton.elim ..
      simp [wakeStep, poolStep, hw]
  | submit func arg allocOk woken => exact hcall.elim
  | spurious w => exact hcall.elim
  | broadcast => exact hcall.elim

/-- The item is taken. -/
theorem queue_drains_woken : ∃ log log' s s',
    exec wakeStep (sleepingCreate Unit ℕ 1) (wokenCalls 0) = some (log, s) ∧
    exec wakeStep s (wokenWorks 0) = some (log', s') ∧
    takenItems (log ++ log') = [⟨(), 7⟩] ∧
    takenItems (log ++ log') = submittedItems (log ++ log') := by
  refine ⟨_, _, _, _, rfl, rfl, rfl, ?_⟩
  exact ((queue_drains Nat.one_pos (wokenCalls 0) (wokenWorks 0) (wokenWorks_work 0)
    _ _ _ _ rfl rfl rfl).2 (atRest_of_asleep rfl rfl)).2

/-- **The workers leave.** After the broadcast of `thread_pool_destroy` each worker makes at
most two steps, in whatever order they run, and when none of them can go on all have left
their loops, so that every `pthread_join` returns. -/
theorem workers_exit (calls works : List (WakeCall F A n))
    (hworks : ∀ call ∈ works, call.Works)
    (log log' : List (WakeCall F A n × Option (PoolReply F A))) (s s' : SleepingPool F A n)
    (hrun : exec wakeStep (sleepingCreate F A n) calls = some (log, s))
    (hstop : s.pool.shutdown = true) (hrun' : exec wakeStep s works = some (log', s')) :
    (∀ w, works.countP (fun call => call.worker = some w) ≤ 2) ∧ works.length ≤ 2 * n ∧
      (s'.AtRest → ∀ w, s'.pool.workers w = .exited) := by
  obtain ⟨ns, hs⟩ := wakeRun_awake hrun
  obtain ⟨ns', hs', hsame, hleft⟩ := works_left hs hworks hrun'
  refine ⟨fun w => ?_, ?_, fun hrest w => ?_⟩
  · have hle := worker_steps_le hs hstop hworks hrun' w
    have htwo : effort (s.pool.workers w, s.asleep w) ≤ 2 := by
      cases s.pool.workers w <;> cases s.asleep w <;> simp [effort]
    omega
  · have hle := left_le s ns.length
    simp only [hstop, if_true] at hle
    omega
  · rcases atRest_worker hrest w with h | h
    · rw [hs'.stopped (hsame.trans hstop) w] at h
      cases h
    · exact h

/-- A worker is at its work when the pool is destroyed. -/
def brokenCalls (w : Fin n) : List (WakeCall Unit ℕ n) :=
  [.submit (some ()) 7 true fun _ => false, .pass w, .broadcast]

def brokenWorks (w : Fin n) : List (WakeCall Unit ℕ n) := [.finish w, .pass w]

lemma brokenWorks_work (w : Fin n) : ∀ call ∈ brokenWorks w, call.Works := by
  simp [brokenWorks, WakeCall.Works]

/-- It comes back from its work and leaves. -/
theorem workers_exit_broken : ∃ log log' s s',
    exec wakeStep (sleepingCreate Unit ℕ 1) (brokenCalls 0) = some (log, s) ∧
    exec wakeStep s (brokenWorks 0) = some (log', s') ∧
    (brokenWorks (0 : Fin 1)).countP (fun call => call.worker = some 0) ≤ 2 ∧
    s'.pool.workers 0 = .exited := by
  refine ⟨_, _, _, _, rfl, rfl, ?_⟩
  obtain ⟨hsteps, -, hleave⟩ := workers_exit (brokenCalls 0) (brokenWorks 0)
    (brokenWorks_work (0 : Fin 1)) _ _ _ _ rfl rfl rfl
  refine ⟨hsteps 0, hleave (fun call hcall => ?_) 0⟩
  cases call with
  | pass w =>
      obtain rfl : w = 0 := Subsingleton.elim ..
      rfl
  | finish w =>
      obtain rfl : w = 0 := Subsingleton.elim ..
      rfl
  | submit func arg allocOk woken => exact hcall.elim
  | spurious w => exact hcall.elim
  | broadcast => exact hcall.elim

end ProxyMax
