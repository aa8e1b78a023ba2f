import ProxyMax.Cache.Table
import ProxyMax.Lib.LinkedList

/-!
`src/core/threading.c`: the thread pool, a work queue under a mutex and the
workers that serve it.

* `WorkQueue`, `ThreadPool`: the linked queue in its memory, what each worker is
  at, and the shutdown flag.
* `threadPoolSubmit`, `workerPass`, `workerFinish`: a submission, a pass of a
  worker through its critical section, and the work it then does outside it.
* `ThreadPool.Valid`: the invariant. The queue is a chain of nodes that ends at
  `tail`, `count` is its length, and the workers hold nodes of their own.
* `PoolCall`, `poolStep`: the pool before its shutdown, as a machine whose steps
  are those of the queue mutex.
* `workQueue_correct`: in every run, the items submitted are the items taken,
  in order, and behind them the items in the queue.
-/

namespace ProxyMax

open LinkedList Machine

variable {F A : Type} {n : ℕ}

/-- `work_item_t`, without its link. -/
structure WorkItem (F A : Type) where
  function : F
  argument : A
  deriving DecidableEq

/-- `work_queue_t`, with the memory its items are in. Each item that the server
queues holds an open descriptor, which is an `int`, so `count` is far from its
limits and stands as an integer. -/
structure WorkQueue (F A : Type) where
  heap : Ptr → Option (Node Ptr (WorkItem F A))
  fresh : Ptr
  head : Option Ptr
  tail : Option Ptr
  count : ℤ

/-- Where a worker is: before its critical section, behind it with an item to
work on, or out of its loop. -/
inductive Worker where
  | ready
  | working (item : Ptr)
  | exited
  deriving DecidableEq

/-- `struct thread_pool` with the workers it started. -/
structure ThreadPool (F A : Type) (n : ℕ) where
  queue : WorkQueue F A
  workers : Fin n → Worker
  shutdown : Bool

/-- `thread_pool_create`, when `malloc` and `pthread_create` succeed. -/
def threadPoolCreate (F A : Type) (n : ℕ) : ThreadPool F A n where
  queue := { heap := fun _ => none, fresh := 0, head := none, tail := none, count := 0 }
  workers := fun _ => .ready
  shutdown := false

/-- `item->next = next`. -/
def setNext (heap : Ptr → Option (Node Ptr (WorkItem F A))) (item next : Ptr) :
    Ptr → Option (Node Ptr (WorkItem F A)) :=
  Function.update heap item ((heap item).map fun node => { node with next := some next })

/-- The critical section of `thread_pool_submit`, with the item that `malloc` gave. -/
def WorkQueue.push (q : WorkQueue F A) (work : WorkItem F A) : WorkQueue F A :=
  let item := q.fresh
  let heap := Function.update q.heap item (some ⟨work, none⟩)
  match q.tail with
  | some tail =>
      { heap := setNext heap tail item, fresh := item + 1, head := q.head, tail := some item
        count := q.count + 1 }
  | none =>
      { heap, fresh := item + 1, head := some item, tail := some item, count := q.count + 1 }

/-- `thread_pool_submit` on a pool that is there; `allocOk` tells whether `malloc` succeeds. -/
def threadPoolSubmit (pool : ThreadPool F A n) (func : Option F) (arg : A) (allocOk : Bool) :
    ℤ × ThreadPool F A n :=
  match func with
  | none => (-1, pool)
  | some func =>
      if allocOk then (0, { pool with queue := pool.queue.push ⟨func, arg⟩ }) else (-1, pool)

/-- "Get work item": the head of the queue, which is unlinked. -/
def WorkQueue.pop (q : WorkQueue F A) : Option Ptr × WorkQueue F A :=
  match q.head with
  | none => (none, q)
  | some item =>
      let head := (q.heap item).bind Node.next
      (some item,
        { q with head, tail := if head = none then none else q.tail, count := q.count - 1 })

/-- What a worker's pass comes to: it waits on the condition, leaves the loop, or
goes on with the item it took, if it took one. -/
inductive Pass (F A : Type) where
  | waits
  | exits
  | takes (item : Option (WorkItem F A))
  deriving DecidableEq

/-- The critical section of `worker_thread`. -/
def workerPass (pool : ThreadPool F A n) (w : Fin n) : Pass F A × ThreadPool F A n :=
  if pool.queue.count = 0 ∧ pool.shutdown = false then
    (.waits, pool)
  else if pool.shutdown then
    (.exits, { pool with workers := Function.update pool.workers w .exited })
  else
    match pool.queue.pop with
    | (none, queue) => (.takes none, { pool with queue })
    | (some item, queue) =>
        (.takes ((pool.queue.heap item).map Node.value),
          { pool with queue, workers := Function.update pool.workers w (.working item) })

/-- "Execute work" on `item`, which is freed then; the result is what was executed. -/
def workerFinish (pool : ThreadPool F A n) (w : Fin n) (item : Ptr) :
    Option (WorkItem F A) × ThreadPool F A n :=
  ((pool.queue.heap item).map Node.value,
    { pool with
      queue := { pool.queue with heap := Function.update pool.queue.heap item none }
      workers := Function.update pool.workers w .ready })

/-! ### The queue -/

/-- The queue links the nodes `ns`. -/
structure WorkQueue.Valid (q : WorkQueue F A) (ns : List (Ptr × WorkItem F A)) : Prop where
  chain : Chain q.heap q.head ns
  count : q.count = ns.length
  tail : q.tail = lastAddress ns
  fresh : ∀ p, q.fresh ≤ p → q.heap p = none

section Queue

variable {q : WorkQueue F A} {ns : List (Ptr × WorkItem F A)}

lemma WorkQueue.Valid.lt_fresh (hq : q.Valid ns) {p : Ptr} (hp : (q.heap p).isSome) :
    p < q.fresh := by
  refine lt_of_not_ge fun hle => ?_
  rw [hq.fresh p hle] at hp
  simp at hp

lemma WorkQueue.Valid.mem_heap (hq : q.Valid ns) {p : Ptr} (hp : p ∈ ns.map Prod.fst) :
    (q.heap p).isSome := by
  obtain ⟨node, hmem, rfl⟩ := List.mem_map.mp hp
  obtain ⟨nx, hnx⟩ := chain_mem hq.chain hmem
  simp [hnx]

lemma WorkQueue.Valid.fresh_not_mem (hq : q.Valid ns) : q.fresh ∉ ns.map Prod.fst :=
  fun h => lt_irrefl _ (hq.lt_fresh (hq.mem_heap h))

/-- What a link set by `setNext` leaves as it was. -/
lemma setNext_value (heap : Ptr → Option (Node Ptr (WorkItem F A))) (item next p : Ptr) :
    (setNext heap item next p).map Node.value = (heap p).map Node.value := by
  rw [setNext]
  by_cases hp : p = item
  · subst hp
    cases heap p <;> simp
  · rw [Function.update_of_ne hp]

/-- Above the address `malloc` hands out, the memory is empty after it too. -/
lemma WorkQueue.Valid.fresh_update (hq : q.Valid ns) (node : Node Ptr (WorkItem F A)) {p : Ptr}
    (hp : q.fresh + 1 ≤ p) : Function.update q.heap q.fresh (some node) p = none := by
  rw [Function.update_of_ne (Nat.lt_of_succ_le hp).ne']
  exact hq.fresh p (Nat.le_of_succ_le hp)

/-- A submitted item becomes the last one of the queue. -/
lemma push_valid (hq : q.Valid ns) (work : WorkItem F A) :
    (q.push work).Valid (ns ++ [(q.fresh, work)]) := by
  have hnew := hq.fresh_not_mem
  have hlen : q.count + 1 = ((ns ++ [(q.fresh, work)]).length : ℕ) := by
    rw [hq.count, List.length_append]
    simp
  have hold := chain_update hq.chain hnew (some ⟨work, none⟩)
  rw [WorkQueue.push]
  rcases List.eq_nil_or_concat' ns with rfl | ⟨ns, ⟨t, a⟩, rfl⟩
  · have htail : q.tail = none := hq.tail
    rw [htail]
    exact ⟨⟨rfl, none, by simp, rfl⟩, hlen, rfl, fun p hp => hq.fresh_update _ hp⟩
  · have htail : q.tail = some t := by rw [hq.tail, lastAddress_snoc]
    obtain ⟨nx, hnx⟩ : ∃ nx, Function.update q.heap q.fresh (some ⟨work, none⟩) t =
        some ⟨a, nx⟩ := chain_mem hold (List.mem_append_right _ (List.mem_singleton_self (t, a)))
    have hlink : setNext (Function.update q.heap q.fresh (some ⟨work, none⟩)) t q.fresh =
        Function.update (Function.update q.heap q.fresh (some ⟨work, none⟩)) t
          (some ⟨a, some q.fresh⟩) := by
      rw [setNext, hnx, Option.map_some]
    rw [htail]
    refine ⟨?_, hlen, by rw [lastAddress_snoc], ?_⟩
    · show Chain (setNext _ t q.fresh) q.head _
      rw [hlink, List.append_assoc]
      exact chain_snoc hold (by simp) hnew
    · intro p hp
      show setNext _ t q.fresh p = none
      have hne : p ≠ t := by
        rintro rfl
        rw [hq.fresh_update _ hp] at hnx
        simp at hnx
      rw [setNext, Function.update_of_ne hne]
      exact hq.fresh_update _ hp

/-- What is stored below the new item keeps its value. -/
lemma push_value (work : WorkItem F A) {p : Ptr} (hp : p ≠ q.fresh) :
    ((q.push work).heap p).map Node.value = (q.heap p).map Node.value := by
  rw [WorkQueue.push]
  cases q.tail with
  | none => simp only [Function.update_of_ne hp]
  | some tail => simp only [setNext_value, Function.update_of_ne hp]

/-- The item taken is the first of the queue; the others stay. -/
lemma pop_cons {p : Ptr} {a : WorkItem F A} (hq : q.Valid ((p, a) :: ns)) :
    ∃ queue, q.pop = (some p, queue) ∧ queue.Valid ns ∧ queue.heap = q.heap ∧
      ∃ nx, q.heap p = some ⟨a, nx⟩ := by
  obtain ⟨hhead, nx, hp, hrest⟩ := hq.chain
  have htail : (if nx = none then none else q.tail) = lastAddress ns := by
    rw [hq.tail]
    cases ns with
    | nil =>
        have hnx : nx = none := hrest
        rw [if_pos hnx, lastAddress_nil]
    | cons m ns =>
        have hnx : nx = some m.1 := hrest.1
        rw [hnx, if_neg (by simp), lastAddress_cons_cons]
  have hcount : q.count - 1 = (ns.length : ℤ) := by
    rw [hq.count, List.length_cons]
    omega
  refine ⟨{ q with head := nx, tail := if nx = none then none else q.tail, count := q.count - 1 },
    ?_, ⟨hrest, hcount, htail, hq.fresh⟩, rfl, nx, hp⟩
  simp only [WorkQueue.pop, hhead, hp, Option.bind_some]

/-- A node that is not in the queue is freed. -/
lemma free_valid (hq : q.Valid ns) {p : Ptr} (hp : p ∉ ns.map Prod.fst) :
    WorkQueue.Valid { q with heap := Function.update q.heap p none } ns := by
  refine ⟨chain_update hq.chain hp none, hq.count, hq.tail, fun p' hp' => ?_⟩
  by_cases he : p' = p
  · simp [he]
  · simp only [Function.update_of_ne he]
    exact hq.fresh p' hp'

end Queue

/-! ### The invariant of the pool -/

/-- The work a worker is at. -/
def ThreadPool.held (pool : ThreadPool F A n) (w : Fin n) : Option (WorkItem F A) :=
  match pool.workers w with
  | .working item => (pool.queue.heap item).map Node.value
  | _ => none

/-- **The invariant.** The queue links the nodes `ns` and each worker holds one of
its own, if it holds one. -/
structure ThreadPool.Valid (pool : ThreadPool F A n) (ns : List (Ptr × WorkItem F A)) : Prop where
  queue : pool.queue.Valid ns
  stored : ∀ w p, pool.workers w = .working p → (pool.queue.heap p).isSome
  taken : ∀ w p, pool.workers w = .working p → p ∉ ns.map Prod.fst
  apart : ∀ w w' p, pool.workers w = .working p → pool.workers w' = .working p → w = w'

lemma threadPoolCreate_valid : (threadPoolCreate F A n).Valid [] where
  queue := ⟨rfl, rfl, rfl, fun _ _ => rfl⟩
  stored := fun w p h => by simp [threadPoolCreate] at h
  taken := fun w p h => by simp [threadPoolCreate] at h
  apart := fun w w' p h => by simp [threadPoolCreate] at h

lemma held_of_exited {pool : ThreadPool F A n} {w : Fin n} (hw : pool.workers w = .exited) :
    pool.held w = none := by
  simp [ThreadPool.held, hw]

/-- Who holds an item after a step of the worker `w`: that worker, or one that held it before. -/
lemma eq_working_of_update {workers : Fin n → Worker} {w w' : Fin n} {a : Worker} {p : Ptr}
    (h : Function.update workers w a w' = .working p) :
    (w' = w ∧ a = .working p) ∨ (w' ≠ w ∧ workers w' = .working p) := by
  by_cases he : w' = w
  · rw [he, Function.update_self] at h
    exact .inl ⟨he, h⟩
  · rw [Function.update_of_ne he] at h
    exact .inr ⟨he, h⟩

section Pool

variable {pool : ThreadPool F A n} {ns : List (Ptr × WorkItem F A)}

/-- A submission, after `malloc` gave an item. -/
lemma threadPoolSubmit_valid (hpool : pool.Valid ns) (func : F) (arg : A) :
    (threadPoolSubmit pool (some func) arg true).1 = 0 ∧
      (threadPoolSubmit pool (some func) arg true).2.Valid
        (ns ++ [(pool.queue.fresh, ⟨func, arg⟩)]) ∧
      (threadPoolSubmit pool (some func) arg true).2.held = pool.held := by
  have hne : ∀ w p, pool.workers w = .working p → p ≠ pool.queue.fresh := fun w p hw =>
    (hpool.queue.lt_fresh (hpool.stored w p hw)).ne
  refine ⟨rfl, ⟨push_valid hpool.queue _, fun w p hw => ?_, fun w p hw => ?_, hpool.apart⟩, ?_⟩
  · have hv := push_value (q := pool.queue) ⟨func, arg⟩ (hne w p hw)
    rw [← Option.isSome_map (f := Node.value)]
    show (((pool.queue.push _).heap p).map Node.value).isSome
    rw [hv, Option.isSome_map]
    exact hpool.stored w p hw
  · rw [List.map_append, List.mem_append, not_or]
    exact ⟨hpool.taken w p hw, by simpa using hne w p hw⟩
  · funext w
    rw [ThreadPool.held, ThreadPool.held]
    show (match pool.workers w with
      | .working item => ((pool.queue.push _).heap item).map Node.value
      | _ => none) = _
    cases hw : pool.workers w with
    | ready => rfl
    | working p => exact push_value _ (hne w p hw)
    | exited => rfl

/-- A worker that finds an empty queue waits. -/
lemma workerPass_empty (hpool : pool.Valid []) (hrun : pool.shutdown = false) (w : Fin n) :
    workerPass pool w = (.waits, pool) := by
  rw [workerPass, if_pos ⟨hpool.queue.count, hrun⟩]

/-- A worker takes the first item of the queue. -/
lemma workerPass_cons {p : Ptr} {a : WorkItem F A} (hpool : pool.Valid ((p, a) :: ns))
    (hrun : pool.shutdown = false) (w : Fin n) :
    ∃ pool', workerPass pool w = (.takes (some a), pool') ∧ pool'.Valid ns ∧
      pool'.held = Function.update pool.held w (some a) ∧ pool'.shutdown = false := by
  obtain ⟨queue, hpop, hvalid, hheap, nx, hp⟩ := pop_cons hpool.queue
  have hnd := chain_nodup hpool.queue.chain
  rw [List.map_cons, List.nodup_cons] at hnd
  have hother : ∀ w' p', Function.update pool.workers w (.working p) w' = .working p' →
      (w' = w ∧ p' = p) ∨ (w' ≠ w ∧ pool.workers w' = .working p') := by
    intro w' p' h
    rcases eq_working_of_update h with ⟨he, hp⟩ | hold
    · exact .inl ⟨he, (Worker.working.inj hp).symm⟩
    · exact .inr hold
  -- the item leaves the queue and stays in memory for its worker
  refine ⟨{ pool with queue, workers := Function.update pool.workers w (.working p) },
    ?_, ⟨hvalid, ?_, ?_, ?_⟩, ?_, hrun⟩
  · have hcount : pool.queue.count ≠ 0 := by
      rw [hpool.queue.count, List.length_cons]
      omega
    simp only [workerPass, hcount, hrun, hpop, hp, false_and, if_false, Option.map_some,
      Bool.false_eq_true]
  · intro w' p' h
    show (queue.heap p').isSome
    rw [hheap]
    rcases hother w' p' h with ⟨-, rfl⟩ | ⟨-, h⟩
    · simp [hp]
    · exact hpool.stored w' p' h
  · intro w' p' h
    rcases hother w' p' h with ⟨-, rfl⟩ | ⟨-, h⟩
    · exact hnd.1
    · exact fun hmem => hpool.taken w' p' h (List.mem_cons_of_mem _ hmem)
  -- nobody else works on it: it was in the queue until now
  · intro w₁ w₂ p' h₁ h₂
    have hnew : ∀ w', pool.workers w' ≠ .working p := fun w' hw' =>
      hpool.taken w' p hw' (List.mem_cons_self ..)
    rcases hother w₁ p' h₁ with ⟨he₁, hp₁⟩ | ⟨-, hold₁⟩
    · rcases hother w₂ p' h₂ with ⟨he₂, -⟩ | ⟨-, hold₂⟩
      · rw [he₁, he₂]
      · exact absurd (hp₁ ▸ hold₂) (hnew w₂)
    · rcases hother w₂ p' h₂ with ⟨-, hp₂⟩ | ⟨-, hold₂⟩
      · exact absurd (hp₂ ▸ hold₁) (hnew w₁)
      · exact hpool.apart w₁ w₂ p' hold₁ hold₂
  · funext w'
    by_cases he : w' = w
    · simp [he, ThreadPool.held, hheap, hp]
    · simp [he, ThreadPool.held, hheap]

/-- A worker whose pool shuts down leaves its loop. -/
lemma workerPass_shutdown (hstop : pool.shutdown = true) (w : Fin n) :
    workerPass pool w =
      (.exits, { pool with workers := Function.update pool.workers w .exited }) := by
  rw [workerPass, if_neg (by simp [hstop]), if_pos hstop]

/-- A worker that leaves gives up nothing. -/
lemma exited_valid (hpool : pool.Valid ns) {w : Fin n} (hw : pool.workers w = .ready) :
    ThreadPool.Valid { pool with workers := Function.update pool.workers w .exited } ns ∧
      ThreadPool.held { pool with workers := Function.update pool.workers w .exited } =
        pool.held := by
  have hother : ∀ w' p', Function.update pool.workers w .exited w' = .working p' →
      pool.workers w' = .working p' := by
    intro w' p' h
    rcases eq_working_of_update h with ⟨-, hp⟩ | ⟨-, hold⟩
    · exact absurd hp (by simp)
    · exact hold
  refine ⟨⟨hpool.queue, fun w' p' h => hpool.stored w' p' (hother w' p' h),
    fun w' p' h => hpool.taken w' p' (hother w' p' h),
    fun w₁ w₂ p' h₁ h₂ => hpool.apart w₁ w₂ p' (hother w₁ p' h₁) (hother w₂ p' h₂)⟩, ?_⟩
  funext w'
  by_cases he : w' = w
  · simp [he, ThreadPool.held, hw]
  · simp [he, ThreadPool.held]

/-- A worker does the work it holds and frees the item; the other workers and the
queue keep theirs. -/
lemma workerFinish_valid (hpool : pool.Valid ns) {w : Fin n} {p : Ptr}
    (hw : pool.workers w = .working p) :
    ∃ work, pool.held w = some work ∧ (workerFinish pool w p).1 = some work ∧
      (workerFinish pool w p).2.Valid ns ∧
      (workerFinish pool w p).2.held = Function.update pool.held w none := by
  obtain ⟨node, hnode⟩ := Option.isSome_iff_exists.mp (hpool.stored w p hw)
  have hother : ∀ w' p', Function.update pool.workers w .ready w' = .working p' →
      w' ≠ w ∧ pool.workers w' = .working p' ∧ p' ≠ p := by
    intro w' p' h
    rcases eq_working_of_update h with ⟨-, hp⟩ | ⟨he, hold⟩
    · exact absurd hp (by simp)
    · exact ⟨he, hold, fun hp => he (hpool.apart w' w p (hp ▸ hold) hw)⟩
  refine ⟨node.value, by simp [ThreadPool.held, hw, hnode], by simp [workerFinish, hnode],
    ⟨free_valid hpool.queue (hpool.taken w p hw), fun w' p' h => ?_, fun w' p' h => ?_,
      fun w₁ w₂ p' h₁ h₂ => ?_⟩, ?_⟩
  · obtain ⟨-, hold, hp⟩ := hother w' p' h
    show (Function.update pool.queue.heap p none p').isSome
    rw [Function.update_of_ne hp]
    exact hpool.stored w' p' hold
  · exact hpool.taken w' p' (hother w' p' h).2.1
  · exact hpool.apart w₁ w₂ p' (hother w₁ p' h₁).2.1 (hother w₂ p' h₂).2.1
  · funext w'
    by_cases he : w' = w
    · simp [he, ThreadPool.held, workerFinish]
    · rw [Function.update_of_ne he, ThreadPool.held, ThreadPool.held]
      show (match Function.update pool.workers w .ready w' with
        | .working item => (Function.update pool.queue.heap p none item).map Node.value
        | _ => none) = _
      rw [Function.update_of_ne he]
      cases hw' : pool.workers w' with
      | ready => rfl
      | working p' =>
          have hne : p' ≠ p := fun hp => he (hpool.apart w' w p (hp ▸ hw') hw)
          simp only [Function.update_of_ne hne]
      | exited => rfl

end Pool

/-! ### The pool as a machine -/

/-- What happens to the pool: a submission, a pass of a worker through its critical
section, the end of the work of a worker. -/
inductive PoolCall (F A : Type) (n : ℕ) where
  | submit (func : Option F) (arg : A) (allocOk : Bool)
  | pass (w : Fin n)
  | finish (w : Fin n)

/-- What is seen of it: the result of a submission, what a pass comes to, what a
worker executed. -/
inductive PoolReply (F A : Type) where
  | submitted (code : ℤ)
  | passed (p : Pass F A)
  | executed (work : Option (WorkItem F A))
  deriving DecidableEq

/-- A step of the pool; there is none where the worker is not at that point. -/
def poolStep (pool : ThreadPool F A n) :
    PoolCall F A n → Option (PoolReply F A × ThreadPool F A n)
  | .submit func arg allocOk =>
      let r := threadPoolSubmit pool func arg allocOk
      some (.submitted r.1, r.2)
  | .pass w =>
      match pool.workers w with
      | .ready =>
          let r := workerPass pool w
          some (.passed r.1, r.2)
      | _ => none
  | .finish w =>
      match pool.workers w with
      | .working item =>
          let r := workerFinish pool w item
          some (.executed r.1, r.2)
      | _ => none

/-- A pass of a worker: it waits for work, takes the first item, or leaves. -/
lemma poolStep_pass {pool pool' : ThreadPool F A n} {ns : List (Ptr × WorkItem F A)} {w : Fin n}
    {reply : PoolReply F A} (hpool : pool.Valid ns)
    (hstep : poolStep pool (.pass w) = some (reply, pool')) :
    pool.held w = none ∧ pool'.shutdown = pool.shutdown ∧
      ((pool.shutdown = false ∧ ns = [] ∧ reply = .passed .waits ∧ pool' = pool) ∨
        (∃ p work ns', pool.shutdown = false ∧ ns = (p, work) :: ns' ∧
          reply = .passed (.takes (some work)) ∧ pool'.Valid ns' ∧
          pool'.held = Function.update pool.held w (some work)) ∨
        (pool.shutdown = true ∧ reply = .passed .exits ∧ pool'.Valid ns ∧
          pool'.held = pool.held)) := by
  cases hw : pool.workers w with
  | working p => simp [poolStep, hw] at hstep
  | exited => simp [poolStep, hw] at hstep
  | ready =>
      simp only [poolStep, hw, Option.some.injEq, Prod.mk.injEq] at hstep
      refine ⟨by simp [ThreadPool.held, hw], ?_⟩
      cases hrun : pool.shutdown with
      | true =>
          rw [workerPass_shutdown hrun] at hstep
          obtain ⟨rfl, rfl⟩ := hstep
          obtain ⟨hvalid, hheld⟩ := exited_valid hpool hw
          exact ⟨hrun, .inr (.inr ⟨rfl, rfl, hvalid, hheld⟩)⟩
      | false =>
          cases ns with
          | nil =>
              rw [workerPass_empty hpool hrun w] at hstep
              obtain ⟨rfl, rfl⟩ := hstep
              exact ⟨hrun, .inl ⟨rfl, rfl, rfl, rfl⟩⟩
          | cons node ns =>
              obtain ⟨pool₁, hpass, hvalid, hheld, hrun₁⟩ := workerPass_cons hpool hrun w
              rw [hpass] at hstep
              obtain ⟨rfl, rfl⟩ := hstep
              exact ⟨hrun₁, .inr (.inl ⟨_, _, ns, rfl, rfl, rfl, hvalid, hheld⟩)⟩

/-- The end of a worker's work: it was at an item, and executed it. -/
lemma poolStep_finish {pool pool' : ThreadPool F A n} {ns : List (Ptr × WorkItem F A)} {w : Fin n}
    {reply : PoolReply F A} (hpool : pool.Valid ns)
    (hstep : poolStep pool (.finish w) = some (reply, pool')) :
    ∃ work, pool.held w = some work ∧ reply = .executed (some work) ∧ pool'.Valid ns ∧
      pool'.held = Function.update pool.held w none ∧ pool'.shutdown = pool.shutdown := by
  cases hw : pool.workers w with
  | ready => simp [poolStep, hw] at hstep
  | exited => simp [poolStep, hw] at hstep
  | working p =>
      simp only [poolStep, hw, Option.some.injEq, Prod.mk.injEq] at hstep
      obtain ⟨rfl, rfl⟩ := hstep
      obtain ⟨work, hheld, hwork, hvalid, hheld'⟩ := workerFinish_valid hpool hw
      exact ⟨work, hheld, by rw [hwork], hvalid, hheld', rfl⟩

/-- The item that was submitted, if it was. -/
def submittedItem : PoolCall F A n × PoolReply F A → Option (WorkItem F A)
  | (.submit (some func) arg _, .submitted code) => if code = 0 then some ⟨func, arg⟩ else none
  | _ => none

/-- The item that was taken and the worker that took it. -/
def takenItem : PoolCall F A n × PoolReply F A → Option (Fin n × WorkItem F A)
  | (.pass w, .passed (.takes item)) => item.map (Prod.mk w)
  | _ => none

/-- The queue is a valid one, and the items of the log are in it or taken. -/
def QueueAccounts (log : List (PoolCall F A n × PoolReply F A)) (pool : ThreadPool F A n) : Prop :=
  ∃ ns, pool.Valid ns ∧ pool.shutdown = false ∧
    log.filterMap submittedItem =
      (log.filterMap takenItem).map Prod.snd ++ ns.map Prod.snd

/-- Every step of the pool keeps its account. -/
lemma poolStep_accounts {log : List (PoolCall F A n × PoolReply F A)}
    {pool pool' : ThreadPool F A n} {call : PoolCall F A n} {reply : PoolReply F A}
    (hlog : QueueAccounts log pool) (hstep : poolStep pool call = some (reply, pool')) :
    QueueAccounts (log ++ [(call, reply)]) pool' := by
  obtain ⟨ns, hvalid, hrun, haccount⟩ := hlog
  have hsame : ∀ {pool₁ : ThreadPool F A n}, pool₁.Valid ns → pool₁.shutdown = false →
      submittedItem (call, reply) = none → takenItem (call, reply) = none →
        QueueAccounts (log ++ [(call, reply)]) pool₁ := by
    intro pool₁ hvalid₁ hrun₁ hsub htake
    refine ⟨ns, hvalid₁, hrun₁, ?_⟩
    simp [List.filterMap_append, hsub, htake, haccount]
  cases call with
  | submit func arg allocOk =>
      simp only [poolStep, Option.some.injEq, Prod.mk.injEq] at hstep
      obtain ⟨rfl, rfl⟩ := hstep
      cases func with
      | none => exact hsame hvalid hrun rfl rfl
      | some func =>
          cases allocOk with
          | false => exact hsame hvalid hrun rfl rfl
          | true =>
              obtain ⟨-, hvalid', -⟩ := threadPoolSubmit_valid hvalid func arg
              refine ⟨_, hvalid', hrun, ?_⟩
              simp [List.filterMap_append, submittedItem, takenItem, threadPoolSubmit, haccount]
  | pass w =>
      obtain ⟨-, hrun', hcases⟩ := poolStep_pass hvalid hstep
      rw [hrun] at hrun'
      rcases hcases with ⟨-, -, rfl, rfl⟩ | ⟨p, work, ns', -, rfl, rfl, hvalid', -⟩ | ⟨hstop, -⟩
      · exact hsame hvalid hrun rfl rfl
      · refine ⟨ns', hvalid', hrun', ?_⟩
        simp [List.filterMap_append, submittedItem, takenItem, haccount]
      · simp [hrun] at hstop
  | finish w =>
      obtain ⟨work, -, rfl, hvalid', -, hrun'⟩ := poolStep_finish hvalid hstep
      exact hsame hvalid' (hrun'.trans hrun) rfl rfl

/-- **The work queue.** In every run of submissions and workers, `count` is the
number of nodes reachable from `head`, `tail` is the last of them, and the items
submitted so far are, in order, those that were taken, each at its place by one
worker, and those that are in the queue. -/
theorem workQueue_correct (calls : List (PoolCall F A n))
    (log : List (PoolCall F A n × PoolReply F A)) (pool : ThreadPool F A n)
    (hrun : exec poolStep (threadPoolCreate F A n) calls = some (log, pool)) :
    ∃ ns, Chain pool.queue.heap pool.queue.head ns ∧
      (ns.map Prod.fst).Nodup ∧
      (∀ p, Reachable pool.queue.heap pool.queue.head p ↔ p ∈ ns.map Prod.fst) ∧
      pool.queue.count = ns.length ∧
      pool.queue.tail = lastAddress ns ∧
      (pool.queue.tail = none ↔ pool.queue.head = none) ∧
      log.filterMap submittedItem =
        (log.filterMap takenItem).map Prod.snd ++ ns.map Prod.snd := by
  obtain ⟨ns, hvalid, -, haccount⟩ := exec_keeps poolStep (P := QueueAccounts)
    (fun _ _ _ _ _ _ hlog hstep => poolStep_accounts hlog hstep)
    ⟨[], threadPoolCreate_valid, rfl, rfl⟩ hrun
  have hchain := hvalid.queue.chain
  refine ⟨ns, hchain, chain_nodup hchain, fun p => chain_reachable_iff hchain,
    hvalid.queue.count, hvalid.queue.tail, ?_, haccount⟩
  rw [hvalid.queue.tail, lastAddress_eq_none]
  constructor
  · rintro rfl
    exact hchain
  · intro hhead
    exact chain_none (hhead ▸ hchain)

/-- Two workers and three submissions, of which one has no memory. -/
def poolRun : List (PoolCall Unit ℕ 2) :=
  [.submit (some ()) 7 true, .pass 1, .submit (some ()) 8 false, .submit (some ()) 9 true,
    .finish 1]

/-- The first item is taken, the last one still in the queue. -/
theorem workQueue_correct_run :
    ∃ log pool, exec poolStep (threadPoolCreate Unit ℕ 2) poolRun = some (log, pool) ∧
      log.filterMap takenItem = [(1, ⟨(), 7⟩)] ∧
      ∃ ns, Chain pool.queue.heap pool.queue.head ns ∧ pool.queue.count = ns.length ∧
        log.filterMap submittedItem =
          (log.filterMap takenItem).map Prod.snd ++ ns.map Prod.snd := by
  refine ⟨_, _, rfl, by decide, ?_⟩
  obtain ⟨ns, hchain, -, -, hcount, -, -, haccount⟩ := workQueue_correct poolRun _ _ rfl
  exact ⟨ns, hchain, hcount, haccount⟩

end ProxyMax
