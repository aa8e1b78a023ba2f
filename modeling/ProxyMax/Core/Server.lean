import ProxyMax.Core.Threading

/-!
`src/core/server.c`: the accept loops over the thread pool, the workers they
feed and the shutdown.

* `ServerState`: the flag `g_running`, where the main thread is, and the pool.
* `serverStep`: a step of the main thread, of a worker or of a signal, with the
  outcomes of the system calls as inputs. The main thread goes through
  `server_loop_thread_pool` or `server_loop_event_driven`, then through
  `proxy_server_cleanup` with its `thread_pool_destroy`.
* `ServerState.Valid`, `serverStep_account`: what every step keeps. A connection
  created is destroyed, lost, or with exactly one owner.
* `connections_destroyed_once`: when the cleanup returns, every connection was
  destroyed exactly once just when every step was `Orderly`.
-/

namespace ProxyMax

open LinkedList Machine

variable {n : ℕ}

/-- The threading models that use the pool. -/
inductive ThreadModel where
  | pool
  | hybrid
  deriving DecidableEq

/-- The connections, numbered as `connection_create` makes them. -/
abbrev ConnectionId := ℕ

/-- The functions that are submitted to the pool. -/
inductive Job where
  | handleConnectionWorker
  deriving DecidableEq

/-- Where the main thread is. In the loops `events` counts the events of the round
that come after the one at hand; the pool's loop has one each round. -/
inductive MainPoint where
  | running
  | polling
  | accepting (events : ℕ)
  | created (events : ℕ) (conn : ConnectionId)
  | refused (events : ℕ) (conn : ConnectionId)
  | stopped
  | joining
  | freeing (item : Option Ptr)
  | finished
  deriving DecidableEq

/-- The server with its pool. -/
structure ServerState (n : ℕ) where
  gRunning : Bool
  main : MainPoint
  pool : ThreadPool Job ConnectionId n
  fresh : ConnectionId

/-- The server after `proxy_server_init`, before its loop. -/
def serverInit (n : ℕ) : ServerState n where
  gRunning := true
  main := .running
  pool := threadPoolCreate Job ConnectionId n
  fresh := 0

/-- The result of `epoll_wait`: `EINTR`, another error, or a number of events. -/
inductive Polled where
  | interrupted
  | failed
  | events (nfds : ℕ)

/-- The results of `accept` and then of `connection_create`. -/
inductive Accepted where
  | failed
  | noMemory
  | connected

/-- A step that some thread makes, with the outcome of its system call. -/
inductive ServerCall (n : ℕ) where
  | stop
  | check
  | poll (r : Polled)
  | accept (r : Accepted)
  | submit (allocOk : Bool)
  | refuse
  | shutdown
  | join
  | free
  | pass (w : Fin n)
  | finish (w : Fin n)

/-- What is seen of a step. -/
inductive ServerEvent where
  | quiet
  | created (conn : ConnectionId)
  | submitted (conn : ConnectionId) (code : ℤ)
  | destroyed (conn : ConnectionId)
  | freed (work : Option (WorkItem Job ConnectionId))
  | passed (p : PoolReply Job ConnectionId)
  deriving DecidableEq

/-- The next event of the round, or the next round. -/
def nextEvent : ℕ → MainPoint
  | 0 => .running
  | events + 1 => .accepting events

/-- `handle_connection_worker`, which ends in `connection_destroy`. -/
def handleConnectionWorker : PoolReply Job ConnectionId → ServerEvent
  | .executed (some ⟨.handleConnectionWorker, conn⟩) => .destroyed conn
  | reply => .passed reply

/-- A step of the server; there is none where the thread is not at that point. -/
def serverStep (model : ThreadModel) (s : ServerState n) (call : ServerCall n) :
    Option (ServerEvent × ServerState n) :=
  match call, s.main with
  | .stop, _ => some (.quiet, { s with gRunning := false })
  | .check, .running =>
      if s.gRunning then
        match model with
        | .pool => some (.quiet, { s with main := .accepting 0 })
        | .hybrid => some (.quiet, { s with main := .polling })
      else some (.quiet, { s with main := .stopped })
  | .poll .interrupted, .polling => some (.quiet, { s with main := .running })
  | .poll .failed, .polling => some (.quiet, { s with main := .stopped })
  | .poll (.events nfds), .polling => some (.quiet, { s with main := nextEvent nfds })
  | .accept .failed, .accepting events => some (.quiet, { s with main := nextEvent events })
  | .accept .noMemory, .accepting events => some (.quiet, { s with main := nextEvent events })
  | .accept .connected, .accepting events =>
      some (.created s.fresh, { s with main := .created events s.fresh, fresh := s.fresh + 1 })
  | .submit allocOk, .created events conn =>
      let r := threadPoolSubmit s.pool (some .handleConnectionWorker) conn allocOk
      -- the hybrid loop does not look at the result
      let main := if model = .pool ∧ r.1 < 0 then .refused events conn else nextEvent events
      some (.submitted conn r.1, { s with main, pool := r.2 })
  | .refuse, .refused events conn => some (.destroyed conn, { s with main := nextEvent events })
  | .shutdown, .stopped =>
      some (.quiet, { s with main := .joining, pool := { s.pool with shutdown := true } })
  | .join, .joining =>
      if ∀ w, s.pool.workers w = .exited then
        some (.quiet, { s with main := .freeing s.pool.queue.head })
      else none
  | .free, .freeing none => some (.quiet, { s with main := .finished })
  | .free, .freeing (some item) =>
      let node := s.pool.queue.heap item
      let queue := { s.pool.queue with heap := Function.update s.pool.queue.heap item none }
      some (.freed (node.map Node.value),
        { s with main := .freeing (node.bind Node.next), pool := { s.pool with queue } })
  | .pass w, _ =>
      (poolStep s.pool (.pass w)).map fun r => (.passed r.1, { s with pool := r.2 })
  | .finish w, _ =>
      (poolStep s.pool (.finish w)).map fun r =>
        (handleConnectionWorker r.1, { s with pool := r.2 })
  | _, _ => none

/-! ### What every step keeps -/

/-- The main thread is in `thread_pool_destroy` or behind it. -/
def MainPoint.Stopping : MainPoint → Prop
  | .joining | .freeing _ | .finished => True
  | _ => False

/-- **The invariant.** The items `ns` are those of the queue, and those left to be
freed once the workers have exited. -/
structure ServerState.Valid (s : ServerState n) (ns : List (Ptr × WorkItem Job ConnectionId)) :
    Prop where
  stopping : s.pool.shutdown = true ↔ s.main.Stopping
  items : match s.main with
    | .freeing item => Chain s.pool.queue.heap item ns ∧ ∀ w, s.pool.workers w = .exited
    | .finished => ns = [] ∧ ∀ w, s.pool.workers w = .exited
    | _ => s.pool.Valid ns

/-- How often a connection is met: once or not. -/
def hits (o : Option ConnectionId) (c : ConnectionId) : ℕ := if o = some c then 1 else 0

@[simp] lemma hits_none (c : ConnectionId) : hits none c = 0 := by simp [hits]

lemma hits_some (conn c : ConnectionId) : hits (some conn) c = if conn = c then 1 else 0 := by
  simp [hits]

/-- The connection that the main thread holds. -/
def MainPoint.holds : MainPoint → Option ConnectionId
  | .created _ conn | .refused _ conn => some conn
  | _ => none

@[simp] lemma holds_created (events : ℕ) (conn : ConnectionId) :
    (MainPoint.created events conn).holds = some conn := rfl

/-- The places where the connection is: with the main thread, in the queue, with a worker. -/
def ServerState.owners (s : ServerState n) (ns : List (Ptr × WorkItem Job ConnectionId))
    (c : ConnectionId) : ℕ :=
  hits s.main.holds c + (ns.map fun node => node.2.argument).count c +
    ∑ w, hits ((s.pool.held w).map WorkItem.argument) c

/-- The connections that an event creates. -/
def ServerEvent.creates : ServerEvent → Option ConnectionId
  | .created conn => some conn
  | _ => none

/-- The connections that an event passes to `connection_destroy`. -/
def ServerEvent.destroys : ServerEvent → Option ConnectionId
  | .destroyed conn => some conn
  | _ => none

/-- The connections that an event loses: the item that holds one is freed, or the
hybrid loop goes on after a submission that failed. -/
def ServerEvent.loses (model : ThreadModel) : ServerEvent → Option ConnectionId
  | .freed work => work.map WorkItem.argument
  | .submitted conn code => if model = .hybrid ∧ code < 0 then some conn else none
  | _ => none

/-- What `serverStep` needs for the connections: the hybrid loop's submissions find
memory, and the queue is empty when `thread_pool_destroy` begins. -/
def Orderly (model : ThreadModel) (s : ServerState n) : ServerCall n → Prop
  | .submit allocOk => model = .hybrid → allocOk = true
  | .shutdown => s.pool.queue.head = none
  | _ => True

instance (model : ThreadModel) (s : ServerState n) :
    (call : ServerCall n) → Decidable (Orderly model s call)
  | .submit allocOk => inferInstanceAs (Decidable (model = .hybrid → allocOk = true))
  | .shutdown => inferInstanceAs (Decidable (s.pool.queue.head = none))
  | .stop => isTrue trivial
  | .check => isTrue trivial
  | .poll _ => isTrue trivial
  | .accept _ => isTrue trivial
  | .refuse => isTrue trivial
  | .join => isTrue trivial
  | .free => isTrue trivial
  | .pass _ => isTrue trivial
  | .finish _ => isTrue trivial

/-- One worker's share of a sum over the workers. -/
lemma sum_update {α : Type} (g : Fin n → α) (f : α → ℕ) (w : Fin n) (a : α) :
    (∑ v, f (Function.update g w a v)) + f (g w) = (∑ v, f (g v)) + f a := by
  rw [← Finset.add_sum_erase Finset.univ (fun v => f (Function.update g w a v))
      (Finset.mem_univ w),
    ← Finset.add_sum_erase Finset.univ (fun v => f (g v)) (Finset.mem_univ w),
    Function.update_self]
  have hrest : ∑ v ∈ Finset.univ.erase w, f (Function.update g w a v) =
      ∑ v ∈ Finset.univ.erase w, f (g v) :=
    Finset.sum_congr rfl fun v hv => by rw [Function.update_of_ne (Finset.ne_of_mem_erase hv)]
  omega

/-- Workers that have exited hold no connection. -/
lemma sum_held_of_exited {pool : ThreadPool Job ConnectionId n}
    (hexit : ∀ w, pool.workers w = .exited) (c : ConnectionId) :
    ∑ w, hits ((pool.held w).map WorkItem.argument) c = 0 :=
  Finset.sum_eq_zero fun w _ => by rw [held_of_exited (hexit w), Option.map_none, hits_none]

/-- What a step does to the account of the connections: the state is a valid one,
nothing that is created is without an owner, and what is lost or about to be lost
is so because the step was not orderly. -/
structure StepAccount (model : ThreadModel) (s s' : ServerState n) (call : ServerCall n)
    (event : ServerEvent) (ns ns' : List (Ptr × WorkItem Job ConnectionId)) : Prop where
  valid : s'.Valid ns'
  owners : ∀ c, s'.owners ns' c + hits event.destroys c + hits (event.loses model) c =
    s.owners ns c + hits event.creates c
  fresh : (event.creates = none ∧ s'.fresh = s.fresh) ∨
    (event.creates = some s.fresh ∧ s'.fresh = s.fresh + 1)
  debt : (event.loses model = none ∧ (s'.main.Stopping → ns' = [])) ↔
    ((s.main.Stopping → ns = []) ∧ Orderly model s call)

section Steps

variable {model : ThreadModel} {s s' : ServerState n} {ns : List (Ptr × WorkItem Job ConnectionId)}

/-- Before the shutdown a server with a valid pool is a valid one. -/
lemma valid_loops {running : Bool} {main : MainPoint} {pool : ThreadPool Job ConnectionId n}
    {fresh : ConnectionId} (hpool : pool.Valid ns) (hrun : pool.shutdown = false)
    (hmain : ¬ main.Stopping) : ServerState.Valid ⟨running, main, pool, fresh⟩ ns := by
  refine ⟨by simp [hrun, hmain], ?_⟩
  cases main with
  | freeing item => exact absurd trivial hmain
  | finished => exact absurd trivial hmain
  | _ => exact hpool

lemma shutdown_eq_false (hs : s.Valid ns) (hmain : ¬ s.main.Stopping) : s.pool.shutdown = false :=
  Bool.eq_false_iff.mpr fun h => hmain (hs.stopping.mp h)

/-- A step of the main thread that neither the pool nor a connection sees. -/
lemma account_main (hs : s.Valid ns) {main : MainPoint} {event : ServerEvent}
    {call : ServerCall n} (hitems : s.pool.Valid ns) (hfrom : ¬ s.main.Stopping)
    (hto : ¬ main.Stopping) (hc : event.creates = none) (hl : event.loses model = none)
    (hcall : Orderly model s call)
    (hholds : ∀ c, hits main.holds c + hits event.destroys c = hits s.main.holds c) :
    StepAccount model s { s with main } call event ns ns where
  valid := valid_loops hitems (shutdown_eq_false hs hfrom) hto
  owners := fun c => by
    have h := hholds c
    simp only [ServerState.owners, hc, hl, hits_none]
    omega
  fresh := .inl ⟨hc, rfl⟩
  debt := by simp [hl, hto, hfrom, hcall]

/-- The point the loops go on at. -/
lemma nextEvent_loops (events : ℕ) :
    ¬ (nextEvent events).Stopping ∧ (nextEvent events).holds = none := by
  cases events <;> simp [nextEvent, MainPoint.Stopping, MainPoint.holds]

/-- The account of a step of the accept loops that creates nothing and ends nothing. -/
lemma account_quiet {running : Bool} {pool : ThreadPool Job ConnectionId n} {fresh : ConnectionId}
    {main main' : MainPoint} {call : ServerCall n}
    (hs : ServerState.Valid ⟨running, main, pool, fresh⟩ ns) (hitems : pool.Valid ns)
    (hfrom : ¬ main.Stopping) (hto : ¬ main'.Stopping) (hcall : ∀ s, Orderly model s call)
    (hholds : main'.holds = main.holds) :
    StepAccount model ⟨running, main, pool, fresh⟩ ⟨running, main', pool, fresh⟩ call .quiet
      ns ns :=
  account_main hs hitems hfrom hto rfl rfl (hcall _) fun c => by
    rw [hholds]
    exact congrArg (_ + ·) (hits_none c)

/-- As long as a worker is at its loop, the pool is a valid one, and the server is with
any pool that is. -/
lemma valid_of_worker (hs : s.Valid ns) {w : Fin n} (hw : s.pool.workers w ≠ .exited) :
    s.pool.Valid ns ∧ ∀ (pool' : ThreadPool Job ConnectionId n) ns', pool'.Valid ns' →
      pool'.shutdown = s.pool.shutdown → ServerState.Valid { s with pool := pool' } ns' := by
  obtain ⟨running, main, pool, fresh⟩ := s
  obtain ⟨hstopping, hitems⟩ := hs
  cases main with
  | freeing item => exact absurd (hitems.2 w) hw
  | finished => exact absurd (hitems.2 w) hw
  | _ =>
      refine ⟨hitems, fun pool' ns' hpool' hsame => ⟨?_, hpool'⟩⟩
      rw [hsame]
      exact hstopping

/-- `stop` sets a flag that the account does not see. -/
lemma account_stop (hs : s.Valid ns) :
    StepAccount model s { s with gRunning := false } .stop .quiet ns ns :=
  ⟨⟨hs.stopping, hs.items⟩, fun c => rfl, .inl ⟨rfl, rfl⟩, by simp [Orderly, ServerEvent.loses]⟩

/-- The main thread owns what it accepts. -/
lemma account_connected {running : Bool} {events : ℕ} {pool : ThreadPool Job ConnectionId n}
    {fresh : ConnectionId} (hs : ServerState.Valid ⟨running, .accepting events, pool, fresh⟩ ns) :
    StepAccount model ⟨running, .accepting events, pool, fresh⟩
      ⟨running, .created events fresh, pool, fresh + 1⟩ (.accept .connected) (.created fresh)
      ns ns := by
  refine ⟨⟨hs.stopping, hs.items⟩, fun c => ?_, .inr ⟨rfl, rfl⟩,
    by simp [Orderly, ServerEvent.loses, MainPoint.Stopping]⟩
  simp only [ServerState.owners, MainPoint.holds, ServerEvent.creates,
    ServerEvent.destroys, ServerEvent.loses, hits_none]
  omega

/-- A submission that finds memory hands the connection over to the queue. -/
lemma account_queued {running : Bool} {events : ℕ} {conn fresh : ConnectionId}
    {pool : ThreadPool Job ConnectionId n}
    (hs : ServerState.Valid ⟨running, .created events conn, pool, fresh⟩ ns) :
    StepAccount model ⟨running, .created events conn, pool, fresh⟩
      ⟨running, nextEvent events,
        (threadPoolSubmit pool (some .handleConnectionWorker) conn true).2, fresh⟩
      (.submit true) (.submitted conn 0) ns
      (ns ++ [(pool.queue.fresh, ⟨.handleConnectionWorker, conn⟩)]) := by
  have hfrom : ¬ (MainPoint.created events conn).Stopping := id
  obtain ⟨hto, hholds⟩ := nextEvent_loops events
  have hpool : pool.Valid ns := hs.items
  obtain ⟨-, hvalid, hheld⟩ := threadPoolSubmit_valid hpool Job.handleConnectionWorker conn
  refine ⟨valid_loops hvalid (shutdown_eq_false hs hfrom) hto, fun c => ?_, .inl ⟨rfl, rfl⟩,
    by simp [ServerEvent.loses, Orderly, hto, hfrom]⟩
  simp only [ServerState.owners, ServerEvent.creates, ServerEvent.destroys, hheld,
    hholds, ServerEvent.loses, hits_none, hits_some, holds_created, List.map_append,
    List.map_cons, List.map_nil, List.count_append, List.count_singleton, beq_iff_eq,
    lt_irrefl, and_false, if_false]
  omega

/-- After a submission that finds no memory the pool loop still holds the connection,
and the hybrid loop has lost it. -/
lemma account_unqueued {running : Bool} {events : ℕ} {conn fresh : ConnectionId}
    {pool : ThreadPool Job ConnectionId n}
    (hs : ServerState.Valid ⟨running, .created events conn, pool, fresh⟩ ns) :
    StepAccount model ⟨running, .created events conn, pool, fresh⟩
      ⟨running, if model = .pool then .refused events conn else nextEvent events, pool, fresh⟩
      (.submit false) (.submitted conn (-1)) ns ns := by
  obtain ⟨hto, hholds⟩ := nextEvent_loops events
  have hpool : pool.Valid ns := hs.items
  have hrun : pool.shutdown = false := shutdown_eq_false hs id
  cases model with
  | pool =>
      refine ⟨valid_loops hpool hrun id, fun c => rfl, .inl ⟨rfl, rfl⟩, ?_⟩
      simp [ServerEvent.loses, Orderly, MainPoint.Stopping]
  | hybrid =>
      rw [if_neg (by simp)]
      refine ⟨valid_loops hpool hrun hto, fun c => ?_, .inl ⟨rfl, rfl⟩,
        by simp [ServerEvent.loses, Orderly]⟩
      simp only [ServerState.owners, ServerEvent.creates, ServerEvent.destroys, hholds,
        ServerEvent.loses, hits_none, hits_some, holds_created, true_and, Int.reduceNeg,
        neg_lt_zero, zero_lt_one, if_true]
      omega

/-- The shutdown is orderly just when the queue is empty. -/
lemma account_shutdown {running : Bool} {pool : ThreadPool Job ConnectionId n}
    {fresh : ConnectionId} (hs : ServerState.Valid ⟨running, .stopped, pool, fresh⟩ ns) :
    StepAccount model ⟨running, .stopped, pool, fresh⟩
      ⟨running, .joining, { pool with shutdown := true }, fresh⟩ .shutdown .quiet ns ns := by
  have hvalid : pool.Valid ns := hs.items
  have hnil : ns = [] ↔ pool.queue.head = none := by
    constructor
    · rintro rfl
      exact hvalid.queue.chain
    · intro hhead
      exact chain_none (hhead ▸ hvalid.queue.chain)
  refine ⟨⟨by simp [MainPoint.Stopping], ?_⟩, fun c => rfl, .inl ⟨rfl, rfl⟩, ?_⟩
  · exact ⟨hvalid.queue, hvalid.stored, hvalid.taken, hvalid.apart⟩
  · simp [ServerEvent.loses, MainPoint.Stopping, Orderly, hnil]

lemma account_joined {running : Bool} {pool : ThreadPool Job ConnectionId n}
    {fresh : ConnectionId} (hs : ServerState.Valid ⟨running, .joining, pool, fresh⟩ ns)
    (hexit : ∀ w, pool.workers w = .exited) :
    StepAccount model ⟨running, .joining, pool, fresh⟩
      ⟨running, .freeing pool.queue.head, pool, fresh⟩ .join .quiet ns ns := by
  have hvalid : pool.Valid ns := hs.items
  refine ⟨⟨hs.stopping, hvalid.queue.chain, hexit⟩, fun c => rfl, .inl ⟨rfl, rfl⟩, ?_⟩
  simp [ServerEvent.loses, MainPoint.Stopping, Orderly]

/-- Freeing an item loses the connection in it. -/
lemma account_freed {running : Bool} {pool : ThreadPool Job ConnectionId n}
    {fresh : ConnectionId} {item : Ptr} {work : WorkItem Job ConnectionId} {nx : Option Ptr}
    (hs : ServerState.Valid ⟨running, .freeing (some item), pool, fresh⟩ ((item, work) :: ns))
    (hrest : Chain pool.queue.heap nx ns) :
    StepAccount model ⟨running, .freeing (some item), pool, fresh⟩
      ⟨running, .freeing nx, { pool with
        queue := { pool.queue with heap := Function.update pool.queue.heap item none } }, fresh⟩
      .free (.freed (some work)) ((item, work) :: ns) ns := by
  obtain ⟨hchain, hexit⟩ : Chain pool.queue.heap (some item) ((item, work) :: ns) ∧
    ∀ w, pool.workers w = .exited := hs.items
  have hnd := chain_nodup hchain
  rw [List.map_cons, List.nodup_cons] at hnd
  refine ⟨⟨hs.stopping, chain_update hrest hnd.1 none, hexit⟩, fun c => ?_,
    .inl ⟨rfl, rfl⟩, by simp [ServerEvent.loses, MainPoint.Stopping]⟩
  simp only [ServerState.owners, MainPoint.holds, ServerEvent.creates, hits_some,
    ServerEvent.destroys, ServerEvent.loses, hits_none, Option.map_some,
    List.map_cons, List.count_cons, beq_iff_eq]
  rw [sum_held_of_exited hexit c, @sum_held_of_exited _ { pool with queue :=
    { pool.queue with heap := Function.update pool.queue.heap item none } } hexit c]
  omega

/-- A worker that takes an item takes the connection over with it. -/
lemma account_pass {w : Fin n} {reply : PoolReply Job ConnectionId}
    {pool' : ThreadPool Job ConnectionId n} (hs : s.Valid ns)
    (hpass : poolStep s.pool (.pass w) = some (reply, pool')) :
    ∃ ns', StepAccount model s { s with pool := pool' } (.pass w) (.passed reply) ns ns' := by
  have hw : s.pool.workers w ≠ .exited := fun h => by simp [poolStep, h] at hpass
  obtain ⟨hpool, hnext⟩ := valid_of_worker hs hw
  obtain ⟨hnone, hsame, hcases⟩ := poolStep_pass hpool hpass
  rcases hcases with ⟨hrun, rfl, rfl, rfl⟩ | ⟨p, work, ns', hrun, rfl, rfl, hvalid, hheld⟩ |
    ⟨hstop, rfl, hvalid, hheld⟩
  · exact ⟨[], hs, fun c => rfl, .inl ⟨rfl, rfl⟩, by simp [ServerEvent.loses, Orderly]⟩
  · have hloop : ¬ s.main.Stopping := fun h =>
      Bool.false_ne_true (hrun.symm.trans (hs.stopping.mpr h))
    refine ⟨ns', hnext pool' ns' hvalid hsame, fun c => ?_, .inl ⟨rfl, rfl⟩,
      by simp [ServerEvent.loses, Orderly, hloop]⟩
    have hsum := sum_update s.pool.held (fun o => hits (o.map WorkItem.argument) c) w (some work)
    simp only [hnone, Option.map_none, Option.map_some, hits_none, hits_some] at hsum
    simp only [ServerState.owners, ServerEvent.creates, ServerEvent.destroys, hheld,
      ServerEvent.loses, hits_none, List.map_cons, List.count_cons, beq_iff_eq]
    omega
  · refine ⟨ns, hnext pool' ns hvalid hsame, fun c => ?_, .inl ⟨rfl, rfl⟩,
      by simp [ServerEvent.loses, Orderly]⟩
    simp only [ServerState.owners, hheld]
    rfl

/-- A worker that is done has destroyed its connection. -/
lemma account_finish {w : Fin n} {reply : PoolReply Job ConnectionId}
    {pool' : ThreadPool Job ConnectionId n} (hs : s.Valid ns)
    (hfinish : poolStep s.pool (.finish w) = some (reply, pool')) :
    StepAccount model s { s with pool := pool' } (.finish w) (handleConnectionWorker reply)
      ns ns := by
  have hw : s.pool.workers w ≠ .exited := fun h => by simp [poolStep, h] at hfinish
  obtain ⟨hpool, hnext⟩ := valid_of_worker hs hw
  obtain ⟨⟨⟨⟩, conn⟩, hwork, rfl, hvalid, hheld, hsame⟩ := poolStep_finish hpool hfinish
  refine ⟨hnext pool' ns hvalid hsame, fun c => ?_, .inl ⟨rfl, rfl⟩,
    by simp [ServerEvent.loses, Orderly, handleConnectionWorker]⟩
  have hsum := sum_update s.pool.held (fun o => hits (o.map WorkItem.argument) c) w none
  simp only [hwork, Option.map_none, Option.map_some, hits_none, hits_some] at hsum
  simp only [ServerState.owners, handleConnectionWorker, ServerEvent.creates, hits_some,
    ServerEvent.destroys, ServerEvent.loses, hits_none, hheld]
  omega

/-! ### The calls of the main thread -/

section Calls

variable {running : Bool} {main : MainPoint} {pool : ThreadPool Job ConnectionId n}
  {fresh : ConnectionId} {event : ServerEvent}

lemma account_check (hs : ServerState.Valid ⟨running, main, pool, fresh⟩ ns)
    (hstep : serverStep model ⟨running, main, pool, fresh⟩ .check = some (event, s')) :
    StepAccount model ⟨running, main, pool, fresh⟩ s' .check event ns ns := by
  cases main with
  | running =>
      cases running <;> cases model <;>
        obtain ⟨rfl, rfl⟩ := Prod.mk.inj (Option.some.inj hstep) <;>
        exact account_quiet hs hs.items id id (fun _ => trivial) rfl
  | _ => exact absurd hstep.symm (Option.some_ne_none _)

lemma account_poll {r : Polled} (hs : ServerState.Valid ⟨running, main, pool, fresh⟩ ns)
    (hstep : serverStep model ⟨running, main, pool, fresh⟩ (.poll r) = some (event, s')) :
    StepAccount model ⟨running, main, pool, fresh⟩ s' (.poll r) event ns ns := by
  cases main with
  | polling =>
      cases r with
      | events nfds =>
          obtain ⟨rfl, rfl⟩ := Prod.mk.inj (Option.some.inj hstep)
          obtain ⟨hto, hholds⟩ := nextEvent_loops nfds
          exact account_quiet hs hs.items id hto (fun _ => trivial) hholds
      | _ =>
          obtain ⟨rfl, rfl⟩ := Prod.mk.inj (Option.some.inj hstep)
          exact account_quiet hs hs.items id id (fun _ => trivial) rfl
  | _ => cases r <;> exact absurd hstep.symm (Option.some_ne_none _)

lemma account_accept {r : Accepted} (hs : ServerState.Valid ⟨running, main, pool, fresh⟩ ns)
    (hstep : serverStep model ⟨running, main, pool, fresh⟩ (.accept r) = some (event, s')) :
    StepAccount model ⟨running, main, pool, fresh⟩ s' (.accept r) event ns ns := by
  cases main with
  | accepting events =>
      cases r with
      | connected =>
          obtain ⟨rfl, rfl⟩ := Prod.mk.inj (Option.some.inj hstep)
          exact account_connected hs
      | _ =>
          obtain ⟨rfl, rfl⟩ := Prod.mk.inj (Option.some.inj hstep)
          obtain ⟨hto, hholds⟩ := nextEvent_loops events
          exact account_quiet hs hs.items id hto (fun _ => trivial) hholds
  | _ => cases r <;> exact absurd hstep.symm (Option.some_ne_none _)

lemma account_submit {allocOk : Bool} (hs : ServerState.Valid ⟨running, main, pool, fresh⟩ ns)
    (hstep : serverStep model ⟨running, main, pool, fresh⟩ (.submit allocOk) = some (event, s')) :
    ∃ ns', StepAccount model ⟨running, main, pool, fresh⟩ s' (.submit allocOk) event ns ns' := by
  cases main with
  | created events conn =>
      obtain ⟨rfl, rfl⟩ := Prod.mk.inj (Option.some.inj hstep)
      cases allocOk with
      | true =>
          rw [(threadPoolSubmit_valid hs.items Job.handleConnectionWorker conn).1,
            if_neg fun h => lt_irrefl _ h.2]
          exact ⟨_, account_queued hs⟩
      | false =>
          rw [threadPoolSubmit, if_neg Bool.false_ne_true]
          simp only [Int.reduceNeg, Left.neg_neg_iff, zero_lt_one, and_true]
          exact ⟨ns, account_unqueued hs⟩
  | _ => exact absurd hstep.symm (Option.some_ne_none _)

/-- A connection that the pool loop still holds is destroyed. -/
lemma account_refuse (hs : ServerState.Valid ⟨running, main, pool, fresh⟩ ns)
    (hstep : serverStep model ⟨running, main, pool, fresh⟩ .refuse = some (event, s')) :
    StepAccount model ⟨running, main, pool, fresh⟩ s' .refuse event ns ns := by
  cases main with
  | refused events conn =>
      obtain ⟨rfl, rfl⟩ := Prod.mk.inj (Option.some.inj hstep)
      obtain ⟨hto, hholds⟩ := nextEvent_loops events
      refine account_main hs hs.items id hto rfl rfl trivial fun c => ?_
      rw [hholds, hits_none, Nat.zero_add]
      rfl
  | _ => exact absurd hstep.symm (Option.some_ne_none _)

lemma account_join (hs : ServerState.Valid ⟨running, main, pool, fresh⟩ ns)
    (hstep : serverStep model ⟨running, main, pool, fresh⟩ .join = some (event, s')) :
    StepAccount model ⟨running, main, pool, fresh⟩ s' .join event ns ns := by
  cases main with
  | joining =>
      obtain ⟨hexit, hsome⟩ := Option.ite_none_right_eq_some.mp hstep
      obtain ⟨rfl, rfl⟩ := Prod.mk.inj (Option.some.inj hsome)
      exact account_joined hs hexit
  | _ => exact absurd hstep.symm (Option.some_ne_none _)

/-- The items that are left are freed, one after the other. -/
lemma account_free (hs : ServerState.Valid ⟨running, main, pool, fresh⟩ ns)
    (hstep : serverStep model ⟨running, main, pool, fresh⟩ .free = some (event, s')) :
    ∃ ns', StepAccount model ⟨running, main, pool, fresh⟩ s' .free event ns ns' := by
  cases main with
  | freeing item =>
      obtain ⟨hchain, hexit⟩ :
        Chain pool.queue.heap item ns ∧ ∀ w, pool.workers w = .exited := hs.items
      cases item with
      | none =>
          obtain ⟨rfl, rfl⟩ := Prod.mk.inj (Option.some.inj hstep)
          obtain rfl := chain_none hchain
          exact ⟨[], ⟨hs.stopping, rfl, hexit⟩, fun c => rfl, .inl ⟨rfl, rfl⟩,
            by simp [ServerEvent.loses, Orderly]⟩
      | some item =>
          obtain ⟨work, nx, ns', rfl, hnode, hrest⟩ := chain_some hchain
          obtain ⟨rfl, rfl⟩ := Prod.mk.inj (Option.some.inj hstep)
          rw [hnode]
          exact ⟨ns', account_freed hs hrest⟩
  | _ => exact absurd hstep.symm (Option.some_ne_none _)

end Calls

/-- Every step of the server keeps the account of the connections. -/
lemma serverStep_account {call : ServerCall n} {event : ServerEvent} (hs : s.Valid ns)
    (hstep : serverStep model s call = some (event, s')) :
    ∃ ns', StepAccount model s s' call event ns ns' := by
  obtain ⟨running, main, pool, fresh⟩ := s
  cases call with
  | stop =>
      obtain ⟨rfl, rfl⟩ := Prod.mk.inj (Option.some.inj hstep)
      exact ⟨ns, account_stop hs⟩
  | check => exact ⟨ns, account_check hs hstep⟩
  | poll r => exact ⟨ns, account_poll hs hstep⟩
  | accept r => exact ⟨ns, account_accept hs hstep⟩
  | submit allocOk => exact account_submit hs hstep
  | refuse => exact ⟨ns, account_refuse hs hstep⟩
  | shutdown =>
      cases main with
      | stopped =>
          obtain ⟨rfl, rfl⟩ := Prod.mk.inj (Option.some.inj hstep)
          exact ⟨ns, account_shutdown hs⟩
      | _ => exact absurd hstep.symm (Option.some_ne_none _)
  | join => exact ⟨ns, account_join hs hstep⟩
  | free => exact account_free hs hstep
  | pass w =>
      obtain ⟨⟨reply, pool'⟩, hpass, he⟩ := Option.map_eq_some_iff.mp hstep
      obtain ⟨rfl, rfl⟩ := Prod.mk.inj he
      exact account_pass hs hpass
  | finish w =>
      obtain ⟨⟨reply, pool'⟩, hfinish, he⟩ := Option.map_eq_some_iff.mp hstep
      obtain ⟨rfl, rfl⟩ := Prod.mk.inj he
      exact ⟨ns, account_finish hs hfinish⟩

end Steps

/-! ### Runs -/

/-- The connections that a run created, in order. -/
def createdConns (log : List (ServerCall n × ServerEvent)) : List ConnectionId :=
  log.filterMap fun x => x.2.creates

/-- The connections that a run passed to `connection_destroy`, in order. -/
def destroyedConns (log : List (ServerCall n × ServerEvent)) : List ConnectionId :=
  log.filterMap fun x => x.2.destroys

/-- The connections that a run lost, in order. -/
def lostConns (model : ThreadModel) (log : List (ServerCall n × ServerEvent)) :
    List ConnectionId :=
  log.filterMap fun x => x.2.loses model

section Runs

variable {model : ThreadModel} {log : List (ServerCall n × ServerEvent)}

lemma count_filterMap_snoc (f : ServerCall n × ServerEvent → Option ConnectionId)
    (x : ServerCall n × ServerEvent) (c : ConnectionId) :
    ((log ++ [x]).filterMap f).count c = (log.filterMap f).count c + hits (f x) c := by
  rw [List.filterMap_append, List.count_append]
  cases hx : f x with
  | none => simp [hx]
  | some conn => simp [hx, hits_some, List.count_singleton]

/-- The account of a run: who has the connections, and whether any is lost or will be. -/
structure RunAccount (model : ThreadModel) (log : List (ServerCall n × ServerEvent))
    (s : ServerState n) (ns : List (Ptr × WorkItem Job ConnectionId)) : Prop where
  valid : s.Valid ns
  owners : ∀ c, (createdConns log).count c =
    (destroyedConns log).count c + s.owners ns c + (lostConns model log).count c
  created : createdConns log = List.range s.fresh
  debt : (lostConns model log = [] ∧ (s.main.Stopping → ns = [])) ↔
    Along (serverStep model) (Orderly model) (serverInit n) (log.map Prod.fst)

lemma serverInit_valid : (serverInit n).Valid [] :=
  valid_loops threadPoolCreate_valid rfl id

lemma serverInit_account : RunAccount model [] (serverInit n) [] where
  valid := serverInit_valid
  owners := fun c => by
    have hidle : ∑ w : Fin n, hits (((serverInit n).pool.held w).map WorkItem.argument) c = 0 :=
      Finset.sum_eq_zero fun w _ => hits_none c
    simp only [ServerState.owners, hidle]
    rfl
  created := rfl
  debt := by simp [lostConns, Along]

/-- Every run keeps the account. -/
lemma run_account {calls : List (ServerCall n)} {s : ServerState n}
    (hrun : exec (serverStep model) (serverInit n) calls = some (log, s)) :
    ∃ ns, RunAccount model log s ns := by
  refine exec_keeps (serverStep model) (P := fun log s => ∃ ns, RunAccount model log s ns)
    ?_ ⟨[], serverInit_account⟩ hrun
  rintro log s call event s' hex ⟨ns, hacc⟩ hstep
  obtain ⟨ns', hnext⟩ := serverStep_account hacc.valid hstep
  refine ⟨ns', hnext.valid, fun c => ?_, ?_, ?_⟩
  · have hbefore := hacc.owners c
    have hstep := hnext.owners c
    simp only [createdConns, destroyedConns, lostConns, count_filterMap_snoc] at hbefore ⊢
    omega
  · rw [createdConns, List.filterMap_append, ← createdConns, hacc.created]
    rcases hnext.fresh with ⟨hc, hf⟩ | ⟨hc, hf⟩
    · simp [hc, hf]
    · simp [hc, hf, List.range_succ]
  · have hsnoc : lostConns model (log ++ [(call, event)]) = [] ↔
        lostConns model log = [] ∧ event.loses model = none := by
      rw [lostConns, List.filterMap_append, List.append_eq_nil_iff]
      simp [lostConns]
    rw [List.map_append, List.map_cons, List.map_nil, along_snoc _ _ hex, ← hacc.debt, hsnoc,
      and_assoc, hnext.debt, and_assoc]

/-- At the end of the cleanup nobody owns a connection. -/
lemma owners_finished {s : ServerState n} {ns : List (Ptr × WorkItem Job ConnectionId)}
    (hs : s.Valid ns) (hend : s.main = .finished) (c : ConnectionId) :
    ns = [] ∧ s.owners ns c = 0 := by
  obtain ⟨running, main, pool, fresh⟩ := s
  obtain rfl : main = .finished := hend
  obtain ⟨rfl, hexit⟩ : ns = [] ∧ ∀ w, pool.workers w = .exited := hs.items
  refine ⟨rfl, ?_⟩
  simp only [ServerState.owners, sum_held_of_exited hexit]
  rfl

/-- No connection is ever destroyed twice. -/
theorem destroyed_at_most_once {calls : List (ServerCall n)} {s : ServerState n}
    (hrun : exec (serverStep model) (serverInit n) calls = some (log, s)) (c : ConnectionId) :
    (destroyedConns log).count c ≤ 1 := by
  obtain ⟨ns, hacc⟩ := run_account hrun
  have hcount := hacc.owners c
  have hnodup : (createdConns log).Nodup := hacc.created ▸ List.nodup_range
  have hle := List.nodup_iff_count_le_one.mp hnodup c
  omega

/-- **Connection ownership.** When `proxy_server_cleanup` returns, every connection
that was created has been destroyed exactly once just when every step was orderly:
in the hybrid loop no submission failed, and the queue was empty when
`thread_pool_destroy` began. -/
theorem connections_destroyed_once (model : ThreadModel) (calls : List (ServerCall n))
    (log : List (ServerCall n × ServerEvent)) (s : ServerState n)
    (hrun : exec (serverStep model) (serverInit n) calls = some (log, s))
    (hend : s.main = .finished) :
    (∀ c ∈ createdConns log, (destroyedConns log).count c = 1) ↔
      Along (serverStep model) (Orderly model) (serverInit n) calls := by
  obtain ⟨ns, hacc⟩ := run_account hrun
  have hnodup : (createdConns log).Nodup := hacc.created ▸ List.nodup_range
  have hnil : ns = [] := (owners_finished hacc.valid hend 0).1
  rw [← exec_inputs _ hrun, ← hacc.debt]
  constructor
  · intro hall
    refine ⟨List.eq_nil_iff_forall_not_mem.mpr fun c hlost => ?_, fun _ => hnil⟩
    have hcount := hacc.owners c
    have hpos := List.count_pos_iff.mpr hlost
    have hle := List.nodup_iff_count_le_one.mp hnodup c
    have hone := hall c (List.count_pos_iff.mp (by omega))
    omega
  · rintro ⟨hlost, -⟩ c hc
    have hcount := hacc.owners c
    have hone := List.count_eq_one_of_mem hnodup hc
    have howners := (owners_finished hacc.valid hend c).2
    rw [hlost, List.count_nil] at hcount
    omega

end Runs

/-- One connection is served, and the server stops. -/
def servedRun : List (ServerCall 1) :=
  [.check, .accept .connected, .submit true, .pass 0, .check, .stop, .accept .failed, .finish 0,
    .check, .shutdown, .pass 0, .join, .free]

/-- In the run of one connection it is destroyed once. -/
theorem connections_destroyed_once_served :
    ∃ log s, exec (serverStep .pool) (serverInit 1) servedRun = some (log, s) ∧
      createdConns log = [0] ∧ ∀ c ∈ createdConns log, (destroyedConns log).count c = 1 :=
  ⟨_, _, rfl, rfl, (connections_destroyed_once .pool servedRun _ _ rfl rfl).mpr (by decide)⟩

/-- The server stops while a connection is in the queue. -/
def queuedRun : List (ServerCall 1) :=
  [.check, .accept .connected, .submit true, .stop, .check, .shutdown, .pass 0, .join, .free,
    .free]

/-- A submission of the hybrid loop finds no memory. -/
def refusedRun : List (ServerCall 1) :=
  [.check, .poll (.events 1), .accept .connected, .submit false, .stop, .check, .shutdown,
    .pass 0, .join, .free]

/-- In both runs the cleanup returns and the connection was never destroyed. -/
theorem connections_leaked :
    (∃ log s, exec (serverStep .pool) (serverInit 1) queuedRun = some (log, s) ∧
      s.main = .finished ∧ createdConns log = [0] ∧ destroyedConns log = []) ∧
    ∃ log s, exec (serverStep .hybrid) (serverInit 1) refusedRun = some (log, s) ∧
      s.main = .finished ∧ createdConns log = [0] ∧ destroyedConns log = [] :=
  ⟨⟨_, _, rfl, rfl, rfl, rfl⟩, ⟨_, _, rfl, rfl, rfl, rfl⟩⟩

end ProxyMax
