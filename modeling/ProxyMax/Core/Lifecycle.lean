import ProxyMax.Config.Settings
import ProxyMax.Server.Descriptors

/-!
The life of the server: what `proxy_server_init`, the server loops and `proxy_server_cleanup`
of `src/core/server.c` open, hand on and give back.

* `threadPoolCreate`, `threadPoolDestroy`, `threadPoolSubmit`: `src/core/threading.c`.
* `proxyServerInit`, `proxyServerStart`, `proxyServerCleanup`: the server, in all its threading
  models.
* `serverMain`: the part of `main` that runs it.
* `server_resources`: in every run, what the main thread opened was given back or handed on when
  it returns, and what is left are the connections that were still in the queue of the pool.
-/

namespace ProxyMax.Resources

open CString Interaction Ownership

/-- The settings of `g_config` that the server reads. -/
structure ServerConfig where
  handler : HandlerConfig
  bindAddress : Bytes
  port : ℤ
  threadModel : ThreadingModel
  numThreads : ℤ
  enableLogging : ℤ

/-- A `thread_pool_t`: its two blocks and its threads. -/
structure PoolRecord where
  ptr : ℕ
  threadsPtr : ℕ
  threads : List ℕ

/-- What a pool keeps. -/
def PoolRecord.owns (pool : PoolRecord) : Multiset Resource :=
  {.block pool.ptr} + {.block pool.threadsPtr} + (pool.threads.map Resource.thread : List Resource)

/-! ### The thread pool -/

/-- The calls of a list, one after another. -/
def forAll {ι : Type} (f : ι → SysCall) : List ι → System Unit
  | [] => pure ()
  | i :: is => do
      let _ ← call (f i)
      forAll f is

/-- `thread_pool_destroy`. -/
def threadPoolDestroy (pool : PoolRecord) : System Unit := do
  let _ ← call .shutdown
  forAll SysCall.pthreadJoin pool.threads
  let items ← call .remaining
  forAll SysCall.free (items.map Prod.fst)
  let _ ← call (.free pool.threadsPtr)
  call (.free pool.ptr)

/-- The loop of `thread_pool_create`, which has `k` more threads to create. -/
def createWorkers : ℕ → PoolRecord → System (Option PoolRecord)
  | 0, pool => pure (some pool)
  | k + 1, pool => do
      match ← call .pthreadCreate with
      | some t => createWorkers k { pool with threads := pool.threads ++ [t] }
      | none => do
          threadPoolDestroy pool
          pure none

/-- `thread_pool_create`. -/
def threadPoolCreate (numThreads : ℤ) : System (Option PoolRecord) := do
  match ← call (.malloc .threadPool) with
  | none => pure none
  | some ptr => do
      match ← call (.malloc (.threads numThreads)) with
      | none => do
          let _ ← call (.free ptr)
          pure none
      | some threadsPtr => createWorkers numThreads.toNat ⟨ptr, threadsPtr, []⟩

/-- `thread_pool_submit`. -/
def threadPoolSubmit (pool : Option PoolRecord) (record : ConnectionRecord) : System ℤ := do
  match pool with
  | none => pure (-1)
  | some _ => do
      match ← call (.malloc .workItem) with
      | none => pure (-1)
      | some item => do
          let _ ← call (.enqueue item record)
          pure 0

section Pools

variable {env : List (Event Answer) → (c : SysCall) → Answer c → Prop}

/-- One of a kind is given back by each call. -/
lemma owns_forAll {ι : Type} {f : ι → SysCall} {r : ι → Resource}
    (hneeds : ∀ i, needs (f i) = {r i}) (hgives : ∀ i a, gives (f i) a = {r i})
    (hgains : ∀ i a, gains (fun _ => 0) (f i) a = 0)
    (P : Multiset Resource) (is : List ι) :
    Owns taken env (forAll f is) (P + (is.map r : List Resource)) fun _ => P := by
  induction is with
  | nil => exact owns_ret (add_zero P)
  | cons i is ih =>
      have hfirst : P + (((i :: is).map r : List Resource) : Multiset Resource) =
          P + (is.map r : List Resource) + needs (f i) := by
        rw [hneeds, add_assoc, List.map_cons, ← Multiset.cons_coe, ← Multiset.singleton_add,
          add_comm {r i}]
      rw [hfirst]
      exact owns_release (fun a => (hgives i a).trans (hneeds i).symm) (hgains i) fun _ _ _ => ih

/-- The threads are joined, and all blocks are freed; nothing is done about the connections. -/
lemma owns_threadPoolDestroy (pool : PoolRecord) :
    Owns taken env (threadPoolDestroy pool) pool.owns fun _ => 0 := by
  simp only [threadPoolDestroy, bind_eq]
  refine owns_use zero_le (fun _ => rfl) (fun _ => rfl) fun _ _ _ => ?_
  refine owns_bind (owns_forAll (fun _ => rfl) (fun _ _ => rfl) (fun _ _ => rfl) _ _) fun _ => ?_
  refine owns_acquire zero_le (fun _ => rfl) fun _ items _ => ?_
  rw [taken_remaining]
  refine owns_bind (owns_forAll (fun _ => rfl) (fun _ _ => rfl) (fun _ _ => rfl) _ _) fun _ => ?_
  refine owns_release (c := SysCall.free pool.threadsPtr) (fun _ => rfl) (fun _ => rfl)
    fun _ _ _ => ?_
  rw [← zero_add {Resource.block pool.ptr}]
  exact owns_release (c := SysCall.free pool.ptr) (f := .ret) (fun _ => rfl) (fun _ => rfl)
    fun _ _ _ => owns_ret rfl

/-- A pool that cannot get all its threads gives back what it has. -/
lemma owns_createWorkers (k : ℕ) (pool : PoolRecord) :
    Owns taken env (createWorkers k pool) pool.owns
      fun created => created.elim 0 PoolRecord.owns := by
  induction k generalizing pool with
  | zero => exact owns_ret rfl
  | succ k ih =>
      simp only [createWorkers, bind_eq, pure_eq]
      refine owns_acquire zero_le (fun _ => rfl) fun _ t _ => ?_
      cases t with
      | none =>
          change Owns taken env _ (pool.owns + 0) _
          rw [add_zero]
          exact owns_bind (owns_threadPoolDestroy pool) fun _ => owns_ret rfl
      | some t =>
          have hmore : pool.owns + {.thread t} =
              ({ pool with threads := pool.threads ++ [t] } : PoolRecord).owns := by
            simp only [PoolRecord.owns, List.map_append, List.map_singleton, ← Multiset.coe_add,
              Multiset.coe_singleton, add_assoc]
          change Owns taken env _ (pool.owns + {.thread t}) _
          rw [hmore]
          exact ih _

lemma owns_threadPoolCreate (numThreads : ℤ) :
    Owns taken env (threadPoolCreate numThreads) 0
      fun created => created.elim 0 PoolRecord.owns := by
  simp only [threadPoolCreate, bind_eq, pure_eq]
  refine owns_acquire zero_le (fun _ => rfl) fun _ p _ => ?_
  cases p with
  | none => exact owns_ret rfl
  | some ptr =>
      refine owns_acquire zero_le (fun _ => rfl) fun _ p _ => ?_
      cases p with
      | none =>
          change Owns taken env _ (0 + {.block ptr} + 0) _
          rw [add_zero]
          exact owns_release (c := SysCall.free ptr) (fun _ => rfl) (fun _ => rfl)
            fun _ _ _ => owns_ret rfl
      | some threadsPtr =>
          have hpool : 0 + pointer (some ptr) + pointer (some threadsPtr) =
              (⟨ptr, threadsPtr, []⟩ : PoolRecord).owns := by
            rw [zero_add]
            exact (add_zero _).symm
          change Owns taken env _ (0 + pointer (some ptr) + pointer (some threadsPtr)) _
          rw [hpool]
          exact owns_createWorkers _ _

/-- A connection that was submitted is with the pool, and one that was not is still here. -/
lemma owns_threadPoolSubmit (pool : Option PoolRecord) (record : ConnectionRecord) :
    Owns taken env (threadPoolSubmit pool record) record.owns
      fun ret => if ret < 0 then record.owns else 0 := by
  cases pool with
  | none => exact owns_ret rfl
  | some pool =>
      simp only [threadPoolSubmit, bind_eq, pure_eq]
      refine owns_acquire zero_le (fun _ => rfl) fun _ p _ => ?_
      cases p with
      | none => exact owns_ret (add_zero _)
      | some item =>
          change Owns taken env _ (record.owns + {.block item}) _
          rw [add_comm, ← zero_add ({.block item} + record.owns)]
          exact owns_release (c := SysCall.enqueue item record) (fun _ => rfl) (fun _ => rfl)
            fun _ _ _ => owns_ret rfl

end Pools

/-! ### The server -/

/-- `g_server_fd`, `g_thread_pool` and `g_epoll_fd`. -/
structure ServerGlobals where
  gServerFd : ℤ
  gThreadPool : Option PoolRecord
  gEpollFd : ℤ

/-- The threading models with a pool. -/
def usesPool (model : ThreadingModel) : Bool := model = .pool ∨ model = .hybrid

/-- The threading models that wait for events. -/
def usesEpoll (model : ThreadingModel) : Bool :=
  model = .eventDriven ∨ model = .hybrid

/-- A pool is destroyed, where there is one. -/
def destroyPool : Option PoolRecord → System Unit
  | none => pure ()
  | some pool => threadPoolDestroy pool

/-- `proxy_server_init`, for the models that wait for events. -/
def initEpoll (g : ServerGlobals) : System (ℤ × ServerGlobals) := do
  let gEpollFd ← call .epollCreate1
  let g := { g with gEpollFd }
  if gEpollFd < 0 then do
    destroyPool g.gThreadPool
    let _ ← call (.close g.gServerFd)
    pure (-1, g)
  else do
    let added ← call (.epollAdd gEpollFd g.gServerFd)
    if added < 0 then do
      let _ ← call (.close gEpollFd)
      destroyPool g.gThreadPool
      let _ ← call (.close g.gServerFd)
      pure (-1, g)
    else do
      let _ ← setNonblocking g.gServerFd
      pure (0, g)

/-- `proxy_server_init`, after the pool. -/
def initEvents (model : ThreadingModel) (g : ServerGlobals) : System (ℤ × ServerGlobals) :=
  if usesEpoll model then initEpoll g else pure (0, g)

/-- `proxy_server_init`. -/
def proxyServerInit (config : ServerConfig) : System (ℤ × ServerGlobals) := do
  let gServerFd ← createServerSocket config.bindAddress config.port
  let g : ServerGlobals := ⟨gServerFd, none, -1⟩
  if gServerFd < 0 then pure (-1, g)
  else if usesPool config.threadModel then do
    match ← threadPoolCreate config.numThreads with
    | none => do
        let _ ← call (.close gServerFd)
        pure (-1, g)
    | some pool => initEvents config.threadModel { g with gThreadPool := some pool }
  else initEvents config.threadModel g

/-- A connection is accepted and handed on, in all loops. -/
def acceptConnection (gServerFd : ℤ) (handOn : ConnectionRecord → System Unit) : System Unit := do
  let clientFd ← call (.accept gServerFd)
  if clientFd < 0 then pure ()
  else do
    match ← connectionCreate clientFd with
    | none => call (.close clientFd)
    | some record => handOn record

/-- `server_loop_event_driven`: a connection goes to the pool, and nothing is done about one that
the pool did not take, or it is handled at once. -/
def handOnEvent (config : ServerConfig) (fuel : ℕ) (pool : Option PoolRecord)
    (record : ConnectionRecord) : System Unit :=
  if config.threadModel = .hybrid then do
    let _ ← threadPoolSubmit pool record
    pure ()
  else handleConnectionWorker config.handler config.enableLogging fuel record

/-- `server_loop_thread_pool`. -/
def handOnPool (pool : Option PoolRecord) (record : ConnectionRecord) : System Unit := do
  let ret ← threadPoolSubmit pool record
  if ret < 0 then connectionDestroy record else pure ()

/-- `server_loop_per_connection`. -/
def handOnThread (record : ConnectionRecord) : System Unit := do
  let created ← call (.pthreadCreateDetached record)
  if created then pure () else connectionDestroy record

/-- The events of a round. -/
def handleEvents (gServerFd : ℤ) (handOn : ConnectionRecord → System Unit) :
    List ℤ → System Unit
  | [] => pure ()
  | fd :: fds => do
      if fd = gServerFd then acceptConnection gServerFd handOn else pure ()
      handleEvents gServerFd handOn fds

/-- A round of `server_loop_event_driven`. -/
def eventRound (config : ServerConfig) (fuel : ℕ) (g : ServerGlobals) : System (Unit ⊕ ℤ) := do
  if ← call .running then do
    match ← call (.epollWait g.gEpollFd) with
    | .interrupted => pure (.inl ())
    | .failed => pure (.inr 0)
    | .events fds => do
        handleEvents g.gServerFd (handOnEvent config fuel g.gThreadPool) fds
        pure (.inl ())
  else pure (.inr 0)

/-- A round of the other loops. -/
def acceptRound (gServerFd : ℤ) (handOn : ConnectionRecord → System Unit) :
    System (Unit ⊕ ℤ) := do
  if ← call .running then do
    acceptConnection gServerFd handOn
    pure (.inl ())
  else pure (.inr 0)

/-- `proxy_server_start`. -/
def proxyServerStart (config : ServerConfig) (fuel : ℕ) (g : ServerGlobals) : System ℤ :=
  if g.gServerFd < 0 then pure (-1)
  else
    match config.threadModel with
    | .eventDriven => Prog.loop Fault.outOfFuel (fun _ => eventRound config fuel g) fuel ()
    | .hybrid => Prog.loop Fault.outOfFuel (fun _ => eventRound config fuel g) fuel ()
    | .pool =>
        Prog.loop Fault.outOfFuel (fun _ => acceptRound g.gServerFd (handOnPool g.gThreadPool))
          fuel ()
    | .perConnection =>
        Prog.loop Fault.outOfFuel (fun _ => acceptRound g.gServerFd handOnThread) fuel ()

/-- `proxy_server_cleanup`. -/
def proxyServerCleanup (g : ServerGlobals) : System Unit := do
  destroyPool g.gThreadPool
  closeOpen g.gEpollFd
  closeOpen g.gServerFd
  call .statsPrint

/-- The part of `main` that runs the server. -/
def serverMain (config : ServerConfig) (fuel : ℕ) : System ℤ := do
  let (ret, g) ← proxyServerInit config
  if ret ≠ 0 then pure 1
  else do
    let started ← proxyServerStart config fuel g
    if started ≠ 0 then do
      proxyServerCleanup g
      pure 1
    else do
      proxyServerCleanup g
      pure 0

/-! ### What the server has -/

/-- What the globals keep. -/
def ServerGlobals.owns (g : ServerGlobals) : Multiset Resource :=
  descriptor g.gServerFd + descriptor g.gEpollFd + g.gThreadPool.elim 0 PoolRecord.owns

/-- There is memory for the work items of the model that does not check for it. -/
def Supplied (model : ThreadingModel) : (c : SysCall) → Answer c → Prop
  | .malloc .workItem, p => model = .hybrid → p ≠ none
  | _, _ => True

/-- The answers of the system calls: those of the kernel, and memory where it is relied on. -/
def serverAnswers (model : ThreadingModel) (h : List (Event Answer)) (c : SysCall)
    (r : Answer c) : Prop :=
  kernelAnswers h c r ∧ Supplied model c r

/-- After `proxy_server_init`: there is a socket, and what the threading model uses. -/
structure ServerGlobals.Ready (model : ThreadingModel) (g : ServerGlobals) : Prop where
  server : 0 ≤ g.gServerFd
  pool : usesPool model → g.gThreadPool ≠ none
  epoll : usesEpoll model → 0 ≤ g.gEpollFd

section Server

variable {env : List (Event Answer) → (c : SysCall) → Answer c → Prop}

lemma owns_destroyPool (pool : Option PoolRecord) :
    Owns taken env (destroyPool pool) (pool.elim 0 PoolRecord.owns) fun _ => 0 := by
  cases pool with
  | none => exact owns_ret rfl
  | some pool => exact owns_threadPoolDestroy pool

/-- A descriptor is closed. -/
lemma owns_close {α : Type} {f : Unit → System α} {P : Multiset Resource}
    {Q : α → Multiset Resource} (fd : ℤ) (hf : Owns taken env (f ()) P Q) :
    Owns taken env ((call (.close fd)).bind f) (P + descriptor fd) Q :=
  owns_release (c := SysCall.close fd) (fun _ => rfl) (fun _ => rfl) fun _ _ _ => hf

/-- What `proxy_server_init` leaves: all it opened, or nothing. -/
def initialised (x : ℤ × ServerGlobals) : Multiset Resource := if x.1 = 0 then x.2.owns else 0

lemma owns_initEpoll {g : ServerGlobals} (hserver : 0 ≤ g.gServerFd) (hepoll : g.gEpollFd = -1) :
    Owns taken env (initEpoll g) g.owns initialised := by
  simp only [initEpoll, bind_eq, pure_eq]
  refine owns_acquire zero_le (fun _ => rfl) fun _ fd _ => ?_
  have hopen : g.owns + descriptor fd = ({ g with gEpollFd := fd } : ServerGlobals).owns := by
    rw [ServerGlobals.owns, ServerGlobals.owns, hepoll, descriptor_of_neg (by omega : (-1 : ℤ) < 0),
      add_zero, add_right_comm]
  change Owns taken env _ (g.owns + descriptor fd) _
  rw [hopen]
  split
  · rename_i hneg
    rw [ServerGlobals.owns, descriptor_of_neg hneg, add_zero]
    refine owns_bind (owns_spend _ (owns_destroyPool g.gThreadPool)) fun _ => ?_
    rw [← zero_add (descriptor _)]
    exact owns_close _ (owns_ret rfl)
  · rename_i hpos
    have hfds : ({.fd fd} : Multiset Resource) + {.fd g.gServerFd} ≤
        ({ g with gEpollFd := fd } : ServerGlobals).owns := by
      rw [ServerGlobals.owns, descriptor_of_nonneg hserver, descriptor_of_nonneg (not_lt.mp hpos),
        add_comm {Resource.fd fd}]
      exact Multiset.le_add_right ..
    refine owns_use hfds (fun _ => rfl) (fun _ => rfl) fun _ added _ => ?_
    split
    · rw [ServerGlobals.owns, add_right_comm]
      refine owns_close _ ?_
      refine owns_bind (owns_spend _ (owns_destroyPool g.gThreadPool)) fun _ => ?_
      rw [← zero_add (descriptor _)]
      exact owns_close _ (owns_ret rfl)
    · exact owns_bind (owns_setNonblocking ((Multiset.le_add_left ..).trans hfds))
        fun _ => owns_ret rfl

lemma owns_initEvents (model : ThreadingModel) {g : ServerGlobals} (hserver : 0 ≤ g.gServerFd)
    (hepoll : g.gEpollFd = -1) :
    Owns taken env (initEvents model g) g.owns initialised := by
  rw [initEvents]
  split
  · exact owns_initEpoll hserver hepoll
  · exact owns_ret rfl

/-- **Initialisation** leaves what it opened, or has given all of it back. -/
lemma owns_proxyServerInit (henv : ∀ h c r, env h c r → kernelAnswers h c r)
    (config : ServerConfig) :
    Owns taken env (proxyServerInit config) 0 initialised := by
  simp only [proxyServerInit, bind_eq, pure_eq]
  refine owns_bind (owns_createServerSocket henv _ _) fun fd => ?_
  split
  · rename_i hneg
    exact owns_ret (descriptor_of_neg hneg)
  · rename_i hpos
    have howns : descriptor fd = (⟨fd, none, -1⟩ : ServerGlobals).owns := by
      change _ = descriptor fd + 0 + 0
      rw [add_zero, add_zero]
    split
    · have hpool : Owns taken env (threadPoolCreate config.numThreads) (descriptor fd)
          fun created => descriptor fd + created.elim 0 PoolRecord.owns := by
        have hframe : Owns taken env _ (descriptor fd + 0) _ :=
          owns_frame (owns_threadPoolCreate config.numThreads) (descriptor fd)
        rwa [add_zero] at hframe
      refine owns_bind hpool fun created => ?_
      cases created with
      | none =>
          rw [Option.elim_none, add_comm]
          exact owns_close fd (owns_ret rfl)
      | some pool =>
          have hall : descriptor fd + pool.owns = (⟨fd, some pool, -1⟩ : ServerGlobals).owns := by
            change _ = descriptor fd + 0 + pool.owns
            rw [add_zero]
          rw [Option.elim_some, hall]
          exact owns_initEvents _ (not_lt.mp hpos) rfl
    · rw [howns]
      exact owns_initEvents _ (not_lt.mp hpos) rfl

/-- A server that was initialised is ready. -/
def InitReady (model : ThreadingModel) (x : ℤ × ServerGlobals) : Prop :=
  x.1 = 0 → x.2.Ready model

lemma initReady_failed (model : ThreadingModel) (g : ServerGlobals) : InitReady model (-1, g) :=
  fun h => absurd h (by omega)

lemma returns_initEvents {model : ThreadingModel} {g : ServerGlobals} (hserver : 0 ≤ g.gServerFd)
    (hpool : usesPool model → g.gThreadPool ≠ none) :
    Returns (InitReady model) (initEvents model g) := by
  rw [initEvents]
  split
  · simp only [initEpoll, bind_eq, pure_eq]
    refine returns_bind fun fd => ?_
    split
    · exact returns_bind fun _ => returns_bind fun _ => initReady_failed _ _
    · rename_i hpos
      refine returns_bind fun added => ?_
      split
      · exact returns_bind fun _ => returns_bind fun _ => returns_bind fun _ =>
          initReady_failed _ _
      · exact returns_bind fun _ _ => ⟨hserver, hpool, fun _ => not_lt.mp hpos⟩
  · rename_i hepoll
    exact fun _ => ⟨hserver, hpool, fun h => absurd h hepoll⟩

lemma returns_proxyServerInit (config : ServerConfig) :
    Returns (InitReady config.threadModel) (proxyServerInit config) := by
  simp only [proxyServerInit, bind_eq, pure_eq]
  refine returns_bind fun fd => ?_
  split
  · exact initReady_failed _ _
  · rename_i hpos
    split
    · refine returns_bind fun created => ?_
      cases created with
      | none => exact returns_bind fun _ => initReady_failed _ _
      | some pool => exact returns_initEvents (not_lt.mp hpos) fun _ => Option.some_ne_none _
    · rename_i hpool
      exact returns_initEvents (not_lt.mp hpos) fun h => absurd h hpool

/-! ### The loops -/

/-- **A connection that is accepted** leaves the server as it was, where it is handed on. -/
lemma owns_acceptConnection {P : Multiset Resource} {gServerFd : ℤ}
    {handOn : ConnectionRecord → System Unit} (hserver : {.fd gServerFd} ≤ P)
    (hhand : ∀ record : ConnectionRecord, 0 ≤ record.clientFd → record.conn.remoteFd = -1 →
      Owns taken env (handOn record) record.owns fun _ => 0) :
    Owns taken env (acceptConnection gServerFd handOn) P fun _ => P := by
  simp only [acceptConnection, bind_eq, pure_eq]
  refine owns_acquire hserver (fun _ => rfl) fun _ clientFd _ => ?_
  change Owns taken env _ (P + descriptor clientFd) _
  split
  · rename_i hneg
    rw [descriptor_of_neg hneg, add_zero]
    exact owns_ret rfl
  · rename_i hpos
    have hclient : 0 ≤ clientFd := not_lt.mp hpos
    refine owns_spend P (owns_bind_returns (owns_connectionCreate hclient)
      (returns_connectionCreate clientFd) fun created hcreated => ?_)
    cases created with
    | none =>
        rw [Option.elim_none, ← zero_add (descriptor clientFd)]
        exact owns_close (f := .ret) clientFd (owns_ret rfl)
    | some record =>
        obtain ⟨hfd, hremote⟩ := hcreated record rfl
        exact hhand record (hfd ▸ hclient) hremote

lemma owns_handOnPool (pool : Option PoolRecord) (record : ConnectionRecord) :
    Owns taken env (handOnPool pool record) record.owns fun _ => 0 := by
  simp only [handOnPool, bind_eq, pure_eq]
  refine owns_bind (owns_threadPoolSubmit pool record) fun ret => ?_
  split
  · exact owns_connectionDestroy record
  · exact owns_ret rfl

lemma owns_handOnThread (record : ConnectionRecord) :
    Owns taken env (handOnThread record) record.owns fun _ => 0 := by
  simp only [handOnThread, bind_eq, pure_eq]
  refine owns_call le_rfl fun _ created _ => ?_
  cases created with
  | true =>
      change Owns taken env _ (record.owns - record.owns + 0) _
      rw [tsub_self, add_zero]
      exact owns_ret rfl
  | false =>
      change Owns taken env _ (record.owns - 0 + 0) _
      rw [tsub_zero, add_zero]
      exact owns_connectionDestroy record

/-- In the hybrid model the submission has to succeed. -/
lemma owns_handOnEvent {config : ServerConfig}
    (henv : ∀ h c r, env h c r → Supplied config.threadModel c r) (fuel : ℕ)
    {pool : Option PoolRecord} (hpool : usesPool config.threadModel → pool ≠ none)
    (record : ConnectionRecord) (hclient : 0 ≤ record.clientFd)
    (hremote : record.conn.remoteFd = -1) :
    Owns taken env (handOnEvent config fuel pool record) record.owns fun _ => 0 := by
  rw [handOnEvent]
  split
  · rename_i hmodel
    cases pool with
    | none => exact absurd rfl (hpool (by simp [hmodel, usesPool]))
    | some pool =>
        simp only [threadPoolSubmit, bind_eq, pure_eq]
        refine owns_acquire zero_le (fun _ => rfl) fun _ p hp => ?_
        cases p with
        | none => exact absurd rfl (henv _ (.malloc .workItem) none hp hmodel)
        | some item =>
            change Owns taken env _ (record.owns + {.block item}) _
            rw [add_comm, ← zero_add ({.block item} + record.owns)]
            exact owns_release (c := SysCall.enqueue item record) (fun _ => rfl) (fun _ => rfl)
              fun _ _ _ => owns_ret rfl
  · exact owns_handleConnectionWorker _ _ _ hclient hremote

/-- The events of a round. -/
lemma owns_handleEvents {P : Multiset Resource} {gServerFd : ℤ}
    {handOn : ConnectionRecord → System Unit} (hserver : {.fd gServerFd} ≤ P)
    (hhand : ∀ record : ConnectionRecord, 0 ≤ record.clientFd → record.conn.remoteFd = -1 →
      Owns taken env (handOn record) record.owns fun _ => 0) (fds : List ℤ) :
    Owns taken env (handleEvents gServerFd handOn fds) P fun _ => P := by
  induction fds with
  | nil => exact owns_ret rfl
  | cons fd fds ih =>
      simp only [handleEvents, bind_eq]
      split
      · exact owns_bind (owns_acceptConnection hserver hhand) fun _ => ih
      · exact ih

/-- A round of a loop leaves the server as it was. -/
lemma owns_acceptRound {P : Multiset Resource} {gServerFd : ℤ}
    {handOn : ConnectionRecord → System Unit} (hserver : {.fd gServerFd} ≤ P)
    (hhand : ∀ record : ConnectionRecord, 0 ≤ record.clientFd → record.conn.remoteFd = -1 →
      Owns taken env (handOn record) record.owns fun _ => 0) :
    Owns taken env (acceptRound gServerFd handOn) P fun _ => P := by
  simp only [acceptRound, bind_eq, pure_eq]
  refine owns_use zero_le (fun _ => rfl) (fun _ => rfl) fun _ running _ => ?_
  split
  · exact owns_bind (owns_acceptConnection hserver hhand) fun _ => owns_ret rfl
  · exact owns_ret rfl

lemma owns_eventRound {config : ServerConfig}
    (henv : ∀ h c r, env h c r → Supplied config.threadModel c r) (fuel : ℕ)
    {g : ServerGlobals} (hg : g.Ready config.threadModel) (hepoll : usesEpoll config.threadModel) :
    Owns taken env (eventRound config fuel g) g.owns fun _ => g.owns := by
  have hserver : ({.fd g.gServerFd} : Multiset Resource) ≤ g.owns := by
    rw [ServerGlobals.owns, descriptor_of_nonneg hg.server, add_assoc]
    exact Multiset.le_add_right ..
  have hevents : ({.fd g.gEpollFd} : Multiset Resource) ≤ g.owns := by
    rw [ServerGlobals.owns, descriptor_of_nonneg (hg.epoll hepoll)]
    exact (Multiset.le_add_left ..).trans (Multiset.le_add_right ..)
  simp only [eventRound, bind_eq, pure_eq]
  refine owns_use zero_le (fun _ => rfl) (fun _ => rfl) fun _ running _ => ?_
  split
  · refine owns_use hevents (fun _ => rfl) (fun _ => rfl) fun _ waited _ => ?_
    cases waited with
    | interrupted => exact owns_ret rfl
    | failed => exact owns_ret rfl
    | events fds =>
        exact owns_bind (owns_handleEvents hserver
          (fun record hclient hremote =>
            owns_handOnEvent henv fuel hg.pool record hclient hremote) fds) fun _ => owns_ret rfl
  · exact owns_ret rfl

/-- **The loops**, in all threading models, leave the server as it was. -/
lemma owns_proxyServerStart {config : ServerConfig}
    (henv : ∀ h c r, env h c r → Supplied config.threadModel c r) (fuel : ℕ)
    {g : ServerGlobals} (hg : g.Ready config.threadModel) :
    Owns taken env (proxyServerStart config fuel g) g.owns fun _ => g.owns := by
  have hserver : ({.fd g.gServerFd} : Multiset Resource) ≤ g.owns := by
    rw [ServerGlobals.owns, descriptor_of_nonneg hg.server, add_assoc]
    exact Multiset.le_add_right ..
  have hloop : ∀ body : Unit → System (Unit ⊕ ℤ),
      Owns taken env (body ()) g.owns (fun _ => g.owns) →
      Owns taken env (Prog.loop Fault.outOfFuel body fuel ()) g.owns fun _ => g.owns := by
    intro body hbody
    refine owns_loop (I := fun _ => g.owns) (fun _ => ?_) fuel ()
    have helim : (fun _ : Unit ⊕ ℤ => g.owns) = Sum.elim (fun _ => g.owns) fun _ => g.owns := by
      funext x
      cases x <;> rfl
    rw [← helim]
    exact hbody
  rw [proxyServerStart, if_neg (not_lt.mpr hg.server)]
  split
  · rename_i hm
    exact hloop _ (owns_eventRound henv fuel hg (by simp [hm, usesEpoll]))
  · rename_i hm
    exact hloop _ (owns_eventRound henv fuel hg (by simp [hm, usesEpoll]))
  · exact hloop _ (owns_acceptRound hserver fun record _ _ => owns_handOnPool _ record)
  · exact hloop _ (owns_acceptRound hserver fun record _ _ => owns_handOnThread record)

/-- **Cleaning up** gives back all that the server has. -/
lemma owns_proxyServerCleanup (g : ServerGlobals) :
    Owns taken env (proxyServerCleanup g) g.owns fun _ => 0 := by
  simp only [proxyServerCleanup, bind_eq]
  refine owns_bind (owns_spend _ (owns_destroyPool g.gThreadPool)) fun _ => ?_
  refine owns_bind (owns_closeOpen _ _) fun _ => ?_
  rw [← zero_add (descriptor _)]
  refine owns_bind (owns_closeOpen _ _) fun _ => ?_
  exact owns_use (f := .ret) zero_le (fun _ => rfl) (fun _ => rfl) fun _ _ _ => owns_ret rfl

end Server

/-- **The server** gives back all that it takes up. -/
lemma owns_serverMain (config : ServerConfig) (fuel : ℕ) :
    Owns taken (serverAnswers config.threadModel) (serverMain config fuel) 0 fun _ => 0 := by
  simp only [serverMain, bind_eq, pure_eq]
  refine owns_bind_returns (owns_proxyServerInit (fun _ _ _ h => h.1) config)
    (returns_proxyServerInit config) ?_
  rintro ⟨ret, g⟩ hready
  split
  · rename_i hret
    exact owns_ret (if_neg hret)
  · rename_i hret
    have hzero : ret = 0 := not_not.mp hret
    rw [initialised, if_pos hzero]
    refine owns_bind (owns_proxyServerStart (fun _ _ _ h => h.2) fuel (hready hzero))
      fun started => ?_
    split
    · exact owns_bind (owns_proxyServerCleanup g) fun _ => owns_ret rfl
    · exact owns_bind (owns_proxyServerCleanup g) fun _ => owns_ret rfl

/-- **The resources of the server.** In every run of the server, in all threading models and
whatever fails on the way, each call of the main thread needs only what is in hand: what was
opened and not given back or handed on, to another thread or to the queue of the pool. When `main`
returns, what is still in hand is what the connections have that `thread_pool_destroy` found in the
queue: all else that was gained was given back or handed on, once. -/
theorem server_resources (config : ServerConfig) (fuel : ℕ) (tr : List (Event Answer))
    (out : Outcome Fault ℤ)
    (hrun : Runs (serverAnswers config.threadModel) [] (serverMain config fuel) tr out) :
    (∀ pre c r post, tr = pre ++ ⟨c, r⟩ :: post → needs c ≤ ledger.held 0 pre) ∧
      ∀ ret, out = .returned ret →
        ledger.held 0 tr = dropped tr ∧ ledger.gained tr = ledger.given tr + dropped tr := by
  obtain ⟨hsound, hbalance, hres⟩ :=
    owns_sound_extends ledger_extends (owns_serverMain config fuel) hrun
  refine ⟨hsound, fun ret hout => ?_⟩
  have hheld : ledger.held 0 tr = dropped tr := (hres ret hout).trans (zero_add _)
  refine ⟨hheld, ?_⟩
  rwa [hheld, zero_add] at hbalance

/-- A proxy with one worker that relays to its backend. -/
def poolConfig : ServerConfig := ⟨relayingConfig, ascii "0.0.0.0", 8080, .pool, 1, 0⟩

/-- One client connects, which the worker has not taken when the server is stopped; everything else
is quiet. -/
def oneClient (h : List (Event Answer)) : (c : SysCall) → Answer c
  | .socket => (3 : ℤ)
  | .accept _ => (7 : ℤ)
  | .malloc .threadPool => some 11
  | .malloc (.threads _) => some 12
  | .malloc .connection => some 9
  | .malloc .workItem => some 10
  | .pthreadCreate => some 1
  | .remaining => [(10, created 9 7 [])]
  | .running => h.length < 9
  | c => quietAnswer h c

lemma oneClient_answers (h : List (Event Answer)) (c : SysCall) :
    serverAnswers poolConfig.threadModel h c (oneClient h c) := by
  cases c with
  | socket => exact ⟨by change (3 : ℤ) ≠ 0; omega, trivial⟩
  | setsockopt fd =>
      refine ⟨fun hneg => ?_, trivial⟩
      change (if fd < 0 then (-1 : ℤ) else 0) ≠ 0
      rw [if_pos hneg]
      omega
  | malloc block => cases block <;> exact ⟨trivial, by simp [Supplied, oneClient]⟩
  | _ => exact ⟨trivial, trivial⟩

/-- The run of the server with this client. -/
def oneClientRun : List (Event Answer) × Outcome Fault ℤ :=
  play oneClient [] (serverMain poolConfig 3)

/-- The record of the connection and the descriptor of the client are left. -/
theorem server_resources_oneClient :
    oneClientRun.2 = .returned 0 ∧ ledger.held 0 oneClientRun.1 = {.block 9, .fd 7} ∧
      ledger.gained oneClientRun.1 = ledger.given oneClientRun.1 + {.block 9, .fd 7} := by
  have hruns : Runs (serverAnswers poolConfig.threadModel) [] (serverMain poolConfig 3)
      oneClientRun.1 oneClientRun.2 := play_runs oneClient_answers _ _
  have hret : oneClientRun.2 = .returned 0 := by rfl
  have hdropped : dropped oneClientRun.1 = {.block 9, .fd 7} := by rfl
  have hall := (server_resources poolConfig 3 _ _ hruns).2 0 hret
  rw [hdropped] at hall
  exact ⟨hret, hall⟩

end ProxyMax.Resources
