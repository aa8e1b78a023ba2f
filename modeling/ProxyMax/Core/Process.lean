import ProxyMax.Config.Arguments
import ProxyMax.Core.Lifecycle

/-!
`main` of `src/main.c`: the arguments, the components that are started, the server, and the
components that are stopped.

* `Component`, `MainCall`: what `main` starts and stops, and its calls.
* `startComponents`, `stopComponents`, `mainProgram`: the code.
* `startedIn`, `stoppedIn`, `sysTrace`: the components and the system calls of a trace.
* `MainGuard`: when a component is started or stopped, and a thread created; `wp_mainProgram`.
* `Serving`: while a thread is there, all components are started and none is stopped.
* `workers_served`: each event of a worker comes after all starts and before all stops.
-/

namespace ProxyMax.Resources

open CString Interaction Ownership

/-! ### The code -/

/-- The components that `main` starts and stops. -/
inductive Component where
  | logger
  | cache
  | auth
  | filter
  | ratelimit
  | compression
  | ssl
  | loadbalancer
deriving DecidableEq

/-- A call of `main`. The result of an `_init` is not looked at. -/
inductive MainCall where
  | sys (c : SysCall)
  | init (component : Component)
  | access (path : Bytes)
  | mkdir
  | sslGenerateSelfSignedCert (certFile keyFile : Bytes)
  | sslCreateServerContext (certFile keyFile : Bytes)
  | statsInit
  | cleanup (component : Component)

/-- What a call returns. -/
abbrev MainAnswer : MainCall → Type
  | .sys c => Answer c
  | .init _ => ℤ
  | .access _ => ℤ
  | .mkdir => ℤ
  | .sslGenerateSelfSignedCert _ _ => ℤ
  | .sslCreateServerContext _ _ => ℤ
  | .statsInit => Unit
  | .cleanup _ => Unit

/-- A program at the level of `main`. -/
abbrev Process := Prog MainCall MainAnswer Fault

/-- Whether the configuration has the component. -/
def enabled (config : ProxyConfig) : Component → Bool
  | .logger => config.enableLogging ≠ 0
  | .cache => config.enableCaching ≠ 0
  | .auth => config.enableAuth ≠ 0
  | .filter => config.enableFiltering ≠ 0
  | .ratelimit => config.enableRateLimiting ≠ 0
  | .compression => config.enableCompression ≠ 0
  | .ssl => config.enableSsl ≠ 0
  | .loadbalancer => config.mode = .reverse

/-- Whether one of the files of the certificate is not there. -/
def certMissing (certFile keyFile : Bytes) : Process Bool := do
  let cert ← ask (MainCall.access certFile)
  if cert ≠ 0 then pure true
  else do
    let key ← ask (MainCall.access keyFile)
    pure (decide (key ≠ 0))

/-- A certificate is made where there is none. -/
def makeCert (certFile keyFile : Bytes) (missing : Bool) : Process Unit :=
  if missing then do
    let _ ← ask MainCall.mkdir
    let _ ← ask (MainCall.sslGenerateSelfSignedCert certFile keyFile)
    pure ()
  else pure ()

/-- What `main` does after `ssl_init`. -/
def prepareSsl (certFile keyFile : Bytes) : Process Unit := do
  let missing ← certMissing certFile keyFile
  makeCert certFile keyFile missing
  let _ ← ask (MainCall.sslCreateServerContext certFile keyFile)
  pure ()

/-- What `main` does to start a component. -/
def startComponent (config : ProxyConfig) (component : Component) : Process Unit := do
  let _ ← ask (MainCall.init component)
  if component = .ssl then prepareSsl config.sslCertFile.text config.sslKeyFile.text else pure ()

/-- The components of a list are started, where the configuration has them. -/
def startComponents (config : ProxyConfig) : List Component → Process Unit
  | [] => pure ()
  | component :: components => do
      if enabled config component then startComponent config component else pure ()
      startComponents config components

/-- The components of a list are stopped, where the configuration has them. -/
def stopComponents (config : ProxyConfig) : List Component → Process Unit
  | [] => pure ()
  | component :: components => do
      if enabled config component then ask (MainCall.cleanup component) else pure ()
      stopComponents config components

/-- The order of the starts in `main`. -/
def startOrder : List Component :=
  [.logger, .cache, .auth, .filter, .ratelimit, .compression, .ssl, .loadbalancer]

/-- The order of the stops in `main`. -/
def stopOrder : List Component :=
  [.cache, .auth, .filter, .ratelimit, .compression, .loadbalancer, .ssl, .logger]

/-- The fields of the configuration that the server reads. -/
def serverConfig (config : ProxyConfig) : ServerConfig where
  handler :=
    { mode := config.mode
      enableCaching := config.enableCaching
      enableAuth := config.enableAuth
      enableFiltering := config.enableFiltering
      cacheTtlSeconds := config.cacheTtlSeconds
      backendHost := config.backendHost.text
      backendPort := config.backendPort }
  bindAddress := config.bindAddress.text
  port := config.port
  threadModel := config.threadModel
  numThreads := config.numThreads
  enableLogging := config.enableLogging

/-- The system calls of a program, as calls of `main`. -/
def lift {α : Type} (p : System α) : Process α :=
  Prog.expand (fun (_ : Unit) c => ask (MainCall.sys c)) (fun _ _ => ()) p ()

/-- `main`, after the arguments are parsed. -/
def mainAfter (fuel : ℕ) (config : ProxyConfig) : Process ℤ := do
  startComponents config startOrder
  let _ ← ask MainCall.statsInit
  let (ret, g) ← lift (proxyServerInit (serverConfig config))
  if ret ≠ 0 then pure 1
  else do
    let started ← lift (proxyServerStart (serverConfig config) fuel g)
    if started ≠ 0 then do
      lift (proxyServerCleanup g)
      pure 1
    else do
      lift (proxyServerCleanup g)
      stopComponents config stopOrder
      pure 0

/-- The configuration of the arguments. -/
def configOf (fopen : Bytes → Option Bytes) (args : List Bytes) : ProxyConfig :=
  (parseArgs fopen args configSetDefaults).2

/-- `main`, with the arguments after the name of the program; `fopen` gives what the files hold that
can be opened. -/
def mainProgram (fopen : Bytes → Option Bytes) (args : List Bytes) (fuel : ℕ) : Process ℤ :=
  if (parseArgs fopen args configSetDefaults).1 ≠ 0 then pure 1
  else mainAfter fuel (configOf fopen args)

/-! ### What is seen of a run -/

/-- The components that a trace starts, in order. -/
def startedIn (h : List (Event MainAnswer)) : List Component :=
  h.filterMap fun e => match e.1 with
    | .init component => some component
    | _ => none

/-- The components that a trace stops, in order. -/
def stoppedIn (h : List (Event MainAnswer)) : List Component :=
  h.filterMap fun e => match e.1 with
    | .cleanup component => some component
    | _ => none

/-- The system calls of a trace. -/
def sysTrace (h : List (Event MainAnswer)) : List (Event Answer) :=
  h.filterMap fun e => match e with
    | ⟨.sys c, r⟩ => some ⟨c, r⟩
    | _ => none

/-- The components that are to be started, in order. -/
def toStart (config : ProxyConfig) : List Component := startOrder.filter (enabled config)

/-- The components that are to be stopped, in order. -/
def toStop (config : ProxyConfig) : List Component := stopOrder.filter (enabled config)

/-- The answers to the system calls of `main`. -/
def processAnswers (model : ThreadingModel) (h : List (Event MainAnswer)) :
    (c : MainCall) → MainAnswer c → Prop
  | .sys c, r => serverAnswers model (sysTrace h) c r
  | _, _ => True

/-- A component is started when its turn comes, the server runs when all are started and none is
stopped, and calls what it has the resources for, and a component is stopped when its turn comes and
the server has given back all that it took up. -/
def MainGuard (config : ProxyConfig) (h : List (Event MainAnswer)) : MainCall → Prop
  | .init component => startedIn h ++ [component] <+: toStart config ∧ stoppedIn h = []
  | .sys c => startedIn h = toStart config ∧ stoppedIn h = [] ∧ taken.Sound 0 (sysTrace h) c
  | .cleanup component =>
      startedIn h = toStart config ∧ stoppedIn h ++ [component] <+: toStop config ∧
        taken.held 0 (sysTrace h) = 0
  | _ => True

/-- A system call, as a call of `main`. -/
def sysEvent (e : Event Answer) : Event MainAnswer := ⟨.sys e.1, e.2⟩

lemma startedIn_append (h h' : List (Event MainAnswer)) :
    startedIn (h ++ h') = startedIn h ++ startedIn h' := List.filterMap_append

lemma stoppedIn_append (h h' : List (Event MainAnswer)) :
    stoppedIn (h ++ h') = stoppedIn h ++ stoppedIn h' := List.filterMap_append

lemma sysTrace_append (h h' : List (Event MainAnswer)) :
    sysTrace (h ++ h') = sysTrace h ++ sysTrace h' := List.filterMap_append

lemma startedIn_sysEvents (h : List (Event Answer)) : startedIn (h.map sysEvent) = [] := by
  simp [startedIn, sysEvent]

lemma stoppedIn_sysEvents (h : List (Event Answer)) : stoppedIn (h.map sysEvent) = [] := by
  simp [stoppedIn, sysEvent]

lemma sysTrace_sysEvents (h : List (Event Answer)) : sysTrace (h.map sysEvent) = h := by
  induction h with
  | nil => rfl
  | cons e h ih => exact congrArg (List.cons e) ih

/-! ### The components -/

/-- Where a trace is: the components that are started and stopped, and what the server has taken
up. -/
structure At (started stopped : List Component) (held : Multiset Resource)
    (h : List (Event MainAnswer)) : Prop where
  started : startedIn h = started
  stopped : stoppedIn h = stopped
  held : taken.held 0 (sysTrace h) = held

section Components

variable {env : List (Event MainAnswer) → (c : MainCall) → MainAnswer c → Prop}
  {config : ProxyConfig} {h : List (Event MainAnswer)} {started stopped : List Component}
  {P : Multiset Resource}

/-- A call that none of this sees. -/
lemma At.silent (hat : At started stopped P h) {e : Event MainAnswer} (hstart : startedIn [e] = [])
    (hstop : stoppedIn [e] = []) (hsys : sysTrace [e] = []) : At started stopped P (h ++ [e]) where
  started := by rw [startedIn_append, hstart, List.append_nil, hat.started]
  stopped := by rw [stoppedIn_append, hstop, List.append_nil, hat.stopped]
  held := by rw [sysTrace_append, hsys, List.append_nil, hat.held]

lemma wp_prepareSsl (certFile keyFile : Bytes) (hat : At started stopped P h) :
    wp env (MainGuard config) (prepareSsl certFile keyFile) (fun _ h' => At started stopped P h')
      h := by
  have hmissing : wp env (MainGuard config) (certMissing certFile keyFile)
      (fun _ h' => At started stopped P h') h := by
    simp only [certMissing, bind_eq, pure_eq, wp_bind, wp_ask]
    refine ⟨trivial, fun cert _ => ?_⟩
    have hat' := hat.silent (e := ⟨.access certFile, cert⟩) rfl rfl rfl
    split
    · exact hat'
    · exact ⟨trivial, fun _ _ => hat'.silent rfl rfl rfl⟩
  simp only [prepareSsl, bind_eq, pure_eq, wp_bind]
  refine wp_mono hmissing fun missing h' hat' => ?_
  have hmake : wp env (MainGuard config) (makeCert certFile keyFile missing)
      (fun _ h' => At started stopped P h') h' := by
    cases missing with
    | false => exact hat'
    | true =>
        exact ⟨trivial, fun _ _ => ⟨trivial, fun _ _ =>
          (hat'.silent rfl rfl rfl).silent rfl rfl rfl⟩⟩
  rw [wp_bind]
  refine wp_mono hmake fun _ h'' hat'' => ?_
  exact ⟨trivial, fun _ _ => hat''.silent rfl rfl rfl⟩

/-- **The starts.** -/
lemma wp_startComponents (components : List Component)
    (hrest : started ++ components.filter (enabled config) = toStart config)
    (hat : At started [] P h) :
    wp env (MainGuard config) (startComponents config components)
      (fun _ h' => At (toStart config) [] P h') h := by
  induction components generalizing started h with
  | nil =>
      rw [List.filter_nil, List.append_nil] at hrest
      exact hrest ▸ hat
  | cons component components ih =>
      simp only [startComponents, bind_eq]
      split
      · rename_i henabled
        rw [List.filter_cons_of_pos henabled, List.append_cons] at hrest
        simp only [startComponent, bind_eq, pure_eq, wp_bind, wp_ask]
        refine ⟨⟨?_, hat.stopped⟩, fun r _ => ?_⟩
        · rw [hat.started]
          exact ⟨_, hrest⟩
        have hat' : At (started ++ [component]) [] P (h ++ [⟨.init component, r⟩]) :=
          ⟨by rw [startedIn_append, hat.started]; rfl,
            by rw [stoppedIn_append, hat.stopped]; rfl,
            by rw [sysTrace_append]; exact (congrArg _ (List.append_nil _)).trans hat.held⟩
        split
        · exact wp_mono (wp_prepareSsl _ _ hat') fun _ _ hat'' => ih hrest hat''
        · exact ih hrest hat'
      · rename_i henabled
        rw [List.filter_cons_of_neg henabled] at hrest
        exact ih hrest hat

/-- **The stops.** -/
lemma wp_stopComponents (components : List Component)
    (hrest : stopped ++ components.filter (enabled config) = toStop config)
    (hat : At (toStart config) stopped 0 h) :
    wp env (MainGuard config) (stopComponents config components)
      (fun _ h' => At (toStart config) (toStop config) 0 h') h := by
  induction components generalizing stopped h with
  | nil =>
      rw [List.filter_nil, List.append_nil] at hrest
      exact hrest ▸ hat
  | cons component components ih =>
      simp only [stopComponents, bind_eq]
      split
      · rename_i henabled
        rw [List.filter_cons_of_pos henabled, List.append_cons] at hrest
        refine ⟨⟨hat.started, ?_, hat.held⟩, fun r _ => ih hrest ?_⟩
        · rw [hat.stopped]
          exact ⟨_, hrest⟩
        · exact ⟨by rw [startedIn_append, hat.started]; exact List.append_nil _,
            by rw [stoppedIn_append, hat.stopped]; rfl,
            by rw [sysTrace_append]; exact (congrArg _ (List.append_nil _)).trans hat.held⟩
      · rename_i henabled
        rw [List.filter_cons_of_neg henabled] at hrest
        exact ih hrest hat

/-! ### The server -/

/-- **A program of the server**, among the calls of `main`: it runs when all components are started,
and leaves what it does for the ledger. -/
lemma wp_lift {α : Type} {p : System α} {Q : α → Multiset Resource} {K : α → Prop}
    (hp : Owns taken (serverAnswers config.threadModel) p P Q) (hK : Returns K p)
    (hat : At (toStart config) [] P h) :
    wp (processAnswers config.threadModel) (MainGuard config) (lift p)
      (fun a h' => At (toStart config) [] (Q a) h' ∧ K a) h := by
  have hwp := wp_returns (hp 0 (sysTrace h) 0 (by rw [hat.held, zero_add])) hK
  refine wp_mono (wp_expand (J := fun h' _ tr => ∃ more : List (Event Answer),
    h' = h ++ more.map sysEvent ∧ tr = sysTrace h ++ more) ?_ hwp ⟨[], by simp, by simp⟩) ?_
  · rintro c h' _ tr ⟨more, rfl, rfl⟩ hsound
    have hstarted : startedIn (h ++ more.map sysEvent) = toStart config := by
      rw [startedIn_append, startedIn_sysEvents, List.append_nil, hat.started]
    have hstopped : stoppedIn (h ++ more.map sysEvent) = [] := by
      rw [stoppedIn_append, stoppedIn_sysEvents, List.append_nil, hat.stopped]
    have htrace : sysTrace (h ++ more.map sysEvent) = sysTrace h ++ more := by
      rw [sysTrace_append, sysTrace_sysEvents]
    refine ⟨⟨hstarted, hstopped, htrace ▸ hsound⟩, fun r hr => ?_⟩
    rw [processAnswers, htrace] at hr
    exact ⟨hr, more ++ [⟨c, r⟩], by simp [sysEvent], by simp⟩
  · rintro a h' ⟨-, tr, ⟨more, rfl, rfl⟩, hheld, ha⟩
    rw [zero_add] at hheld
    refine ⟨⟨?_, ?_, ?_⟩, ha⟩
    · rw [startedIn_append, startedIn_sysEvents, List.append_nil, hat.started]
    · rw [stoppedIn_append, stoppedIn_sysEvents, List.append_nil, hat.stopped]
    · rw [sysTrace_append, sysTrace_sysEvents, hheld]

end Components

/-- **`main`** keeps to the guard, and when it returns 0 all components were started and stopped. -/
lemma wp_mainAfter (fuel : ℕ) (config : ProxyConfig) :
    wp (processAnswers config.threadModel) (MainGuard config) (mainAfter fuel config)
      (fun ret h' => ret = 0 → At (toStart config) (toStop config) 0 h') [] := by
  have hstart : At [] [] 0 [] := ⟨rfl, rfl, rfl⟩
  simp only [mainAfter, bind_eq, pure_eq, wp_bind]
  refine wp_mono (wp_startComponents startOrder rfl hstart) fun _ h hat => ?_
  refine ⟨trivial, fun u _ => ?_⟩
  have hat' := hat.silent (e := ⟨.statsInit, u⟩) rfl rfl rfl
  change wp _ _ (Prog.bind (lift (proxyServerInit (serverConfig config))) _) _ _
  rw [wp_bind]
  refine wp_mono (wp_lift (owns_proxyServerInit (fun _ _ _ hc => hc.1) (serverConfig config))
    (returns_proxyServerInit (serverConfig config)) hat') ?_
  rintro ⟨ret, g⟩ h₁ ⟨hat₁, hready⟩
  split
  · exact fun hret => absurd hret (by decide)
  rename_i hret
  have hzero : ret = 0 := not_not.mp hret
  rw [initialised, if_pos hzero] at hat₁
  have hany : ∀ {α : Type} (p : System α), Returns (fun _ => True) p := by
    intro α p
    induction p with
    | ret a => trivial
    | raise e => trivial
    | call c k ih => exact ih
  rw [wp_bind]
  refine wp_mono (wp_lift (owns_proxyServerStart (fun _ _ _ hc => hc.2) fuel (hready hzero))
    (hany _) hat₁) fun started h₂ hat₂ => ?_
  have hclean := wp_lift (owns_proxyServerCleanup g) (hany _) hat₂.1
  split
  · rw [wp_bind]
    exact wp_mono hclean fun _ _ _ hret => absurd hret (by decide)
  · rw [wp_bind]
    refine wp_mono hclean fun _ h₃ hat₃ => ?_
    rw [wp_bind]
    exact wp_mono (wp_stopComponents stopOrder rfl hat₃.1) fun _ _ hat₄ _ => hat₄

/-! ### The workers -/

/-- No thread is left in the queue. -/
lemma thread_notMem_dropped (t : ℕ) (tr : List (Event Answer)) : .thread t ∉ dropped tr := by
  have howns : ∀ record : ConnectionRecord, .thread t ∉ record.owns := by
    intro record hmem
    simp only [ConnectionRecord.owns, descriptor, Multiset.mem_add, Multiset.mem_singleton,
      reduceCtorEq, false_or] at hmem
    rcases hmem with hmem | hmem
    · split at hmem <;> simp at hmem
    · split at hmem <;> simp at hmem
  have hsum : ∀ {parts : List (Multiset Resource)}, .thread t ∈ parts.sum →
      ∃ part ∈ parts, .thread t ∈ part := by
    intro parts hmem
    rw [← Multiset.sum_coe] at hmem
    simpa using Multiset.mem_join.mp hmem
  intro hmem
  obtain ⟨part, hpart, hin⟩ := hsum hmem
  obtain ⟨⟨c, r⟩, -, rfl⟩ := List.mem_map.mp hpart
  cases c with
  | remaining =>
      obtain ⟨part, hpart, hin⟩ := hsum hin
      obtain ⟨item, -, rfl⟩ := List.mem_map.mp hpart
      exact howns item.2 hin
  | _ => exact absurd hin (Multiset.notMem_zero _)

/-- Where `main` is while it keeps to the guard: the components are started and stopped in their
orders, the server has what it took up and what it dropped, and while there is a thread all
components are started and none is stopped. -/
structure Serving (config : ProxyConfig) (h : List (Event MainAnswer)) : Prop where
  started : startedIn h <+: toStart config
  stopped : stoppedIn h <+: toStop config
  kept : ledger.held 0 (sysTrace h) = taken.held 0 (sysTrace h) + dropped (sysTrace h)
  serves : ∀ t, .thread t ∈ ledger.held 0 (sysTrace h) →
    startedIn h = toStart config ∧ stoppedIn h = []

/-- One event that none of this sees. -/
lemma Serving.silent {config : ProxyConfig} {h : List (Event MainAnswer)} (hs : Serving config h)
    {e : Event MainAnswer} (hstart : startedIn [e] = []) (hstop : stoppedIn [e] = [])
    (hsys : sysTrace [e] = []) : Serving config (h ++ [e]) := by
  refine ⟨?_, ?_, ?_, fun t ht => ?_⟩
  · rw [startedIn_append, hstart, List.append_nil]
    exact hs.started
  · rw [stoppedIn_append, hstop, List.append_nil]
    exact hs.stopped
  · rw [sysTrace_append, hsys, List.append_nil]
    exact hs.kept
  · rw [sysTrace_append, hsys, List.append_nil] at ht
    rw [startedIn_append, stoppedIn_append, hstart, hstop, List.append_nil, List.append_nil]
    exact hs.serves t ht

/-- **The step lemma.** An event that the guard allows. -/
lemma Serving.snoc {config : ProxyConfig} {h : List (Event MainAnswer)} (hs : Serving config h)
    {c : MainCall} (hc : MainGuard config h c) (r : MainAnswer c) :
    Serving config (h ++ [⟨c, r⟩]) := by
  cases c with
  -- the server runs between all starts and all stops
  | sys c =>
      have hstarted : startedIn (h ++ [⟨.sys c, r⟩]) = toStart config := by
        rw [startedIn_append, hc.1]
        exact List.append_nil _
      have hstopped : stoppedIn (h ++ [⟨.sys c, r⟩]) = [] := by
        rw [stoppedIn_append, hc.2.1]
        rfl
      refine ⟨hstarted ▸ List.prefix_rfl, hstopped ▸ List.nil_prefix, ?_,
        fun _ _ => ⟨hstarted, hstopped⟩⟩
      rw [sysTrace_append]
      exact held_extends_snoc ledger_extends hs.kept hc.2.2 r
  | init component =>
      have htrace : sysTrace (h ++ [⟨.init component, r⟩]) = sysTrace h := by
        rw [sysTrace_append]
        exact List.append_nil _
      refine ⟨?_, ?_, htrace ▸ hs.kept, fun t ht => ?_⟩
      · rw [startedIn_append]
        exact hc.1
      · rw [stoppedIn_append, hc.2]
        exact List.nil_prefix
      · -- a thread would have been there before all components were started
        obtain ⟨hall, -⟩ := hs.serves t (htrace ▸ ht)
        have hle := hc.1.length_le
        rw [hall, List.length_append, List.length_singleton] at hle
        omega
  | cleanup component =>
      have htrace : sysTrace (h ++ [⟨.cleanup component, r⟩]) = sysTrace h := by
        rw [sysTrace_append]
        exact List.append_nil _
      refine ⟨?_, ?_, htrace ▸ hs.kept, fun t ht => ?_⟩
      · rw [startedIn_append, hc.1]
        exact (List.append_nil _).symm ▸ List.prefix_rfl
      · rw [stoppedIn_append]
        exact hc.2.1
      · -- all that the server has by then was left in the queue
        rw [htrace, hs.kept, hc.2.2, zero_add] at ht
        exact absurd ht (thread_notMem_dropped t _)
  | _ => exact hs.silent rfl rfl rfl

/-- **The run lemma.** -/
lemma serving_of_guard {config : ProxyConfig} (h : List (Event MainAnswer))
    (hguard : ∀ pre c r post, h = pre ++ ⟨c, r⟩ :: post → MainGuard config pre c) :
    Serving config h := by
  induction h using List.reverseRecOn with
  | nil =>
      exact ⟨List.nil_prefix, List.nil_prefix, rfl,
        fun _ ht => absurd ht (Multiset.notMem_zero _)⟩
  | append_singleton h e ih =>
      have hs := ih fun pre c r post hh => hguard pre c r (post ++ [e]) (by simp [hh])
      exact hs.snoc (hguard h e.1 e.2 [] rfl) e.2

/-- An event of the process: of its main thread, or of a worker of the pool. -/
inductive Entry where
  | main (e : Event MainAnswer)
  | worker (t : ℕ) (e : Event Answer)

/-- What the main thread does in a log of the process. -/
def mainTrace (log : List Entry) : List (Event MainAnswer) :=
  log.filterMap fun
    | .main e => some e
    | .worker _ _ => none

lemma mainTrace_append (log log' : List Entry) :
    mainTrace (log ++ log') = mainTrace log ++ mainTrace log' := List.filterMap_append

/-- **The components and the workers.** In every run of the process, whatever its arguments and
files, the threading model and what fails on the way, and in every interleaving of `main` with the
workers of the pool, each of which is between its creation and its join: whatever a worker or the
server does, all components that the configuration has are started before it and none is stopped
before it. They are started and stopped in their orders, once; and when `main` returns 0 all of them
were, and the server has nothing left but the connections that `thread_pool_destroy` found in the
queue. The hybrid model gets memory for its work items. -/
theorem workers_served (fopen : Bytes → Option Bytes) (args : List Bytes) (fuel : ℕ)
    (log : List Entry) (out : Outcome Fault ℤ)
    (hmain : Runs (processAnswers (configOf fopen args).threadModel) []
      (mainProgram fopen args fuel) (mainTrace log) out)
    (hworkers : ∀ pre t e post, log = pre ++ .worker t e :: post →
      .thread t ∈ ledger.held 0 (sysTrace (mainTrace pre))) :
    (∀ pre x post, log = pre ++ x :: post →
      (∃ t e, x = .worker t e) ∨ (∃ c r, x = .main ⟨.sys c, r⟩) →
        startedIn (mainTrace pre) = toStart (configOf fopen args) ∧
          stoppedIn (mainTrace pre) = []) ∧
      startedIn (mainTrace log) <+: toStart (configOf fopen args) ∧
      stoppedIn (mainTrace log) <+: toStop (configOf fopen args) ∧
      (out = .returned 0 → startedIn (mainTrace log) = toStart (configOf fopen args) ∧
        stoppedIn (mainTrace log) = toStop (configOf fopen args) ∧
        ledger.held 0 (sysTrace (mainTrace log)) = dropped (sysTrace (mainTrace log))) := by
  have hwp : wp (processAnswers (configOf fopen args).threadModel) (MainGuard (configOf fopen args))
      (mainProgram fopen args fuel) (fun ret h' => ret = 0 →
        At (toStart (configOf fopen args)) (toStop (configOf fopen args)) 0 h') [] := by
    rw [mainProgram]
    split
    · exact fun hret => absurd hret (by decide)
    · exact wp_mainAfter fuel _
  obtain ⟨hguard, hres⟩ := wp_sound hwp hmain
  simp only [List.nil_append] at hguard hres
  have hserving := serving_of_guard _ hguard
  refine ⟨?_, hserving.started, hserving.stopped, fun hout => ?_⟩
  · rintro pre x post rfl (⟨t, e, rfl⟩ | ⟨c, r, rfl⟩)
    · refine (serving_of_guard (mainTrace pre) fun pre' c r post' hpre => ?_).serves t
        (hworkers pre t e post rfl)
      refine hguard pre' c r (post' ++ mainTrace (.worker t e :: post)) ?_
      rw [mainTrace_append, hpre, List.append_assoc, List.cons_append]
    · obtain ⟨hstarted, hstopped, -⟩ :=
        hguard (mainTrace pre) (.sys c) r (mainTrace post) (mainTrace_append ..)
      exact ⟨hstarted, hstopped⟩
  · have hat := hres 0 hout rfl
    refine ⟨hat.started, hat.stopped, ?_⟩
    calc ledger.held 0 (sysTrace (mainTrace log))
        = taken.held 0 (sysTrace (mainTrace log)) + dropped (sysTrace (mainTrace log)) :=
          hserving.kept
      _ = dropped (sysTrace (mainTrace log)) := by rw [hat.held, zero_add]

/-- A system where everything succeeds, and the server is stopped at once. -/
def oneWorker (_ : List (Event MainAnswer)) : (c : MainCall) → MainAnswer c
  | .sys .pthreadCreate => some 7
  | .sys (.malloc _) => some 9
  | .sys c => quietAnswer [] c
  | .init _ => (0 : ℤ)
  | .access _ => (0 : ℤ)
  | .mkdir => (0 : ℤ)
  | .sslGenerateSelfSignedCert _ _ => (0 : ℤ)
  | .sslCreateServerContext _ _ => (0 : ℤ)
  | .statsInit => ()
  | .cleanup _ => ()

lemma oneWorker_answers (model : ThreadingModel) (h : List (Event MainAnswer)) (c : MainCall) :
    processAnswers model h c (oneWorker h c) := by
  cases c with
  | sys c =>
      cases c with
      | socket => exact ⟨by change (5 : ℤ) ≠ 0; decide, trivial⟩
      | setsockopt fd =>
          refine ⟨fun hneg => ?_, trivial⟩
          change (if fd < 0 then (-1 : ℤ) else 0) ≠ 0
          rw [if_pos hneg]
          decide
      | malloc block => cases block <;> exact ⟨trivial, by simp [Supplied, oneWorker]⟩
      | _ => exact ⟨trivial, trivial⟩
  | _ => trivial

/-- The arguments for one worker and the cache. -/
def cacheArgs : List Bytes := [ascii "--enable-cache", ascii "-t", ascii "1"]

/-- The run of `main` with them. -/
def cacheRun : List (Event MainAnswer) × Outcome Fault ℤ :=
  play oneWorker [] (mainProgram (fun _ => none) cacheArgs 1)

/-- The worker looks into the cache after the ten first events. -/
def cacheLog : List Entry :=
  (cacheRun.1.take 10).map .main ++
    .worker 7 ⟨.component (.cacheGet []), none⟩ :: (cacheRun.1.drop 10).map .main

lemma mainTrace_main (h : List (Event MainAnswer)) : mainTrace (h.map .main) = h := by
  induction h with
  | nil => rfl
  | cons e h ih => exact congrArg (List.cons e) ih

/-- A log with one event of a worker is taken apart at it. -/
lemma worker_split {before after : List (Event MainAnswer)} {t t' : ℕ} {e e' : Event Answer}
    {pre post : List Entry}
    (h : before.map .main ++ .worker t e :: after.map .main = pre ++ .worker t' e' :: post) :
    pre = before.map .main ∧ t' = t := by
  have hafter : ∀ pre post, after.map Entry.main ≠ pre ++ .worker t' e' :: post := by
    intro pre post heq
    have hmem : Entry.worker t' e' ∈ after.map Entry.main := heq ▸ by simp
    obtain ⟨_, -, hne⟩ := List.mem_map.mp hmem
    cases hne
  induction before generalizing pre with
  | nil =>
      cases pre with
      | nil => exact ⟨rfl, by cases h; rfl⟩
      | cons x pre => exact absurd (List.cons.inj h).2 (hafter _ _)
  | cons x before ih =>
      cases pre with
      | nil => cases (List.cons.inj h).1
      | cons y pre =>
          obtain ⟨rfl, hrest⟩ := List.cons.inj h
          obtain ⟨rfl, ht⟩ := ih hrest
          exact ⟨rfl, ht⟩

/-- It finds the cache started and not stopped, and both are when `main` is left. -/
theorem workers_served_cache :
    startedIn (cacheRun.1.take 10) = [.logger, .cache] ∧ stoppedIn (cacheRun.1.take 10) = [] ∧
      stoppedIn cacheRun.1 = [.cache, .logger] := by
  have hlog : mainTrace cacheLog = cacheRun.1 := by
    rw [cacheLog, mainTrace_append, mainTrace_main]
    exact (congrArg _ (mainTrace_main _)).trans (List.take_append_drop 10 _)
  have hruns : Runs (processAnswers (configOf (fun _ => none) cacheArgs).threadModel) []
      (mainProgram (fun _ => none) cacheArgs 1) (mainTrace cacheLog) cacheRun.2 :=
    hlog ▸ play_runs (oneWorker_answers _) _ _
  have hworkers : ∀ pre t e post, cacheLog = pre ++ .worker t e :: post →
      .thread t ∈ ledger.held 0 (sysTrace (mainTrace pre)) := by
    intro pre t e post h
    obtain ⟨rfl, rfl⟩ := worker_split h
    rw [mainTrace_main]
    decide
  obtain ⟨hserved, -, -, hend⟩ := workers_served _ _ 1 cacheLog cacheRun.2 hruns hworkers
  obtain ⟨hstarted, hstopped⟩ := hserved _ _ _ rfl (.inl ⟨_, _, rfl⟩)
  rw [mainTrace_main] at hstarted hstopped
  obtain ⟨-, hall, -⟩ := hend rfl
  rw [hlog] at hall
  exact ⟨hstarted.trans (by decide), hstopped, hall.trans (by decide)⟩

end ProxyMax.Resources
