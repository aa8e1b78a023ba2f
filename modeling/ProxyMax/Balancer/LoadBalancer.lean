import ProxyMax.Cache.Table
import ProxyMax.Lib.CInt

/-!
`src/core/loadbalancer.c`: the choice of a backend for a client of the reverse
proxy.

* `Backend`, `LoadBalancer`: the records and the list of them. The list never
  changes after `loadbalancerInit`, so a record is named by its position there.
* `lbSelectRoundRobin`, `lbSelectLeastConnections`, `lbSelectIpHash`,
  `lbSelectWeightedRoundRobin`: the algorithms, with the remainders by zero and
  the sums beyond `int` as faults.
* `loadbalancerSelectBackend`, `loadbalancerReleaseBackend`,
  `loadbalancerMarkFailed`, `loadbalancerRunHealthChecks`: the operations.
* `LbCall`, `lbStep`: the calls under the mutex, as a machine.
-/

namespace ProxyMax

open CString CInt

/-- `lb_algorithm_t`. -/
inductive LbAlgorithm where
  | roundRobin
  | leastConnections
  | ipHash
  | weightedRr
  deriving DecidableEq

/-- `backend_server_t`, without its link. `is_healthy` is only ever set to 0 and 1. -/
structure Backend where
  host : Bytes
  port : ℤ
  weight : ℤ
  activeConnections : ℤ
  totalRequests : ℤ
  failedRequests : ℤ
  isHealthy : Bool
  lastHealthCheck : ℤ
  deriving DecidableEq

/-- `load_balancer_t`: the list from its head on. -/
structure LoadBalancer where
  servers : List Backend
  numServers : ℤ
  currentIndex : ℤ
  algorithm : LbAlgorithm
  deriving DecidableEq

/-- The position of a record in the list, which stands for its address. -/
abbrev BackendId := ℕ

/-- What `loadbalancer_init` reads of `g_config`. -/
structure LbConfig where
  reverseMode : Bool
  lbAlgorithm : LbAlgorithm
  numBackends : ℤ
  backendHosts : ℕ → Bytes
  backendPorts : ℕ → ℤ
  backendWeights : Option (ℕ → ℤ)
  backendHost : Bytes
  backendPort : ℤ

/-- A record as `loadbalancer_init` fills it in, at time `now`. -/
def newBackend (host : Bytes) (port weight now : ℤ) : Backend where
  host := cstr (strncpy host 255)
  port := port
  weight := weight
  activeConnections := 0
  totalRequests := 0
  failedRequests := 0
  isHealthy := true
  lastHealthCheck := now

/-- The `i`-th backend of the configuration, which becomes the head of the list. -/
def addBackend (config : LbConfig) (serverOk : ℕ → Bool) (now : ℕ → ℤ) (lb : LoadBalancer)
    (i : ℕ) : LoadBalancer :=
  if serverOk i then
    let weight := match config.backendWeights with
      | some weights => weights i
      | none => 1
    { lb with
      servers := newBackend (config.backendHosts i) (config.backendPorts i) weight (now i)
        :: lb.servers
      numServers := lb.numServers + 1 }
  else lb

/-- `loadbalancer_init`: its result and what `g_lb` then points to. `lbOk` and
`serverOk` tell which `malloc`s succeed, `now` what the calls of `time` give. -/
def loadbalancerInit (config : LbConfig) (lbOk : Bool) (serverOk : ℕ → Bool) (now : ℕ → ℤ) :
    ℤ × Option LoadBalancer :=
  if config.reverseMode = false then (0, none)
  else if lbOk = false then (-1, none)
  else
    let lb := { servers := [], numServers := 0, currentIndex := 0, algorithm := config.lbAlgorithm }
    if 0 < config.numBackends then
      (0, some ((List.range config.numBackends.toNat).foldl (addBackend config serverOk now) lb))
    else if serverOk 0 then
      let server := newBackend config.backendHost config.backendPort 1 (now 0)
      (0, some { lb with servers := [server], numServers := 1 })
    else (0, some lb)

/-- A configuration of two backends. -/
def twoBackends (algorithm : LbAlgorithm) : LbConfig where
  reverseMode := true
  lbAlgorithm := algorithm
  numBackends := 2
  backendHosts := fun _ => ascii "backend"
  backendPorts := fun _ => 8080
  backendWeights := none
  backendHost := []
  backendPort := 80

namespace LoadBalancer

/-- `server->is_healthy`. -/
def healthyAt (lb : LoadBalancer) (p : BackendId) : Bool := lb.servers[p]?.any Backend.isHealthy

/-- `server->next`, or the head where there is none. -/
def nextOrFirst (lb : LoadBalancer) (p : BackendId) : BackendId :=
  if p + 1 < lb.servers.length then p + 1 else 0

/-- "while (server && count < target)" of the round robin, from a record on. -/
def walk (lb : LoadBalancer) : ℕ → BackendId → BackendId
  | 0, p => p
  | steps + 1, p => lb.walk steps (lb.nextOrFirst p)

/-- "Skip unhealthy servers": the record and the index after at most so many attempts. -/
def skipUnhealthy (lb : LoadBalancer) : ℕ → BackendId → ℤ → BackendId × ℤ
  | 0, p, index => (p, index)
  | attempts + 1, p, index =>
      if lb.healthyAt p then (p, index)
      else lb.skipUnhealthy attempts (lb.nextOrFirst p) (incr index)

/-- A write to a record, unless the pointer is null. -/
def update (lb : LoadBalancer) (server : Option BackendId) (f : Backend → Backend) :
    LoadBalancer :=
  match server with
  | none => lb
  | some p => { lb with servers := lb.servers.modify p f }

end LoadBalancer

/-- `lb_select_round_robin`. -/
def lbSelectRoundRobin (lb : LoadBalancer) : Except Fault (Option BackendId × LoadBalancer) := do
  let target ← rem lb.currentIndex lb.numServers
  if lb.servers = [] then
    return (none, { lb with currentIndex := incr lb.currentIndex })
  else
    let r := lb.skipUnhealthy lb.numServers.toNat (lb.walk target.toNat 0) (incr lb.currentIndex)
    return (some r.1, { lb with currentIndex := r.2 })

/-- The loop of `lb_select_least_connections` over the records from position `p` on. -/
def leastConnections : List Backend → BackendId → ℤ → Option BackendId → Option BackendId
  | [], _, _, selected => selected
  | server :: servers, p, minConnections, selected =>
      if server.isHealthy ∧ server.activeConnections < minConnections then
        leastConnections servers (p + 1) server.activeConnections (some p)
      else leastConnections servers (p + 1) minConnections selected

/-- `lb_select_least_connections`. -/
def lbSelectLeastConnections (lb : LoadBalancer) : Option BackendId :=
  leastConnections lb.servers 0 intMax none

/-- The hash of an address, in `unsigned int`. -/
def ipHash (clientIp : Bytes) : ℕ :=
  (clientIp.foldl (fun (hash : UInt32) c => (hash <<< 5) + hash + charToUnsigned c) 5381).toNat

/-- `lb_select_ip_hash`. The walk to the index ends in the null pointer where the
list is too short. -/
def lbSelectIpHash (lb : LoadBalancer) (clientIp : Bytes) :
    Except Fault (Option BackendId × LoadBalancer) :=
  if lb.numServers = 0 then .error .divisionByZero
  else
    let index := ipHash clientIp % lb.numServers.toNat
    if lb.servers.length ≤ index then .ok (none, lb)
    else if lb.healthyAt index then .ok (some index, lb)
    else lbSelectRoundRobin lb

/-- "Calculate total weight". -/
def totalWeight : List Backend → ℤ → Except Fault ℤ
  | [], total => .ok total
  | server :: servers, total =>
      if server.isHealthy then (add total server.weight).bind (totalWeight servers)
      else totalWeight servers total

/-- "Select based on weight", over the records from position `p` on. -/
def selectByWeight (target : ℤ) : List Backend → BackendId → ℤ → Except Fault (Option BackendId)
  | [], _, _ => .ok none
  | server :: servers, p, currentWeight =>
      if server.isHealthy then
        (add currentWeight server.weight).bind fun currentWeight =>
          if target < currentWeight then .ok (some p)
          else selectByWeight target servers (p + 1) currentWeight
      else selectByWeight target servers (p + 1) currentWeight

/-- `lb_select_weighted_round_robin`. -/
def lbSelectWeightedRoundRobin (lb : LoadBalancer) :
    Except Fault (Option BackendId × LoadBalancer) := do
  let total ← totalWeight lb.servers 0
  if total = 0 then
    return (none, lb)
  else
    let target ← rem lb.currentIndex total
    let selected ← selectByWeight target lb.servers 0 0
    return (selected, { lb with currentIndex := incr lb.currentIndex })

/-- The `switch` of `loadbalancer_select_backend`. -/
def lbSelect (lb : LoadBalancer) (clientIp : Bytes) :
    Except Fault (Option BackendId × LoadBalancer) :=
  match lb.algorithm with
  | .roundRobin => lbSelectRoundRobin lb
  | .leastConnections => .ok (lbSelectLeastConnections lb, lb)
  | .ipHash => lbSelectIpHash lb clientIp
  | .weightedRr => lbSelectWeightedRoundRobin lb

/-- `active_connections++` and `total_requests++`. -/
def Backend.select (server : Backend) : Backend :=
  { server with
    activeConnections := incr server.activeConnections
    totalRequests := incr server.totalRequests }

/-- `loadbalancer_select_backend` on the balancer that `g_lb` points to. -/
def loadbalancerSelectBackend (lb : LoadBalancer) (clientIp : Bytes) :
    Except Fault (Option BackendId × LoadBalancer) := do
  let (server, lb) ← lbSelect lb clientIp
  return (server, lb.update server Backend.select)

/-- `active_connections--`, unless the count is at zero. -/
def Backend.release (server : Backend) : Backend :=
  if 0 < server.activeConnections then
    { server with activeConnections := server.activeConnections - 1 }
  else server

/-- `loadbalancer_release_backend`. -/
def loadbalancerReleaseBackend (lb : LoadBalancer) (server : Option BackendId) : LoadBalancer :=
  lb.update server Backend.release

/-- `failed_requests++`; more than 5 failures make the backend unhealthy. -/
def Backend.markFailed (server : Backend) : Backend :=
  let server := { server with failedRequests := incr server.failedRequests }
  if 5 < server.failedRequests then { server with isHealthy := false } else server

/-- `loadbalancer_mark_failed`. -/
def loadbalancerMarkFailed (lb : LoadBalancer) (server : Option BackendId) : LoadBalancer :=
  lb.update server Backend.markFailed

/-- A backend is probed once every 30 seconds. -/
def Backend.due (now : ℤ) (server : Backend) : Bool := 30 ≤ now - server.lastHealthCheck

/-- The outcome of `loadbalancer_health_check` is entered in the record. -/
def Backend.healthCheck (now : ℤ) (ok : Bool) (server : Backend) : Backend :=
  if server.due now then
    if ok then { server with isHealthy := true, failedRequests := 0, lastHealthCheck := now }
    else { server with isHealthy := false, lastHealthCheck := now }
  else server

/-- `loadbalancer_run_health_checks` at time `now`; `probe` tells which backends can
be connected to. The result tells which ones are probed, and the outcomes. -/
def loadbalancerRunHealthChecks (lb : LoadBalancer) (now : ℤ) (probe : BackendId → Bool) :
    (BackendId → Option Bool) × LoadBalancer :=
  (fun p => lb.servers[p]?.bind fun server => if server.due now then some (probe p) else none,
    { lb with servers := lb.servers.mapIdx fun p server => server.healthCheck now (probe p) })

/-! ### The balancer as a machine -/

/-- The calls of the balancer. -/
inductive LbCall where
  | select (clientIp : Bytes)
  | release (server : Option BackendId)
  | markFailed (server : Option BackendId)
  | runHealthChecks (now : ℤ) (probe : BackendId → Bool)

/-- Their results: the backend selected, and the probes made. -/
inductive LbReply where
  | selected (server : Option BackendId)
  | done
  | probed (outcomes : BackendId → Option Bool)

/-- A call; it does not return where C leaves it undefined. -/
def lbStep (lb : LoadBalancer) : LbCall → Option (LbReply × LoadBalancer)
  | .select clientIp =>
      match loadbalancerSelectBackend lb clientIp with
      | .ok (server, lb) => some (.selected server, lb)
      | .error _ => none
  | .release server => some (.done, loadbalancerReleaseBackend lb server)
  | .markFailed server => some (.done, loadbalancerMarkFailed lb server)
  | .runHealthChecks now probe =>
      let r := loadbalancerRunHealthChecks lb now probe
      some (.probed r.1, r.2)

/-! ### What the operations do to a record -/

/-- A record as `loadbalancer_init` leaves it. -/
def Backend.Fresh (server : Backend) : Prop :=
  server.activeConnections = 0 ∧ server.totalRequests = 0 ∧ server.failedRequests = 0 ∧
    server.isHealthy = true

/-- The list as `loadbalancer_init` leaves it: as long as `num_servers` says, with
fresh records. -/
def LoadBalancer.Initial (lb : LoadBalancer) : Prop :=
  lb.numServers = lb.servers.length ∧ ∀ server ∈ lb.servers, server.Fresh

lemma addBackend_initial (config : LbConfig) (serverOk : ℕ → Bool) (now : ℕ → ℤ)
    {lb : LoadBalancer} (hlb : lb.Initial) (i : ℕ) :
    (addBackend config serverOk now lb i).Initial := by
  rw [addBackend]
  split_ifs with hok
  · refine ⟨by simp [hlb.1], ?_⟩
    intro server hserver
    rcases List.mem_cons.mp hserver with rfl | hserver
    · exact ⟨rfl, rfl, rfl, rfl⟩
    · exact hlb.2 server hserver
  · exact hlb

lemma foldl_addBackend_initial (config : LbConfig) (serverOk : ℕ → Bool) (now : ℕ → ℤ)
    (is : List ℕ) {lb : LoadBalancer} (hlb : lb.Initial) :
    (is.foldl (addBackend config serverOk now) lb).Initial := by
  induction is generalizing lb with
  | nil => exact hlb
  | cons i is ih => exact ih (addBackend_initial config serverOk now hlb i)

lemma loadbalancerInit_initial {config : LbConfig} {lbOk : Bool} {serverOk : ℕ → Bool}
    {now : ℕ → ℤ} {lb : LoadBalancer}
    (h : (loadbalancerInit config lbOk serverOk now).2 = some lb) : lb.Initial := by
  rw [loadbalancerInit] at h
  split_ifs at h <;> simp only [Option.some.injEq] at h
  · subst h
    exact foldl_addBackend_initial config serverOk now _ ⟨rfl, by simp⟩
  · subst h
    refine ⟨rfl, fun server hserver => ?_⟩
    rw [List.mem_singleton.mp hserver]
    exact ⟨rfl, rfl, rfl, rfl⟩
  · subst h
    exact ⟨rfl, by simp⟩

/-- The balancer with another `current_index`. -/
def LoadBalancer.atIndex (lb : LoadBalancer) (index : ℤ) : LoadBalancer :=
  { lb with currentIndex := index }

/-- The round robin moves the index only. -/
lemma lbSelectRoundRobin_frame {lb lb' : LoadBalancer} {server : Option BackendId}
    (h : lbSelectRoundRobin lb = .ok (server, lb')) :
    ∃ index, lb' = lb.atIndex index := by
  rw [lbSelectRoundRobin, bind_eq_ok] at h
  obtain ⟨target, -, h⟩ := h
  split_ifs at h
  · exact ⟨_, (Prod.mk.inj (Except.ok.inj h)).2.symm⟩
  · exact ⟨_, (Prod.mk.inj (Except.ok.inj h)).2.symm⟩

/-- The weighted round robin moves the index only. -/
lemma lbSelectWeightedRoundRobin_frame {lb lb' : LoadBalancer} {server : Option BackendId}
    (h : lbSelectWeightedRoundRobin lb = .ok (server, lb')) :
    ∃ index, lb' = lb.atIndex index := by
  rw [lbSelectWeightedRoundRobin, bind_eq_ok] at h
  obtain ⟨total, -, h⟩ := h
  split_ifs at h
  · exact ⟨lb.currentIndex, (Prod.mk.inj (Except.ok.inj h)).2.symm⟩
  · rw [bind_eq_ok] at h
    obtain ⟨target, -, h⟩ := h
    rw [bind_eq_ok] at h
    obtain ⟨selected, -, h⟩ := h
    exact ⟨_, (Prod.mk.inj (Except.ok.inj h)).2.symm⟩

/-- A selection moves the index only. -/
lemma lbSelect_frame {lb lb' : LoadBalancer} {clientIp : Bytes} {server : Option BackendId}
    (h : lbSelect lb clientIp = .ok (server, lb')) :
    ∃ index, lb' = lb.atIndex index := by
  have hsame : ∀ {r : Option BackendId}, Except.ok (ε := Fault) (r, lb) = .ok (server, lb') →
      ∃ index, lb' = lb.atIndex index := fun h =>
    ⟨lb.currentIndex, (Prod.mk.inj (Except.ok.inj h)).2.symm⟩
  rw [lbSelect] at h
  cases halg : lb.algorithm with
  | roundRobin =>
      rw [halg] at h
      exact lbSelectRoundRobin_frame h
  | leastConnections =>
      rw [halg] at h
      exact hsame h
  | ipHash =>
      simp only [halg, lbSelectIpHash] at h
      split_ifs at h
      · exact hsame h
      · exact hsame h
      · exact lbSelectRoundRobin_frame h
  | weightedRr =>
      rw [halg] at h
      exact lbSelectWeightedRoundRobin_frame h

/-- What a call does to the record at the position `p`. -/
def Backend.after (p : BackendId) (server : Backend) : LbCall × LbReply → Backend
  | (.select _, .selected r) => if r = some p then server.select else server
  | (.release r, _) => if r = some p then server.release else server
  | (.markFailed r, _) => if r = some p then server.markFailed else server
  | (.runHealthChecks now probe, _) => server.healthCheck now (probe p)
  | _ => server

lemma update_getElem? (lb : LoadBalancer) (server : Option BackendId) (f : Backend → Backend)
    (p : BackendId) :
    (lb.update server f).servers[p]? =
      lb.servers[p]?.map fun b => if server = some p then f b else b := by
  cases server with
  | none => simp [LoadBalancer.update]
  | some q =>
      simp only [LoadBalancer.update, List.getElem?_modify, Option.some.injEq]
      by_cases hq : q = p <;> simp [hq]

/-- A write leaves the shape of the list and the algorithm. -/
lemma update_frame (lb : LoadBalancer) (server : Option BackendId) (f : Backend → Backend) :
    (lb.update server f).numServers = lb.numServers ∧
      (lb.update server f).servers.length = lb.servers.length ∧
      (lb.update server f).algorithm = lb.algorithm := by
  cases server with
  | none => exact ⟨rfl, rfl, rfl⟩
  | some q => exact ⟨rfl, List.length_modify .., rfl⟩

/-- What a selection leaves: another index, and the counts of the backend selected. -/
lemma loadbalancerSelectBackend_frame {lb lb' : LoadBalancer} {clientIp : Bytes}
    {server : Option BackendId} (h : loadbalancerSelectBackend lb clientIp = .ok (server, lb')) :
    ∃ index, lbSelect lb clientIp = .ok (server, lb.atIndex index) ∧
      lb' = (lb.atIndex index).update server Backend.select := by
  rw [loadbalancerSelectBackend, bind_eq_ok] at h
  obtain ⟨⟨server', lb₁⟩, hsel, h⟩ := h
  obtain ⟨index, rfl⟩ := lbSelect_frame hsel
  obtain ⟨rfl, rfl⟩ := Prod.mk.inj (Except.ok.inj h)
  exact ⟨index, hsel, rfl⟩

lemma lbStep_select {lb lb' : LoadBalancer} {clientIp : Bytes} {reply : LbReply}
    (h : lbStep lb (.select clientIp) = some (reply, lb')) :
    ∃ server, reply = .selected server ∧
      loadbalancerSelectBackend lb clientIp = .ok (server, lb') := by
  simp only [lbStep] at h
  cases hsel : loadbalancerSelectBackend lb clientIp with
  | error e => simp [hsel] at h
  | ok r =>
      rw [hsel, Option.some.injEq, Prod.mk.injEq] at h
      exact ⟨r.1, h.1.symm, by rw [← h.2]⟩

/-- **The step lemma.** A call does to each record what `Backend.after` says, and
leaves the shape of the list and the algorithm. -/
lemma lbStep_spec {lb lb' : LoadBalancer} {call : LbCall} {reply : LbReply}
    (h : lbStep lb call = some (reply, lb')) :
    (∀ p : BackendId, lb'.servers[p]? =
        lb.servers[p]?.map fun b => Backend.after p b (call, reply)) ∧
      lb'.numServers = lb.numServers ∧ lb'.servers.length = lb.servers.length ∧
      lb'.algorithm = lb.algorithm := by
  cases call with
  | select clientIp =>
      obtain ⟨server, rfl, hsel⟩ := lbStep_select h
      obtain ⟨index, -, rfl⟩ := loadbalancerSelectBackend_frame hsel
      exact ⟨update_getElem? (lb.atIndex index) server Backend.select, update_frame ..⟩
  | release server =>
      simp only [lbStep, Option.some.injEq, Prod.mk.injEq] at h
      rw [← h.2]
      exact ⟨update_getElem? lb server Backend.release, update_frame ..⟩
  | markFailed server =>
      simp only [lbStep, Option.some.injEq, Prod.mk.injEq] at h
      rw [← h.2]
      exact ⟨update_getElem? lb server Backend.markFailed, update_frame ..⟩
  | runHealthChecks now probe =>
      simp only [lbStep, Option.some.injEq, Prod.mk.injEq] at h
      rw [← h.2]
      exact ⟨fun p => List.getElem?_mapIdx, rfl, List.length_mapIdx, rfl⟩

end ProxyMax
