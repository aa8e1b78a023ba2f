import ProxyMax.Balancer.Rotation
import ProxyMax.Lib.NodeLists

/-!
`src/core/loadbalancer.c` with its pointers: the backends as nodes in memory.

* `BalancerMemory`: `g_lb` and the nodes of its list; `loadbalancerInitNodes` builds them.
* `walkNodes`, `skipNodes`, `indexNodes`, `leastNodes`, `totalWeightNodes`, `selectByWeightNodes`:
  the loops of the algorithms, which follow `next`.
* `lbNodeStep`: the functions of the file on nodes, `loadbalancer_print_stats` and
  `loadbalancer_cleanup` among them; `lbListStep`: the same on positions.
* `Represents`: the nodes are the records, at addresses that do not change.
* `walkNodes_refines` and the other loops, `lbSelectNodes_refines`, `lbNodeStep_matches`: a call.
* `balancer_nodes_refine`: a run on nodes is one on positions, comes to no node that is not there,
  and leaks none.
-/

namespace ProxyMax

open CString CInt Machine LinkedList

/-! ### The loops -/

section Loops

variable (mem : ℕ → Option (Node ℕ Backend)) (first : Option ℕ)

/-- "while (server && count < target)" of the round robin; behind the last node comes the first. -/
def walkNodes : ℕ → Option ℕ → Option (Option ℕ)
  | 0, server => some server
  | _ + 1, none => some none
  | steps + 1, some server => (mem server).bind fun node => walkNodes steps (node.next.or first)

/-- "Skip unhealthy servers": the server and the index. -/
def skipNodes : ℕ → Option ℕ → ℤ → Option (Option ℕ × ℤ)
  | _, none, index => some (none, index)
  | 0, some server, index => (mem server).map fun _ => (some server, index)
  | attempts + 1, some server, index =>
      (mem server).bind fun node =>
        if node.value.isHealthy then some (some server, index)
        else skipNodes attempts (node.next.or first) (incr index)

/-- "while (server && count < index)" of the hash, which ends at the null pointer. -/
def indexNodes : ℕ → Option ℕ → Option (Option ℕ)
  | 0, server => some server
  | _ + 1, none => some none
  | steps + 1, some server => (mem server).bind fun node => indexNodes steps node.next

/-- The loop of `lb_select_least_connections`. -/
def leastNodes : ℕ → Option ℕ → ℤ → Option ℕ → Option (Option ℕ)
  | _, none, _, selected => some selected
  | 0, some _, _, _ => none
  | fuel + 1, some server, minConnections, selected =>
      (mem server).bind fun node =>
        if node.value.isHealthy ∧ node.value.activeConnections < minConnections then
          leastNodes fuel node.next node.value.activeConnections (some server)
        else leastNodes fuel node.next minConnections selected

/-- "Calculate total weight". -/
def totalWeightNodes : ℕ → Option ℕ → ℤ → Option ℤ
  | _, none, total => some total
  | 0, some _, _ => none
  | fuel + 1, some server, total =>
      (mem server).bind fun node =>
        if node.value.isHealthy then
          (add total node.value.weight).toOption.bind (totalWeightNodes fuel node.next)
        else totalWeightNodes fuel node.next total

/-- "Select based on weight". -/
def selectByWeightNodes (target : ℤ) : ℕ → Option ℕ → ℤ → Option (Option ℕ)
  | _, none, _ => some none
  | 0, some _, _ => none
  | fuel + 1, some server, currentWeight =>
      (mem server).bind fun node =>
        if node.value.isHealthy then
          (add currentWeight node.value.weight).toOption.bind fun currentWeight =>
            if target < currentWeight then some (some server)
            else selectByWeightNodes target fuel node.next currentWeight
        else selectByWeightNodes target fuel node.next currentWeight

end Loops

/-! ### The functions on nodes -/

/-- The fields of `*g_lb` beside the list. -/
structure LbHeader where
  numServers : ℤ
  currentIndex : ℤ
  algorithm : LbAlgorithm

/-- `g_lb`, with the fields of what it points to, and the nodes of its list. -/
structure BalancerMemory where
  lb : Option LbHeader
  servers : NodeList Backend

/-- The null pointer, before `loadbalancer_init`. -/
def BalancerMemory.init : BalancerMemory := ⟨none, .empty⟩

/-- The `i`-th backend of the configuration, as a node before the others. -/
def addBackendNodes (config : LbConfig) (serverOk : ℕ → Bool) (now : ℕ → ℤ)
    (m : LbHeader × NodeList Backend) (i : ℕ) : LbHeader × NodeList Backend :=
  if serverOk i then
    let weight := match config.backendWeights with
      | some weights => weights i
      | none => 1
    ({ m.1 with numServers := m.1.numServers + 1 },
      m.2.push (newBackend (config.backendHosts i) (config.backendPorts i) weight (now i)))
  else m

/-- `loadbalancer_init`. -/
def loadbalancerInitNodes (config : LbConfig) (lbOk : Bool) (serverOk : ℕ → Bool) (now : ℕ → ℤ) :
    ℤ × BalancerMemory :=
  if config.reverseMode = false then (0, .init)
  else if lbOk = false then (-1, .init)
  else
    let lb : LbHeader := ⟨0, 0, config.lbAlgorithm⟩
    if 0 < config.numBackends then
      let r := (List.range config.numBackends.toNat).foldl (addBackendNodes config serverOk now)
        (lb, .empty)
      (0, ⟨some r.1, r.2⟩)
    else if serverOk 0 then
      let server := newBackend config.backendHost config.backendPort 1 (now 0)
      (0, ⟨some { lb with numServers := 1 }, NodeList.empty.push server⟩)
    else (0, ⟨some lb, .empty⟩)

section Functions

variable (fuel : ℕ) (lb : LbHeader) (l : NodeList Backend)

/-- `lb_select_round_robin`. -/
def lbSelectRoundRobinNodes : Option (Option ℕ × LbHeader) :=
  (rem lb.currentIndex lb.numServers).toOption.bind fun target =>
    (walkNodes l.mem l.head target.toNat l.head).bind fun server =>
      (skipNodes l.mem l.head lb.numServers.toNat server (incr lb.currentIndex)).map fun r =>
        (r.1, { lb with currentIndex := r.2 })

/-- `lb_select_ip_hash`. -/
def lbSelectIpHashNodes (clientIp : Bytes) : Option (Option ℕ × LbHeader) :=
  if lb.numServers = 0 then none
  else
    (indexNodes l.mem (ipHash clientIp % lb.numServers.toNat) l.head).bind fun
      | none => some (none, lb)
      | some server =>
          (l.mem server).bind fun node =>
            if node.value.isHealthy then some (some server, lb) else lbSelectRoundRobinNodes lb l

/-- `lb_select_weighted_round_robin`. -/
def lbSelectWeightedRoundRobinNodes : Option (Option ℕ × LbHeader) :=
  (totalWeightNodes l.mem fuel l.head 0).bind fun total =>
    if total = 0 then some (none, lb)
    else
      (rem lb.currentIndex total).toOption.bind fun target =>
        (selectByWeightNodes l.mem target fuel l.head 0).map fun selected =>
          (selected, { lb with currentIndex := incr lb.currentIndex })

/-- The `switch` of `loadbalancer_select_backend`. -/
def lbSelectNodes (clientIp : Bytes) : Option (Option ℕ × LbHeader) :=
  match lb.algorithm with
  | .roundRobin => lbSelectRoundRobinNodes lb l
  | .leastConnections => (leastNodes l.mem fuel l.head intMax none).map fun r => (r, lb)
  | .ipHash => lbSelectIpHashNodes lb l clientIp
  | .weightedRr => lbSelectWeightedRoundRobinNodes fuel lb l

/-- A write to a node, unless the pointer is null. -/
def writeNode (server : Option ℕ) (f : Backend → Backend) : Option (NodeList Backend) :=
  match server with
  | none => some l
  | some p => (l.update p fun b => ((), f b)).map Prod.snd

end Functions

/-! ### The machines -/

/-- A call of a function of the file. -/
inductive BalancerCall where
  | lb (call : LbCall)
  | printStats
  | cleanup

/-- What a call returns, or the records that it prints a line of. -/
inductive BalancerAnswer where
  | reply (r : LbReply)
  | stats (servers : List Backend)
  | done

/-- What a function of the balancer returns where `g_lb` is null. -/
def nullReply : LbCall → LbReply
  | .select _ => .selected none
  | .release _ | .markFailed _ => .done
  | .runHealthChecks .. => .probed fun _ => none

/-- One call on nodes, where pointers are addresses. There is none where it comes to a node that is
not there, or to what C does not define. -/
def lbNodeStep (fuel : ℕ) (m : BalancerMemory) :
    BalancerCall → Option (BalancerAnswer × BalancerMemory)
  | .lb call =>
      match m.lb with
      | none => some (.reply (nullReply call), m)
      | some lb =>
          match call with
          | .select clientIp =>
              (lbSelectNodes fuel lb m.servers clientIp).bind fun r =>
                (writeNode m.servers r.1 Backend.select).map fun servers =>
                  (.reply (.selected r.1), ⟨some r.2, servers⟩)
          | .release server =>
              (writeNode m.servers server Backend.release).map fun servers =>
                (.reply .done, ⟨some lb, servers⟩)
          | .markFailed server =>
              (writeNode m.servers server Backend.markFailed).map fun servers =>
                (.reply .done, ⟨some lb, servers⟩)
          | .runHealthChecks now probe =>
              (m.servers.mapAll (fun p server =>
                (if server.due now then some (probe p) else none,
                  server.healthCheck now (probe p))) fuel).map fun r =>
                  (.reply (.probed fun p => r.1[p]?.join), ⟨some lb, r.2⟩)
  | .printStats =>
      match m.lb with
      | none => some (.stats [], m)
      | some _ =>
          (readNodes m.servers.mem fuel m.servers.head).map fun servers => (.stats servers, m)
  | .cleanup =>
      match m.lb with
      | none => some (.done, m)
      | some _ => (m.servers.freeAll fuel).map fun servers => (.done, ⟨none, servers⟩)

/-- One call on the list, where pointers are positions. -/
def lbListStep (g : Option LoadBalancer) :
    BalancerCall → Option (BalancerAnswer × Option LoadBalancer)
  | .lb call =>
      match g with
      | none => some (.reply (nullReply call), none)
      | some lb => (lbStep lb call).map fun r => (.reply r.1, some r.2)
  | .printStats => some (.stats (g.elim [] LoadBalancer.servers), g)
  | .cleanup => some (.done, none)

/-! ### The loops on a chain -/

/-- The address of the backend at a position. -/
def addressOf (addresses : List ℕ) (server : Option BackendId) : Option ℕ :=
  server.bind fun p => addresses[p]?

@[simp] lemma addressOf_none (addresses : List ℕ) : addressOf addresses none = none := rfl

@[simp] lemma addressOf_some (addresses : List ℕ) (p : BackendId) :
    addressOf addresses (some p) = addresses[p]? := rfl

/-- The position behind a list of addresses. -/
lemma addressOf_length (pre post : List ℕ) (q : ℕ) :
    addressOf (pre ++ q :: post) (some pre.length) = some q := by
  rw [addressOf_some, List.getElem?_append_right le_rfl, Nat.sub_self]
  rfl

section Chains

variable {mem : ℕ → Option (Node ℕ Backend)} {first : Option ℕ} {ns : List (ℕ × Backend)}
  {lb : LoadBalancer} {fuel : ℕ}

/-- A position of the list has a node, which leads to the next position. -/
lemma node_at (h : Chain mem first ns) {p : ℕ} (hp : p < ns.length) :
    (ns.map Prod.fst)[p]? = some ns[p].1 ∧
      mem ns[p].1 = some ⟨ns[p].2, (ns.map Prod.fst)[p + 1]?⟩ := by
  have hget : ns[p]? = some ns[p] := List.getElem?_eq_getElem hp
  exact ⟨by rw [List.getElem?_map, hget, Option.map_some], chain_getElem h hget⟩

lemma nextPosition_lt (hrecords : ns.map Prod.snd = lb.servers) {p : ℕ} (hp : p < ns.length) :
    lb.nextOrFirst p < ns.length := by
  have hlen : ns.length = lb.servers.length := by rw [← hrecords, List.length_map]
  rw [hlen] at hp ⊢
  exact nextOrFirst_lt hp

/-- The next node, or the first one, is at the position that the list has for it. -/
lemma next_or_first (h : Chain mem first ns) (hrecords : ns.map Prod.snd = lb.servers) (p : ℕ) :
    ((ns.map Prod.fst)[p + 1]?).or first = (ns.map Prod.fst)[lb.nextOrFirst p]? := by
  have hlen := congrArg List.length hrecords
  rw [List.length_map] at hlen
  rw [LoadBalancer.nextOrFirst, chain_first h, List.head?_eq_getElem?]
  by_cases hnext : p + 1 < lb.servers.length
  · rw [if_pos hnext, (node_at h (hlen ▸ hnext)).1, Option.some_or]
  · rw [if_neg hnext, List.getElem?_eq_none (by rw [List.length_map, hlen]; omega), Option.none_or]

lemma walkNodes_refines (h : Chain mem first ns) (hrecords : ns.map Prod.snd = lb.servers)
    (steps : ℕ) {p : ℕ} (hp : p < ns.length) :
    lb.walk steps p < ns.length ∧
      walkNodes mem first steps (ns.map Prod.fst)[p]? =
        some (ns.map Prod.fst)[lb.walk steps p]? := by
  induction steps generalizing p with
  | zero => exact ⟨hp, rfl⟩
  | succ steps ih =>
      obtain ⟨haddr, hmem⟩ := node_at h hp
      rw [haddr, walkNodes, hmem, Option.bind_some, next_or_first h hrecords]
      exact ih (nextPosition_lt hrecords hp)

lemma healthyAt_eq (hrecords : ns.map Prod.snd = lb.servers) {p : ℕ} (hp : p < ns.length) :
    lb.healthyAt p = ns[p].2.isHealthy := by
  rw [LoadBalancer.healthyAt, ← hrecords, List.getElem?_map, List.getElem?_eq_getElem hp]
  rfl

lemma skipNodes_refines (h : Chain mem first ns) (hrecords : ns.map Prod.snd = lb.servers)
    (attempts : ℕ) {p : ℕ} (hp : p < ns.length) (index : ℤ) :
    skipNodes mem first attempts (ns.map Prod.fst)[p]? index =
      some ((ns.map Prod.fst)[(lb.skipUnhealthy attempts p index).1]?,
        (lb.skipUnhealthy attempts p index).2) := by
  induction attempts generalizing p index with
  | zero =>
      obtain ⟨haddr, hmem⟩ := node_at h hp
      rw [haddr, skipNodes, hmem, LoadBalancer.skipUnhealthy, haddr]
      rfl
  | succ attempts ih =>
      obtain ⟨haddr, hmem⟩ := node_at h hp
      rw [haddr, skipNodes, hmem, Option.bind_some, LoadBalancer.skipUnhealthy,
        healthyAt_eq hrecords hp]
      by_cases hhealthy : ns[p].2.isHealthy
      · rw [if_pos hhealthy, if_pos hhealthy, haddr]
      · rw [if_neg hhealthy, if_neg hhealthy, next_or_first h hrecords]
        exact ih (nextPosition_lt hrecords hp) (incr index)

lemma indexNodes_refines (h : Chain mem first ns) (steps : ℕ) :
    indexNodes mem steps first = some (ns.map Prod.fst)[steps]? := by
  induction ns generalizing first steps with
  | nil =>
      obtain rfl : first = none := h
      cases steps <;> rfl
  | cons n ns ih =>
      obtain ⟨rfl, nx, hmem, hrest⟩ := h
      cases steps with
      | zero => rfl
      | succ steps =>
          rw [indexNodes, hmem, Option.bind_some, ih hrest]
          rfl

/-- `pre` are the addresses of the nodes that were passed. -/
lemma leastNodes_refines (h : Chain mem first ns) (hfuel : ns.length ≤ fuel) (pre : List ℕ)
    (minConnections : ℤ) (selected : Option BackendId) :
    leastNodes mem fuel first minConnections (addressOf (pre ++ ns.map Prod.fst) selected) =
      some (addressOf (pre ++ ns.map Prod.fst)
        (leastConnections (ns.map Prod.snd) pre.length minConnections selected)) := by
  induction ns generalizing first fuel pre minConnections selected with
  | nil =>
      obtain rfl : first = none := h
      cases fuel <;> rfl
  | cons n ns ih =>
      obtain ⟨rfl, nx, hmem, hrest⟩ := h
      obtain ⟨fuel, rfl⟩ := Nat.exists_eq_add_one_of_ne_zero (Nat.ne_zero_of_lt hfuel)
      have hnext := fun minConnections selected =>
        ih hrest (Nat.le_of_succ_le_succ hfuel) (pre ++ [n.1]) minConnections selected
      simp only [List.append_assoc, List.singleton_append, List.length_append,
        List.length_singleton] at hnext
      rw [List.map_cons, List.map_cons, leastNodes, hmem, Option.bind_some, leastConnections]
      by_cases hless : n.2.isHealthy ∧ n.2.activeConnections < minConnections
      · rw [if_pos hless, if_pos hless, ← hnext, addressOf_length]
      · rw [if_neg hless, if_neg hless, ← hnext]

lemma totalWeightNodes_refines (h : Chain mem first ns) (hfuel : ns.length ≤ fuel) (total : ℤ) :
    totalWeightNodes mem fuel first total = (totalWeight (ns.map Prod.snd) total).toOption := by
  induction ns generalizing first fuel total with
  | nil =>
      obtain rfl : first = none := h
      cases fuel <;> rfl
  | cons n ns ih =>
      obtain ⟨rfl, nx, hmem, hrest⟩ := h
      obtain ⟨fuel, rfl⟩ := Nat.exists_eq_add_one_of_ne_zero (Nat.ne_zero_of_lt hfuel)
      have hnext := ih hrest (Nat.le_of_succ_le_succ hfuel)
      rw [List.map_cons, totalWeightNodes, hmem, Option.bind_some, totalWeight]
      by_cases hhealthy : n.2.isHealthy
      · rw [if_pos hhealthy, if_pos hhealthy]
        cases add total n.2.weight with
        | error _ => rfl
        | ok total => exact hnext total
      · rw [if_neg hhealthy, if_neg hhealthy, hnext]

lemma selectByWeightNodes_refines (h : Chain mem first ns) (hfuel : ns.length ≤ fuel) (target : ℤ)
    (pre : List ℕ) (currentWeight : ℤ) :
    selectByWeightNodes mem target fuel first currentWeight =
      (selectByWeight target (ns.map Prod.snd) pre.length currentWeight).toOption.map
        (addressOf (pre ++ ns.map Prod.fst)) := by
  induction ns generalizing first fuel pre currentWeight with
  | nil =>
      obtain rfl : first = none := h
      cases fuel <;> rfl
  | cons n ns ih =>
      obtain ⟨rfl, nx, hmem, hrest⟩ := h
      obtain ⟨fuel, rfl⟩ := Nat.exists_eq_add_one_of_ne_zero (Nat.ne_zero_of_lt hfuel)
      have hnext := ih hrest (Nat.le_of_succ_le_succ hfuel) (pre ++ [n.1])
      simp only [List.append_assoc, List.singleton_append, List.length_append,
        List.length_singleton] at hnext
      rw [List.map_cons, List.map_cons, selectByWeightNodes, hmem, Option.bind_some, selectByWeight]
      by_cases hhealthy : n.2.isHealthy
      · rw [if_pos hhealthy, if_pos hhealthy]
        cases add currentWeight n.2.weight with
        | error _ => rfl
        | ok currentWeight =>
            by_cases htarget : target < currentWeight
            · simp only [Except.toOption, Option.bind_some, Except.bind, if_pos htarget,
                Option.map_some, addressOf_length]
            · simp only [Except.toOption, Option.bind_some, Except.bind, if_neg htarget]
              exact hnext currentWeight
      · rw [if_neg hhealthy, if_neg hhealthy, hnext]

end Chains

/-! ### The selection -/

/-- The fields of a balancer beside its list. -/
def LoadBalancer.header (lb : LoadBalancer) : LbHeader :=
  ⟨lb.numServers, lb.currentIndex, lb.algorithm⟩

/-- A result on positions, with addresses for them. -/
def nodeResult (addresses : List ℕ) (r : Option BackendId × LoadBalancer) : Option ℕ × LbHeader :=
  (addressOf addresses r.1, r.2.header)

lemma toOption_bind {α β : Type} (x : Except Fault α) (f : α → Except Fault β) :
    (x >>= f).toOption = x.toOption.bind fun a => (f a).toOption := by
  cases x <;> rfl

section Selections

variable {l : NodeList Backend} {ns : List (ℕ × Backend)} {lb : LoadBalancer} {fuel : ℕ}

lemma lbSelectRoundRobinNodes_refines (h : l.Holds ns) (hrecords : ns.map Prod.snd = lb.servers) :
    lbSelectRoundRobinNodes lb.header l =
      (lbSelectRoundRobin lb).toOption.map (nodeResult (ns.map Prod.fst)) := by
  rw [lbSelectRoundRobin, toOption_bind, Option.map_bind, lbSelectRoundRobinNodes]
  refine Option.bind_congr fun target _ => ?_
  rw [Function.comp_apply]
  have hfirst := chain_first h.chain
  rw [List.head?_eq_getElem?] at hfirst
  by_cases hempty : lb.servers = []
  · have hns : ns = [] := List.map_eq_nil_iff.mp (hrecords.trans hempty)
    have hhead : l.head = none := by rw [hfirst, hns]; rfl
    rw [if_pos hempty, hhead]
    cases target.toNat <;> cases lb.header.numServers.toNat <;> rfl
  · have hpos : 0 < ns.length := by
      rw [List.length_pos_iff]
      rintro rfl
      exact hempty hrecords.symm
    obtain ⟨hlt, hwalk⟩ := walkNodes_refines h.chain hrecords target.toNat hpos
    rw [← hfirst] at hwalk
    rw [if_neg hempty, hwalk, Option.bind_some, skipNodes_refines h.chain hrecords _ hlt]
    rfl

lemma lbSelectIpHashNodes_refines (h : l.Holds ns) (hrecords : ns.map Prod.snd = lb.servers)
    (clientIp : Bytes) :
    lbSelectIpHashNodes lb.header l clientIp =
      (lbSelectIpHash lb clientIp).toOption.map (nodeResult (ns.map Prod.fst)) := by
  have hlen := congrArg List.length hrecords
  rw [List.length_map] at hlen
  rw [lbSelectIpHashNodes, lbSelectIpHash]
  by_cases hzero : lb.numServers = 0
  · rw [if_pos (by exact hzero), if_pos hzero]
    rfl
  rw [if_neg (by exact hzero), if_neg hzero, indexNodes_refines h.chain, Option.bind_some]
  generalize hindex : ipHash clientIp % lb.numServers.toNat = index
  have hheader : ipHash clientIp % lb.header.numServers.toNat = index := hindex
  rw [hheader]
  by_cases hend : lb.servers.length ≤ index
  · rw [List.getElem?_eq_none (by rw [List.length_map, hlen]; exact hend), if_pos hend]
    rfl
  · have hlt : index < ns.length := by omega
    obtain ⟨haddr, hmem⟩ := node_at h.chain hlt
    simp only [haddr, hmem, Option.bind_some, if_neg hend, healthyAt_eq hrecords hlt]
    by_cases hhealthy : ns[index].2.isHealthy
    · rw [if_pos hhealthy, if_pos hhealthy]
      exact congrArg (fun a => some (a, lb.header)) haddr.symm
    · rw [if_neg hhealthy, if_neg hhealthy]
      exact lbSelectRoundRobinNodes_refines h hrecords

lemma lbSelectWeightedRoundRobinNodes_refines (h : l.Holds ns)
    (hrecords : ns.map Prod.snd = lb.servers) (hfuel : ns.length ≤ fuel) :
    lbSelectWeightedRoundRobinNodes fuel lb.header l =
      (lbSelectWeightedRoundRobin lb).toOption.map (nodeResult (ns.map Prod.fst)) := by
  rw [lbSelectWeightedRoundRobin, toOption_bind, Option.map_bind, lbSelectWeightedRoundRobinNodes,
    totalWeightNodes_refines h.chain hfuel, hrecords]
  refine Option.bind_congr fun total _ => ?_
  by_cases hzero : total = 0
  · rw [if_pos hzero, Function.comp_apply, if_pos hzero]
    rfl
  rw [if_neg hzero, Function.comp_apply, if_neg hzero, toOption_bind, Option.map_bind]
  refine Option.bind_congr fun target _ => ?_
  have hselect := selectByWeightNodes_refines h.chain hfuel target [] 0
  rw [hrecords, List.nil_append, List.length_nil] at hselect
  rw [hselect, Function.comp_apply, toOption_bind, Option.map_bind, Option.map_map]
  cases selectByWeight target lb.servers 0 0 <;> rfl

/-- **The selection** on nodes is the one on positions. -/
lemma lbSelectNodes_refines (h : l.Holds ns) (hrecords : ns.map Prod.snd = lb.servers)
    (hfuel : ns.length ≤ fuel) (clientIp : Bytes) :
    lbSelectNodes fuel lb.header l clientIp =
      (lbSelect lb clientIp).toOption.map (nodeResult (ns.map Prod.fst)) := by
  rw [lbSelectNodes, lbSelect, LoadBalancer.header]
  cases halg : lb.algorithm with
  | roundRobin =>
      have hselect := lbSelectRoundRobinNodes_refines h hrecords
      rw [LoadBalancer.header, halg] at hselect
      exact hselect
  | leastConnections =>
      have hselect := leastNodes_refines h.chain hfuel [] intMax none
      rw [addressOf_none, hrecords, List.nil_append, List.length_nil] at hselect
      simp only [hselect, lbSelectLeastConnections, Except.toOption, Option.map_some, nodeResult,
        LoadBalancer.header, halg]
  | ipHash =>
      have hselect := lbSelectIpHashNodes_refines h hrecords clientIp
      rw [LoadBalancer.header, halg] at hselect
      exact hselect
  | weightedRr =>
      have hselect := lbSelectWeightedRoundRobinNodes_refines h hrecords hfuel
      rw [LoadBalancer.header, halg] at hselect
      exact hselect

/-- The nodes at two positions have one address where the positions are one. -/
lemma address_inj {mem : ℕ → Option (Node ℕ Backend)} {first : Option ℕ} (h : Chain mem first ns)
    {i j : ℕ} {m n : ℕ × Backend} (hm : ns[i]? = some m) (hn : ns[j]? = some n) :
    i = j ↔ m.1 = n.1 := by
  constructor
  · rintro rfl
    rw [Option.some.inj (hm.symm.trans hn)]
  · intro heq
    have hi : i < (ns.map Prod.fst).length := by
      rw [List.length_map]
      exact (List.getElem?_eq_some_iff.mp hm).1
    refine (List.getElem?_inj hi (chain_nodup h)).mp ?_
    rw [List.getElem?_map, List.getElem?_map, hm, hn, Option.map_some, Option.map_some, heq]

/-- **A write** to a node is one to the record at its position. -/
lemma writeNode_refines (h : l.Holds ns) (hrecords : ns.map Prod.snd = lb.servers)
    (server : Option BackendId) (f : Backend → Backend) :
    ∃ l' ns', writeNode l (addressOf (ns.map Prod.fst) server) f = some l' ∧ l'.Holds ns' ∧
      ns'.map Prod.fst = ns.map Prod.fst ∧ ns'.map Prod.snd = (lb.update server f).servers := by
  cases server with
  | none => exact ⟨l, ns, rfl, h, rfl, hrecords⟩
  | some p =>
      cases hn : ns[p]? with
      | none =>
          have hout : (ns.map Prod.fst)[p]? = none := by rw [List.getElem?_map, hn, Option.map_none]
          refine ⟨l, ns, by rw [addressOf_some, hout, writeNode], h, rfl, ?_⟩
          refine List.ext_getElem? fun i => ?_
          rw [update_getElem?, ← hrecords, List.getElem?_map]
          by_cases hip : p = i
          · rw [← hip, hn]
            rfl
          · simp only [Option.some.injEq, if_neg hip, Option.map_id_fun', id]
      | some n =>
          have haddr : (ns.map Prod.fst)[p]? = some n.1 := by
            rw [List.getElem?_map, hn, Option.map_some]
          obtain ⟨l', hl', -, hholds⟩ :=
            h.update (List.mem_of_getElem? hn) fun b => ((), f b)
          refine ⟨l', _, ?_, hholds, NodeList.map_fst_change .., ?_⟩
          · rw [addressOf_some, haddr, writeNode, hl', Option.map_some]
          refine List.ext_getElem? fun i => ?_
          rw [update_getElem?, ← hrecords]
          simp only [List.getElem?_map, Option.map_map, Option.some.injEq]
          cases hm : ns[i]? with
          | none => rfl
          | some m =>
              have hsame : m.1 = n.1 ↔ p = i := by
                rw [← address_inj h.chain hm hn, eq_comm]
              rw [Option.map_some, Option.map_some, Function.comp_apply, Function.comp_apply]
              by_cases hip : p = i
              · obtain rfl : n = m := Option.some.inj (by rw [← hn, ← hm, hip])
                rw [if_pos rfl, if_pos hip]
              · rw [if_neg (hsame.not.mpr hip), if_neg hip]

end Selections

/-! ### Runs -/

/-- A call on positions, with addresses for them. -/
def LbCall.onNodes (addresses : List ℕ) : LbCall → LbCall
  | .select clientIp => .select clientIp
  | .release server => .release (addressOf addresses server)
  | .markFailed server => .markFailed (addressOf addresses server)
  | .runHealthChecks now probe => .runHealthChecks now probe

/-- A call on positions, with addresses for them. -/
def BalancerCall.onNodes (addresses : List ℕ) : BalancerCall → BalancerCall
  | .lb call => .lb (call.onNodes addresses)
  | .printStats => .printStats
  | .cleanup => .cleanup

/-- An answer with positions, with addresses for them. -/
def BalancerAnswer.onNodes (addresses : List ℕ) : BalancerAnswer → BalancerAnswer
  | .reply (.selected server) => .reply (.selected (addressOf addresses server))
  | answer => answer

/-- The nodes are the records of the list, at addresses that stay, and all that is allocated: none
where `g_lb` is null. -/
structure BalancerMemory.Represents (addresses : List ℕ) (g : Option LoadBalancer)
    (m : BalancerMemory) : Prop where
  header : m.lb = g.map LoadBalancer.header
  nodes : ∃ ns, m.servers.Holds ns ∧ ns.map Prod.snd = g.elim [] LoadBalancer.servers ∧
    ∀ lb ∈ g, ns.map Prod.fst = addresses

section Steps

variable {addresses : List ℕ} {fuel : ℕ} {g : Option LoadBalancer} {m : BalancerMemory}
  {lb : LoadBalancer}

/-- A write, in a call that answers `r` and leaves the balancer `lb` with the index `index`. -/
lemma represents_write {l : NodeList Backend} {ns : List (ℕ × Backend)} (h : l.Holds ns)
    (hrecords : ns.map Prod.snd = lb.servers) (hfst : ns.map Prod.fst = addresses)
    (server : Option BackendId) (f : Backend → Backend) :
    ∃ l', writeNode l (addressOf addresses server) f = some l' ∧
      BalancerMemory.Represents addresses (some (lb.update server f)) ⟨some lb.header, l'⟩ := by
  obtain ⟨l', ns', hwrite, hholds, hfst', hrecords'⟩ := writeNode_refines h hrecords server f
  rw [hfst] at hwrite hfst'
  refine ⟨l', hwrite, ?_, ns', hholds, hrecords', fun _ _ => hfst'⟩
  cases server <;> rfl

/-- **A call** on a balancer. -/
lemma lbCall_matches {l : NodeList Backend} {ns : List (ℕ × Backend)} (h : l.Holds ns)
    (hrecords : ns.map Prod.snd = lb.servers) (hfst : ns.map Prod.fst = addresses)
    (hfuel : addresses.length ≤ fuel) (call : LbCall) :
    Matches (BalancerAnswer.onNodes addresses) (BalancerMemory.Represents addresses)
      (lbListStep (some lb) (.lb call))
      (lbNodeStep fuel ⟨some lb.header, l⟩ (.lb (call.onNodes addresses))) := by
  have hlen : ns.length ≤ fuel := by
    rw [← hfst, List.length_map] at hfuel
    exact hfuel
  cases call with
  -- the selection is the same on nodes and on positions, and then one node is written
  | select clientIp =>
      simp only [lbListStep, lbNodeStep, LbCall.onNodes, lbStep, loadbalancerSelectBackend,
        lbSelectNodes_refines h hrecords hlen, hfst]
      cases hselect : lbSelect lb clientIp with
      | error _ => exact .fails
      | ok r =>
          obtain ⟨index, hindex⟩ := lbSelect_frame hselect
          have hrecords' : ns.map Prod.snd = r.2.servers := by
            rw [hindex]
            exact hrecords
          obtain ⟨l', hwrite, hrep⟩ := represents_write h hrecords' hfst r.1 Backend.select
          simp only [Except.toOption, Option.map_some, Option.bind_some, nodeResult, hwrite]
          exact .returns rfl hrep
  | release server =>
      obtain ⟨l', hwrite, hrep⟩ := represents_write h hrecords hfst server Backend.release
      simp only [lbListStep, lbNodeStep, LbCall.onNodes, lbStep, hwrite, Option.map_some]
      exact .returns rfl hrep
  | markFailed server =>
      obtain ⟨l', hwrite, hrep⟩ := represents_write h hrecords hfst server Backend.markFailed
      simp only [lbListStep, lbNodeStep, LbCall.onNodes, lbStep, hwrite, Option.map_some]
      exact .returns rfl hrep
  -- a pass over all nodes does what the check of each position does
  | runHealthChecks now probe =>
      obtain ⟨l', hmap, -, hholds⟩ := h.mapAll (fun p server =>
        (if server.due now then some (probe p) else none, server.healthCheck now (probe p))) hlen
      simp only [lbListStep, lbNodeStep, LbCall.onNodes, lbStep, hmap, Option.map_some]
      refine .returns (congrArg (BalancerAnswer.reply ∘ LbReply.probed) (funext fun p => ?_))
        ⟨rfl, _, hholds, ?_, fun _ _ => ?_⟩
      · simp only [loadbalancerRunHealthChecks, ← hrecords, List.getElem?_map, List.getElem?_mapIdx]
        cases ns[p]? <;> rfl
      · refine List.ext_getElem? fun p => ?_
        simp only [Option.elim_some, loadbalancerRunHealthChecks, ← hrecords, List.getElem?_map,
          List.getElem?_mapIdx, Option.map_map]
        cases ns[p]? <;> rfl
      · rw [← hfst]
        refine List.ext_getElem? fun p => ?_
        simp only [List.getElem?_map, List.getElem?_mapIdx, Option.map_map]
        cases ns[p]? <;> rfl

/-- **The step lemma.** A call on nodes does what it does on positions. -/
lemma lbNodeStep_matches (hfuel : addresses.length ≤ fuel) (h : m.Represents addresses g)
    (call : BalancerCall) :
    Matches (BalancerAnswer.onNodes addresses) (BalancerMemory.Represents addresses)
      (lbListStep g call) (lbNodeStep fuel m (call.onNodes addresses)) := by
  obtain ⟨header, l⟩ := m
  obtain ⟨rfl, ns, hholds, hrecords, hfst⟩ := h
  cases g with
  | none =>
      obtain rfl := List.map_eq_nil_iff.mp hrecords
      have hrep : BalancerMemory.Represents addresses none ⟨none, l⟩ :=
        ⟨rfl, [], hholds, rfl, by simp⟩
      cases call with
      | lb call => cases call <;> exact .returns rfl hrep
      | printStats => exact .returns rfl hrep
      | cleanup => exact .returns rfl hrep
  | some lb =>
      have hfst := hfst lb rfl
      have hlen : ns.length ≤ fuel := by
        rw [← hfst, List.length_map] at hfuel
        exact hfuel
      cases call with
      | lb call => exact lbCall_matches hholds hrecords hfst hfuel call
      | printStats =>
          simp only [lbListStep, lbNodeStep, BalancerCall.onNodes, Option.map_some,
            readNodes_chain hholds.chain hlen]
          exact .returns (congrArg BalancerAnswer.stats hrecords.symm)
            ⟨rfl, ns, hholds, hrecords, fun _ _ => hfst⟩
      | cleanup =>
          obtain ⟨l', hfree, -, hempty⟩ := hholds.freeAll hlen
          simp only [lbListStep, lbNodeStep, BalancerCall.onNodes, Option.map_some, hfree]
          exact .returns rfl ⟨rfl, [], hempty, rfl, by simp⟩

end Steps

/-! ### The list that is built -/

section Init

variable {config : LbConfig} {lbOk : Bool} {serverOk : ℕ → Bool} {now : ℕ → ℤ}

/-- The list that `loadbalancer_init` builds, as far as it is. -/
def Built (lb : LoadBalancer) (m : LbHeader × NodeList Backend) : Prop :=
  m.1 = lb.header ∧ ∃ ns, m.2.Holds ns ∧ ns.map Prod.snd = lb.servers

lemma Built.addBackend {lb : LoadBalancer} {m : LbHeader × NodeList Backend} (h : Built lb m)
    (i : ℕ) :
    Built (addBackend config serverOk now lb i) (addBackendNodes config serverOk now m i) := by
  obtain ⟨header, l⟩ := m
  obtain ⟨rfl, ns, hholds, hrecords⟩ := h
  rw [ProxyMax.addBackend, addBackendNodes]
  by_cases hok : serverOk i
  · rw [if_pos hok, if_pos hok]
    exact ⟨rfl, _, hholds.push _, congrArg (List.cons _) hrecords⟩
  · rw [if_neg hok, if_neg hok]
    exact ⟨rfl, ns, hholds, hrecords⟩

lemma Built.foldl {lb : LoadBalancer} {m : LbHeader × NodeList Backend} (h : Built lb m)
    (is : List ℕ) :
    Built (is.foldl (ProxyMax.addBackend config serverOk now) lb)
      (is.foldl (addBackendNodes config serverOk now) m) := by
  induction is generalizing lb m with
  | nil => exact h
  | cons i is ih => exact ih (h.addBackend i)

lemma Built.represents {lb : LoadBalancer} {m : LbHeader × NodeList Backend} (h : Built lb m) :
    ∃ addresses, addresses.Nodup ∧ addresses.length = lb.servers.length ∧
      BalancerMemory.Represents addresses (some lb) ⟨some m.1, m.2⟩ := by
  obtain ⟨hheader, ns, hholds, hrecords⟩ := h
  refine ⟨ns.map Prod.fst, chain_nodup hholds.chain, ?_, congrArg some hheader, ns, hholds,
    hrecords, fun _ _ => rfl⟩
  rw [← hrecords, List.length_map, List.length_map]

/-- **The start.** `loadbalancer_init` returns the same, and links the records. -/
lemma loadbalancerInitNodes_represents (config : LbConfig) (lbOk : Bool) (serverOk : ℕ → Bool)
    (now : ℕ → ℤ) :
    (loadbalancerInitNodes config lbOk serverOk now).1 =
        (loadbalancerInit config lbOk serverOk now).1 ∧
      ∃ addresses, addresses.Nodup ∧
        addresses.length =
          ((loadbalancerInit config lbOk serverOk now).2.elim [] LoadBalancer.servers).length ∧
        BalancerMemory.Represents addresses (loadbalancerInit config lbOk serverOk now).2
          (loadbalancerInitNodes config lbOk serverOk now).2 := by
  have hnull : BalancerMemory.Represents [] none .init :=
    ⟨rfl, [], NodeList.holds_empty, rfl, by simp⟩
  have hempty : Built ⟨[], 0, 0, config.lbAlgorithm⟩ (⟨0, 0, config.lbAlgorithm⟩, .empty) :=
    ⟨rfl, [], NodeList.holds_empty, rfl⟩
  rw [loadbalancerInitNodes, loadbalancerInit]
  by_cases hmode : config.reverseMode = false
  · rw [if_pos hmode, if_pos hmode]
    exact ⟨rfl, [], List.nodup_nil, rfl, hnull⟩
  rw [if_neg hmode, if_neg hmode]
  by_cases hlb : lbOk = false
  · rw [if_pos hlb, if_pos hlb]
    exact ⟨rfl, [], List.nodup_nil, rfl, hnull⟩
  rw [if_neg hlb, if_neg hlb]
  by_cases hbackends : 0 < config.numBackends
  · rw [if_pos hbackends, if_pos hbackends]
    exact ⟨rfl, (hempty.foldl _).represents⟩
  rw [if_neg hbackends, if_neg hbackends]
  by_cases hserver : serverOk 0
  · rw [if_pos hserver, if_pos hserver]
    have hone : Built ⟨[newBackend config.backendHost config.backendPort 1 (now 0)], 1, 0,
        config.lbAlgorithm⟩ (⟨1, 0, config.lbAlgorithm⟩,
        NodeList.empty.push (newBackend config.backendHost config.backendPort 1 (now 0))) :=
      ⟨rfl, _, NodeList.holds_empty.push _, rfl⟩
    exact ⟨rfl, hone.represents⟩
  · rw [if_neg hserver, if_neg hserver]
    exact ⟨rfl, hempty.represents⟩

end Init

/-- **The backends in memory.** From `loadbalancer_init` on, with room for as many passes as there
are backends, each run of the functions on nodes is the one on positions: it returns and prints the
same, with the addresses of the nodes for their positions, and it does not return only where an
`int` overflows or is divided by zero. So it never comes to a node that is not there, the addresses
that a selection gave out stay good, and the nodes that are allocated are those of the list: none
after `loadbalancer_cleanup`. -/
theorem balancer_nodes_refine (config : LbConfig) (lbOk : Bool) (serverOk : ℕ → Bool) (now : ℕ → ℤ)
    (fuel : ℕ)
    (hfuel : ((loadbalancerInit config lbOk serverOk now).2.elim [] LoadBalancer.servers).length ≤
      fuel) :
    (loadbalancerInitNodes config lbOk serverOk now).1 =
        (loadbalancerInit config lbOk serverOk now).1 ∧
      ∃ addresses : List ℕ, addresses.Nodup ∧ ∀ calls : List BalancerCall,
        Matches
          (List.map (Prod.map (BalancerCall.onNodes addresses) (BalancerAnswer.onNodes addresses)))
          (BalancerMemory.Represents addresses)
          (exec lbListStep (loadbalancerInit config lbOk serverOk now).2 calls)
          (exec (lbNodeStep fuel) (loadbalancerInitNodes config lbOk serverOk now).2
            (calls.map (BalancerCall.onNodes addresses))) := by
  obtain ⟨hret, addresses, hnodup, hlen, hinit⟩ :=
    loadbalancerInitNodes_represents config lbOk serverOk now
  exact ⟨hret, addresses, hnodup, exec_simulates
    (fun _ _ call h => lbNodeStep_matches (hlen ▸ hfuel) h call) hinit⟩

/-- Two backends are built, one is selected, and they are freed. -/
theorem balancer_nodes_refine_cleaned :
    ∃ log m, exec (lbNodeStep 2)
        (loadbalancerInitNodes (twoBackends .roundRobin) true (fun _ => true) fun _ => 0).2
        [.lb (.select []), .printStats, .cleanup, .lb (.select [])] = some (log, m) ∧
      ∀ p, m.servers.mem p = none := by
  obtain ⟨-, addresses, -, hruns⟩ :=
    balancer_nodes_refine (twoBackends .roundRobin) true (fun _ => true) (fun _ => 0) 2 (by decide)
  have hrun := hruns [.lb (.select []), .printStats, .cleanup, .lb (.select [])]
  generalize hlist : exec lbListStep _ _ = r at hrun
  generalize hnodes : exec (lbNodeStep 2) _ _ = r' at hrun
  cases hrun with
  | fails => cases hlist
  | returns hlog h =>
      obtain ⟨-, ns, hholds, hrecords, -⟩ := h
      obtain rfl : _ = none := (Prod.mk.inj (Option.some.inj hlist)).2.symm
      obtain rfl := List.map_eq_nil_iff.mp hrecords
      exact ⟨_, _, hnodes, hholds.mem_eq_none⟩

end ProxyMax
