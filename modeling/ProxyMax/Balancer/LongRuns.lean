import ProxyMax.Balancer.Selections

/-!
`lb_select_round_robin` and `lb_select_weighted_round_robin` of
`src/core/loadbalancer.c` over long runs: `current_index` is only ever incremented.

* `TargetInRange`: the next selection has a target to walk to.
* `counted`, `increments`: how many increments selections make, said from the health of
  the backends and where in the circle a selection begins.
* `select_index`, `selects_index`: the step and the run; the index is the number of
  increments, in two's complement.
* `target_in_range`: the target is in range exactly while that number has not become
  negative, or comes to a multiple of the size of the rotation.
-/

namespace ProxyMax

open CString CInt Machine

/-- What the index is reduced by. -/
def LoadBalancer.rotationSize (lb : LoadBalancer) : ℤ :=
  if lb.algorithm = .weightedRr then healthyWeight lb.servers else lb.numServers

/-- The next selection uses a `target` from zero on, below `num_servers` or `total_weight`. -/
def LoadBalancer.TargetInRange (lb : LoadBalancer) : Prop :=
  if lb.algorithm = .weightedRr then
    ∃ total target, totalWeight lb.servers 0 = .ok total ∧ rem lb.currentIndex total = .ok target ∧
      0 ≤ target ∧ target < total
  else ∃ target, rem lb.currentIndex lb.numServers = .ok target ∧
    0 ≤ target ∧ target < lb.numServers

section Index

variable {lb lb' : LoadBalancer}

/-- Every healthy backend has a positive weight, and there is one. -/
structure LoadBalancer.Weighted (lb : LoadBalancer) : Prop where
  exists_healthy : ∃ server ∈ lb.servers, server.isHealthy
  weight_pos : ∀ server ∈ lb.servers, server.isHealthy → 0 < server.weight

namespace LoadBalancer.Weighted

lemma weight_nonneg (h : lb.Weighted) :
    ∀ server ∈ lb.servers, server.isHealthy → 0 ≤ server.weight :=
  fun server hserver hhealthy => (h.weight_pos server hserver hhealthy).le

lemma healthyWeight_pos (h : lb.Weighted) : 0 < healthyWeight lb.servers := by
  obtain ⟨server, hserver, hhealthy⟩ := h.exists_healthy
  have hpos := h.weight_pos server hserver hhealthy
  exact hpos.trans_le (weight_le_healthyWeight h.weight_nonneg hserver hhealthy)

lemma of_sameHealth (h : lb.Weighted) (hsame : SameHealth lb lb') : lb'.Weighted := by
  refine ⟨hsame.exists_healthy h.exists_healthy, fun server hserver hhealthy => ?_⟩
  have hmem : (server.isHealthy, server.weight) ∈
      lb.servers.map fun b => (b.isHealthy, b.weight) :=
    hsame.servers ▸ List.mem_map_of_mem hserver
  obtain ⟨b, hb, heq⟩ := List.mem_map.mp hmem
  obtain ⟨hhealth, hweight⟩ := Prod.mk.inj heq
  rw [← hweight]
  exact h.weight_pos b hb (hhealth.trans hhealthy)

end LoadBalancer.Weighted

/-- Whether the target is in range depends on the index only. -/
lemma targetInRange_iff (hlen : lb.numServers = lb.servers.length) (hw : lb.Weighted) :
    lb.TargetInRange ↔
      (lb.algorithm = .weightedRr → healthyWeight lb.servers ≤ intMax) ∧
        (0 ≤ lb.currentIndex ∨ lb.rotationSize ∣ lb.currentIndex) := by
  rw [LoadBalancer.TargetInRange, LoadBalancer.rotationSize]
  split_ifs with halg
  · have htotal := totalWeight_eq hw.weight_nonneg le_rfl (by decide)
    rw [Int.zero_add] at htotal
    have hpos := hw.healthyWeight_pos
    by_cases hle : healthyWeight lb.servers ≤ intMax
    · rw [if_pos hle] at htotal
      rw [← tmod_nonneg_iff]
      constructor
      · rintro ⟨total, target, hsum, hrem, hnonneg, -⟩
        obtain rfl := Except.ok.inj (htotal.symm.trans hsum)
        obtain rfl := Except.ok.inj ((rem_of_pos _ hpos).symm.trans hrem)
        exact ⟨fun _ => hle, hnonneg⟩
      · rintro ⟨-, hnonneg⟩
        exact ⟨_, _, htotal, rem_of_pos _ hpos, hnonneg, tmod_lt _ hpos⟩
    · rw [if_neg hle] at htotal
      constructor
      · rintro ⟨total, target, hsum, -⟩
        rw [htotal] at hsum
        cases hsum
      · rintro ⟨hmax, -⟩
        exact absurd (hmax halg) hle
  · have hpos : 0 < lb.numServers := by
      rw [hlen]
      exact_mod_cast List.length_pos_iff.mpr (ne_nil_of_healthy hw.exists_healthy)
    rw [← tmod_nonneg_iff]
    constructor
    · rintro ⟨target, hrem, hnonneg, -⟩
      obtain rfl := Except.ok.inj ((rem_of_pos _ hpos).symm.trans hrem)
      exact ⟨fun h => absurd h halg, hnonneg⟩
    · rintro ⟨-, hnonneg⟩
      exact ⟨_, rem_of_pos _ hpos, hnonneg, tmod_lt _ hpos⟩

/-! ### The count of the increments -/

/-- How many unhealthy backends stand before the first healthy one, from the place `p` of
the circle on. -/
def skipped (healthy : BackendId → Bool) (n p : ℕ) : ℕ :=
  (List.range n).findIdx fun j => healthy ((p + j) % n)

/-- The place where a selection begins after `c` increments: the next one of the circle, but
the head of the list while the index is negative. -/
def place (n c : ℕ) : ℕ := if c % 2 ^ 32 < 2 ^ 31 then c % 2 ^ 32 % n else 0

namespace LoadBalancer

/-- The increments of one selection after `c` of them: one for the backend selected and one
for each that is skipped, where the algorithm rotates. -/
def counted (lb : LoadBalancer) (c : ℕ) (clientIp : Bytes) : ℕ :=
  let rotation := skipped lb.healthyAt lb.servers.length (place lb.servers.length c) + 1
  match lb.algorithm with
  | .roundRobin => rotation
  | .leastConnections => 0
  | .ipHash => if lb.healthyAt (ipHash clientIp % lb.servers.length) then 0 else rotation
  | .weightedRr => 1

/-- The increments that the selections for these clients make, from `c` on. -/
def increments (lb : LoadBalancer) (c : ℕ) (clients : List Bytes) : ℕ :=
  clients.foldl (fun c clientIp => c + lb.counted c clientIp) c

end LoadBalancer

lemma skipped_eq {healthy : BackendId → Bool} {n p k : ℕ} (hk : k < n)
    (hbefore : ∀ j < k, healthy ((p + j) % n) = false) (hat : healthy ((p + k) % n) = true) :
    skipped healthy n p = k := by
  rw [skipped, List.findIdx_eq (by rwa [List.length_range])]
  refine ⟨by rwa [List.getElem_range], fun j hj => ?_⟩
  rw [List.getElem_range]
  exact hbefore j hj

/-- The round robin begins at the place that the increments come to. -/
lemma start_eq_place {c : ℕ} (hindex : lb.currentIndex = (c : ℤ).bmod (2 ^ 32)) :
    lb.start = place lb.servers.length c := by
  rw [place]
  split_ifs with hsign
  · have hc : lb.currentIndex = (c % 2 ^ 32 : ℕ) := by
      rw [hindex, Int.bmod_def]
      push_cast
      omega
    exact lb.start_eq hc
  · rw [← bmod_nonneg_iff, ← hindex, not_le] at hsign
    have htarget : (lb.currentIndex.tmod lb.servers.length).toNat = 0 :=
      Int.toNat_of_nonpos (tmod_nonpos _ hsign.le)
    rw [LoadBalancer.start, htarget, Nat.zero_mod]

/-- **The round robin counts** the backend it selects and those it skips. -/
lemma lbSelectRoundRobin_index {c : ℕ} (hindex : lb.currentIndex = (c : ℤ).bmod (2 ^ 32))
    (hlen : lb.numServers = lb.servers.length) (hex : ∃ server ∈ lb.servers, server.isHealthy) :
    ∃ r, lbSelectRoundRobin lb = .ok (r, lb.atIndex (((c +
      (skipped lb.healthyAt lb.servers.length (place lb.servers.length c) + 1) : ℕ) : ℤ).bmod
        (2 ^ 32))) := by
  obtain ⟨k, hk, heq, hbefore, hat⟩ := lbSelectRoundRobin_eq hlen hex
  rw [start_eq_place hindex] at hbefore hat
  rw [hindex, incr_iterate, ← Nat.cast_add] at heq
  rw [skipped_eq hk hbefore hat]
  exact ⟨_, heq⟩

/-- **The step**: a selection makes as many increments as it is counted for. -/
lemma select_index {c : ℕ} {clientIp : Bytes} {reply : LbReply}
    (hindex : lb.currentIndex = (c : ℤ).bmod (2 ^ 32))
    (hlen : lb.numServers = lb.servers.length) (hw : lb.Weighted)
    (hstep : lbStep lb (.select clientIp) = some (reply, lb')) :
    lb'.currentIndex = ((c + lb.counted c clientIp : ℕ) : ℤ).bmod (2 ^ 32) := by
  obtain ⟨-, server, -, hsel⟩ := select_sameHealth hstep
  have hmoved : ∀ {r i}, lbSelect lb clientIp = .ok (r, lb.atIndex i) →
      lb'.currentIndex = i := fun h =>
    (congrArg LoadBalancer.currentIndex
      (Prod.mk.inj (Except.ok.inj (h.symm.trans hsel))).2).symm
  have hkept : ∀ {r}, lbSelect lb clientIp = .ok (r, lb) →
      lb'.currentIndex = ((c + 0 : ℕ) : ℤ).bmod (2 ^ 32) := fun h =>
    (hmoved (i := lb.currentIndex) h).trans hindex
  obtain ⟨r, hrobin⟩ := lbSelectRoundRobin_index hindex hlen hw.exists_healthy
  -- only the round robin, which the hash falls back to, and the weighted selection count
  cases halg : lb.algorithm with
  | roundRobin =>
      simp only [LoadBalancer.counted, halg]
      refine hmoved (r := r) ?_
      rw [lbSelect, halg]
      exact hrobin
  | leastConnections =>
      simp only [LoadBalancer.counted, halg]
      refine hkept (r := lbSelectLeastConnections lb) ?_
      rw [lbSelect, halg]
  | ipHash =>
      have hpos : 0 < lb.servers.length :=
        List.length_pos_iff.mpr (ne_nil_of_healthy hw.exists_healthy)
      have hhash : lbSelect lb clientIp =
          if lb.healthyAt (ipHash clientIp % lb.servers.length) then
            .ok (some (ipHash clientIp % lb.servers.length), lb)
          else lbSelectRoundRobin lb := by
        rw [lbSelect, halg]
        simp only [lbSelectIpHash]
        rw [if_neg (by omega), hlen, Int.toNat_natCast, if_neg (by simp [Nat.mod_lt _ hpos])]
      simp only [LoadBalancer.counted, halg]
      split_ifs with hhealthy
      · rw [if_pos hhealthy] at hhash
        exact hkept hhash
      · rw [if_neg hhealthy] at hhash
        exact hmoved (hhash.trans hrobin)
  | weightedRr =>
      have hweighted : lbSelect lb clientIp = lbSelectWeightedRoundRobin lb := by
        rw [lbSelect, halg]
      have hle : healthyWeight lb.servers ≤ intMax := by
        by_contra hlt
        rw [hweighted, lbSelectWeightedRoundRobin_overflow hw.weight_nonneg hlt] at hsel
        cases hsel
      obtain ⟨p, b, heq, -⟩ :=
        lbSelectWeightedRoundRobin_eq hw.weight_nonneg hw.healthyWeight_pos.ne' hle
      simp only [LoadBalancer.counted, halg]
      rw [hmoved (hweighted.trans heq), hindex, ← Function.iterate_one incr, incr_iterate]
      norm_cast

/-- What a selection counts depends on the health only. -/
lemma SameHealth.counted_eq (h : SameHealth lb lb') : lb'.counted = lb.counted := by
  have hhealthy : lb'.healthyAt = lb.healthyAt := funext h.healthyAt_eq
  funext c clientIp
  rw [LoadBalancer.counted, LoadBalancer.counted, h.algorithm, h.length_eq, hhealthy]

/-- **The run**: the index is the number of increments, in two's complement. -/
lemma selects_index {c : ℕ} {clients : List Bytes} {log : List (LbCall × LbReply)}
    (hindex : lb.currentIndex = (c : ℤ).bmod (2 ^ 32))
    (hlen : lb.numServers = lb.servers.length) (hw : lb.Weighted)
    (hrun : exec lbStep lb (clients.map LbCall.select) = some (log, lb')) :
    lb'.currentIndex = (lb.increments c clients : ℤ).bmod (2 ^ 32) := by
  induction clients generalizing lb log c with
  | nil =>
      rw [List.map_nil, exec_nil, Option.some.injEq, Prod.mk.injEq] at hrun
      obtain ⟨-, rfl⟩ := hrun
      exact hindex
  | cons client clients ih =>
      obtain ⟨reply, lb₁, log', hstep, hrest, rfl⟩ := exec_cons _ hrun
      have hsame := (select_sameHealth hstep).1
      have hrun' := ih (select_index hindex hlen hw hstep) (hsame.numServers_eq hlen)
        (hw.of_sameHealth hsame) hrest
      rwa [LoadBalancer.increments, hsame.counted_eq] at hrun'

/-- Where nothing is skipped, every selection is one increment. -/
lemma increments_eq_length {c : ℕ} (clients : List Bytes)
    (hone : ∀ c clientIp, lb.counted c clientIp = 1) :
    lb.increments c clients = c + clients.length := by
  induction clients generalizing c with
  | nil => rfl
  | cons client clients ih =>
      have hstep : lb.increments c (client :: clients) = lb.increments (c + 1) clients := by
        rw [LoadBalancer.increments, List.foldl_cons, hone]
        rfl
      rw [hstep, ih, List.length_cons]
      omega

lemma counted_eq_one (hw : lb.Weighted)
    (h : lb.algorithm = .weightedRr ∨
      lb.algorithm = .roundRobin ∧ ∀ p < lb.servers.length, lb.healthyAt p = true)
    (c : ℕ) (clientIp : Bytes) : lb.counted c clientIp = 1 := by
  rw [LoadBalancer.counted]
  rcases h with halg | ⟨halg, hall⟩
  · rw [halg]
  · have hpos : 0 < lb.servers.length :=
      List.length_pos_iff.mpr (ne_nil_of_healthy hw.exists_healthy)
    rw [halg]
    exact congrArg (· + 1) (skipped_eq hpos (fun j hj => absurd hj (Nat.not_lt_zero j))
      (hall _ (Nat.mod_lt _ hpos)))

end Index

/-- **Long runs of the rotation.** After selections made since the index was zero, the
index is the number of increments counted for them, in two's complement: one for each
selection where no backend is skipped. The next selection has its target in range if and
only if the weights have a sum and this number is not negative, unless it comes to a
multiple of the size of the rotation. -/
theorem target_in_range (lb₀ lb : LoadBalancer) (clients : List Bytes)
    (log : List (LbCall × LbReply)) (hindex : lb₀.currentIndex = 0)
    (hlen : lb₀.numServers = lb₀.servers.length) (hw : lb₀.Weighted)
    (hrun : exec lbStep lb₀ (clients.map LbCall.select) = some (log, lb)) :
    lb.currentIndex = (lb₀.increments 0 clients : ℤ).bmod (2 ^ 32) ∧
      (lb₀.algorithm = .weightedRr ∨
          lb₀.algorithm = .roundRobin ∧ (∀ p < lb₀.servers.length, lb₀.healthyAt p = true) →
        lb₀.increments 0 clients = clients.length) ∧
      (lb.TargetInRange ↔
        (lb₀.algorithm = .weightedRr → healthyWeight lb₀.servers ≤ intMax) ∧
          (lb₀.increments 0 clients % 2 ^ 32 < 2 ^ 31 ∨
            lb₀.rotationSize ∣ (lb₀.increments 0 clients : ℤ).bmod (2 ^ 32))) := by
  have hcount : lb.currentIndex = (lb₀.increments 0 clients : ℤ).bmod (2 ^ 32) :=
    selects_index (by rw [hindex]; rfl) hlen hw hrun
  have hsame := (selects_sameHealth hrun).1
  have hsize : lb.rotationSize = lb₀.rotationSize := by
    rw [LoadBalancer.rotationSize, LoadBalancer.rotationSize, hsame.algorithm,
      hsame.healthyWeight_eq, hsame.numServers]
  refine ⟨hcount, fun h => ?_, ?_⟩
  · rw [increments_eq_length clients (counted_eq_one hw h), Nat.zero_add]
  · rw [targetInRange_iff (hsame.numServers_eq hlen) (hw.of_sameHealth hsame), hcount,
      bmod_nonneg_iff, hsize, hsame.algorithm, hsame.healthyWeight_eq]

/-- The round robin over two backends, as `loadbalancer_init` leaves it. -/
lemma roundRobin_started :
    ∃ lb₀, (loadbalancerInit (twoBackends .roundRobin) true (fun _ => true) fun _ => 0).2 =
        some lb₀ ∧ lb₀.Weighted ∧ lb₀.currentIndex = 0 ∧ lb₀.numServers = 2 ∧
      lb₀.servers.length = 2 ∧ lb₀.algorithm = .roundRobin ∧ ∀ p < 2, lb₀.healthyAt p = true := by
  refine ⟨_, rfl, ⟨exists_healthy_iff.mpr ⟨0, ?_⟩, ?_⟩, rfl, rfl, rfl, rfl, ?_⟩ <;> decide

/-- The round robin selects, as long as it is called. -/
lemma roundRobin_selects {lb₀ : LoadBalancer} (hlen : lb₀.numServers = lb₀.servers.length)
    (halg : lb₀.algorithm = .roundRobin) (hw : lb₀.Weighted) (clients : List Bytes) :
    ∃ log lb, exec lbStep lb₀ (clients.map LbCall.select) = some (log, lb) := by
  refine exists_selects (fun s hs ip => ?_) clients
  rw [lbSelect, hs.algorithm.trans halg]
  obtain ⟨k, -, heq, -⟩ :=
    lbSelectRoundRobin_eq (hs.numServers_eq hlen) (hs.exists_healthy hw.exists_healthy)
  exact ⟨_, heq⟩

/-- One of two backends is skipped in each of three selections: they are six increments,
and the next one has its target in range. -/
theorem target_in_range_run :
    ∃ (lb₀ lb₁ lb : LoadBalancer) (reply : LbReply) (log : List (LbCall × LbReply)),
      (loadbalancerInit (twoBackends .roundRobin) true (fun _ => true) fun _ => 0).2 = some lb₀ ∧
      lbStep lb₀ (.runHealthChecks 30 fun p => p = 1) = some (reply, lb₁) ∧
      exec lbStep lb₁ ([[], [], []].map LbCall.select) = some (log, lb) ∧
      lb.currentIndex = 6 ∧ lb.TargetInRange := by
  obtain ⟨lb₀, lb₁, reply, hinit, hprobed, hw, hindex, hlen, halg, hcount⟩ :
      ∃ (lb₀ lb₁ : LoadBalancer) (reply : LbReply),
        (loadbalancerInit (twoBackends .roundRobin) true (fun _ => true) fun _ => 0).2 =
            some lb₀ ∧
          lbStep lb₀ (.runHealthChecks 30 fun p => p = 1) = some (reply, lb₁) ∧ lb₁.Weighted ∧
          lb₁.currentIndex = 0 ∧ lb₁.numServers = lb₁.servers.length ∧
          lb₁.algorithm = .roundRobin ∧ lb₁.increments 0 [[], [], []] = 6 := by
    refine ⟨_, _, _, rfl, rfl, ⟨exists_healthy_iff.mpr ⟨1, ?_⟩, ?_⟩, rfl, rfl, rfl, ?_⟩ <;> decide
  obtain ⟨log, lb, hrun⟩ := roundRobin_selects hlen halg hw [[], [], []]
  obtain ⟨hnow, -, hiff⟩ := target_in_range lb₁ lb [[], [], []] log hindex hlen hw hrun
  rw [hcount] at hnow hiff
  exact ⟨lb₀, lb₁, lb, reply, log, hinit, hprobed, hrun, hnow,
    hiff.mpr ⟨fun h => absurd (halg.symm.trans h) (by decide), .inl (by decide)⟩⟩

/-- After `2 ^ 31 + 1` selections of two healthy backends in turn the target is `-1`. -/
theorem target_negative :
    ∃ (lb₀ lb : LoadBalancer) (log : List (LbCall × LbReply)),
      (loadbalancerInit (twoBackends .roundRobin) true (fun _ => true) fun _ => 0).2 = some lb₀ ∧
      lb₀.Weighted ∧
      exec lbStep lb₀ ((List.replicate (2 ^ 31 + 1) (ascii "10.0.0.1")).map LbCall.select) =
        some (log, lb) ∧
      rem lb.currentIndex lb.numServers = .ok (-1) ∧ ¬ lb.TargetInRange := by
  obtain ⟨lb₀, hinit, hw, hindex, hnum, hlength, halg, hall⟩ := roundRobin_started
  have hlen : lb₀.numServers = lb₀.servers.length := by rw [hnum, hlength]; rfl
  generalize hclients : List.replicate (2 ^ 31 + 1) (ascii "10.0.0.1") = clients
  have hcalls : clients.length = 2 ^ 31 + 1 := hclients ▸ List.length_replicate
  obtain ⟨log, lb, hrun⟩ := roundRobin_selects hlen halg hw clients
  have hcount : lb₀.increments 0 clients = 2 ^ 31 + 1 := by
    rw [increments_eq_length clients (counted_eq_one hw (.inr ⟨halg, hlength ▸ hall⟩)), hcalls,
      Nat.zero_add]
  have hlast := selects_index (c := 0) (by rw [hindex]; rfl) hlen hw hrun
  have hsame := (selects_sameHealth hrun).1
  have htarget : rem lb.currentIndex lb.numServers = .ok (-1) := by
    rw [hlast, hcount, hsame.numServers, hnum]
    rfl
  refine ⟨lb₀, lb, log, hinit, hw, hrun, htarget, ?_⟩
  rw [LoadBalancer.TargetInRange, if_neg (by rw [hsame.algorithm, halg]; decide)]
  rintro ⟨target, hrem, hnonneg, -⟩
  obtain rfl := Except.ok.inj (htarget.symm.trans hrem)
  omega

end ProxyMax
