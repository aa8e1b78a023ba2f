import ProxyMax.Balancer.LoadBalancer
import ProxyMax.Lib.Machine

/-!
`src/core/loadbalancer.c`: which backends are selected.

* `skipUnhealthy_healthy`: the round robin finds a healthy backend where there is one.
* `leastConnections_spec`, `totalWeight_eq`, `selectByWeight_spec`: the searches of the
  other algorithms.
* `SelectsHealthy`: the backend selected is healthy, and there is one if a healthy
  backend has a positive weight.
* `selectsHealthy_iff`: in every reachable state this is so exactly when, under the
  round robin and the hash, some backend is healthy, and under the weighted round
  robin the sum of the weights is an `int`.
-/

namespace ProxyMax

open CString CInt Machine

/-! ### The round robin -/

section RoundRobin

variable {lb : LoadBalancer}

lemma healthyAt_iff {p : BackendId} :
    lb.healthyAt p = true ↔ ∃ server, lb.servers[p]? = some server ∧ server.isHealthy := by
  rw [LoadBalancer.healthyAt]
  cases lb.servers[p]? <;> simp

/-- Some backend is healthy. -/
lemma exists_healthy_iff :
    (∃ server ∈ lb.servers, server.isHealthy) ↔
      ∃ p : ℕ, p < lb.servers.length ∧ lb.healthyAt p = true := by
  constructor
  · rintro ⟨server, hmem, hhealthy⟩
    obtain ⟨p, hp, rfl⟩ := List.getElem_of_mem hmem
    exact ⟨p, hp, healthyAt_iff.mpr ⟨_, List.getElem?_eq_getElem hp, hhealthy⟩⟩
  · rintro ⟨p, -, hp⟩
    obtain ⟨server, hserver, hhealthy⟩ := healthyAt_iff.mp hp
    exact ⟨server, List.mem_of_getElem? hserver, hhealthy⟩

/-- The list is gone through in a circle. -/
lemma nextOrFirst_eq {p : ℕ} (hp : p < lb.servers.length) :
    lb.nextOrFirst p = (p + 1) % lb.servers.length := by
  rw [LoadBalancer.nextOrFirst]
  split_ifs with h
  · rw [Nat.mod_eq_of_lt h]
  · have hlast : p + 1 = lb.servers.length := le_antisymm hp (not_lt.mp h)
    rw [hlast, Nat.mod_self]

lemma nextOrFirst_lt {p : ℕ} (hp : p < lb.servers.length) :
    lb.nextOrFirst p < lb.servers.length := by
  rw [nextOrFirst_eq hp]
  exact Nat.mod_lt _ (by omega)

lemma walk_lt (steps : ℕ) {p : ℕ} (hp : p < lb.servers.length) :
    lb.walk steps p < lb.servers.length := by
  induction steps generalizing p with
  | zero => exact hp
  | succ steps ih => exact ih (nextOrFirst_lt hp)

/-- A healthy backend within reach of the attempts is found. -/
lemma skipUnhealthy_healthy {attempts k : ℕ} {p : ℕ} (hp : p < lb.servers.length)
    (hk : k ≤ attempts) (hhealthy : lb.healthyAt ((p + k) % lb.servers.length) = true)
    (index : ℤ) : lb.healthyAt (lb.skipUnhealthy attempts p index).1 = true := by
  induction attempts generalizing p k index with
  | zero =>
      obtain rfl : k = 0 := by omega
      rwa [Nat.add_zero, Nat.mod_eq_of_lt hp] at hhealthy
  | succ attempts ih =>
      rw [LoadBalancer.skipUnhealthy]
      split_ifs with hhere
      · exact hhere
      · cases k with
        | zero =>
            rw [Nat.add_zero, Nat.mod_eq_of_lt hp] at hhealthy
            exact absurd hhealthy hhere
        | succ k =>
            have hstep : (lb.nextOrFirst p + k) % lb.servers.length =
                (p + (k + 1)) % lb.servers.length := by
              rw [nextOrFirst_eq hp, Nat.mod_add_mod]
              congr 1
              ring
            exact ih (nextOrFirst_lt hp) (by omega) (hstep ▸ hhealthy) _

/-- The round robin selects some backend, a healthy one if there is any. -/
lemma lbSelectRoundRobin_spec (hlen : lb.numServers = lb.servers.length) (hne : lb.servers ≠ []) :
    ∃ p lb', lbSelectRoundRobin lb = .ok (some p, lb') ∧
      ((∃ server ∈ lb.servers, server.isHealthy) → lb.healthyAt p = true) := by
  have hpos : 0 < lb.servers.length := List.length_pos_iff.mpr hne
  have hrem := rem_of_pos lb.currentIndex (b := lb.numServers) (by omega)
  refine ⟨_, _, by rw [lbSelectRoundRobin, hrem]; exact if_neg hne, fun hex => ?_⟩
  obtain ⟨q, hq, hhealthy⟩ := exists_healthy_iff.mp hex
  obtain ⟨p, hpdef⟩ : ∃ p : ℕ, p = lb.walk (lb.currentIndex.tmod lb.numServers).toNat 0 :=
    ⟨_, rfl⟩
  have hp : p < lb.servers.length := hpdef ▸ walk_lt _ hpos
  rw [← hpdef]
  refine skipUnhealthy_healthy (k := (q + (lb.servers.length - p)) % lb.servers.length) hp ?_ ?_ _
  · have := Nat.mod_lt (q + (lb.servers.length - p)) hpos
    omega
  · rw [Nat.add_mod_mod]
    have hround : p + (q + (lb.servers.length - p)) = q + lb.servers.length := by omega
    rw [hround, Nat.add_mod_right, Nat.mod_eq_of_lt hq]
    exact hhealthy

end RoundRobin

/-! ### The other algorithms -/

/-- The loop over the records finds a healthy one below the bound, or keeps what it had. -/
lemma leastConnections_spec (servers : List Backend) (p : ℕ) (minConnections : ℤ)
    (selected : Option BackendId) :
    (∀ q : ℕ, leastConnections servers p minConnections selected = some q → selected = some q ∨
      ∃ k server, q = p + k ∧ servers[k]? = some server ∧ server.isHealthy) ∧
    ((selected ≠ none ∨
        ∃ server ∈ servers, server.isHealthy ∧ server.activeConnections < minConnections) →
      leastConnections servers p minConnections selected ≠ none) := by
  induction servers generalizing p minConnections selected with
  | nil => simp [leastConnections]
  | cons server servers ih =>
      rw [leastConnections]
      split_ifs with h
      · obtain ⟨hfound, hsome⟩ := ih (p + 1) server.activeConnections (some p)
        refine ⟨fun q hq => ?_, fun _ => hsome (.inl (by simp))⟩
        rcases hfound q hq with hq | ⟨k, b, rfl, hb, hhealthy⟩
        · exact .inr ⟨0, server, (Option.some.inj hq).symm, rfl, h.1⟩
        · exact .inr ⟨k + 1, b, by omega, hb, hhealthy⟩
      · obtain ⟨hfound, hsome⟩ := ih (p + 1) minConnections selected
        refine ⟨fun q hq => ?_, fun hex => hsome ?_⟩
        · rcases hfound q hq with hq | ⟨k, b, rfl, hb, hhealthy⟩
          · exact .inl hq
          · exact .inr ⟨k + 1, b, by omega, hb, hhealthy⟩
        · rcases hex with hsel | ⟨b, hb, hhealthy⟩
          · exact .inl hsel
          · rcases List.mem_cons.mp hb with rfl | hb
            · exact absurd hhealthy h
            · exact .inr ⟨b, hb, hhealthy⟩

/-- The weights of the healthy backends together. -/
def healthyWeight (servers : List Backend) : ℤ :=
  ((servers.filter Backend.isHealthy).map Backend.weight).sum

lemma healthyWeight_cons (server : Backend) (servers : List Backend) :
    healthyWeight (server :: servers) =
      (if server.isHealthy then server.weight else 0) + healthyWeight servers := by
  rw [healthyWeight, List.filter_cons]
  split_ifs <;> simp [healthyWeight]

lemma healthyWeight_nonneg {servers : List Backend}
    (hw : ∀ server ∈ servers, server.isHealthy → 0 ≤ server.weight) :
    0 ≤ healthyWeight servers := by
  refine List.sum_nonneg fun w hmem => ?_
  obtain ⟨server, hserver, rfl⟩ := List.mem_map.mp hmem
  exact hw server (List.mem_of_mem_filter hserver) (List.of_mem_filter hserver)

lemma weight_le_healthyWeight {servers : List Backend}
    (hw : ∀ server ∈ servers, server.isHealthy → 0 ≤ server.weight) {server : Backend}
    (hserver : server ∈ servers) (hhealthy : server.isHealthy) :
    server.weight ≤ healthyWeight servers := by
  refine List.single_le_sum (fun w hmem => ?_) _
    (List.mem_map_of_mem (List.mem_filter.mpr ⟨hserver, hhealthy⟩))
  obtain ⟨b, hb, rfl⟩ := List.mem_map.mp hmem
  exact hw b (List.mem_of_mem_filter hb) (List.of_mem_filter hb)

/-- The sum of the weights is taken, if it is an `int`. -/
lemma totalWeight_eq {servers : List Backend}
    (hw : ∀ server ∈ servers, server.isHealthy → 0 ≤ server.weight)
    {total : ℤ} (hpos : 0 ≤ total) (hmax : total ≤ intMax) :
    totalWeight servers total =
      if total + healthyWeight servers ≤ intMax then .ok (total + healthyWeight servers)
      else .error .overflow := by
  induction servers generalizing total with
  | nil => simp [totalWeight, healthyWeight, hmax]
  | cons server servers ih =>
      have hrest := healthyWeight_nonneg fun b hb => hw b (List.mem_cons_of_mem _ hb)
      have hmin : intMin ≤ 0 := by decide
      rw [totalWeight, healthyWeight_cons]
      by_cases hhealthy : server.isHealthy
      · have hserver := hw server (List.mem_cons_self ..) hhealthy
        rw [if_pos hhealthy, if_pos hhealthy, ← Int.add_assoc]
        by_cases hle : total + server.weight ≤ intMax
        · rw [add_of_le (by omega) hle]
          exact ih (fun b hb => hw b (List.mem_cons_of_mem _ hb)) (by omega) hle
        · rw [add, if_neg (fun h => hle h.2), if_neg (by omega)]
          rfl
      · rw [if_neg hhealthy, if_neg hhealthy, Int.zero_add]
        exact ih (fun b hb => hw b (List.mem_cons_of_mem _ hb)) hpos hmax

lemma exists_healthy_of_weight {servers : List Backend} (h : healthyWeight servers ≠ 0) :
    ∃ server ∈ servers, server.isHealthy := by
  by_contra hnone
  refine h ?_
  rw [healthyWeight, List.filter_eq_nil_iff.mpr fun server hserver hhealthy =>
    hnone ⟨server, hserver, hhealthy⟩]
  rfl

/-- Below the sum of the weights the search ends at a healthy backend. -/
lemma selectByWeight_spec {target : ℤ} {servers : List Backend}
    (hw : ∀ server ∈ servers, server.isHealthy → 0 ≤ server.weight) (p : ℕ) {current : ℤ}
    (hpos : 0 ≤ current)
    (hmax : current + healthyWeight servers ≤ intMax)
    (htarget : target < current + healthyWeight servers)
    (hex : ∃ server ∈ servers, server.isHealthy) :
    ∃ (k : ℕ) (server : Backend), selectByWeight target servers p current = .ok (some (p + k)) ∧
      servers[k]? = some server ∧ server.isHealthy := by
  induction servers generalizing p current with
  | nil => simp at hex
  | cons server servers ih =>
      have hrest := healthyWeight_nonneg fun b hb => hw b (List.mem_cons_of_mem _ hb)
      have hmin : intMin ≤ 0 := by decide
      have hw' : ∀ b ∈ servers, b.isHealthy → 0 ≤ b.weight := fun b hb =>
        hw b (List.mem_cons_of_mem _ hb)
      rw [healthyWeight_cons] at hmax htarget
      rw [selectByWeight]
      by_cases hhealthy : server.isHealthy
      · have hserver := hw server (List.mem_cons_self ..) hhealthy
        rw [if_pos hhealthy] at hmax htarget ⊢
        rw [add_of_le (by omega) (by omega)]
        show ∃ k b, (if target < current + server.weight then _ else _) = _ ∧ _
        by_cases hlt : target < current + server.weight
        · exact ⟨0, server, if_pos hlt, rfl, hhealthy⟩
        · have hnext : 0 ≤ current + server.weight := by omega
          obtain ⟨k, b, hsel, hb, hbh⟩ := ih hw' (p + 1) hnext (by omega) (by omega)
            (exists_healthy_of_weight (by omega))
          refine ⟨k + 1, b, ?_, hb, hbh⟩
          rw [if_neg hlt, hsel, Nat.add_assoc, Nat.add_comm 1]
      · rw [if_neg hhealthy, Int.zero_add] at hmax htarget
        rw [if_neg hhealthy]
        obtain ⟨b, hb, hbh⟩ := hex
        have hb' : b ∈ servers := (List.mem_cons.mp hb).resolve_left fun he =>
          hhealthy (he ▸ hbh)
        obtain ⟨k, b, hsel, hb, hbh⟩ := ih hw' (p + 1) hpos hmax htarget ⟨b, hb', hbh⟩
        refine ⟨k + 1, b, ?_, hb, hbh⟩
        rw [hsel, Nat.add_assoc, Nat.add_comm 1]

/-! ### Selections -/

/-- The backend selected is healthy, and there is one if a healthy backend has a
positive weight. -/
def SelectsHealthy (lb : LoadBalancer) (clientIp : Bytes) : Prop :=
  ∃ server lb', loadbalancerSelectBackend lb clientIp = .ok (server, lb') ∧
    (∀ p, server = some p → lb.healthyAt p = true) ∧
    ((∃ b ∈ lb.servers, b.isHealthy ∧ 0 < b.weight) → server ≠ none)

/-- Under the round robin and the hash some backend is healthy, and under the weighted
round robin the healthy backends' weights sum up to an `int`. -/
def LoadBalancer.Selectable (lb : LoadBalancer) : Prop :=
  match lb.algorithm with
  | .roundRobin | .ipHash => ∃ server ∈ lb.servers, server.isHealthy
  | .leastConnections => True
  | .weightedRr => healthyWeight lb.servers ≤ intMax

/-- No counter has come to its limit. -/
def LoadBalancer.BelowLimit (lb : LoadBalancer) : Prop :=
  lb.currentIndex < intMax ∧ ∀ server ∈ lb.servers, server.activeConnections < intMax ∧
    server.totalRequests < intMax ∧ server.failedRequests < intMax

instance (lb : LoadBalancer) : Decidable lb.BelowLimit := inferInstanceAs (Decidable (_ ∧ _))

section Selections

variable {lb : LoadBalancer} {clientIp : Bytes}

lemma loadbalancerSelectBackend_of_ok {server : Option BackendId} {lb₁ : LoadBalancer}
    (h : lbSelect lb clientIp = .ok (server, lb₁)) :
    loadbalancerSelectBackend lb clientIp = .ok (server, lb₁.update server Backend.select) := by
  rw [loadbalancerSelectBackend, h]
  rfl

/-- What the algorithm selects decides. -/
lemma selectsHealthy_of_ok {server : Option BackendId} {lb₁ : LoadBalancer}
    (h : lbSelect lb clientIp = .ok (server, lb₁)) :
    SelectsHealthy lb clientIp ↔ (∀ p, server = some p → lb.healthyAt p = true) ∧
      ((∃ b ∈ lb.servers, b.isHealthy ∧ 0 < b.weight) → server ≠ none) := by
  constructor
  · rintro ⟨server', lb', hsel, hhealthy, hsome⟩
    rw [loadbalancerSelectBackend_of_ok h, Except.ok.injEq, Prod.mk.injEq] at hsel
    obtain ⟨rfl, -⟩ := hsel
    exact ⟨hhealthy, hsome⟩
  · rintro ⟨hhealthy, hsome⟩
    exact ⟨server, _, loadbalancerSelectBackend_of_ok h, hhealthy, hsome⟩

lemma not_selectsHealthy_of_error {e : Fault} (h : lbSelect lb clientIp = .error e) :
    ¬ SelectsHealthy lb clientIp := by
  rintro ⟨server, lb', hsel, -⟩
  rw [loadbalancerSelectBackend, h] at hsel
  cases hsel

/-- The round robin selects a healthy backend just when there is one. -/
lemma roundRobin_selectsHealthy (hlen : lb.numServers = lb.servers.length)
    (hne : lb.servers ≠ []) (h : lbSelect lb clientIp = lbSelectRoundRobin lb) :
    SelectsHealthy lb clientIp ↔ ∃ server ∈ lb.servers, server.isHealthy := by
  obtain ⟨p, lb₁, hsel, hhealthy⟩ := lbSelectRoundRobin_spec hlen hne
  rw [selectsHealthy_of_ok (h.trans hsel)]
  constructor
  · rintro ⟨hp, -⟩
    obtain ⟨server, hserver, hh⟩ := healthyAt_iff.mp (hp p rfl)
    exact ⟨server, List.mem_of_getElem? hserver, hh⟩
  · intro hex
    refine ⟨fun q hq => ?_, fun _ => Option.some_ne_none p⟩
    obtain rfl := Option.some.inj hq
    exact hhealthy hex

/-- The hash selects its backend or what the round robin does. -/
lemma ipHash_selectsHealthy (hlen : lb.numServers = lb.servers.length)
    (hne : lb.servers ≠ []) (halg : lb.algorithm = .ipHash) :
    SelectsHealthy lb clientIp ↔ ∃ server ∈ lb.servers, server.isHealthy := by
  have hpos : 0 < lb.servers.length := List.length_pos_iff.mpr hne
  have hindex : ipHash clientIp % lb.numServers.toNat < lb.servers.length := by
    rw [hlen, Int.toNat_natCast]
    exact Nat.mod_lt _ hpos
  by_cases hhere : lb.healthyAt (ipHash clientIp % lb.numServers.toNat) = true
  · have hsel : lbSelect lb clientIp = .ok (some (ipHash clientIp % lb.numServers.toNat), lb) := by
      simp only [lbSelect, halg, lbSelectIpHash]
      rw [if_neg (by omega), if_neg (not_le.mpr hindex), if_pos hhere]
    obtain ⟨server, hserver, hh⟩ := healthyAt_iff.mp hhere
    rw [selectsHealthy_of_ok hsel]
    refine ⟨fun _ => ⟨server, List.mem_of_getElem? hserver, hh⟩, fun _ => ⟨fun q hq => ?_, ?_⟩⟩
    · rw [← Option.some.inj hq]
      exact hhere
    · exact fun _ => Option.some_ne_none _
  · refine roundRobin_selectsHealthy hlen hne ?_
    simp only [lbSelect, halg, lbSelectIpHash]
    rw [if_neg (by omega), if_neg (not_le.mpr hindex), if_neg hhere]

/-- The least connections are always those of a healthy backend. -/
lemma leastConnections_selectsHealthy (halg : lb.algorithm = .leastConnections)
    (hlimit : lb.BelowLimit) : SelectsHealthy lb clientIp := by
  obtain ⟨hfound, hsome⟩ := leastConnections_spec lb.servers 0 intMax none
  have hsel : lbSelect lb clientIp = .ok (lbSelectLeastConnections lb, lb) := by
    rw [lbSelect, halg]
  rw [selectsHealthy_of_ok hsel]
  refine ⟨fun p hp => ?_, fun hex => ?_⟩
  · rcases hfound p hp with h | ⟨k, server, hk, hserver, hh⟩
    · simp at h
    · rw [Nat.zero_add] at hk
      exact healthyAt_iff.mpr ⟨server, hk ▸ hserver, hh⟩
  · obtain ⟨b, hb, hhealthy, -⟩ := hex
    exact hsome (.inr ⟨b, hb, hhealthy, (hlimit.2 b hb).1⟩)

/-- The weighted round robin selects a healthy backend, if the weights have a sum. -/
lemma lbSelectWeightedRoundRobin_eq
    (hw : ∀ server ∈ lb.servers, server.isHealthy → 0 ≤ server.weight)
    (hne : healthyWeight lb.servers ≠ 0) (hle : healthyWeight lb.servers ≤ intMax) :
    ∃ (k : ℕ) (server : Backend), lbSelectWeightedRoundRobin lb =
        .ok (some k, lb.atIndex (incr lb.currentIndex)) ∧
      lb.servers[k]? = some server ∧ server.isHealthy := by
  have htotal := totalWeight_eq hw le_rfl (by decide)
  have hnonneg := healthyWeight_nonneg hw
  rw [Int.zero_add, if_pos hle] at htotal
  have htarget : lb.currentIndex.tmod (healthyWeight lb.servers) <
      0 + healthyWeight lb.servers := by
    rw [Int.zero_add]
    exact tmod_lt _ (by omega)
  obtain ⟨k, server, hselect, hserver, hh⟩ := selectByWeight_spec hw 0 le_rfl
    (by omega) htarget (exists_healthy_of_weight hne)
  rw [Nat.zero_add] at hselect
  refine ⟨k, server, ?_, hserver, hh⟩
  rw [lbSelectWeightedRoundRobin, htotal]
  show (if healthyWeight lb.servers = 0 then _ else _) = _
  rw [if_neg hne, rem_of_pos _ (by omega)]
  show (selectByWeight _ _ _ _ >>= _) = _
  rw [hselect]
  rfl

lemma lbSelectWeightedRoundRobin_overflow
    (hw : ∀ server ∈ lb.servers, server.isHealthy → 0 ≤ server.weight)
    (hlt : ¬ healthyWeight lb.servers ≤ intMax) :
    lbSelectWeightedRoundRobin lb = .error .overflow := by
  have htotal := totalWeight_eq hw le_rfl (by decide)
  rw [Int.zero_add, if_neg hlt] at htotal
  rw [lbSelectWeightedRoundRobin, htotal]
  rfl

/-- The weighted round robin selects a healthy backend just when it can sum up the weights. -/
lemma weightedRr_selectsHealthy (halg : lb.algorithm = .weightedRr)
    (hw : ∀ server ∈ lb.servers, server.isHealthy → 0 ≤ server.weight) :
    SelectsHealthy lb clientIp ↔ healthyWeight lb.servers ≤ intMax := by
  have hsel : lbSelect lb clientIp = lbSelectWeightedRoundRobin lb := by rw [lbSelect, halg]
  by_cases hle : healthyWeight lb.servers ≤ intMax
  · by_cases hzero : healthyWeight lb.servers = 0
    · have hnone : lbSelect lb clientIp = .ok (none, lb) := by
        have htotal := totalWeight_eq hw le_rfl (by decide)
        rw [Int.zero_add, if_pos hle] at htotal
        rw [hsel, lbSelectWeightedRoundRobin, htotal]
        exact if_pos hzero
      rw [selectsHealthy_of_ok hnone]
      refine ⟨fun _ => hle, fun _ => ⟨fun p hp => by simp at hp, fun hex => ?_⟩⟩
      obtain ⟨b, hb, hhealthy, hpos⟩ := hex
      have := weight_le_healthyWeight hw hb hhealthy
      omega
    · obtain ⟨k, server, hsome, hserver, hh⟩ := lbSelectWeightedRoundRobin_eq hw hzero hle
      rw [selectsHealthy_of_ok (hsel.trans hsome)]
      refine ⟨fun _ => hle, fun _ => ⟨fun p hp => ?_, fun _ => Option.some_ne_none k⟩⟩
      rw [← Option.some.inj hp]
      exact healthyAt_iff.mpr ⟨server, hserver, hh⟩
  · have herror := hsel.trans (lbSelectWeightedRoundRobin_overflow hw hle)
    exact ⟨fun h => absurd h (not_selectsHealthy_of_error herror), fun h => absurd h hle⟩

end Selections

/-- The list stays as long as `num_servers` says. -/
lemma reachable_length {lb₀ lb : LoadBalancer} {calls : List LbCall}
    {log : List (LbCall × LbReply)} (hinit : lb₀.Initial)
    (hrun : exec lbStep lb₀ calls = some (log, lb)) : lb.numServers = lb.servers.length := by
  refine exec_preserves lbStep (P := fun lb => lb.numServers = lb.servers.length)
    (fun lb call reply lb' hstep hlen => ?_) hrun hinit.1
  obtain ⟨-, hnum, hservers, -⟩ := lbStep_spec hstep
  rw [hnum, hservers, hlen]

/-- **Unhealthy backends leave rotation.** In every state reached from
`loadbalancer_init` with a server and no counter at its limit, the balancer selects
a healthy backend, and one if a healthy backend has a positive weight, exactly when
the state is `Selectable`. -/
theorem selectsHealthy_iff (config : LbConfig) (lbOk : Bool) (serverOk : ℕ → Bool) (now : ℕ → ℤ)
    (lb₀ lb : LoadBalancer) (calls : List LbCall) (log : List (LbCall × LbReply))
    (hinit : (loadbalancerInit config lbOk serverOk now).2 = some lb₀)
    (hrun : exec lbStep lb₀ calls = some (log, lb)) (hne : lb.servers ≠ [])
    (hlimit : lb.BelowLimit) (hw : ∀ server ∈ lb.servers, 0 ≤ server.weight) (clientIp : Bytes) :
    SelectsHealthy lb clientIp ↔ lb.Selectable := by
  have hlen := reachable_length (loadbalancerInit_initial hinit) hrun
  rw [LoadBalancer.Selectable]
  cases halg : lb.algorithm with
  | roundRobin => exact roundRobin_selectsHealthy hlen hne (by rw [lbSelect, halg])
  | leastConnections =>
      exact ⟨fun _ => trivial, fun _ => leastConnections_selectsHealthy halg hlimit⟩
  | ipHash => exact ipHash_selectsHealthy hlen hne halg
  | weightedRr => exact weightedRr_selectsHealthy halg fun server hserver _ => hw server hserver

/-- One of two backends fails a probe; the round robin goes on with the other one. -/
theorem selectsHealthy_iff_run :
    ∃ (lb₀ lb : LoadBalancer) (log : List (LbCall × LbReply)),
      (loadbalancerInit (twoBackends .roundRobin) true (fun _ => true) fun _ => 0).2 = some lb₀ ∧
      exec lbStep lb₀ [.runHealthChecks 30 fun p => p = 1] = some (log, lb) ∧
      lb.healthyAt 0 = false ∧ SelectsHealthy lb [] :=
  ⟨_, _, _, rfl, rfl, rfl, (selectsHealthy_iff (twoBackends .roundRobin) true (fun _ => true)
    (fun _ => 0) _ _ [.runHealthChecks 30 fun p => p = 1] _ rfl rfl (List.cons_ne_nil _ _)
    (by decide) (by decide) []).mpr ⟨_, .tail _ (.head _), rfl⟩⟩

/-- Both backends fail a probe; the round robin selects one of them all the same. -/
theorem unhealthy_selected :
    ∃ (lb₀ lb : LoadBalancer) (log : List (LbCall × LbReply)),
      (loadbalancerInit (twoBackends .roundRobin) true (fun _ => true) fun _ => 0).2 = some lb₀ ∧
      exec lbStep lb₀ [.runHealthChecks 30 fun _ => false] = some (log, lb) ∧
      lb.servers ≠ [] ∧ lb.BelowLimit ∧ (∀ server ∈ lb.servers, 0 ≤ server.weight) ∧
      (loadbalancerSelectBackend lb []).toOption.map Prod.fst = some (some 0) ∧
      lb.healthyAt 0 = false ∧ ¬ SelectsHealthy lb [] := by
  refine ⟨_, _, _, rfl, rfl, List.cons_ne_nil _ _, by decide, by decide, rfl, rfl, ?_⟩
  rintro ⟨server, lb', hsel, hhealthy, -⟩
  obtain ⟨rfl, -⟩ := Prod.mk.inj (Except.ok.inj hsel)
  exact absurd (hhealthy 0 rfl) (by decide)

end ProxyMax
