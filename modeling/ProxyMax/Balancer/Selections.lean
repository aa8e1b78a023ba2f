import ProxyMax.Balancer.Rotation

/-!
Selections one after the other, while no backend changes its health.

* `SameHealth`: the states of such a run; `select_sameHealth` is its step and
  `selects_sameHealth` its run.
* `walk_eq`, `skipUnhealthy_eq`, `lbSelectRoundRobin_eq`: where the round robin goes,
  as positions in a circle.
* `exists_selects`: the run exists.
-/

namespace ProxyMax

open CString CInt Machine

/-- The same backends, as far as a selection goes: as many of them, with the same
health and the same weights. -/
structure SameHealth (lb lb' : LoadBalancer) : Prop where
  numServers : lb'.numServers = lb.numServers
  algorithm : lb'.algorithm = lb.algorithm
  servers : lb'.servers.map (fun b => (b.isHealthy, b.weight)) =
    lb.servers.map fun b => (b.isHealthy, b.weight)

namespace SameHealth

variable {lb lb' lb'' : LoadBalancer}

lemma refl (lb : LoadBalancer) : SameHealth lb lb := ⟨rfl, rfl, rfl⟩

lemma trans (h : SameHealth lb lb') (h' : SameHealth lb' lb'') : SameHealth lb lb'' :=
  ⟨h'.numServers.trans h.numServers, h'.algorithm.trans h.algorithm, h'.servers.trans h.servers⟩

lemma length_eq (h : SameHealth lb lb') : lb'.servers.length = lb.servers.length := by
  simpa using congrArg List.length h.servers

lemma healthyAt_eq (h : SameHealth lb lb') (p : BackendId) :
    lb'.healthyAt p = lb.healthyAt p := by
  have hp := congrArg (fun l => l[p]?.map Prod.fst) h.servers
  simp only [List.getElem?_map, Option.map_map, Function.comp_def] at hp
  rw [LoadBalancer.healthyAt, LoadBalancer.healthyAt]
  cases hs : lb.servers[p]? <;> cases hs' : lb'.servers[p]? <;> simp_all

lemma numServers_eq (h : SameHealth lb lb') (hlen : lb.numServers = lb.servers.length) :
    lb'.numServers = lb'.servers.length := by
  rw [h.numServers, h.length_eq, hlen]

lemma exists_healthy (h : SameHealth lb lb') (hex : ∃ server ∈ lb.servers, server.isHealthy) :
    ∃ server ∈ lb'.servers, server.isHealthy := by
  obtain ⟨p, hp, hhealthy⟩ := exists_healthy_iff.mp hex
  exact exists_healthy_iff.mpr ⟨p, h.length_eq ▸ hp, (h.healthyAt_eq p).trans hhealthy⟩

lemma healthyWeight_eq (h : SameHealth lb lb') :
    healthyWeight lb'.servers = healthyWeight lb.servers := by
  have hsum : ∀ servers : List Backend, healthyWeight servers =
      (((servers.map fun b => (b.isHealthy, b.weight)).filter Prod.fst).map Prod.snd).sum := by
    intro servers
    rw [healthyWeight, List.filter_map, List.map_map]
    rfl
  rw [hsum, hsum, h.servers]

end SameHealth

/-- A write that leaves the health and the weights. -/
lemma update_sameHealth (lb : LoadBalancer) (server : Option BackendId) {f : Backend → Backend}
    (hf : ∀ b, (f b).isHealthy = b.isHealthy ∧ (f b).weight = b.weight) :
    SameHealth lb (lb.update server f) := by
  obtain ⟨hnum, -, halg⟩ := update_frame lb server f
  refine ⟨hnum, halg, List.ext_getElem? fun p => ?_⟩
  rw [List.getElem?_map, List.getElem?_map, update_getElem?, Option.map_map]
  congr 1
  funext b
  simp only [Function.comp_apply]
  split_ifs
  · rw [(hf b).1, (hf b).2]
  · rfl

/-- **The step**: a selection changes the index and the counts of the backend selected. -/
lemma select_sameHealth {lb lb' : LoadBalancer} {clientIp : Bytes} {reply : LbReply}
    (hstep : lbStep lb (.select clientIp) = some (reply, lb')) :
    SameHealth lb lb' ∧ ∃ server, reply = .selected server ∧
      lbSelect lb clientIp = .ok (server, lb.atIndex lb'.currentIndex) := by
  obtain ⟨server, rfl, hsel⟩ := lbStep_select hstep
  obtain ⟨index, hindex, rfl⟩ := loadbalancerSelectBackend_frame hsel
  have hsame : SameHealth lb (lb.atIndex index) := ⟨rfl, rfl, rfl⟩
  refine ⟨hsame.trans (update_sameHealth _ server fun b => ⟨rfl, rfl⟩), server, rfl, ?_⟩
  have hcurrent : ((lb.atIndex index).update server Backend.select).currentIndex = index := by
    cases server <;> rfl
  rw [hcurrent, hindex]

/-- **The run**: every selection is made among the same backends. -/
lemma selects_sameHealth {lb₀ lb : LoadBalancer} {clients : List Bytes}
    {log : List (LbCall × LbReply)}
    (hrun : exec lbStep lb₀ (clients.map LbCall.select) = some (log, lb)) :
    SameHealth lb₀ lb ∧ ∀ clientIp r, (LbCall.select clientIp, r) ∈ log →
      ∃ s server index, SameHealth lb₀ s ∧ r = .selected server ∧
        lbSelect s clientIp = .ok (server, s.atIndex index) := by
  induction clients generalizing lb₀ log with
  | nil =>
      rw [List.map_nil, exec_nil, Option.some.injEq, Prod.mk.injEq] at hrun
      obtain ⟨rfl, rfl⟩ := hrun
      exact ⟨.refl _, fun _ _ h => absurd h List.not_mem_nil⟩
  | cons client clients ih =>
      obtain ⟨reply, lb₁, log', hstep, hrest, rfl⟩ := exec_cons _ hrun
      obtain ⟨hsame, server, hreply, hsel⟩ := select_sameHealth hstep
      obtain ⟨hsame', hlog⟩ := ih hrest
      refine ⟨hsame.trans hsame', fun clientIp r hmem => ?_⟩
      rcases List.mem_cons.mp hmem with he | hmem
      · obtain ⟨hcall, rfl⟩ := Prod.mk.inj he
        obtain rfl := LbCall.select.inj hcall
        exact ⟨lb₀, server, _, .refl _, hreply, hsel⟩
      · obtain ⟨s, server, index, hs, hr⟩ := hlog clientIp r hmem
        exact ⟨s, server, index, hsame.trans hs, hr⟩

/-! ### The round robin as a walk in a circle -/

section Circle

variable {lb : LoadBalancer}

lemma walk_eq (steps : ℕ) {p : ℕ} (hp : p < lb.servers.length) :
    lb.walk steps p = (p + steps) % lb.servers.length := by
  induction steps generalizing p with
  | zero => rw [Nat.add_zero, Nat.mod_eq_of_lt hp]; rfl
  | succ steps ih =>
      rw [LoadBalancer.walk, ih (nextOrFirst_lt hp), nextOrFirst_eq hp, Nat.mod_add_mod]
      congr 1
      omega

/-- The skipping stops at the first healthy backend, or when its attempts are used up. -/
lemma skipUnhealthy_eq (attempts : ℕ) {p : ℕ} (hp : p < lb.servers.length) (index : ℤ) :
    ∃ k ≤ attempts, lb.skipUnhealthy attempts p index =
        ((p + k) % lb.servers.length, incr^[k] index) ∧
      (∀ j < k, lb.healthyAt ((p + j) % lb.servers.length) = false) ∧
      (k < attempts → lb.healthyAt ((p + k) % lb.servers.length) = true) := by
  induction attempts generalizing p index with
  | zero =>
      exact ⟨0, le_rfl, by simp [LoadBalancer.skipUnhealthy, Nat.mod_eq_of_lt hp], by simp,
        by simp⟩
  | succ attempts ih =>
      rw [LoadBalancer.skipUnhealthy]
      split_ifs with hhere
      · refine ⟨0, Nat.zero_le _, ?_, by simp, fun _ => ?_⟩ <;>
          simp [Nat.mod_eq_of_lt hp, hhere]
      · obtain ⟨k, hk, heq, hbefore, hat⟩ := ih (nextOrFirst_lt hp) (incr index)
        have hshift : ∀ j, (lb.nextOrFirst p + j) % lb.servers.length =
            (p + (j + 1)) % lb.servers.length := fun j => by
          rw [nextOrFirst_eq hp, Nat.mod_add_mod]
          congr 1
          omega
        refine ⟨k + 1, by omega, ?_, fun j hj => ?_, fun hlt => ?_⟩
        · rw [heq, hshift]
          rfl
        · cases j with
          | zero =>
              rw [Nat.add_zero, Nat.mod_eq_of_lt hp]
              exact Bool.eq_false_iff.mpr hhere
          | succ j =>
              rw [← hshift]
              exact hbefore j (by omega)
        · rw [← hshift]
          exact hat (by omega)

lemma ne_nil_of_healthy (hex : ∃ server ∈ lb.servers, server.isHealthy) : lb.servers ≠ [] := by
  obtain ⟨server, hmem, -⟩ := hex
  exact List.ne_nil_of_mem hmem

/-- A position within a number of attempts, if some backend is healthy. -/
lemma exists_healthy_within (hex : ∃ server ∈ lb.servers, server.isHealthy) (p : ℕ) :
    ∃ k < lb.servers.length, lb.healthyAt ((p + k) % lb.servers.length) = true := by
  obtain ⟨q, hq, hhealthy⟩ := exists_healthy_iff.mp hex
  have hpos : 0 < lb.servers.length := by omega
  have hp := Nat.mod_lt p hpos
  refine ⟨(q + (lb.servers.length - p % lb.servers.length)) % lb.servers.length,
    Nat.mod_lt _ hpos, ?_⟩
  rw [Nat.add_mod_mod, ← Nat.mod_add_mod]
  have hround : p % lb.servers.length + (q + (lb.servers.length - p % lb.servers.length)) =
      q + lb.servers.length := by omega
  rw [hround, Nat.add_mod_right, Nat.mod_eq_of_lt hq]
  exact hhealthy

/-- Where the round robin begins. -/
def LoadBalancer.start (lb : LoadBalancer) : ℕ :=
  (lb.currentIndex.tmod lb.servers.length).toNat % lb.servers.length

/-- An index that is not negative counts places of the circle. -/
lemma LoadBalancer.start_eq {c : ℕ} (h : lb.currentIndex = c) :
    lb.start = c % lb.servers.length := by
  rw [LoadBalancer.start, h, ← Int.ofNat_tmod, Int.toNat_natCast, Nat.mod_mod]

/-- **The round robin**: it selects the first healthy backend from its start on, and the
index counts the backends it has looked at. -/
lemma lbSelectRoundRobin_eq (hlen : lb.numServers = lb.servers.length)
    (hex : ∃ server ∈ lb.servers, server.isHealthy) :
    ∃ k < lb.servers.length, lbSelectRoundRobin lb =
        .ok (some ((lb.start + k) % lb.servers.length), lb.atIndex (incr^[k + 1] lb.currentIndex)) ∧
      (∀ j < k, lb.healthyAt ((lb.start + j) % lb.servers.length) = false) ∧
      lb.healthyAt ((lb.start + k) % lb.servers.length) = true := by
  have hne := ne_nil_of_healthy hex
  have hpos : 0 < lb.servers.length := List.length_pos_iff.mpr hne
  have hstart : lb.start < lb.servers.length := Nat.mod_lt _ hpos
  have hwalk : lb.walk (lb.currentIndex.tmod lb.numServers).toNat 0 = lb.start := by
    rw [walk_eq _ hpos, Nat.zero_add, hlen]
    rfl
  obtain ⟨k, hk, heq, hbefore, hat⟩ :=
    skipUnhealthy_eq lb.numServers.toNat hstart (incr lb.currentIndex)
  obtain ⟨j, hj, hhealthy⟩ := exists_healthy_within hex lb.start
  rw [hlen, Int.toNat_natCast] at hk hat
  have hkj : k ≤ j := by
    by_contra hlt
    rw [hbefore j (by omega)] at hhealthy
    exact Bool.false_ne_true hhealthy
  refine ⟨k, by omega, ?_, hbefore, hat (by omega)⟩
  rw [lbSelectRoundRobin, rem_of_pos lb.currentIndex (b := lb.numServers) (by omega)]
  show (if lb.servers = [] then _ else _) = _
  rw [if_neg hne]
  show Except.ok _ = _
  rw [hwalk, heq]
  rfl

end Circle

/-- **The run exists** where every selection returns. -/
lemma exists_selects {lb₀ : LoadBalancer}
    (hret : ∀ lb, SameHealth lb₀ lb → ∀ clientIp, ∃ r, lbSelect lb clientIp = .ok r)
    (clients : List Bytes) :
    ∃ log lb, exec lbStep lb₀ (clients.map LbCall.select) = some (log, lb) := by
  induction clients generalizing lb₀ with
  | nil => exact ⟨[], lb₀, rfl⟩
  | cons client clients ih =>
      obtain ⟨⟨server, lb₁⟩, hsel⟩ := hret lb₀ (.refl _) client
      have hstep : lbStep lb₀ (.select client) =
          some (.selected server, lb₁.update server Backend.select) := by
        rw [lbStep, loadbalancerSelectBackend_of_ok hsel]
      have hsame := (select_sameHealth hstep).1
      obtain ⟨log, lb, hrest⟩ := ih fun lb hlb => hret lb (hsame.trans hlb)
      exact ⟨_, lb, by rw [List.map_cons, exec, hstep, Option.bind_some, hrest]; rfl⟩

end ProxyMax
