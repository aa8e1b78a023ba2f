import ProxyMax.Balancer.Selections
import ProxyMax.Lib.Shares

/-!
`lb_select_ip_hash` of `src/core/loadbalancer.c`: which clients stay with one backend.

* `hashedBackend`: the backend that the hash names for a client.
* `Affine`: all selections for a client, among those for any clients, are of one backend.
* `hashed_affine`, `single_affine`: two reasons for it; `second_selection` is why there
  is no other one (`healthy_unique`).
* `ip_hash_affinity`: a client stays with one backend, wherever the rotation is, exactly
  when the backend its hash names is healthy or the only healthy backend is.
-/

namespace ProxyMax

open CString CInt Machine Shares

/-- `hash % num_servers`. -/
def LoadBalancer.hashedBackend (lb : LoadBalancer) (clientIp : Bytes) : BackendId :=
  ipHash clientIp % lb.servers.length

/-- Any two selections for the client in a run of selections are of the same backend. -/
def Affine (lb : LoadBalancer) (clientIp : Bytes) : Prop :=
  ∀ (clients : List Bytes) log lb', exec lbStep lb (clients.map LbCall.select) = some (log, lb') →
    ∀ r r', (LbCall.select clientIp, LbReply.selected r) ∈ log →
      (LbCall.select clientIp, LbReply.selected r') ∈ log → r = r'

section Hash

variable {lb : LoadBalancer} {clientIp : Bytes}

lemma SameHealth.hashedBackend_eq {lb' : LoadBalancer} (h : SameHealth lb lb') (clientIp : Bytes) :
    lb'.hashedBackend clientIp = lb.hashedBackend clientIp := by
  rw [LoadBalancer.hashedBackend, LoadBalancer.hashedBackend, h.length_eq]

/-- The hash selects the backend it names, or what the round robin does. -/
lemma lbSelect_ipHash (halg : lb.algorithm = .ipHash) (hlen : lb.numServers = lb.servers.length)
    (hne : lb.servers ≠ []) :
    lbSelect lb clientIp =
      if lb.healthyAt (lb.hashedBackend clientIp) then .ok (some (lb.hashedBackend clientIp), lb)
      else lbSelectRoundRobin lb := by
  have hpos : 0 < lb.servers.length := List.length_pos_iff.mpr hne
  have hlt : lb.hashedBackend clientIp < lb.servers.length := Nat.mod_lt _ hpos
  have hindex : ipHash clientIp % lb.numServers.toNat = lb.hashedBackend clientIp := by
    rw [hlen, Int.toNat_natCast]
    rfl
  simp only [lbSelect, halg, lbSelectIpHash, hindex]
  rw [if_neg (by omega), if_neg (not_le.mpr hlt)]

/-- A selection is of a healthy backend, of the one the hash names if that is healthy. -/
lemma lbSelect_ipHash_healthy (halg : lb.algorithm = .ipHash)
    (hlen : lb.numServers = lb.servers.length) (hex : ∃ server ∈ lb.servers, server.isHealthy)
    {server : Option BackendId} {lb' : LoadBalancer}
    (hsel : lbSelect lb clientIp = .ok (server, lb')) :
    ∃ p, server = some p ∧ lb.healthyAt p = true ∧
      (lb.healthyAt (lb.hashedBackend clientIp) = true → p = lb.hashedBackend clientIp) := by
  rw [lbSelect_ipHash halg hlen (ne_nil_of_healthy hex)] at hsel
  split_ifs at hsel with hhere
  · obtain ⟨rfl, -⟩ := Prod.mk.inj (Except.ok.inj hsel)
    exact ⟨_, rfl, hhere, fun _ => rfl⟩
  · obtain ⟨k, -, heq, -, hat⟩ := lbSelectRoundRobin_eq hlen hex
    rw [heq] at hsel
    obtain ⟨rfl, -⟩ := Prod.mk.inj (Except.ok.inj hsel)
    exact ⟨_, rfl, hat, fun h => absurd h hhere⟩

/-- A run of selections by the hash: each is of a healthy backend. -/
lemma selects_ipHash (halg : lb.algorithm = .ipHash) (hlen : lb.numServers = lb.servers.length)
    (hex : ∃ server ∈ lb.servers, server.isHealthy) {clients : List Bytes}
    {log : List (LbCall × LbReply)} {lb' : LoadBalancer}
    (hrun : exec lbStep lb (clients.map LbCall.select) = some (log, lb')) {r : Option BackendId}
    (hmem : (LbCall.select clientIp, LbReply.selected r) ∈ log) :
    ∃ p, r = some p ∧ lb.healthyAt p = true ∧
      (lb.healthyAt (lb.hashedBackend clientIp) = true → p = lb.hashedBackend clientIp) := by
  obtain ⟨s, server, index, hs, hr, hsel⟩ := (selects_sameHealth hrun).2 clientIp _ hmem
  obtain rfl := LbReply.selected.inj hr
  obtain ⟨p, hp, hat, hhash⟩ := lbSelect_ipHash_healthy (hs.algorithm.trans halg)
    (hs.numServers_eq hlen) (hs.exists_healthy hex) hsel
  rw [hs.hashedBackend_eq, hs.healthyAt_eq] at hhash
  exact ⟨p, hp, (hs.healthyAt_eq p) ▸ hat, hhash⟩

/-- A client whose backend is healthy stays with it. -/
lemma hashed_affine (halg : lb.algorithm = .ipHash) (hlen : lb.numServers = lb.servers.length)
    (hex : ∃ server ∈ lb.servers, server.isHealthy)
    (hhash : lb.healthyAt (lb.hashedBackend clientIp) = true) : Affine lb clientIp := by
  intro clients log lb' hrun r r' hr hr'
  obtain ⟨p, rfl, -, hp⟩ := selects_ipHash halg hlen hex hrun hr
  obtain ⟨p', rfl, -, hp'⟩ := selects_ipHash halg hlen hex hrun hr'
  rw [hp hhash, hp' hhash]

/-- Where one backend is healthy, every client stays with it. -/
lemma single_affine (halg : lb.algorithm = .ipHash) (hlen : lb.numServers = lb.servers.length)
    (hex : ∃ server ∈ lb.servers, server.isHealthy)
    (hone : ∀ p q, lb.healthyAt p = true → lb.healthyAt q = true → p = q) :
    Affine lb clientIp := by
  intro clients log lb' hrun r r' hr hr'
  obtain ⟨p, rfl, hp, -⟩ := selects_ipHash halg hlen hex hrun hr
  obtain ⟨p', rfl, hp', -⟩ := selects_ipHash halg hlen hex hrun hr'
  rw [hone p p' hp hp']

/-- Two selections of the round robin one after the other, from the head of the list on,
are of one backend only where there is no other healthy one. -/
lemma second_selection {lb' : LoadBalancer} (hsame : SameHealth lb lb')
    (hlen : lb.numServers = lb.servers.length) (hint : lb.numServers ≤ intMax)
    (hex : ∃ server ∈ lb.servers, server.isHealthy) (hindex : lb.currentIndex = 0)
    {p : ℕ} {index index' : ℤ}
    (hfirst : lbSelectRoundRobin lb = .ok (some p, lb.atIndex index))
    (hnext : lb'.currentIndex = index)
    (hsecond : lbSelectRoundRobin lb' = .ok (some p, lb'.atIndex index')) :
    ∀ q : ℕ, lb.healthyAt q = true → q = p := by
  obtain ⟨k, hk, heq, -, -⟩ := lbSelectRoundRobin_eq hlen hex
  rw [lb.start_eq hindex, Nat.zero_mod, Nat.zero_add, Nat.mod_eq_of_lt hk, hindex] at heq
  rw [heq] at hfirst
  obtain ⟨hp, hlb⟩ := Prod.mk.inj (Except.ok.inj hfirst)
  obtain rfl := Option.some.inj hp
  have hcount : index = (k + 1 : ℕ) := by
    have hiterate : incr^[k + 1] 0 = index := congrArg LoadBalancer.currentIndex hlb
    rw [← hiterate, incr_iterate_of_le (by decide) (by push_cast; omega), Int.zero_add]
  obtain ⟨k', hk', heq', hbefore, -⟩ :=
    lbSelectRoundRobin_eq (hsame.numServers_eq hlen) (hsame.exists_healthy hex)
  rw [heq'] at hsecond
  obtain ⟨hp, -⟩ := Prod.mk.inj (Except.ok.inj hsecond)
  simp only [lb'.start_eq (hnext.trans hcount), hsame.length_eq, Nat.mod_add_mod] at hk' hp hbefore
  -- the circle is gone through before the same backend comes again
  have hround : k' = lb.servers.length - 1 := steps_of_return hk hk' (Option.some.inj hp)
  intro q hq
  by_contra hne
  have hqlt : q < lb.servers.length := by
    by_contra hge
    rw [LoadBalancer.healthyAt, List.getElem?_eq_none (not_lt.mp hge)] at hq
    simp at hq
  -- the steps from the backend selected to `q`
  obtain ⟨j, hj, hjq⟩ := exists_steps hk hqlt hne
  have hunhealthy := hbefore j (hround ▸ hj)
  rw [hjq, hsame.healthyAt_eq, hq] at hunhealthy
  exact Bool.false_ne_true hunhealthy.symm

/-- Every selection by the hash returns. -/
lemma lbSelect_ipHash_returns (halg : lb.algorithm = .ipHash)
    (hlen : lb.numServers = lb.servers.length) (hex : ∃ server ∈ lb.servers, server.isHealthy)
    (clientIp : Bytes) : ∃ r, lbSelect lb clientIp = .ok r := by
  rw [lbSelect_ipHash halg hlen (ne_nil_of_healthy hex)]
  split_ifs
  · exact ⟨_, rfl⟩
  · obtain ⟨k, -, heq, -⟩ := lbSelectRoundRobin_eq hlen hex
    exact ⟨_, heq⟩

/-- Where the backend of a client is not healthy, the client is affine, from the head of
the list on, only if one backend is healthy. -/
lemma healthy_unique (halg : lb.algorithm = .ipHash) (hlen : lb.numServers = lb.servers.length)
    (hint : lb.numServers ≤ intMax) (hex : ∃ server ∈ lb.servers, server.isHealthy)
    (hindex : lb.currentIndex = 0) (hhash : ¬ lb.healthyAt (lb.hashedBackend clientIp) = true)
    (haffine : Affine lb clientIp) :
    ∃ p : ℕ, ∀ q : ℕ, lb.healthyAt q = true → q = p := by
  have hrobin : ∀ s, SameHealth lb s → lbSelect s clientIp = lbSelectRoundRobin s := by
    intro s hs
    rw [lbSelect_ipHash (hs.algorithm.trans halg) (hs.numServers_eq hlen)
      (ne_nil_of_healthy (hs.exists_healthy hex)), hs.hashedBackend_eq, hs.healthyAt_eq,
      if_neg hhash]
  -- the client is the only one to select, twice
  obtain ⟨log, lb₂, hrun⟩ := exists_selects (fun s hs ip => lbSelect_ipHash_returns
    (hs.algorithm.trans halg) (hs.numServers_eq hlen) (hs.exists_healthy hex) ip)
    [clientIp, clientIp]
  rw [List.map_cons, List.map_cons, List.map_nil] at hrun
  obtain ⟨reply₁, lb₁, log', hstep₁, hrest, rfl⟩ := exec_cons _ hrun
  obtain ⟨reply₂, _, log'', hstep₂, hend, rfl⟩ := exec_cons _ hrest
  rw [exec_nil, Option.some.injEq, Prod.mk.injEq] at hend
  obtain ⟨rfl, rfl⟩ := hend
  obtain ⟨hsame₁, server₁, rfl, hsel₁⟩ := select_sameHealth hstep₁
  obtain ⟨-, server₂, rfl, hsel₂⟩ := select_sameHealth hstep₂
  have hequal : server₁ = server₂ :=
    haffine [clientIp, clientIp] _ _ hrun _ _ (by simp) (by simp)
  rw [hrobin lb (.refl lb)] at hsel₁
  rw [hrobin lb₁ hsame₁, ← hequal] at hsel₂
  obtain ⟨k, -, heq, -⟩ := lbSelectRoundRobin_eq hlen hex
  have hsome : server₁ = some ((lb.start + k) % lb.servers.length) :=
    (Prod.mk.inj (Except.ok.inj (hsel₁.symm.trans heq))).1
  rw [hsome] at hsel₁ hsel₂
  exact ⟨_, second_selection hsame₁ hlen hint hex hindex hsel₁ rfl hsel₂⟩

end Hash

/-- **IP-hash affinity.** With the hash, a client stays with one backend, wherever the
rotation is, if and only if the backend that its hash names is healthy, or only one
backend is. -/
theorem ip_hash_affinity (lb : LoadBalancer) (halg : lb.algorithm = .ipHash)
    (hlen : lb.numServers = lb.servers.length) (hint : lb.numServers ≤ intMax)
    (hex : ∃ server ∈ lb.servers, server.isHealthy) (clientIp : Bytes) :
    (∀ index, Affine (lb.atIndex index) clientIp) ↔
      lb.healthyAt (lb.hashedBackend clientIp) = true ∨
        ∀ p q, lb.healthyAt p = true → lb.healthyAt q = true → p = q := by
  constructor
  · intro haffine
    by_contra hcon
    obtain ⟨hhash, hmore⟩ := not_or.mp hcon
    obtain ⟨p, honly⟩ := @healthy_unique (lb.atIndex 0) _ halg hlen hint hex rfl hhash
      (haffine 0)
    exact hmore fun q q' hq hq' => (honly q hq).trans (honly q' hq').symm
  · rintro (hhash | hone) index
    · exact hashed_affine halg hlen hex hhash
    · exact single_affine halg hlen hex hone

/-- The backend of a client fails a probe, and one other backend is left: the client
stays with that. -/
theorem ip_hash_affinity_run :
    ∃ (lb₀ lb : LoadBalancer) (log : List (LbCall × LbReply)),
      (loadbalancerInit (twoBackends .ipHash) true (fun _ => true) fun _ => 0).2 = some lb₀ ∧
      exec lbStep lb₀ [.runHealthChecks 30 fun p => p = 0] = some (log, lb) ∧
      lb.healthyAt (lb.hashedBackend (ascii "10.0.0.1")) = false ∧
      ∀ index, Affine (lb.atIndex index) (ascii "10.0.0.1") := by
  refine ⟨_, _, _, rfl, rfl, rfl, ?_⟩
  refine (ip_hash_affinity _ rfl rfl (by decide) (exists_healthy_iff.mpr ⟨0, by decide, rfl⟩)
    (ascii "10.0.0.1")).mpr (.inr ?_)
  intro p q hp hq
  match p, q with
  | 0, 0 => rfl
  | 1, _ => exact absurd hp Bool.false_ne_true
  | _ + 2, _ => exact absurd hp Bool.false_ne_true
  | 0, 1 => exact absurd hq Bool.false_ne_true
  | 0, _ + 2 => exact absurd hq Bool.false_ne_true

/-- The backend of a client fails a probe, and two other backends are left: the client
goes from one to the other. -/
theorem not_affine :
    ∃ (lb₀ lb : LoadBalancer) (log : List (LbCall × LbReply)),
      (loadbalancerInit { twoBackends .ipHash with numBackends := 3 } true (fun _ => true)
        fun _ => 0).2 = some lb₀ ∧
      exec lbStep lb₀ [.runHealthChecks 30 fun p => p ≠ 1] = some (log, lb) ∧
      lb.algorithm = .ipHash ∧ (∃ server ∈ lb.servers, server.isHealthy) ∧
      ¬ Affine lb (ascii "10.0.0.1") := by
  refine ⟨_, _, _, rfl, rfl, rfl, ⟨_, List.mem_cons_self, rfl⟩, fun h => ?_⟩
  have heq := h [ascii "10.0.0.1", ascii "10.0.0.1"] _ _ rfl (some 0) (some 2)
    List.mem_cons_self (.tail _ List.mem_cons_self)
  exact absurd heq (by decide)

end ProxyMax
