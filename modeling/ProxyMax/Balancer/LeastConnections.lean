import ProxyMax.Balancer.Selections

/-!
`lb_select_least_connections` of `src/core/loadbalancer.c`.

* `FirstLeast`: the first healthy backend with the least connections.
  `leastConnections_first` is the loop, `lbSelectLeastConnections_eq_some_iff` the selection.
* `Even`: the counts of the healthy backends are two neighbouring numbers.
  `select_even` is the step, `selects_even` the run.
-/

namespace ProxyMax

open CString CInt Machine

/-- The first of the healthy records with the least connections is `server`, at the
position `p`. -/
structure FirstLeast (servers : List Backend) (p : ℕ) (server : Backend) : Prop where
  at_p : servers[p]? = some server
  healthy : server.isHealthy
  least : ∀ (q : ℕ) (b : Backend), servers[q]? = some b → b.isHealthy →
    server.activeConnections ≤ b.activeConnections
  first : ∀ (q : ℕ) (b : Backend), servers[q]? = some b → b.isHealthy → q < p →
    server.activeConnections < b.activeConnections

namespace FirstLeast

variable {servers : List Backend} {server b : Backend} {p q : ℕ}

/-- There is one at most. -/
lemma unique (hp : FirstLeast servers p server) (hq : FirstLeast servers q b) : p = q := by
  have hle := hp.least q b hq.at_p hq.healthy
  have hle' := hq.least p server hp.at_p hp.healthy
  rcases lt_trichotomy p q with h | h | h
  · have := hq.first p server hp.at_p hp.healthy h
    omega
  · exact h
  · have := hp.first q b hq.at_p hq.healthy h
    omega

/-- A record with no fewer connections than the others may stand before them. -/
lemma cons_self (hhealthy : server.isHealthy)
    (hothers : ∀ b ∈ servers, b.isHealthy → server.activeConnections ≤ b.activeConnections) :
    FirstLeast (server :: servers) 0 server := by
  refine ⟨rfl, hhealthy, fun q c hc hch => ?_, fun q _ _ _ h => absurd h (Nat.not_lt_zero q)⟩
  rcases List.mem_cons.mp (List.mem_of_getElem? hc) with rfl | hmem
  · exact le_rfl
  · exact hothers c hmem hch

lemma cons (h : FirstLeast servers p b)
    (hmore : server.isHealthy → b.activeConnections < server.activeConnections) :
    FirstLeast (server :: servers) (p + 1) b := by
  refine ⟨h.at_p, h.healthy, fun q c hc hch => ?_, fun q c hc hch hq => ?_⟩
  · cases q with
    | zero =>
        obtain rfl : server = c := Option.some.inj hc
        exact (hmore hch).le
    | succ q => exact h.least q c hc hch
  · cases q with
    | zero =>
        obtain rfl : server = c := Option.some.inj hc
        exact hmore hch
    | succ q => exact h.first q c hc hch (by omega)

end FirstLeast

/-- **The loop**: it keeps what it had if no healthy record is below the bound, and
otherwise ends with the first of the least. -/
lemma leastConnections_first (servers : List Backend) (p : BackendId) (minConnections : ℤ)
    (selected : Option BackendId) :
    (leastConnections servers p minConnections selected = selected ∧
      ∀ b ∈ servers, b.isHealthy → minConnections ≤ b.activeConnections) ∨
    ∃ k server, leastConnections servers p minConnections selected = some (p + k) ∧
      FirstLeast servers k server ∧ server.activeConnections < minConnections := by
  induction servers generalizing p minConnections selected with
  | nil => exact .inl ⟨rfl, by simp⟩
  | cons server servers ih =>
      rw [leastConnections]
      split_ifs with hless
      · -- a new minimum, which stays or is undercut
        refine .inr ?_
        rcases ih (p + 1) server.activeConnections (some p) with
          ⟨heq, hothers⟩ | ⟨k, b, heq, hfirst, hlt⟩
        · exact ⟨0, server, heq, .cons_self hless.1 hothers, hless.2⟩
        · refine ⟨k + 1, b, ?_, hfirst.cons fun _ => hlt, hlt.trans hless.2⟩
          rw [heq, Nat.add_assoc, Nat.add_comm 1]
      · -- this record is unhealthy or not below the bound
        have hge : server.isHealthy → minConnections ≤ server.activeConnections := fun hhealthy =>
          not_lt.mp fun h => hless ⟨hhealthy, h⟩
        rcases ih (p + 1) minConnections selected with
          ⟨heq, hothers⟩ | ⟨k, b, heq, hfirst, hlt⟩
        · refine .inl ⟨heq, fun c hc hhealthy => ?_⟩
          rcases List.mem_cons.mp hc with rfl | hmem
          · exact hge hhealthy
          · exact hothers c hmem hhealthy
        · refine .inr ⟨k + 1, b, ?_, hfirst.cons fun hh => hlt.trans_le (hge hh), hlt⟩
          rw [heq, Nat.add_assoc, Nat.add_comm 1]

section Selection

variable {lb : LoadBalancer}

/-- What is selected, whatever the counts. -/
lemma lbSelectLeastConnections_cases (lb : LoadBalancer) :
    (lbSelectLeastConnections lb = none ∧
      ∀ b ∈ lb.servers, b.isHealthy → intMax ≤ b.activeConnections) ∨
    ∃ p server, lbSelectLeastConnections lb = some p ∧ FirstLeast lb.servers p server ∧
      server.activeConnections < intMax := by
  rcases leastConnections_first lb.servers 0 intMax none with h | ⟨k, server, heq, hfirst, hlt⟩
  · exact .inl h
  · rw [Nat.zero_add] at heq
    exact .inr ⟨k, server, heq, hfirst, hlt⟩

/-- Below `INT_MAX` the first of the least is selected. -/
lemma lbSelectLeastConnections_eq_some_iff
    (hmax : ∀ server ∈ lb.servers, server.activeConnections < intMax) (p : BackendId) :
    lbSelectLeastConnections lb = some p ↔ ∃ server, FirstLeast lb.servers p server := by
  rcases lbSelectLeastConnections_cases lb with ⟨heq, hall⟩ | ⟨q, server, heq, hfirst, -⟩
  · rw [heq]
    refine ⟨nofun, fun ⟨server, h⟩ => ?_⟩
    have hmem := List.mem_of_getElem? h.at_p
    exact absurd (hmax server hmem) (not_lt.mpr (hall server hmem h.healthy))
  · rw [heq]
    refine ⟨fun h => ?_, fun ⟨b, h⟩ => congrArg some (hfirst.unique h)⟩
    obtain rfl := Option.some.inj h
    exact ⟨server, hfirst⟩

lemma lbSelectLeastConnections_eq_none_iff
    (hmax : ∀ server ∈ lb.servers, server.activeConnections < intMax) :
    lbSelectLeastConnections lb = none ↔ ∀ server ∈ lb.servers, server.isHealthy = false := by
  rcases lbSelectLeastConnections_cases lb with ⟨heq, hall⟩ | ⟨q, server, heq, hfirst, -⟩
  · refine ⟨fun _ b hb => Bool.eq_false_iff.mpr fun hh => ?_, fun _ => heq⟩
    exact absurd (hmax b hb) (not_lt.mpr (hall b hb hh))
  · rw [heq]
    refine ⟨nofun, fun h => ?_⟩
    have hsick := h server (List.mem_of_getElem? hfirst.at_p)
    rw [hfirst.healthy] at hsick
    exact absurd hsick.symm Bool.false_ne_true

end Selection

/-! ### The balance over a run -/

/-- The counts of the healthy backends are `v` and `v + 1`. -/
def LoadBalancer.Even (lb : LoadBalancer) (v : ℤ) : Prop :=
  ∀ server ∈ lb.servers, server.isHealthy →
    v ≤ server.activeConnections ∧ server.activeConnections ≤ v + 1 ∧
      server.activeConnections ≤ intMax

section Run

variable {lb lb' : LoadBalancer}

lemma lbSelect_leastConnections (halg : lb.algorithm = .leastConnections) (clientIp : Bytes) :
    lbSelect lb clientIp = .ok (lbSelectLeastConnections lb, lb) := by
  rw [lbSelect, halg]

/-- **The step**: the backend selected is one of the lower ones, if there are two kinds. -/
lemma select_even {clientIp : Bytes} {reply : LbReply} {v : ℤ} (hmin : intMin ≤ v)
    (halg : lb.algorithm = .leastConnections) (heven : lb.Even v)
    (hstep : lbStep lb (.select clientIp) = some (reply, lb')) :
    ∃ v', intMin ≤ v' ∧ lb'.Even v' := by
  obtain ⟨-, server, rfl, hsel⟩ := select_sameHealth hstep
  rw [lbSelect_leastConnections halg, Except.ok.injEq, Prod.mk.injEq] at hsel
  obtain ⟨hsel, -⟩ := hsel
  have hspec := (lbStep_spec hstep).1
  -- a record after the selection
  have hafter : ∀ b' ∈ lb'.servers, ∃ (q : ℕ) (b : Backend), lb.servers[q]? = some b ∧
      b' = if server = some q then b.select else b := by
    intro b' hb'
    obtain ⟨q, hq⟩ := List.mem_iff_getElem?.mp hb'
    rw [hspec, Option.map_eq_some_iff] at hq
    obtain ⟨b, hb, rfl⟩ := hq
    exact ⟨q, b, hb, rfl⟩
  rcases lbSelectLeastConnections_cases lb with ⟨heq, -⟩ | ⟨p, first, heq, hfirst, hlt⟩
  · refine ⟨v, hmin, fun b' hb' hhealthy => ?_⟩
    obtain ⟨q, b, hb, rfl⟩ := hafter b' hb'
    rw [← hsel, heq] at hhealthy ⊢
    exact heven b (List.mem_of_getElem? hb) hhealthy
  · have hp := heven first (List.mem_of_getElem? hfirst.at_p) hfirst.healthy
    -- the new bound is the count of the backend selected
    refine ⟨first.activeConnections, by omega, fun b' hb' hhealthy => ?_⟩
    obtain ⟨q, b, hb, rfl⟩ := hafter b' hb'
    rw [← hsel, heq] at hhealthy ⊢
    split_ifs at hhealthy ⊢ with hq
    · obtain rfl := Option.some.inj hq
      obtain rfl := Option.some.inj (hfirst.at_p.symm.trans hb)
      have hincr : first.select.activeConnections = first.activeConnections + 1 :=
        incr_of_lt (by omega) hlt
      rw [hincr]
      omega
    · have hb' := heven b (List.mem_of_getElem? hb) hhealthy
      have hge := hfirst.least q b hb hhealthy
      omega

/-- **The run**. -/
lemma selects_even {clients : List Bytes} {log : List (LbCall × LbReply)} {v : ℤ}
    (hmin : intMin ≤ v) (halg : lb.algorithm = .leastConnections) (heven : lb.Even v)
    (hrun : exec lbStep lb (clients.map LbCall.select) = some (log, lb')) :
    ∃ v', lb'.Even v' := by
  induction clients generalizing lb log v with
  | nil =>
      rw [List.map_nil, exec_nil, Option.some.injEq, Prod.mk.injEq] at hrun
      exact ⟨v, hrun.2 ▸ heven⟩
  | cons client clients ih =>
      obtain ⟨reply, lb₁, log', hstep, hrest, -⟩ := exec_cons _ hrun
      obtain ⟨v', hmin', heven'⟩ := select_even hmin halg heven hstep
      exact ih hmin' ((lbStep_spec hstep).2.2.2.trans halg) heven' hrest

/-- **Least connections picks the minimum and keeps balance.** Where no count is at
`INT_MAX`, there is no selection exactly when no backend is healthy, and otherwise it is
the first healthy backend with the least connections. From equal counts on, every run of
selections leaves the counts of any two healthy backends at most one apart. -/
theorem leastConnections_balanced (lb : LoadBalancer)
    (hint : ∀ server ∈ lb.servers,
      intMin ≤ server.activeConnections ∧ server.activeConnections < intMax) :
    (lbSelectLeastConnections lb = none ↔ ∀ server ∈ lb.servers, server.isHealthy = false) ∧
    (∀ p, lbSelectLeastConnections lb = some p ↔ ∃ server, FirstLeast lb.servers p server) ∧
    (lb.algorithm = .leastConnections →
      (∀ b ∈ lb.servers, ∀ b' ∈ lb.servers, b.isHealthy → b'.isHealthy →
        b.activeConnections = b'.activeConnections) →
      ∀ clients : List Bytes, ∃ log lb',
        exec lbStep lb (clients.map LbCall.select) = some (log, lb') ∧ SameHealth lb lb' ∧
        ∀ b ∈ lb'.servers, ∀ b' ∈ lb'.servers, b.isHealthy → b'.isHealthy →
          |b.activeConnections - b'.activeConnections| ≤ 1) := by
  refine ⟨lbSelectLeastConnections_eq_none_iff fun b hb => (hint b hb).2,
    lbSelectLeastConnections_eq_some_iff fun b hb => (hint b hb).2,
    fun halg hequal clients => ?_⟩
  have hreturns : ∀ s, SameHealth lb s → ∀ clientIp, ∃ r, lbSelect s clientIp = .ok r :=
    fun s hs clientIp => ⟨_, lbSelect_leastConnections (hs.algorithm.trans halg) clientIp⟩
  obtain ⟨log, lb', hrun⟩ := exists_selects hreturns clients
  refine ⟨log, lb', hrun, (selects_sameHealth hrun).1, fun b hb b' hb' hh hh' => ?_⟩
  obtain ⟨v, hmin, heven⟩ : ∃ v, intMin ≤ v ∧ lb.Even v := by
    by_cases hex : ∃ server ∈ lb.servers, server.isHealthy
    · obtain ⟨server, hserver, hhealthy⟩ := hex
      refine ⟨server.activeConnections, (hint server hserver).1, fun c hc hch => ?_⟩
      have heq := hequal c hc server hserver hch hhealthy
      have hmax := (hint c hc).2
      omega
    · exact ⟨0, by decide, fun c hc hch => absurd ⟨c, hc, hch⟩ hex⟩
  obtain ⟨v', heven'⟩ := selects_even hmin halg heven hrun
  have hlow := heven' b hb hh
  have hhigh := heven' b' hb' hh'
  exact abs_le.mpr ⟨by omega, by omega⟩

/-- Two fresh backends: the first one is selected, and no run of selections gets out of
balance. -/
theorem leastConnections_balanced_two :
    ∃ lb : LoadBalancer,
      (loadbalancerInit (twoBackends .leastConnections) true (fun _ => true) fun _ => 0).2 =
        some lb ∧ (∃ server, FirstLeast lb.servers 0 server) ∧
      ∀ clients : List Bytes, ∃ log lb',
        exec lbStep lb (clients.map LbCall.select) = some (log, lb') ∧
        ∀ b ∈ lb'.servers, ∀ b' ∈ lb'.servers, b.isHealthy → b'.isHealthy →
          |b.activeConnections - b'.activeConnections| ≤ 1 := by
  refine ⟨_, rfl, ?_⟩
  obtain ⟨-, hfirst, hrun⟩ := leastConnections_balanced
    { servers := [newBackend (ascii "backend") 8080 1 0, newBackend (ascii "backend") 8080 1 0]
      numServers := 2, currentIndex := 0, algorithm := .leastConnections } (by decide)
  refine ⟨(hfirst 0).mp (by decide), fun clients => ?_⟩
  obtain ⟨log, lb', hexec, -, hbalance⟩ := hrun rfl (by decide) clients
  exact ⟨log, lb', hexec, hbalance⟩

end Run

end ProxyMax
