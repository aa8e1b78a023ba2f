import ProxyMax.Balancer.Selections
import ProxyMax.Lib.Shares

/-!
`lb_select_round_robin` and `lb_select_weighted_round_robin` of
`src/core/loadbalancer.c` over a full cycle.

* `Calls`: consecutive calls of a selection, between which the counts of the records may
  change, but neither their health nor the index.
* `roundRobin_call`: one call goes to the next healthy backend of the circle;
  `roundRobin_cycle`: as many calls as there are healthy backends visit each once.
* `selectByWeight_owner`: the weighted round robin selects the owner of its target, where
  each healthy backend owns as many targets as its weight;
  `weightedRoundRobin_cycle`: a full period is shared by the weights.
-/

namespace ProxyMax

open CString CInt Shares

/-- The states before and after `m` consecutive calls of a selection. -/
structure Calls (select : LoadBalancer → Except Fault (Option BackendId × LoadBalancer)) (m : ℕ)
    (states : ℕ → LoadBalancer) : Prop where
  sameHealth : ∀ i ≤ m, SameHealth (states 0) (states i)
  index : ∀ i < m, ∀ server lb, select (states i) = .ok (server, lb) →
    (states (i + 1)).currentIndex = lb.currentIndex

/-- What the calls return. -/
def selections (select : LoadBalancer → Except Fault (Option BackendId × LoadBalancer)) (m : ℕ)
    (states : ℕ → LoadBalancer) : List (Except Fault (Option BackendId)) :=
  (List.range m).map fun i => (select (states i)).map Prod.fst

section Calls

variable {select : LoadBalancer → Except Fault (Option BackendId × LoadBalancer)} {m : ℕ}
  {states : ℕ → LoadBalancer}

/-- The calls after the first one. -/
lemma Calls.tail (h : Calls select (m + 1) states) :
    Calls select m fun i => states (i + 1) := by
  refine ⟨fun i hi => ?_, fun i hi => h.index (i + 1) (by omega)⟩
  have hfirst := h.sameHealth 1 (by omega)
  have hlater := h.sameHealth (i + 1) (by omega)
  exact ⟨hlater.numServers.trans hfirst.numServers.symm,
    hlater.algorithm.trans hfirst.algorithm.symm, hlater.servers.trans hfirst.servers.symm⟩

lemma selections_succ :
    selections select (m + 1) states =
      (select (states 0)).map Prod.fst :: selections select m fun i => states (i + 1) := by
  rw [selections, List.range_succ_eq_map, List.map_cons, List.map_map]
  rfl

/-- The state after one call. -/
def afterCall (select : LoadBalancer → Except Fault (Option BackendId × LoadBalancer))
    (lb : LoadBalancer) : LoadBalancer :=
  ((select lb).toOption.map Prod.snd).getD lb

/-- Calls with nothing between them are consecutive calls. -/
lemma calls_afterCall
    (hframe : ∀ {lb lb' : LoadBalancer} {server : Option BackendId},
      select lb = .ok (server, lb') → ∃ index, lb' = lb.atIndex index)
    (lb : LoadBalancer) (m : ℕ) : Calls select m fun i => (afterCall select)^[i] lb := by
  have hstep : ∀ lb, SameHealth lb (afterCall select lb) := by
    intro lb
    rw [afterCall]
    cases hcall : select lb with
    | error e => exact .refl lb
    | ok r =>
        obtain ⟨index, hindex⟩ := hframe hcall
        show SameHealth lb r.2
        rw [hindex]
        exact ⟨rfl, rfl, rfl⟩
  have hrun : ∀ i, SameHealth lb ((afterCall select)^[i] lb) := by
    intro i
    induction i with
    | zero => exact .refl lb
    | succ i ih =>
        rw [Function.iterate_succ_apply']
        exact ih.trans (hstep _)
  refine ⟨fun i _ => hrun i, fun i _ server lb' hcall => ?_⟩
  rw [Function.iterate_succ_apply', afterCall, hcall]
  rfl

/-- Four backends of unequal weights, one of them unhealthy. -/
def unevenBackends : LoadBalancer where
  servers := [newBackend (ascii "a") 80 2 0,
    { newBackend (ascii "b") 80 5 0 with isHealthy := false },
    newBackend (ascii "c") 80 0 0, newBackend (ascii "d") 80 1 0]
  numServers := 4
  currentIndex := 1
  algorithm := .weightedRr

end Calls

/-! ### The round robin -/

section RoundRobin

variable {lb : LoadBalancer}

/-- The position `j` places after the place `c` of the circle. -/
def LoadBalancer.place (lb : LoadBalancer) (c j : ℕ) : BackendId := (c + j) % lb.servers.length

/-- **One call**: from an index that has passed `d` places since `c`, with none but
unhealthy backends up to the healthy one at the place `e`, this one is selected and
passed. -/
lemma roundRobin_call (hlen : lb.numServers = lb.servers.length) {c d e : ℕ} (hde : d ≤ e)
    (hindex : lb.currentIndex = (c + d : ℕ)) (hmax : ((c + e : ℕ) : ℤ) < intMax)
    (hskip : ∀ j, d ≤ j → j < e → lb.healthyAt (lb.place c j) = false)
    (hhealthy : lb.healthyAt (lb.place c e) = true) :
    lbSelectRoundRobin lb = .ok (some (lb.place c e), lb.atIndex (c + (e + 1) : ℕ)) := by
  have hlt : lb.place c e < lb.servers.length := by
    obtain ⟨server, hserver, -⟩ := healthyAt_iff.mp hhealthy
    exact (List.getElem?_eq_some_iff.mp hserver).1
  have hex := exists_healthy_iff.mpr ⟨_, hlt, hhealthy⟩
  have hstart : ∀ k, (lb.start + k) % lb.servers.length = lb.place c (d + k) := by
    intro k
    rw [lb.start_eq hindex, Nat.mod_add_mod, LoadBalancer.place, Nat.add_assoc]
  obtain ⟨k, -, heq, hbefore, hat⟩ := lbSelectRoundRobin_eq hlen hex
  simp only [hstart] at heq hbefore hat
  -- the first healthy backend from the start on is the one at the place `e`
  have hk : d + k = e := by
    rcases lt_trichotomy (d + k) e with h | h | h
    · rw [hskip _ (by omega) h] at hat
      exact absurd hat Bool.false_ne_true
    · exact h
    · have hfirst := hbefore (e - d) (by omega)
      rw [show d + (e - d) = e by omega, hhealthy] at hfirst
      exact absurd hfirst.symm Bool.false_ne_true
  have hmin : intMin ≤ 0 := by decide
  have hincr : incr^[k + 1] lb.currentIndex = (c + (e + 1) : ℕ) := by
    push_cast at hmax
    rw [hindex, incr_iterate_of_le (by omega) (by push_cast; omega)]
    push_cast
    omega
  rw [heq, hk, hincr]

/-- The healthy ones of `r` places, from the place `e` on. -/
def LoadBalancer.healthyPlaces (lb : LoadBalancer) (c e r : ℕ) : List ℕ :=
  (List.range' e r).filter fun j => lb.healthyAt (lb.place c j)

lemma healthyPlaces_succ (c e r : ℕ) :
    lb.healthyPlaces c e (r + 1) =
      if lb.healthyAt (lb.place c e) then e :: lb.healthyPlaces c (e + 1) r
      else lb.healthyPlaces c (e + 1) r := by
  rw [LoadBalancer.healthyPlaces, List.range'_succ, List.filter_cons]
  rfl

/-- **The calls of a cycle**: those that are left when `d` places have been passed and the
backends up to the place `e` are unhealthy. -/
lemma roundRobin_calls {states : ℕ → LoadBalancer} {c d e : ℕ} (r : ℕ)
    (hcalls : Calls lbSelectRoundRobin (lb.healthyPlaces c e r).length states)
    (hsame : SameHealth lb (states 0)) (hlen : lb.numServers = lb.servers.length) (hde : d ≤ e)
    (hindex : (states 0).currentIndex = (c + d : ℕ))
    (hmax : ∀ j, e ≤ j → j < e + r → lb.healthyAt (lb.place c j) = true →
      ((c + j : ℕ) : ℤ) < intMax)
    (hskip : ∀ j, d ≤ j → j < e → lb.healthyAt (lb.place c j) = false) :
    selections lbSelectRoundRobin (lb.healthyPlaces c e r).length states =
      (lb.healthyPlaces c e r).map fun j => .ok (some (lb.place c j)) := by
  induction r generalizing states d e with
  | zero => rfl
  | succ r ih =>
      have hplace : ∀ j, (states 0).healthyAt ((states 0).place c j) =
          lb.healthyAt (lb.place c j) := fun j => by
        rw [hsame.healthyAt_eq, LoadBalancer.place, hsame.length_eq, LoadBalancer.place]
      rw [healthyPlaces_succ] at hcalls ⊢
      split_ifs at hcalls ⊢ with hhere
      · have hcall := roundRobin_call (hsame.numServers_eq hlen) hde hindex
          (hmax e le_rfl (by omega) hhere)
          (fun j hj hlt => (hplace j).trans (hskip j hj hlt)) ((hplace e).trans hhere)
        rw [List.length_cons] at hcalls
        have hnext : (states 1).currentIndex = (c + (e + 1) : ℕ) :=
          hcalls.index 0 (by omega) _ _ hcall
        have hrest := ih hcalls.tail (hsame.trans (hcalls.sameHealth 1 (by omega))) le_rfl hnext
          (fun j hj hlt => hmax j (by omega) (by omega)) fun j hj hlt => by omega
        rw [List.length_cons, selections_succ, hrest, hcall, LoadBalancer.place, hsame.length_eq]
        rfl
      · refine ih hcalls hsame (Nat.le_succ_of_le hde) hindex
          (fun j hj hlt => hmax j (by omega) (by omega)) fun j hj hlt => ?_
        rcases Nat.lt_succ_iff_lt_or_eq.mp hlt with h | rfl
        · exact hskip j hj h
        · exact Bool.eq_false_iff.mpr hhere

/-- The positions of the healthy backends. -/
def LoadBalancer.healthyPositions (lb : LoadBalancer) : List BackendId :=
  (List.range lb.servers.length).filter lb.healthyAt

/-- The healthy backends in the order of the circle, from the place `c` on. -/
lemma map_healthyPlaces (c : ℕ) :
    (lb.healthyPlaces c 0 lb.servers.length).map (lb.place c) =
      ((List.range lb.servers.length).rotate c).filter lb.healthyAt := by
  rw [range_rotate, List.filter_map, LoadBalancer.healthyPlaces, ← List.range_eq_range']
  rfl

/-- **Round robin visits every healthy backend once per cycle.** While no backend changes
its health and no increment is made at `INT_MAX`, as many consecutive calls as there are
healthy backends return these, each once, in the order of the circle. -/
theorem roundRobin_cycle (states : ℕ → LoadBalancer) (c : ℕ)
    (hlen : (states 0).numServers = (states 0).servers.length)
    (hindex : (states 0).currentIndex = c)
    (hmax : ∀ j < (states 0).servers.length,
      (states 0).healthyAt ((c + j) % (states 0).servers.length) = true → (c + j : ℤ) < intMax)
    (hcalls : Calls lbSelectRoundRobin (states 0).healthyPositions.length states) :
    ∃ ps : List BackendId,
      selections lbSelectRoundRobin (states 0).healthyPositions.length states =
        ps.map (fun p => .ok (some p)) ∧
      ps = ((List.range (states 0).servers.length).rotate c).filter (states 0).healthyAt ∧
      ps ~r (states 0).healthyPositions := by
  have hrotated := filter_rotate_isRotated (states 0).healthyAt
    (List.range (states 0).servers.length) c
  refine ⟨_, ?_, rfl, hrotated⟩
  have hnumber : (states 0).healthyPositions.length =
      ((states 0).healthyPlaces c 0 (states 0).servers.length).length := by
    rw [LoadBalancer.healthyPositions, ← hrotated.perm.length_eq, ← map_healthyPlaces,
      List.length_map]
  rw [hnumber] at hcalls ⊢
  rw [← map_healthyPlaces, List.map_map]
  exact roundRobin_calls _ hcalls (.refl _) hlen le_rfl hindex
    (fun j _ hj hhealthy => by
      push_cast
      exact hmax j (by omega) hhealthy)
    fun j _ hj => by omega

/-- Three calls visit three healthy backends of four. -/
theorem roundRobin_cycle_uneven :
    ∃ ps : List BackendId,
      selections lbSelectRoundRobin unevenBackends.healthyPositions.length
          (fun i => (afterCall lbSelectRoundRobin)^[i] unevenBackends) =
        ps.map (fun p => .ok (some p)) ∧
      ps = ((List.range 4).rotate 1).filter unevenBackends.healthyAt ∧
      ps ~r unevenBackends.healthyPositions ∧ unevenBackends.healthyPositions = [0, 2, 3] := by
  obtain ⟨ps, hsel, hps, hrotated⟩ :=
    roundRobin_cycle (fun i => (afterCall lbSelectRoundRobin)^[i] unevenBackends) 1 rfl rfl
      (by decide) (calls_afterCall lbSelectRoundRobin_frame _ _)
  exact ⟨ps, hsel, hps, hrotated, by decide⟩

end RoundRobin

/-! ### The weighted round robin -/

/-- How many targets of a period belong to each backend. -/
def shares (servers : List Backend) : List ℕ :=
  servers.map fun server => if server.isHealthy then server.weight.toNat else 0

lemma shares_cons (server : Backend) (servers : List Backend) :
    shares (server :: servers) =
      (if server.isHealthy then server.weight.toNat else 0) :: shares servers := rfl

lemma sum_shares {servers : List Backend} (hw : ∀ server ∈ servers, 0 ≤ server.weight) :
    ((shares servers).sum : ℤ) = healthyWeight servers := by
  induction servers with
  | nil => rfl
  | cons server servers ih =>
      have hserver := hw server (List.mem_cons_self ..)
      rw [shares_cons, List.sum_cons, Nat.cast_add, healthyWeight_cons]
      refine congrArg₂ _ ?_ (ih fun b hb => hw b (List.mem_cons_of_mem _ hb))
      split_ifs
      · exact Int.toNat_of_nonneg hserver
      · rfl

lemma SameHealth.shares_eq {lb lb' : LoadBalancer} (h : SameHealth lb lb') :
    shares lb'.servers = shares lb.servers := by
  have hpairs : ∀ servers : List Backend, shares servers =
      (servers.map fun b => (b.isHealthy, b.weight)).map fun r => if r.1 then r.2.toNat else 0 := by
    intro servers
    rw [List.map_map]
    rfl
  rw [hpairs, hpairs, h.servers]

/-- The search among the running sums of the weights ends at the owner of the target. -/
lemma selectByWeight_owner {servers : List Backend}
    (hw : ∀ server ∈ servers, 0 ≤ server.weight) (p : BackendId) {current : ℤ} {t : ℕ}
    (hpos : 0 ≤ current) (hmax : current + healthyWeight servers ≤ intMax)
    (ht : t < (shares servers).sum) :
    selectByWeight (current + t) servers p current =
      .ok (some (p + owner (shares servers) t)) := by
  induction servers generalizing p current t with
  | nil => simp [shares] at ht
  | cons server servers ih =>
      have hserver := hw server (List.mem_cons_self ..)
      have hw' : ∀ b ∈ servers, 0 ≤ b.weight := fun b hb => hw b (List.mem_cons_of_mem _ hb)
      have hrest := healthyWeight_nonneg fun b hb _ => hw' b hb
      have hmin : intMin ≤ 0 := by decide
      rw [healthyWeight_cons] at hmax
      rw [shares_cons, List.sum_cons] at ht
      rw [selectByWeight, shares_cons, owner]
      by_cases hhealthy : server.isHealthy
      · rw [if_pos hhealthy] at ht hmax
        rw [if_pos hhealthy, if_pos hhealthy, add_of_le (by omega) (by omega)]
        show (if current + t < current + server.weight then _ else _) = _
        by_cases hlt : t < server.weight.toNat
        · rw [if_pos (by omega), if_pos hlt, Nat.add_zero]
        · have hnext : current + server.weight + (t - server.weight.toNat : ℕ) = current + t := by
            omega
          have hrec : selectByWeight (current + server.weight + (t - server.weight.toNat : ℕ))
              servers (p + 1) (current + server.weight) =
              .ok (some (p + 1 + owner (shares servers) (t - server.weight.toNat))) :=
            ih hw' (p + 1) (by omega) (by omega) (by omega)
          rw [if_neg (by omega), if_neg hlt, ← hnext, hrec, Nat.add_right_comm, Nat.add_assoc]
      · rw [if_neg hhealthy, Nat.zero_add] at ht
        rw [if_neg hhealthy, Int.zero_add] at hmax
        rw [if_neg hhealthy, if_neg hhealthy, if_neg (Nat.not_lt_zero t), Nat.sub_zero,
          ih hw' (p + 1) hpos hmax ht, Nat.add_right_comm, Nat.add_assoc]

section Weighted

variable {lb : LoadBalancer} {states : ℕ → LoadBalancer} {c W : ℕ}

/-- **One call** selects the owner of its target and passes it. -/
lemma weightedRoundRobin_call (hw : ∀ server ∈ lb.servers, 0 ≤ server.weight)
    (hW : (shares lb.servers).sum = W) (hpos : 0 < W) (hle : (W : ℤ) ≤ intMax)
    (hindex : lb.currentIndex = c) :
    lbSelectWeightedRoundRobin lb =
      .ok (some (owner (shares lb.servers) (c % W)), lb.atIndex (incr c)) := by
  have hweight : healthyWeight lb.servers = W := by rw [← sum_shares hw, hW]
  have htotal := totalWeight_eq (fun b hb _ => hw b hb) le_rfl (by decide)
  rw [hweight, Int.zero_add, if_pos hle] at htotal
  have hsel := selectByWeight_owner hw 0 (t := c % W) le_rfl (by omega)
    (by rw [hW]; exact Nat.mod_lt c hpos)
  rw [Int.zero_add, Nat.zero_add] at hsel
  rw [lbSelectWeightedRoundRobin, htotal]
  show (if (W : ℤ) = 0 then _ else _) = _
  rw [if_neg (by omega), rem_of_pos _ (by omega), hindex, ← Int.ofNat_tmod]
  show (selectByWeight _ _ _ _ >>= _) = _
  rw [hsel]
  rfl

/-- **The calls**: each passes one target. -/
lemma weightedRoundRobin_calls (hw : ∀ server ∈ (states 0).servers, 0 ≤ server.weight)
    (hW : (shares (states 0).servers).sum = W) (hpos : 0 < W)
    (hindex : (states 0).currentIndex = c) (hmax : (c + W : ℤ) ≤ intMax)
    (hcalls : Calls lbSelectWeightedRoundRobin W states) {i : ℕ} (hi : i < W) :
    (lbSelectWeightedRoundRobin (states i)).map Prod.fst =
      .ok (some (owner (shares (states 0).servers) ((c + i) % W))) := by
  have hcall : ∀ j < W, (states j).currentIndex = (c + j : ℕ) →
      lbSelectWeightedRoundRobin (states j) =
        .ok (some (owner (shares (states 0).servers) ((c + j) % W)),
          (states j).atIndex (incr (c + j : ℕ))) := by
    intro j hj hindex
    have hsame := hcalls.sameHealth j hj.le
    have hweights : ∀ server ∈ (states j).servers, 0 ≤ server.weight := by
      intro server hserver
      have hmem : (server.isHealthy, server.weight) ∈
          (states 0).servers.map fun b => (b.isHealthy, b.weight) :=
        hsame.servers ▸ List.mem_map_of_mem hserver
      obtain ⟨b, hb, heq⟩ := List.mem_map.mp hmem
      rw [← (Prod.mk.inj heq).2]
      exact hw b hb
    rw [← hsame.shares_eq]
    exact weightedRoundRobin_call hweights (by rw [hsame.shares_eq, hW]) hpos (by omega) hindex
  have hpassed : ∀ j ≤ i, (states j).currentIndex = (c + j : ℕ) := by
    intro j hj
    induction j with
    | zero => exact hindex
    | succ j ih =>
        rw [hcalls.index j (by omega) _ _ (hcall j (by omega) (ih (by omega)))]
        have hmin : intMin ≤ 0 := by decide
        have hincr : incr ((c + j : ℕ) : ℤ) = (c + j : ℕ) + 1 := incr_of_lt (by omega) (by omega)
        rw [LoadBalancer.atIndex, hincr]
        push_cast
        ring
  rw [hcall i hi (hpassed i le_rfl)]
  rfl

/-- **Weighted round robin is exactly proportional.** Where the weights of the healthy
backends sum up to `W`, any `W` consecutive calls select each of them as many times as its
weight, and no other. -/
theorem weightedRoundRobin_cycle (states : ℕ → LoadBalancer) (c W : ℕ)
    (hw : ∀ server ∈ (states 0).servers, 0 ≤ server.weight)
    (hW : healthyWeight (states 0).servers = W) (hpos : 0 < W)
    (hindex : (states 0).currentIndex = c) (hmax : (c + W : ℤ) ≤ intMax)
    (hcalls : Calls lbSelectWeightedRoundRobin W states) :
    ∃ ps : List BackendId,
      selections lbSelectWeightedRoundRobin W states = ps.map (fun p => .ok (some p)) ∧
      (∀ p server, (states 0).servers[p]? = some server →
        (ps.count p : ℤ) = if server.isHealthy then server.weight else 0) ∧
      ∀ p ∈ ps, (states 0).healthyAt p = true := by
  have hsum : (shares (states 0).servers).sum = W := by
    have := sum_shares hw
    omega
  have hcount := fun p => count_owner_rotate (shares (states 0).servers) c p
  rw [hsum] at hcount
  refine ⟨((List.range W).map fun i => (c + i) % W).map (owner (shares (states 0).servers)),
    ?_, fun p server hserver => ?_, fun p hp => ?_⟩
  · rw [selections, List.map_map, List.map_map]
    refine List.map_congr_left fun i hi => ?_
    exact weightedRoundRobin_calls hw hsum hpos hindex hmax hcalls (List.mem_range.mp hi)
  · rw [hcount, shares, List.getD_eq_getElem?_getD, List.getElem?_map, hserver]
    show ((if server.isHealthy then server.weight.toNat else 0 : ℕ) : ℤ) = _
    split_ifs
    · exact Int.toNat_of_nonneg (hw server (List.mem_of_getElem? hserver))
    · rfl
  · -- a backend that is not healthy has no share
    have hcountp := List.count_pos_iff.mpr hp
    rw [hcount, shares, List.getD_eq_getElem?_getD, List.getElem?_map] at hcountp
    cases hserver : (states 0).servers[p]? with
    | none => simp [hserver] at hcountp
    | some server =>
        refine healthyAt_iff.mpr ⟨server, hserver, ?_⟩
        by_contra hsick
        simp [hserver, hsick] at hcountp

/-- Three calls share three targets between a backend of weight 2 and one of weight 1. -/
theorem weightedRoundRobin_cycle_uneven :
    ∃ ps : List BackendId,
      selections lbSelectWeightedRoundRobin 3
          (fun i => (afterCall lbSelectWeightedRoundRobin)^[i] unevenBackends) =
        ps.map (fun p => .ok (some p)) ∧ ps.count 0 = 2 ∧ ps.count 2 = 0 ∧ ps.count 3 = 1 ∧
      1 ∉ ps := by
  obtain ⟨ps, hsel, hcount, hhealthy⟩ :=
    weightedRoundRobin_cycle (fun i => (afterCall lbSelectWeightedRoundRobin)^[i] unevenBackends)
      1 3 (by decide) rfl (by decide) rfl (by decide)
      (calls_afterCall lbSelectWeightedRoundRobin_frame _ _)
  refine ⟨ps, hsel, Int.natCast_inj.mp (hcount 0 _ rfl), Int.natCast_inj.mp (hcount 2 _ rfl),
    Int.natCast_inj.mp (hcount 3 _ rfl), fun h => ?_⟩
  exact absurd (hhealthy 1 h) (by decide)

end Weighted

end ProxyMax
