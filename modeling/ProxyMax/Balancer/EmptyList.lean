import ProxyMax.Balancer.Rotation

/-!
The remainders of `src/core/loadbalancer.c`, and the list that `loadbalancer_init` may
leave empty when it returns 0.

* `SelectsSafely`: no selection has a remainder by zero, and there is none from an empty
  list.
* `lbSelect_ne_divisionByZero`, `lbSelect_nil`: the two kinds of list.
* `selectsSafely_iff`: every state reached is of the safe kind exactly when the algorithm
  does not divide by the number of the servers or some server could be allocated.
-/

namespace ProxyMax

open CString CInt Machine

/-- No selection takes a remainder by zero, and from an empty list it is `NULL`. -/
def LoadBalancer.SelectsSafely (lb : LoadBalancer) : Prop :=
  ∀ clientIp, loadbalancerSelectBackend lb clientIp ≠ .error .divisionByZero ∧
    (lb.servers = [] → ∃ lb', loadbalancerSelectBackend lb clientIp = .ok (none, lb'))

/-! ### The selections -/

lemma lbSelectRoundRobin_ne_divisionByZero {lb : LoadBalancer} (h : lb.numServers ≠ 0) :
    lbSelectRoundRobin lb ≠ .error .divisionByZero := by
  refine bind_ne_error (rem_ne_divisionByZero _ h) fun target => ?_
  split_ifs <;> exact ok_ne_error _ _

lemma totalWeight_ne_divisionByZero (servers : List Backend) (total : ℤ) :
    totalWeight servers total ≠ .error .divisionByZero := by
  induction servers generalizing total with
  | nil => exact ok_ne_error _ _
  | cons server servers ih =>
      rw [totalWeight]
      split_ifs
      · exact bind_ne_error (add_ne_divisionByZero _ _) ih
      · exact ih total

lemma selectByWeight_ne_divisionByZero (target : ℤ) (servers : List Backend) (p : BackendId)
    (current : ℤ) : selectByWeight target servers p current ≠ .error .divisionByZero := by
  induction servers generalizing p current with
  | nil => exact ok_ne_error _ _
  | cons server servers ih =>
      rw [selectByWeight]
      split_ifs
      · refine bind_ne_error (add_ne_divisionByZero _ _) fun current => ?_
        split_ifs
        · exact ok_ne_error _ _
        · exact ih (p + 1) current
      · exact ih (p + 1) current

/-- The weighted round robin looks at the sum before it divides by it. -/
lemma lbSelectWeightedRoundRobin_ne_divisionByZero (lb : LoadBalancer) :
    lbSelectWeightedRoundRobin lb ≠ .error .divisionByZero := by
  refine bind_ne_error (totalWeight_ne_divisionByZero _ _) fun total => ?_
  split_ifs with hzero
  · exact ok_ne_error _ _
  · refine bind_ne_error (rem_ne_divisionByZero _ hzero) fun target => ?_
    exact bind_ne_error (selectByWeight_ne_divisionByZero _ _ _ _) fun selected => ok_ne_error _ _

section Selections

variable {lb : LoadBalancer} {clientIp : Bytes}

/-- The algorithms that divide by `num_servers` do so without looking at it. -/
lemma lbSelect_ne_divisionByZero
    (h : lb.algorithm = .leastConnections ∨ lb.algorithm = .weightedRr ∨ lb.numServers ≠ 0) :
    lbSelect lb clientIp ≠ .error .divisionByZero := by
  rw [lbSelect]
  cases halg : lb.algorithm with
  | leastConnections => exact ok_ne_error _ _
  | weightedRr => exact lbSelectWeightedRoundRobin_ne_divisionByZero lb
  | roundRobin =>
      simp only [halg, reduceCtorEq, false_or] at h
      exact lbSelectRoundRobin_ne_divisionByZero h
  | ipHash =>
      simp only [halg, reduceCtorEq, false_or] at h
      show lbSelectIpHash lb clientIp ≠ _
      rw [lbSelectIpHash, if_neg h]
      dsimp only
      split_ifs
      · exact ok_ne_error _ _
      · exact ok_ne_error _ _
      · exact lbSelectRoundRobin_ne_divisionByZero h

/-- What each algorithm does with an empty list. -/
lemma lbSelect_nil (hlen : lb.numServers = lb.servers.length) (hnil : lb.servers = []) :
    lbSelect lb clientIp =
      if lb.algorithm = .leastConnections ∨ lb.algorithm = .weightedRr then .ok (none, lb)
      else .error .divisionByZero := by
  have hzero : lb.numServers = 0 := by rw [hlen, hnil]; rfl
  rw [lbSelect]
  cases halg : lb.algorithm with
  | leastConnections => simp [lbSelectLeastConnections, hnil, leastConnections]
  | weightedRr =>
      show lbSelectWeightedRoundRobin lb = _
      rw [lbSelectWeightedRoundRobin, hnil]
      rfl
  | roundRobin =>
      show lbSelectRoundRobin lb = _
      rw [lbSelectRoundRobin, hzero]
      rfl
  | ipHash =>
      show lbSelectIpHash lb clientIp = _
      rw [lbSelectIpHash, if_pos hzero]
      rfl

/-- A state is safe by its algorithm or by its list. -/
lemma selectsSafely_iff_ne_nil (hlen : lb.numServers = lb.servers.length) :
    lb.SelectsSafely ↔
      lb.algorithm = .leastConnections ∨ lb.algorithm = .weightedRr ∨ lb.servers ≠ [] := by
  have herror : ∀ clientIp, loadbalancerSelectBackend lb clientIp ≠ .error .divisionByZero ↔
      lbSelect lb clientIp ≠ .error .divisionByZero := by
    intro clientIp
    rw [loadbalancerSelectBackend]
    cases lbSelect lb clientIp with
    | error e => exact Iff.rfl
    | ok r => exact iff_of_true (ok_ne_error _ _) (ok_ne_error _ _)
  constructor
  · intro hsafe
    by_contra hcon
    obtain ⟨hleast, hweighted, hnil⟩ : lb.algorithm ≠ .leastConnections ∧
        lb.algorithm ≠ .weightedRr ∧ lb.servers = [] := by
      simpa only [not_or, not_not] using hcon
    refine (herror []).mp (hsafe []).1 ?_
    rw [lbSelect_nil hlen hnil, if_neg (not_or.mpr ⟨hleast, hweighted⟩)]
  · intro h clientIp
    refine ⟨(herror clientIp).mpr (lbSelect_ne_divisionByZero ?_), fun hnil => ?_⟩
    · refine h.imp_right (Or.imp_right fun hne => ?_)
      rw [hlen]
      exact_mod_cast (List.length_pos_iff.mpr hne).ne'
    · have hguarded : lb.algorithm = .leastConnections ∨ lb.algorithm = .weightedRr :=
        h.imp_right fun h => h.resolve_right fun hne => hne hnil
      have hsel : lbSelect lb clientIp = .ok (none, lb) := by
        rw [lbSelect_nil hlen hnil, if_pos hguarded]
      exact ⟨_, loadbalancerSelectBackend_of_ok hsel⟩

end Selections

/-! ### The list that the initialisation leaves -/

/-- How many records `loadbalancer_init` asks for. -/
def LbConfig.requested (config : LbConfig) : ℕ :=
  if 0 < config.numBackends then config.numBackends.toNat else 1

lemma foldl_addBackend_frame (config : LbConfig) (serverOk : ℕ → Bool) (now : ℕ → ℤ)
    (is : List ℕ) (lb : LoadBalancer) :
    (is.foldl (addBackend config serverOk now) lb).algorithm = lb.algorithm ∧
      ((is.foldl (addBackend config serverOk now) lb).servers = [] ↔
        lb.servers = [] ∧ ∀ i ∈ is, serverOk i = false) := by
  induction is generalizing lb with
  | nil => simp
  | cons i is ih =>
      obtain ⟨halg, hnil⟩ := ih (addBackend config serverOk now lb i)
      rw [List.foldl_cons, halg, hnil, addBackend]
      split_ifs with hok
      · simp [hok]
      · simp [hok]

/-- The list is empty if no record could be allocated. -/
lemma loadbalancerInit_frame {config : LbConfig} {lbOk : Bool} {serverOk : ℕ → Bool}
    {now : ℕ → ℤ} {ret : ℤ} {lb : LoadBalancer}
    (h : loadbalancerInit config lbOk serverOk now = (ret, some lb)) :
    lb.algorithm = config.lbAlgorithm ∧
      (lb.servers ≠ [] ↔ ∃ i < config.requested, serverOk i = true) := by
  rw [loadbalancerInit] at h
  rw [LbConfig.requested]
  split_ifs at h with hmode hlb hnum hserver
  · cases h
  · cases h
  · obtain ⟨-, hlb'⟩ := Prod.mk.inj h
    obtain rfl := Option.some.inj hlb'
    obtain ⟨halg, hnil⟩ := foldl_addBackend_frame config serverOk now
      (List.range config.numBackends.toNat) ⟨[], 0, 0, config.lbAlgorithm⟩
    refine ⟨halg, ?_⟩
    rw [Ne, hnil, if_pos hnum]
    simp
  · obtain ⟨-, hlb'⟩ := Prod.mk.inj h
    obtain rfl := Option.some.inj hlb'
    rw [if_neg hnum]
    exact ⟨rfl, fun _ => ⟨0, Nat.one_pos, hserver⟩, fun _ => List.cons_ne_nil _ _⟩
  · obtain ⟨-, hlb'⟩ := Prod.mk.inj h
    obtain rfl := Option.some.inj hlb'
    rw [if_neg hnum]
    refine ⟨rfl, fun hne => absurd rfl hne, ?_⟩
    rintro ⟨i, hi, hok⟩
    obtain rfl : i = 0 := by omega
    exact absurd hok hserver

/-- **Selection never divides by zero** in a state reached from `loadbalancer_init`, and
selects nothing from an empty list, exactly when the algorithm is least connections or the
weighted round robin, or one of the records of the servers could be allocated. -/
theorem selectsSafely_iff (config : LbConfig) (lbOk : Bool) (serverOk : ℕ → Bool) (now : ℕ → ℤ)
    (lb₀ lb : LoadBalancer) (calls : List LbCall) (log : List (LbCall × LbReply))
    (hinit : loadbalancerInit config lbOk serverOk now = (0, some lb₀))
    (hrun : exec lbStep lb₀ calls = some (log, lb)) :
    lb.SelectsSafely ↔
      config.lbAlgorithm = .leastConnections ∨ config.lbAlgorithm = .weightedRr ∨
        ∃ i < config.requested, serverOk i = true := by
  obtain ⟨halg₀, hne⟩ := loadbalancerInit_frame hinit
  have hinitial : lb₀.Initial := loadbalancerInit_initial (congrArg Prod.snd hinit)
  -- the calls leave the algorithm and the length of the list
  obtain ⟨halg, hlen⟩ : lb.algorithm = lb₀.algorithm ∧ lb.servers.length = lb₀.servers.length := by
    refine exec_preserves lbStep
      (P := fun s => s.algorithm = lb₀.algorithm ∧ s.servers.length = lb₀.servers.length)
      (fun s call reply s' hstep hs => ?_) hrun ⟨rfl, rfl⟩
    obtain ⟨-, -, hlength, halg⟩ := lbStep_spec hstep
    exact ⟨halg.trans hs.1, hlength.trans hs.2⟩
  rw [selectsSafely_iff_ne_nil (reachable_length hinitial hrun), halg, halg₀, ← hne,
    ← List.length_pos_iff, ← List.length_pos_iff, hlen]

/-- One of two records is allocated; the round robin is safe after a selection. -/
theorem selectsSafely_iff_one :
    ∃ (lb₀ lb : LoadBalancer) (log : List (LbCall × LbReply)),
      loadbalancerInit (twoBackends .roundRobin) true (fun i => i = 1) (fun _ => 0) =
        (0, some lb₀) ∧
      exec lbStep lb₀ [.select (ascii "10.0.0.1")] = some (log, lb) ∧ lb.SelectsSafely := by
  refine ⟨_, _, _, rfl, rfl, ?_⟩
  exact (selectsSafely_iff (twoBackends .roundRobin) true (fun i => i = 1) (fun _ => 0) _ _
    [.select (ascii "10.0.0.1")] _ rfl rfl).mpr (.inr (.inr ⟨1, by decide, rfl⟩))

/-- Neither record is allocated; the first selection divides by the number of the servers. -/
theorem empty_list_divides :
    ∃ lb₀ : LoadBalancer,
      loadbalancerInit (twoBackends .roundRobin) true (fun _ => false) (fun _ => 0) =
        (0, some lb₀) ∧ lb₀.servers = [] ∧ lb₀.currentIndex < intMax ∧
      loadbalancerSelectBackend lb₀ (ascii "10.0.0.1") = .error .divisionByZero ∧
      ¬ lb₀.SelectsSafely :=
  ⟨_, rfl, rfl, by decide, rfl, fun h => (h (ascii "10.0.0.1")).1 rfl⟩

end ProxyMax
