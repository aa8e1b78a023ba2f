import ProxyMax.Balancer.LoadBalancer
import ProxyMax.Lib.Machine
import Mathlib.Data.List.DropRight

/-!
`src/core/loadbalancer.c`: when a backend is healthy.

* `HealthEvent`, `healthEvents`: the failures reported of a backend and the probes
  made of it, as a log tells them.
* `sinceRecovery`: those after its last successful probe.
* `isHealthy_iff`: the record of a backend says of its health what these events do.
-/

namespace ProxyMax

open CString CInt Machine

/-- What bears on the health of a backend: a failure reported, and a probe. -/
inductive HealthEvent where
  | marked
  | probed (ok : Bool)
  deriving DecidableEq

/-- What an entry of a log is to the backend at `p`. -/
def healthEvent (p : BackendId) : LbCall × LbReply → Option HealthEvent
  | (.markFailed server, _) => if server = some p then some .marked else none
  | (_, .probed outcomes) => (outcomes p).map .probed
  | _ => none

/-- The events of the backend at `p`, in order. -/
def healthEvents (p : BackendId) (log : List (LbCall × LbReply)) : List HealthEvent :=
  log.filterMap (healthEvent p)

/-- The events after the last successful probe, or all of them if there is none. -/
def sinceRecovery (events : List HealthEvent) : List HealthEvent :=
  events.rtakeWhile fun e => e ≠ .probed true

@[simp] lemma sinceRecovery_nil : sinceRecovery [] = [] := rfl

lemma sinceRecovery_recovered (events : List HealthEvent) :
    sinceRecovery (events ++ [.probed true]) = [] := by
  rw [sinceRecovery, List.rtakeWhile_concat, if_neg (by simp)]

lemma sinceRecovery_snoc (events : List HealthEvent) {e : HealthEvent} (he : e ≠ .probed true) :
    sinceRecovery (events ++ [e]) = sinceRecovery events ++ [e] := by
  rw [sinceRecovery, List.rtakeWhile_concat, if_pos (by simpa using he), sinceRecovery]

/-- **The health of a record.** It is unhealthy when a probe failed or more than 5
failures were reported, and counts the failures, as long as an `int` can. -/
def HealthAgrees (events : List HealthEvent) (server : Backend) : Prop :=
  (server.isHealthy = false ↔
    .probed false ∈ sinceRecovery events ∨ 5 < (sinceRecovery events).count .marked) ∧
  (((sinceRecovery events).count .marked : ℤ) ≤ intMax →
    server.failedRequests = (sinceRecovery events).count .marked)

section Events

variable {events : List HealthEvent} {server : Backend}

lemma markFailed_isHealthy (server : Backend) :
    server.markFailed.isHealthy = false ↔
      server.isHealthy = false ∨ 5 < incr server.failedRequests := by
  simp only [Backend.markFailed]
  split_ifs with h
  · simp [h]
  · simp [h]

lemma markFailed_failedRequests (server : Backend) :
    server.markFailed.failedRequests = incr server.failedRequests := by
  simp only [Backend.markFailed]
  split_ifs <;> rfl

/-- A failure is reported. -/
lemma markFailed_agrees (h : HealthAgrees events server) :
    HealthAgrees (events ++ [.marked]) server.markFailed := by
  obtain ⟨hhealth, hcount⟩ := h
  have hmax : (5 : ℤ) < intMax := by decide
  have hmin : intMin ≤ 0 := by decide
  have hincr : ((sinceRecovery events).count .marked : ℤ) < intMax →
      incr server.failedRequests = (sinceRecovery events).count .marked + 1 := by
    intro hlt
    rw [hcount hlt.le]
    exact incr_of_lt (by omega) hlt
  rw [HealthAgrees, sinceRecovery_snoc _ (by simp), markFailed_isHealthy, hhealth,
    markFailed_failedRequests]
  simp only [List.mem_append, List.mem_singleton, reduceCtorEq, or_false, List.count_append,
    List.count_singleton_self]
  refine ⟨?_, fun hbound => ?_⟩
  · by_cases hlt : ((sinceRecovery events).count .marked : ℤ) < intMax
    · rw [hincr hlt]
      constructor
      · rintro ((hprobe | hmarks) | hmarks)
        · exact .inl hprobe
        · exact .inr (by omega)
        · exact .inr (by omega)
      · rintro (hprobe | hmarks)
        · exact .inl (.inl hprobe)
        · exact .inr (by omega)
    · exact ⟨fun _ => .inr (by omega), fun _ => .inl (.inr (by omega))⟩
  · push_cast at hbound ⊢
    exact hincr (by omega)

/-- A probe is made. -/
lemma probed_agrees (h : HealthAgrees events server) {now : ℤ} (ok : Bool)
    (hdue : server.due now) :
    HealthAgrees (events ++ [.probed ok]) (server.healthCheck now ok) := by
  rw [Backend.healthCheck, if_pos hdue]
  cases ok with
  | true =>
      rw [HealthAgrees, sinceRecovery_recovered]
      simp
  | false =>
      rw [HealthAgrees, sinceRecovery_snoc _ (by simp)]
      simpa using h.2

lemma fresh_agrees (h : server.Fresh) : HealthAgrees [] server := by
  obtain ⟨-, -, hfailed, hhealth⟩ := h
  simp [HealthAgrees, hfailed, hhealth]

end Events

/-- The record at `p` agrees with the events that the log tells of it. -/
def HealthInv (p : BackendId) (log : List (LbCall × LbReply)) (lb : LoadBalancer) : Prop :=
  ∀ server, lb.servers[p]? = some server → HealthAgrees (healthEvents p log) server

lemma healthEvents_snoc (p : BackendId) (log : List (LbCall × LbReply))
    (entry : LbCall × LbReply) :
    healthEvents p (log ++ [entry]) = healthEvents p log ++ (healthEvent p entry).toList := by
  rw [healthEvents, List.filterMap_append, ← healthEvents]
  cases h : healthEvent p entry <;> simp [h]

/-- Every call keeps the agreement. -/
lemma lbStep_healthInv {p : BackendId} {log : List (LbCall × LbReply)} {lb lb' : LoadBalancer}
    {call : LbCall} {reply : LbReply} (hinv : HealthInv p log lb)
    (hstep : lbStep lb call = some (reply, lb')) : HealthInv p (log ++ [(call, reply)]) lb' := by
  intro server' hserver'
  rw [(lbStep_spec hstep).1 p, Option.map_eq_some_iff] at hserver'
  obtain ⟨server, hserver, rfl⟩ := hserver'
  have hagree := hinv server hserver
  rw [healthEvents_snoc]
  cases call with
  | select clientIp =>
      obtain ⟨r, rfl, -⟩ := lbStep_select hstep
      simp only [healthEvent, Backend.after, Option.toList_none, List.append_nil]
      split_ifs <;> exact hagree
  | release r =>
      simp only [lbStep, Option.some.injEq, Prod.mk.injEq] at hstep
      obtain ⟨rfl, -⟩ := hstep
      simp only [healthEvent, Backend.after, Option.toList_none, List.append_nil, Backend.release]
      split_ifs <;> exact hagree
  | markFailed r =>
      simp only [healthEvent, Backend.after]
      by_cases hr : r = some p
      · rw [if_pos hr, if_pos hr]
        exact markFailed_agrees hagree
      · rw [if_neg hr, if_neg hr, Option.toList_none, List.append_nil]
        exact hagree
  | runHealthChecks now probe =>
      simp only [lbStep, loadbalancerRunHealthChecks, Option.some.injEq, Prod.mk.injEq] at hstep
      obtain ⟨rfl, -⟩ := hstep
      simp only [healthEvent, Backend.after, hserver, Option.bind_some]
      by_cases hdue : server.due now
      · rw [if_pos hdue]
        exact probed_agrees hagree (probe p) hdue
      · rw [if_neg hdue, Backend.healthCheck, if_neg hdue, Option.map_none, Option.toList_none,
          List.append_nil]
        exact hagree

/-- **The health of a backend.** In every run from `loadbalancer_init`, a backend has
`is_healthy = 0` exactly when a probe of it failed, or more than 5 failures of it were
reported, since its last successful probe; and `failed_requests` counts these reports. -/
theorem isHealthy_iff (config : LbConfig) (lbOk : Bool) (serverOk : ℕ → Bool) (now : ℕ → ℤ)
    (lb₀ lb : LoadBalancer) (calls : List LbCall) (log : List (LbCall × LbReply))
    (hinit : (loadbalancerInit config lbOk serverOk now).2 = some lb₀)
    (hrun : exec lbStep lb₀ calls = some (log, lb)) (p : BackendId) (server : Backend)
    (hserver : lb.servers[p]? = some server) :
    (server.isHealthy = false ↔
      .probed false ∈ sinceRecovery (healthEvents p log) ∨
        5 < (sinceRecovery (healthEvents p log)).count .marked) ∧
    (((sinceRecovery (healthEvents p log)).count .marked : ℤ) ≤ intMax →
      server.failedRequests = (sinceRecovery (healthEvents p log)).count .marked) := by
  refine exec_keeps lbStep (P := HealthInv p)
    (fun _ _ _ _ _ _ hinv hstep => lbStep_healthInv hinv hstep) ?_ hrun server hserver
  intro server hserver
  exact fresh_agrees ((loadbalancerInit_initial hinit).2 server (List.mem_of_getElem? hserver))

/-- Six failures, a successful probe and one more failure: the backend is healthy,
with one failure on its account. -/
theorem isHealthy_iff_run :
    ∃ (lb₀ lb : LoadBalancer) (log : List (LbCall × LbReply)) (server : Backend),
      (loadbalancerInit (twoBackends .ipHash) true (fun _ => true) fun _ => 0).2 = some lb₀ ∧
      exec lbStep lb₀ (List.replicate 6 (.markFailed (some 0)) ++
        [.runHealthChecks 30 fun _ => true, .markFailed (some 0)]) = some (log, lb) ∧
      lb.servers[0]? = some server ∧ server.isHealthy = true ∧
      ((sinceRecovery (healthEvents 0 log)).count .marked : ℤ) = 1 ∧
      server.failedRequests = (sinceRecovery (healthEvents 0 log)).count .marked :=
  ⟨_, _, _, _, rfl, rfl, rfl, rfl, rfl, (isHealthy_iff (twoBackends .ipHash) true (fun _ => true)
    (fun _ => 0) _ _ (List.replicate 6 (.markFailed (some 0)) ++
      [.runHealthChecks 30 fun _ => true, .markFailed (some 0)]) _ rfl rfl 0 _ rfl).2
    (by decide)⟩

end ProxyMax
