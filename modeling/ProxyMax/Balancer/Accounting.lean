import ProxyMax.Balancer.LoadBalancer
import ProxyMax.Lib.Machine

/-!
`src/core/loadbalancer.c`: the counts of connections and requests.

* `SelectsAt`, `ReleasesAt`: the entries of a log that select or release a backend.
* `Matched`: every release is one of an earlier selection not yet released.
* `active_connections_eq`: the counts of a backend are those of the log.
-/

namespace ProxyMax

open CString CInt Machine

/-- The entry selects the backend. -/
def SelectsAt (p : BackendId) : LbCall × LbReply → Bool
  | (.select _, .selected server) => server = some p
  | _ => false

/-- The entry releases the backend. -/
def ReleasesAt (p : BackendId) : LbCall × LbReply → Bool
  | (.release server, _) => server = some p
  | _ => false

/-- Every release of a backend comes after more selections than releases of it. -/
def Matched (log : List (LbCall × LbReply)) : Prop :=
  ∀ pre entry post p, log = pre ++ entry :: post → ReleasesAt p entry →
    pre.countP (ReleasesAt p) < pre.countP (SelectsAt p)

/-- The last entry is matched by those before it. -/
lemma matched_snoc {log : List (LbCall × LbReply)} {entry : LbCall × LbReply} :
    Matched (log ++ [entry]) ↔
      Matched log ∧
        ∀ p, ReleasesAt p entry → log.countP (ReleasesAt p) < log.countP (SelectsAt p) := by
  constructor
  · intro h
    exact ⟨fun pre e post p hlog => h pre e (post ++ [entry]) p (by simp [hlog]),
      fun p => h log entry [] p rfl⟩
  · rintro ⟨hlog, hentry⟩ pre e post p he hr
    rcases List.eq_nil_or_concat' post with rfl | ⟨post, last, rfl⟩
    · obtain ⟨hpre, hlast⟩ := List.append_inj' he rfl
      rw [List.cons.injEq] at hlast
      exact hpre ▸ hentry p (hlast.1 ▸ hr)
    · rw [← List.cons_append, ← List.append_assoc] at he
      exact hlog pre e post p (List.append_inj' he rfl).1 hr

section Records

variable (server : Backend) (now : ℤ) (ok : Bool)

@[simp] lemma release_totalRequests : server.release.totalRequests = server.totalRequests := by
  rw [Backend.release]
  split_ifs <;> rfl

@[simp] lemma markFailed_activeConnections :
    server.markFailed.activeConnections = server.activeConnections := by
  simp only [Backend.markFailed]
  split_ifs <;> rfl

@[simp] lemma markFailed_totalRequests :
    server.markFailed.totalRequests = server.totalRequests := by
  simp only [Backend.markFailed]
  split_ifs <;> rfl

@[simp] lemma healthCheck_activeConnections :
    (server.healthCheck now ok).activeConnections = server.activeConnections := by
  rw [Backend.healthCheck]
  split_ifs <;> rfl

@[simp] lemma healthCheck_totalRequests :
    (server.healthCheck now ok).totalRequests = server.totalRequests := by
  rw [Backend.healthCheck]
  split_ifs <;> rfl

end Records

/-- An entry that selects a backend counts it twice, as a connection and as a request. -/
lemma after_selected {p : BackendId} {entry : LbCall × LbReply} (h : SelectsAt p entry)
    (server : Backend) : server.after p entry = server.select ∧ ¬ ReleasesAt p entry := by
  obtain ⟨call, reply⟩ := entry
  cases call with
  | select clientIp =>
      cases reply with
      | selected r =>
          simp only [SelectsAt, decide_eq_true_eq] at h
          exact ⟨if_pos h, Bool.false_ne_true⟩
      | _ => simp [SelectsAt] at h
  | _ => simp [SelectsAt] at h

lemma after_released {p : BackendId} {entry : LbCall × LbReply} (h : ReleasesAt p entry)
    (server : Backend) : server.after p entry = server.release := by
  obtain ⟨call, reply⟩ := entry
  cases call with
  | release r =>
      simp only [ReleasesAt, decide_eq_true_eq] at h
      exact if_pos h
  | _ => simp [ReleasesAt] at h

/-- The other entries leave both counts. -/
lemma after_other {p : BackendId} {entry : LbCall × LbReply} (hs : ¬ SelectsAt p entry)
    (hr : ¬ ReleasesAt p entry) (server : Backend) :
    (server.after p entry).activeConnections = server.activeConnections ∧
      (server.after p entry).totalRequests = server.totalRequests := by
  obtain ⟨call, reply⟩ := entry
  cases call with
  | select clientIp =>
      cases reply with
      | selected r =>
          simp only [SelectsAt, decide_eq_true_eq] at hs
          simp [Backend.after, hs]
      | _ => exact ⟨rfl, rfl⟩
  | release r =>
      simp only [ReleasesAt, decide_eq_true_eq] at hr
      simp [Backend.after, hr]
  | markFailed r =>
      simp only [Backend.after]
      split_ifs <;> simp
  | runHealthChecks now probe => simp [Backend.after]

/-- The counts of the backend at `p` are those of the log. -/
def CountsAgree (p : BackendId) (log : List (LbCall × LbReply)) (lb : LoadBalancer) : Prop :=
  ∀ server, lb.servers[p]? = some server →
    server.activeConnections = log.countP (SelectsAt p) - log.countP (ReleasesAt p) ∧
      server.totalRequests = log.countP (SelectsAt p)

/-- A step keeps the agreement, as long as releases are matched and counts in range. -/
lemma lbStep_countsAgree {p : BackendId} {log : List (LbCall × LbReply)} {lb lb' : LoadBalancer}
    {call : LbCall} {reply : LbReply} (hagree : CountsAgree p log lb)
    (hstep : lbStep lb call = some (reply, lb'))
    (hreleased : log.countP (ReleasesAt p) ≤ log.countP (SelectsAt p))
    (hmatched : ReleasesAt p (call, reply) → log.countP (ReleasesAt p) < log.countP (SelectsAt p))
    (hbound : ((log ++ [(call, reply)]).countP (SelectsAt p) : ℤ) ≤ intMax) :
    CountsAgree p (log ++ [(call, reply)]) lb' := by
  intro server' hserver'
  rw [(lbStep_spec hstep).1 p, Option.map_eq_some_iff] at hserver'
  obtain ⟨server, hserver, rfl⟩ := hserver'
  obtain ⟨hactive, htotal⟩ := hagree server hserver
  simp only [List.countP_append, List.countP_singleton] at hbound ⊢
  by_cases hs : SelectsAt p (call, reply)
  · obtain ⟨hafter, hr⟩ := after_selected hs server
    simp only [hs, if_true] at hbound
    have hmin : intMin ≤ 0 := by decide
    rw [hafter, Backend.select, if_pos hs, if_neg hr, hactive, htotal]
    rw [incr_of_lt (by omega) (by omega), incr_of_lt (by omega) (by omega)]
    push_cast
    omega
  · by_cases hr : ReleasesAt p (call, reply)
    · have hpos : 0 < server.activeConnections := by
        have := hmatched hr
        omega
      rw [after_released hr, release_totalRequests, Backend.release, if_pos hpos, if_neg hs,
        if_pos hr, hactive, htotal]
      push_cast
      omega
    · obtain ⟨hactive', htotal'⟩ := after_other hs hr server
      rw [hactive', htotal', if_neg hs, if_neg hr, hactive, htotal]
      simp

/-- Matched releases are never more than the selections. -/
lemma Matched.released_le {log : List (LbCall × LbReply)} (h : Matched log) (p : BackendId) :
    log.countP (ReleasesAt p) ≤ log.countP (SelectsAt p) := by
  induction log using List.reverseRecOn with
  | nil => exact le_rfl
  | append_singleton log entry ih =>
      obtain ⟨hlog, hentry⟩ := matched_snoc.mp h
      have hle := ih hlog
      simp only [List.countP_append, List.countP_singleton]
      by_cases hr : ReleasesAt p entry
      · have hlt := hentry p hr
        rw [if_pos hr]
        omega
      · rw [if_neg hr]
        omega

/-- **Connection accounting.** In every run from `loadbalancer_init` with matched
releases, a backend's `active_connections` is the number of its selections that are
not yet released, and its `total_requests` the number of its selections. -/
theorem active_connections_eq (config : LbConfig) (lbOk : Bool) (serverOk : ℕ → Bool)
    (now : ℕ → ℤ) (lb₀ lb : LoadBalancer) (calls : List LbCall) (log : List (LbCall × LbReply))
    (hinit : (loadbalancerInit config lbOk serverOk now).2 = some lb₀)
    (hrun : exec lbStep lb₀ calls = some (log, lb)) (hmatched : Matched log) (p : BackendId)
    (hbound : (log.countP (SelectsAt p) : ℤ) ≤ intMax) (server : Backend)
    (hserver : lb.servers[p]? = some server) :
    server.activeConnections = log.countP (SelectsAt p) - log.countP (ReleasesAt p) ∧
      server.totalRequests = log.countP (SelectsAt p) := by
  have hstart : CountsAgree p [] lb₀ := by
    intro server hserver
    obtain ⟨hactive, htotal, -⟩ :=
      (loadbalancerInit_initial hinit).2 server (List.mem_of_getElem? hserver)
    exact ⟨hactive, htotal⟩
  have hagree := exec_keeps lbStep
    (P := fun log lb => Matched log → (log.countP (SelectsAt p) : ℤ) ≤ intMax →
      CountsAgree p log lb)
    (fun log lb call reply lb' _ ih hstep hmatched hbound => by
      obtain ⟨hlog, hentry⟩ := matched_snoc.mp hmatched
      have hshort : (log.countP (SelectsAt p) : ℤ) ≤ intMax := by
        rw [List.countP_append] at hbound
        omega
      exact lbStep_countsAgree (ih hlog hshort) hstep (hlog.released_le p) (hentry p) hbound)
    (fun _ _ => hstart) hrun
  exact hagree hmatched hbound server hserver

/-- Three requests under the round robin, one of them over: the first backend has
one connection left of two. -/
theorem active_connections_eq_run :
    ∃ (lb₀ lb : LoadBalancer) (log : List (LbCall × LbReply)) (server : Backend),
      (loadbalancerInit (twoBackends .roundRobin) true (fun _ => true) fun _ => 0).2 = some lb₀ ∧
      exec lbStep lb₀ [.select [], .select [], .select [], .release (some 0)] = some (log, lb) ∧
      lb.servers[0]? = some server ∧ log.countP (SelectsAt 0) = 2 ∧
      server.activeConnections = log.countP (SelectsAt 0) - log.countP (ReleasesAt 0) := by
  refine ⟨_, _, _, _, rfl, rfl, rfl, rfl, ?_⟩
  have hmatched : Matched ([(.select [], .selected (some 0)), (.select [], .selected (some 1)),
      (.select [], .selected (some 0))] ++ [(.release (some 0), .done)]) := by
    refine matched_snoc.mpr ⟨fun pre entry post p he hr => ?_, fun p hp => ?_⟩
    · have hmem := List.mem_append_right pre (List.mem_cons_self (a := entry) (l := post))
      rw [← he] at hmem
      simp only [List.mem_cons, List.not_mem_nil, or_false] at hmem
      rcases hmem with rfl | rfl | rfl <;> simp [ReleasesAt] at hr
    · simp only [ReleasesAt, decide_eq_true_eq, Option.some.injEq] at hp
      subst hp
      decide
  exact (active_connections_eq (twoBackends .roundRobin) true (fun _ => true) (fun _ => 0) _ _
    [.select [], .select [], .select [], .release (some 0)] _ rfl rfl hmatched 0 (by decide) _
    rfl).1

end ProxyMax
