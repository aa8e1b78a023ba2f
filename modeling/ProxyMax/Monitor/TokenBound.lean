import ProxyMax.Lib.TokenBucket
import ProxyMax.Monitor.RateLimit

/-!
The bound on the requests of a client that are admitted.

* `RateLimiter.bucket`: a limiter record as a token bucket; `RateLimiter.request` is what a
  call does to the record, and `ratelimitCheckRequest_asks` the call as a request to the
  bucket.
* `requestOf`, `requestsOf`: the requests in a log that a record answered.
* `requests_present`, `requests_absent`: a whole run, as the requests to one
  bucket.
* `token_bucket_bound`: the bound on any window of a run.
-/

namespace ProxyMax

open CString Machine TokenBucket

/-! ### A limiter is a token bucket -/

/-- The token bucket that a limiter record is. -/
def RateLimiter.bucket (limiter : RateLimiter) : Bucket ℚ := ⟨limiter.tokens, limiter.lastRefill⟩

/-- The capacity and the rate of the record are those of the settings. -/
def RateLimiter.Configured (config : RateConfig) (limiter : RateLimiter) : Prop :=
  limiter.maxTokens = config.rateLimitRequests ∧
    limiter.refillRate = config.rateLimitRequests / 60

lemma refillTokens_bucket (now : ℤ) (limiter : RateLimiter) :
    (refillTokens now limiter).bucket
      = refill limiter.maxTokens limiter.refillRate now limiter.bucket := by
  have hcap : ∀ x m : ℚ, (if x > m then m else x) = min x m := fun x m => by
    rcases lt_or_ge m x with h | h
    · rw [if_pos h, min_eq_right h.le]
    · rw [if_neg (not_lt.mpr h), min_eq_left h]
  by_cases hlt : (limiter.lastRefill : ℚ) < now
  · have hpos : (now : ℚ) - limiter.lastRefill > 0 := sub_pos.mpr hlt
    simp only [refillTokens, refill, RateLimiter.bucket, if_pos hpos, hcap, hlt, if_true]
  · have hpos : ¬ (now : ℚ) - limiter.lastRefill > 0 := fun h => hlt (sub_pos.mp h)
    simp only [refillTokens, refill, RateLimiter.bucket, if_neg hpos, hlt, if_false]

/-- What `ratelimit_check_request` does to the record it resolves to, and whether the
request is admitted. -/
def RateLimiter.request (now : ℤ) (limiter : RateLimiter) : Bool × RateLimiter :=
  if 1 ≤ (refillTokens now limiter).tokens then
    (true, { refillTokens now limiter with tokens := (refillTokens now limiter).tokens - 1 })
  else (false, refillTokens now limiter)

lemma RateLimiter.request_bucket (now : ℤ) (limiter : RateLimiter) :
    ((limiter.request now).1, (limiter.request now).2.bucket) =
      ask limiter.maxTokens limiter.refillRate now limiter.bucket := by
  rw [ask, ← refillTokens_bucket, take, request]
  by_cases hone : 1 ≤ (refillTokens now limiter).tokens
  · rw [if_pos hone, if_pos (show 1 ≤ (refillTokens now limiter).bucket.tokens from hone)]
    rfl
  · rw [if_neg hone, if_neg (show ¬ 1 ≤ (refillTokens now limiter).bucket.tokens from hone)]

lemma RateLimiter.request_frame (now : ℤ) (limiter : RateLimiter) :
    (limiter.request now).2.ip = limiter.ip ∧
      (limiter.request now).2.maxTokens = limiter.maxTokens ∧
      (limiter.request now).2.refillRate = limiter.refillRate := by
  have hrefill : (refillTokens now limiter).ip = limiter.ip ∧
      (refillTokens now limiter).maxTokens = limiter.maxTokens ∧
      (refillTokens now limiter).refillRate = limiter.refillRate := by
    rw [refillTokens]
    simp only
    split <;> exact ⟨rfl, rfl, rfl⟩
  rw [request]
  split_ifs
  · exact hrefill
  · exact hrefill

/-- **One call**, whatever is in the record it resolves to. -/
lemma ratelimitCheckRequest_request {config : RateConfig} {mem : Option IpField} {created : ℤ}
    {ip : ClientIp} {s : RateState} {addr : ℕ} {limiter : RateLimiter}
    {limiters : Records RateLimiter} (now : ℤ) (hen : config.enableRateLimiting ≠ 0)
    (hget : getRateLimiter config mem created ip s.limiters = (some (addr, limiter), limiters)) :
    ratelimitCheckRequest config mem created now ip s =
      (⟨if (limiter.request now).1 then 0 else -1, some addr⟩,
        { s with limiters := limiters.store addr (limiter.request now).2 }) := by
  rw [ratelimitCheckRequest, if_neg hen, hget, RateLimiter.request]
  by_cases hone : 1 ≤ (refillTokens now limiter).tokens
  · simp [hone]
  · simp [hone]

/-- **One call** is a request to the bucket of the record it resolves to. -/
lemma ratelimitCheckRequest_asks {config : RateConfig} {mem : Option IpField} {created : ℤ}
    {ip : ClientIp} {s : RateState} {addr : ℕ} {limiter : RateLimiter}
    {limiters : Records RateLimiter} (now : ℤ) (hen : config.enableRateLimiting ≠ 0)
    (hget : getRateLimiter config mem created ip s.limiters = (some (addr, limiter), limiters))
    (hconf : limiter.Configured config) :
    ∃ limiter', ratelimitCheckRequest config mem created now ip s
        = (⟨if (ask (config.rateLimitRequests : ℚ) (config.rateLimitRequests / 60) now
              limiter.bucket).1 then 0 else -1, some addr⟩,
            { s with limiters := limiters.store addr limiter' }) ∧
      limiter'.Configured config ∧
      limiter'.bucket = (ask (config.rateLimitRequests : ℚ) (config.rateLimitRequests / 60) now
        limiter.bucket).2 := by
  have hask := limiter.request_bucket now
  obtain ⟨-, hmax, hrate⟩ := limiter.request_frame now
  rw [hconf.1, hconf.2] at hask
  rw [← hask]
  exact ⟨_, ratelimitCheckRequest_request now hen hget, ⟨hmax.trans hconf.1, hrate.trans hconf.2⟩,
    rfl⟩

/-- What a call that resolves to a record does: the record is one of the list or
a new one with a full bucket, the request is asked of its bucket, and the other
records stay. -/
structure Asked (config : RateConfig) (now : ℤ) (s : Records RateLimiter) (addr : ℕ)
    (b : Bucket ℚ) (admitted : Bool) (limiter : RateLimiter) (s' : Records RateLimiter) : Prop where
  resolved : (∃ l, (addr, l) ∈ s.nodes ∧ l.bucket = b) ∨
    ((∀ l, (addr, l) ∉ s.nodes) ∧ b.tokens = config.rateLimitRequests)
  asks : ask (config.rateLimitRequests : ℚ) (config.rateLimitRequests / 60) now b
    = (admitted, limiter.bucket)
  configured : limiter.Configured config
  mem : ∀ r, r ∈ s'.nodes ↔ r = (addr, limiter) ∨ (r ∈ s.nodes ∧ r.1 ≠ addr)

/-- **One call of `ratelimit_check_request`.** -/
lemma ratelimitCheckRequest_cases {config : RateConfig} {s : RateState}
    (hall : ∀ r ∈ s.limiters.nodes, r.2.Configured config) (mem : Option IpField)
    (created now : ℤ) (ip : ClientIp) :
    (∃ ret, ratelimitCheckRequest config mem created now ip s = (⟨ret, none⟩, s)) ∨
      ∃ addr b admitted limiter limiters,
        ratelimitCheckRequest config mem created now ip s
          = (⟨if admitted then 0 else -1, some addr⟩, { s with limiters }) ∧
        Asked config now s.limiters addr b admitted limiter limiters := by
  by_cases hen : config.enableRateLimiting = 0
  · exact .inl ⟨0, by simp [ratelimitCheckRequest, hen]⟩
  -- a limiter is found, made, or not made for want of memory
  rcases getOrCreate_cases RateLimiter.ip id _ mem ip s.limiters with
    ⟨⟨addr, l⟩, hfind, hget⟩ | ⟨field, hfind, rfl, hget⟩ | ⟨hfind, rfl, hget⟩
  · have hmem := (Records.mem_of_find hfind).1
    obtain ⟨limiter, hret, hconf, hask⟩ :=
      ratelimitCheckRequest_asks now hen hget (hall _ hmem)
    have hstored : ∀ x r, r ∈ ((s.limiters.store addr (id l)).store addr x).nodes
        ↔ r = (addr, x) ∨ (r ∈ s.limiters.nodes ∧ r.1 ≠ addr) := by
      intro x r
      rw [Records.mem_store ((Records.mem_store hmem).mpr (.inl rfl)), Records.mem_store hmem]
      constructor
      · rintro (hr | ⟨rfl | hr, hne⟩)
        · exact .inl hr
        · exact absurd rfl hne
        · exact .inr hr
      · rintro (hr | hr)
        · exact .inl hr
        · exact .inr ⟨.inr hr, hr.2⟩
    exact .inr ⟨addr, l.bucket, _, limiter, _, hret, .inl ⟨l, hmem, rfl⟩,
      Prod.ext rfl hask.symm, hconf, hstored limiter⟩
  · obtain ⟨limiter, hret, hconf, hask⟩ :=
      ratelimitCheckRequest_asks now hen hget ⟨rfl, rfl⟩
    refine .inr ⟨s.limiters.fresh, _, _, limiter, _, hret, .inr ⟨?_, rfl⟩,
      Prod.ext rfl hask.symm, hconf, ?_⟩
    · exact Records.fresh_notMem s.limiters
    · intro r
      rw [Records.mem_store (Records.mem_push.mpr (.inl rfl)), Records.mem_push]
      constructor
      · rintro (hr | ⟨rfl | hr, hne⟩)
        · exact .inl hr
        · exact absurd rfl hne
        · exact .inr ⟨hr, hne⟩
      · rintro (hr | ⟨hr, hne⟩)
        · exact .inl hr
        · exact .inr ⟨.inr hr, hne⟩
  · refine .inl ⟨-1, ?_⟩
    have hget' : getRateLimiter config none created ip s.limiters = (none, s.limiters) := hget
    simp [ratelimitCheckRequest, hen, hget']

/-! ### Whole runs -/

/-- The request that the record at an address answered in one entry of a log:
the clock reading at its refill, and whether it was admitted. -/
def requestOf (addr : ℕ) : RateCall × RateAnswer → Option (ℤ × Bool)
  | (.checkRequest _ _ _ now, answer) =>
      if answer.record = some addr then some (now, answer.ret = 0) else none
  | _ => none

/-- The requests that the record answered, in order. -/
def requestsOf (addr : ℕ) (log : List (RateCall × RateAnswer)) : List (ℤ × Bool) :=
  log.filterMap (requestOf addr)

/-- **The step.** Either the limiters stay and no record answered a request, or
a record was asked. -/
lemma rateStep_limiters {config : RateConfig} {s s' : RateState} {call : RateCall}
    {answer : RateAnswer} (hstep : rateStep config s call = some (answer, s'))
    (hall : ∀ r ∈ s.limiters.nodes, r.2.Configured config) :
    (s'.limiters = s.limiters ∧ ∀ addr, requestOf addr (call, answer) = none) ∨
      ∃ addr now b admitted limiter,
        Asked config now s.limiters addr b admitted limiter s'.limiters ∧
        ∀ addr', requestOf addr' (call, answer)
          = if addr = addr' then some (now, admitted) else none := by
  cases call with
  | checkRequest ip mem created now =>
      rw [rateStep, Option.some.injEq] at hstep
      rcases ratelimitCheckRequest_cases hall mem created now ip with
        ⟨ret, hret⟩ | ⟨addr, b, admitted, limiter, limiters, hret, hasked⟩
      · rw [hret, Prod.mk.injEq] at hstep
        obtain ⟨rfl, rfl⟩ := hstep
        exact .inl ⟨rfl, fun _ => by simp [requestOf]⟩
      · rw [hret, Prod.mk.injEq] at hstep
        obtain ⟨rfl, rfl⟩ := hstep
        refine .inr ⟨addr, now, b, admitted, limiter, hasked, fun addr' => ?_⟩
        cases admitted <;> simp [requestOf]
  | checkBandwidth ip bytes direction mem found now =>
      rw [rateStep, Option.some.injEq] at hstep
      have hlim := ratelimitCheckBandwidth_limiters config mem found now ip bytes direction s
      rw [hstep] at hlim
      exact .inl ⟨hlim, fun _ => rfl⟩
  | updateBandwidth ip bytes direction mem now =>
      rw [rateStep, Option.some.injEq] at hstep
      have hlim := ratelimitUpdateBandwidth_limiters config mem now ip bytes direction s
      rw [hstep] at hlim
      exact .inl ⟨hlim, fun _ => rfl⟩
  | cleanupOldEntries now =>
      rw [rateStep, Option.some.injEq, Prod.mk.injEq] at hstep
      exact .inl ⟨by rw [← hstep.2]; rfl, fun _ => rfl⟩

lemma Asked.all_configured {config : RateConfig} {now : ℤ} {s s' : Records RateLimiter} {addr : ℕ}
    {b : Bucket ℚ} {admitted : Bool} {limiter : RateLimiter}
    (h : Asked config now s addr b admitted limiter s')
    (hall : ∀ r ∈ s.nodes, r.2.Configured config) : ∀ r ∈ s'.nodes, r.2.Configured config := by
  intro r hr
  rcases (h.mem r).mp hr with rfl | ⟨hr, _⟩
  · exact h.configured
  · exact hall r hr

/-- The clock readings of requests, as times of a bucket. -/
def times (requests : List (ℤ × Bool)) : List ℚ := requests.map fun r => (r.1 : ℚ)

lemma requestsOf_cons (addr : ℕ) (entry : RateCall × RateAnswer)
    (log : List (RateCall × RateAnswer)) :
    requestsOf addr (entry :: log) = (requestOf addr entry).toList ++ requestsOf addr log := by
  cases h : requestOf addr entry <;> simp [requestsOf, h]

/-- **The run of a record.** From a state that holds it, the record answers as
its bucket does. -/
lemma requests_present {config : RateConfig} {addr : ℕ} (calls : List RateCall) :
    ∀ {s s' : RateState} {log : List (RateCall × RateAnswer)} {l : RateLimiter},
      exec (rateStep config) s calls = some (log, s') →
      (∀ r ∈ s.limiters.nodes, r.2.Configured config) → (addr, l) ∈ s.limiters.nodes →
      (requestsOf addr log).map Prod.snd = answers (config.rateLimitRequests : ℚ)
        (config.rateLimitRequests / 60) (times (requestsOf addr log)) l.bucket := by
  induction calls with
  | nil =>
      intro s s' log l hrun _ _
      rw [exec_nil, Option.some.injEq, Prod.mk.injEq] at hrun
      rw [← hrun.1]
      rfl
  | cons call calls ih =>
      intro s s' log l hrun hall hmem
      obtain ⟨answer, s₁, log', hstep, hrest, rfl⟩ := exec_cons _ hrun
      rw [requestsOf_cons]
      rcases rateStep_limiters hstep hall with
        ⟨hsame, hnone⟩ | ⟨addr', now, b, admitted, limiter, hasked, hof⟩
      · rw [hnone addr]
        exact ih hrest (hsame ▸ hall) (hsame ▸ hmem)
      · by_cases haddr : addr' = addr
        · subst haddr
          have hb : b = l.bucket := by
            rcases hasked.resolved with ⟨l', hl', rfl⟩ | ⟨habsent, _⟩
            · rw [Records.eq_of_mem hl' hmem]
            · exact absurd hmem (habsent l)
          have hask := hasked.asks
          rw [hb] at hask
          have hnext := ih hrest (hasked.all_configured hall) ((hasked.mem _).mpr (.inl rfl))
          simp only [hof, if_true, Option.toList_some, List.singleton_append, times, List.map_cons,
            answers, hask]
          exact congrArg _ hnext
        · have hl := (hasked.mem _).mpr (.inr ⟨hmem, fun h => haddr h.symm⟩)
          rw [hof addr, if_neg haddr]
          exact ih hrest (hasked.all_configured hall) hl

/-- From a state without the record, it answers as a bucket that is full when
the record is created. -/
lemma requests_absent {config : RateConfig} {addr : ℕ} (calls : List RateCall) :
    ∀ {s s' : RateState} {log : List (RateCall × RateAnswer)},
      exec (rateStep config) s calls = some (log, s') →
      (∀ r ∈ s.limiters.nodes, r.2.Configured config) → (∀ l, (addr, l) ∉ s.limiters.nodes) →
      ∃ b : Bucket ℚ, b.tokens = config.rateLimitRequests ∧
        (requestsOf addr log).map Prod.snd = answers (config.rateLimitRequests : ℚ)
          (config.rateLimitRequests / 60) (times (requestsOf addr log)) b := by
  induction calls with
  | nil =>
      intro s s' log hrun _ _
      rw [exec_nil, Option.some.injEq, Prod.mk.injEq] at hrun
      rw [← hrun.1]
      exact ⟨⟨config.rateLimitRequests, 0⟩, rfl, rfl⟩
  | cons call calls ih =>
      intro s s' log hrun hall habsent
      obtain ⟨answer, s₁, log', hstep, hrest, rfl⟩ := exec_cons _ hrun
      rw [requestsOf_cons]
      rcases rateStep_limiters hstep hall with
        ⟨hsame, hnone⟩ | ⟨addr', now, b, admitted, limiter, hasked, hof⟩
      · rw [hnone addr]
        exact ih hrest (hsame ▸ hall) (hsame ▸ habsent)
      · by_cases haddr : addr' = addr
        · subst haddr
          have hfull : b.tokens = config.rateLimitRequests := by
            rcases hasked.resolved with ⟨l, hl, _⟩ | ⟨_, hfull⟩
            · exact absurd hl (habsent l)
            · exact hfull
          refine ⟨b, hfull, ?_⟩
          have hnext := requests_present calls hrest (hasked.all_configured hall)
            ((hasked.mem _).mpr (.inl rfl))
          simp only [hof, if_true, Option.toList_some, List.singleton_append, times, List.map_cons,
            answers, hasked.asks]
          exact congrArg _ hnext
        · rw [hof addr, if_neg haddr]
          refine ih hrest (hasked.all_configured hall) ?_
          intro l hl
          rcases (hasked.mem _).mp hl with heq | ⟨hl, _⟩
          · exact haddr (congrArg Prod.fst heq).symm
          · exact habsent l hl

/-! ### The bound -/

/-- The answers of consecutive requests are those of the bucket the earlier ones
leave. -/
lemma answers_window {capacity rate : ℚ} {b : Bucket ℚ} {pre window post : List (ℤ × Bool)}
    (h : (pre ++ window ++ post).map Prod.snd
      = answers capacity rate (times (pre ++ window ++ post)) b) :
    window.map Prod.snd
      = answers capacity rate (times window) (after capacity rate (times pre) b) := by
  simp only [times, List.map_append, answers_append, List.append_assoc] at h
  have htail := (List.append_inj h (by simp [length_answers])).2
  exact (List.append_inj htail (by simp [length_answers])).1

lemma getLastD_times {t t₂ : ℤ} {a : Bool} {rest : List (ℤ × Bool)}
    (h : (((t, a) :: rest).map Prod.fst).getLast? = some t₂) :
    (times rest).getLastD (t : ℚ) = t₂ := by
  have hq : (((t, a) :: rest).map fun r => (r.1 : ℚ)).getLast? = some (t₂ : ℚ) := by
    have hcast := congrArg (Option.map fun n : ℤ => (n : ℚ)) h
    rwa [← List.getLast?_map, List.map_map] at hcast
  rw [List.map_cons, List.getLast?_cons, Option.some.injEq] at hq
  rw [List.getLastD_eq_getLast?]
  exact hq

lemma pairwise_times {requests : List (ℤ × Bool)}
    (h : (requests.map Prod.fst).Pairwise (· ≤ ·)) : (times requests).Pairwise (· ≤ ·) := by
  have hcast := h.map (fun n : ℤ => (n : ℚ)) fun _ _ hle => Int.cast_le.mpr hle
  rwa [List.map_map] at hcast

lemma countP_admitted (requests : List (ℤ × Bool)) :
    (requests.countP fun r => r.2) = (requests.map Prod.snd).count true := by
  rw [List.count, List.countP_map]
  congr 1
  funext r
  simp

/-- **The token-bucket bound.** In a run from empty lists, whatever else is
called in it, take the requests that one record answered, at clock readings that
do not decrease. Of any consecutive ones, from a time `t₁` to a time `t₂`, at most
the configured number and the share of a minute's number that the time between
makes up are admitted. -/
theorem token_bucket_bound {config : RateConfig} (hlimit : 0 ≤ config.rateLimitRequests)
    {calls : List RateCall} {log : List (RateCall × RateAnswer)} {s : RateState}
    (hrun : exec (rateStep config) ratelimitInit calls = some (log, s)) {addr : ℕ}
    (hclock : ((requestsOf addr log).map Prod.fst).Pairwise (· ≤ ·))
    {pre window post : List (ℤ × Bool)} (hwindow : requestsOf addr log = pre ++ window ++ post)
    {t₁ t₂ : ℤ} (hfirst : (window.map Prod.fst).head? = some t₁)
    (hlast : (window.map Prod.fst).getLast? = some t₂) :
    ((window.countP fun r => r.2) : ℚ)
      ≤ config.rateLimitRequests + (t₂ - t₁) * config.rateLimitRequests / 60 := by
  obtain ⟨b, hfull, hanswers⟩ := requests_absent calls hrun
    (fun r hr => absurd hr List.not_mem_nil) (fun l => List.not_mem_nil)
  have hN : (0 : ℚ) ≤ config.rateLimitRequests := by exact_mod_cast hlimit
  have hrate : (0 : ℚ) ≤ config.rateLimitRequests / 60 := by positivity
  have hb : Within (config.rateLimitRequests : ℚ) b := ⟨hfull ▸ hN, hfull.le⟩
  rw [hwindow] at hanswers hclock
  have hmid := answers_window hanswers
  have hsorted : (window.map Prod.fst).Pairwise (· ≤ ·) := by
    rw [List.map_append, List.map_append] at hclock
    exact (List.pairwise_append.mp (List.pairwise_append.mp hclock).1).2.1
  obtain ⟨⟨t, a⟩, rest, rfl⟩ : ∃ r rest, window = r :: rest :=
    List.exists_cons_of_ne_nil fun h => by simp [h] at hfirst
  have ht : t = t₁ := by simpa using hfirst
  have hbound := window_bound (hb.after hrate (times pre)) hrate (pairwise_times hsorted)
  calc ((((t, a) :: rest).countP fun r => r.2 : ℕ) : ℚ)
      = ((answers (config.rateLimitRequests : ℚ) (config.rateLimitRequests / 60)
          (times ((t, a) :: rest)) (after (config.rateLimitRequests : ℚ)
            (config.rateLimitRequests / 60) (times pre) b)).count true : ℕ) := by
        rw [countP_admitted, hmid]
    _ ≤ config.rateLimitRequests + ((times rest).getLastD (t : ℚ) - t)
          * (config.rateLimitRequests / 60) := hbound
    _ = config.rateLimitRequests + (t₂ - t₁) * config.rateLimitRequests / 60 := by
        rw [getLastD_times hlast, ht, mul_div_assoc]

/-- Three requests of one client at a limit of one per minute: the second comes
too early, and the third a minute after the first. -/
def threeRequests : List RateCall :=
  let client : ClientIp := ⟨ascii "10.0.0.1", by decide +kernel, by decide +kernel⟩
  let blank : Option IpField := some ⟨List.replicate 16 0, rfl⟩
  [.checkRequest client blank 100 100, .checkRequest client blank 130 130,
    .checkRequest client blank 160 160]

/-- The two admitted ones are what the bound allows in that minute. -/
theorem token_bucket_bound_threeRequests :
    (([(100, true), (130, false), (160, true)].countP fun r : ℤ × Bool => r.2 : ℕ) : ℚ)
      ≤ ((1 : ℤ) : ℚ) + (((160 : ℤ) : ℚ) - ((100 : ℤ) : ℚ)) * ((1 : ℤ) : ℚ) / 60 := by
  have hrun : (exec (rateStep ⟨1, 1, 0⟩) ratelimitInit threeRequests).map
      (fun r => requestsOf 0 r.1) = some [(100, true), (130, false), (160, true)] := by
    decide +kernel
  obtain ⟨⟨log, s⟩, hex, hreq⟩ := Option.map_eq_some_iff.mp hrun
  have hwindow : requestsOf 0 log = [] ++ [(100, true), (130, false), (160, true)] ++ [] := hreq
  exact token_bucket_bound (by decide) hex (by rw [hreq]; decide) hwindow rfl rfl

end ProxyMax
