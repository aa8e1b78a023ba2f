import ProxyMax.Monitor.TokenBound
import ProxyMax.Monitor.Trackers

/-!
Requests that `ratelimit_check_request` refuses, and the ones after them.

* `rateStep_found`: a call either leaves the limiter of a client or is a request to it, and
  the client goes on to resolve to it.
* `requests_found`: a whole run, as the requests to the bucket of that limiter.
* `refused_polls_free`: after requests that were all refused, a request is answered, and
  leaves the limiter, as if it were the only one.
-/

namespace ProxyMax

open CString Machine TokenBucket

/-- A new record is for a client that has none. -/
lemma Records.find_push_of_find {α : Type*} {ip : α → IpField} {s : Records α}
    {key client : ClientIp} {a : α} {field : IpField} {r : ℕ × α}
    (hfind : s.find ip key = some r) (hnone : s.find ip client = none)
    (hip : ip a = field.strncpy client) : (s.push a).find ip key = some r := by
  rw [find_push_ne, hfind]
  rw [hip]
  intro htext
  obtain rfl := ClientIp.eq_of_text (IpField.eq_of_text_strncpy htext)
  rw [hnone] at hfind
  cases hfind

/-- A store to the record at an address, seen from the client whose record is found. -/
lemma Records.find_store_of_find {α : Type*} {ip : α → IpField} {s : Records α} {key : ClientIp}
    {a b c : α} {addr addr' : ℕ} (hfind : s.find ip key = some (addr, c))
    (hmem : (addr', a) ∈ s.nodes) (hip : ip b = ip a) :
    (s.store addr' b).find ip key = some (addr, if addr = addr' then b else c) := by
  rw [find_store_eq hmem hip, hfind, Option.map_some]
  by_cases h : addr = addr'
  · rw [if_pos h, if_pos h, h]
  · rw [if_neg h, if_neg h]

/-- A limiter is its bucket and what stays as it was created. -/
lemma RateLimiter.ext_bucket {l l' : RateLimiter} (hip : l'.ip = l.ip)
    (hmax : l'.maxTokens = l.maxTokens) (hrate : l'.refillRate = l.refillRate)
    (hbucket : l'.bucket = l.bucket) : l' = l := by
  obtain ⟨htokens, hlast⟩ := Bucket.mk.inj hbucket
  cases l
  cases l'
  obtain rfl : _ = _ := Int.cast_injective hlast
  simp_all

section Found

variable {config : RateConfig} {s s' : RateState} {key : ClientIp} {addr : ℕ} {l : RateLimiter}

/-- A request, of any client. -/
lemma ratelimitCheckRequest_of_find (hen : config.enableRateLimiting ≠ 0)
    (hfind : s.limiters.find RateLimiter.ip key = some (addr, l)) (mem : Option IpField)
    (created now : ℤ) (ip : ClientIp) {answer : RateAnswer}
    (hcheck : ratelimitCheckRequest config mem created now ip s = (answer, s')) :
    (s'.limiters.find RateLimiter.ip key = some (addr, l) ∧ answer.record ≠ some addr) ∨
      s'.limiters.find RateLimiter.ip key = some (addr, (l.request now).2) ∧
        answer = ⟨if (l.request now).1 then 0 else -1, some addr⟩ := by
  obtain ⟨hmem, -⟩ := Records.mem_of_find hfind
  rcases getOrCreate_cases RateLimiter.ip id _ mem ip s.limiters with
    ⟨⟨addr', l'⟩, hfound, hget⟩ | ⟨field, hnone, rfl, hget⟩ | ⟨hnone, rfl, hget⟩
  · -- a limiter that is there, of this client or another one
    rw [ratelimitCheckRequest_request now hen hget, Prod.mk.injEq] at hcheck
    obtain ⟨rfl, rfl⟩ := hcheck
    have hmem' := (Records.mem_of_find hfound).1
    have hkept := Records.find_store_of_find hfind hmem' rfl
    have hstored := Records.find_store_of_find hkept
      ((Records.mem_store hmem').mpr (.inl rfl)) (l'.request_frame now).1
    by_cases haddr : addr = addr'
    · subst haddr
      obtain rfl := Records.eq_of_mem hmem hmem'
      rw [if_pos rfl] at hstored
      exact .inr ⟨hstored, rfl⟩
    · rw [if_neg haddr, if_neg haddr] at hstored
      exact .inl ⟨hstored, fun h => haddr (Option.some.inj h).symm⟩
  · -- a new one
    rw [ratelimitCheckRequest_request now hen hget, Prod.mk.injEq] at hcheck
    obtain ⟨rfl, rfl⟩ := hcheck
    have hne : addr ≠ s.limiters.fresh := (s.limiters.lt_fresh _ hmem).ne
    have hpushed : ∀ l', RateLimiter.ip l' = field.strncpy ip →
        ((s.limiters.push l').store s.limiters.fresh (l'.request now).2).find
          RateLimiter.ip key = some (addr, l) := by
      intro l' hip
      rw [Records.find_store_of_find (Records.find_push_of_find hfind hnone hip)
        (Records.mem_push.mpr (.inl rfl)) (l'.request_frame now).1, if_neg hne]
    exact .inl ⟨hpushed _ rfl, fun h => hne (Option.some.inj h).symm⟩
  · -- none, for want of memory
    have hget' : getRateLimiter config none created ip s.limiters = (none, s.limiters) := hget
    rw [ratelimitCheckRequest, if_neg hen, hget', Prod.mk.injEq] at hcheck
    obtain ⟨rfl, rfl⟩ := hcheck
    exact .inl ⟨hfind, (Option.some_ne_none addr).symm⟩

/-- **The step.** The client goes on to resolve to its limiter, which the call has left as
it was or has been asked by. -/
lemma rateStep_found (hen : config.enableRateLimiting ≠ 0) {call : RateCall} {answer : RateAnswer}
    (hstep : rateStep config s call = some (answer, s'))
    (hfind : s.limiters.find RateLimiter.ip key = some (addr, l)) :
    (s'.limiters.find RateLimiter.ip key = some (addr, l) ∧
        requestOf addr (call, answer) = none) ∨
      ∃ now, s'.limiters.find RateLimiter.ip key = some (addr, (l.request now).2) ∧
        requestOf addr (call, answer) = some (now, (l.request now).1) := by
  cases call with
  | checkRequest ip mem created now =>
      rw [rateStep, Option.some.injEq] at hstep
      rcases ratelimitCheckRequest_of_find hen hfind mem created now ip hstep with
        ⟨hkept, hother⟩ | ⟨hfound, rfl⟩
      · exact .inl ⟨hkept, if_neg hother⟩
      · refine .inr ⟨now, hfound, ?_⟩
        rw [requestOf, if_pos rfl]
        show some (now, decide ((if (l.request now).1 then (0 : ℤ) else -1) = 0)) = _
        cases (l.request now).1 <;> rfl
  | checkBandwidth ip bytes direction mem found now =>
      rw [rateStep, Option.some.injEq] at hstep
      have hlim := ratelimitCheckBandwidth_limiters config mem found now ip bytes direction s
      rw [hstep] at hlim
      exact .inl ⟨hlim ▸ hfind, rfl⟩
  | updateBandwidth ip bytes direction mem now =>
      rw [rateStep, Option.some.injEq] at hstep
      have hlim := ratelimitUpdateBandwidth_limiters config mem now ip bytes direction s
      rw [hstep] at hlim
      exact .inl ⟨hlim ▸ hfind, rfl⟩
  | cleanupOldEntries now =>
      rw [rateStep, Option.some.injEq, Prod.mk.injEq] at hstep
      exact .inl ⟨hstep.2 ▸ hfind, rfl⟩

/-- **The run.** The limiter answers as its bucket does, and is left with what the requests
leave in that. -/
lemma requests_found (hen : config.enableRateLimiting ≠ 0) {calls : List RateCall}
    {log : List (RateCall × RateAnswer)}
    (hrun : exec (rateStep config) s calls = some (log, s'))
    (hfind : s.limiters.find RateLimiter.ip key = some (addr, l)) :
    ∃ l', s'.limiters.find RateLimiter.ip key = some (addr, l') ∧
      l'.ip = l.ip ∧ l'.maxTokens = l.maxTokens ∧ l'.refillRate = l.refillRate ∧
      l'.bucket = after l.maxTokens l.refillRate (times (requestsOf addr log)) l.bucket ∧
      (requestsOf addr log).map Prod.snd =
        answers l.maxTokens l.refillRate (times (requestsOf addr log)) l.bucket := by
  induction calls generalizing s log l with
  | nil =>
      rw [exec_nil, Option.some.injEq, Prod.mk.injEq] at hrun
      obtain ⟨rfl, rfl⟩ := hrun
      exact ⟨l, hfind, rfl, rfl, rfl, rfl, rfl⟩
  | cons call calls ih =>
      obtain ⟨answer, s₁, log', hstep, hrest, rfl⟩ := exec_cons _ hrun
      rw [requestsOf_cons]
      rcases rateStep_found hen hstep hfind with ⟨hfound, hof⟩ | ⟨now, hfound, hof⟩
      · rw [hof]
        exact ih hrest hfound
      · obtain ⟨hip, hmax, hrate⟩ := l.request_frame now
        obtain ⟨l', hfind', hip', hmax', hrate', hbucket, hanswers⟩ := ih hrest hfound
        have hask := l.request_bucket now
        rw [hmax, hrate] at hbucket hanswers
        refine ⟨l', hfind', hip'.trans hip, hmax'.trans hmax, hrate'.trans hrate, ?_, ?_⟩
        · simp only [hof, Option.toList_some, List.singleton_append, times, List.map_cons, after,
            ← hask]
          exact hbucket
        · simp only [hof, Option.toList_some, List.singleton_append, times, List.map_cons, answers,
            ← hask]
          exact congrArg _ hanswers

/-- A request to the client's limiter. -/
lemma ratelimitCheckRequest_found (hen : config.enableRateLimiting ≠ 0)
    (hfind : s.limiters.find RateLimiter.ip key = some (addr, l)) (mem : Option IpField)
    (created now : ℤ) :
    (ratelimitCheckRequest config mem created now key s).1 =
        ⟨if (l.request now).1 then 0 else -1, some addr⟩ ∧
      (ratelimitCheckRequest config mem created now key s).2.limiters.find RateLimiter.ip key =
        some (addr, (l.request now).2) := by
  obtain ⟨hmem, -⟩ := Records.mem_of_find hfind
  have hget : getRateLimiter config mem created key s.limiters =
      (some (addr, l), s.limiters.store addr l) := getOrCreate_found hfind
  rw [ratelimitCheckRequest_request now hen hget]
  refine ⟨rfl, ?_⟩
  have hkept := Records.find_store_of_find hfind hmem (b := l) rfl
  have hstored := Records.find_store_of_find hkept ((Records.mem_store hmem).mpr (.inl rfl))
    (l.request_frame now).1
  rwa [if_pos rfl] at hstored

/-- **Refused polling costs nothing.** Take any calls, at clock readings in order and not
before the last refill, of which those that resolve to the limiter of a client are all
refused. A request of the client after them is answered, and leaves the limiter, as it
would have been without them. -/
theorem refused_polls_free (config : RateConfig) (hen : config.enableRateLimiting ≠ 0)
    (s s' : RateState) (key : ClientIp) (addr : ℕ) (l : RateLimiter)
    (hfind : s.limiters.find RateLimiter.ip key = some (addr, l)) (hcap : l.tokens ≤ l.maxTokens)
    (calls : List RateCall) (log : List (RateCall × RateAnswer))
    (hrun : exec (rateStep config) s calls = some (log, s'))
    (hrefused : ∀ r ∈ requestsOf addr log, r.2 = false) (now : ℤ)
    (hclock : (l.lastRefill :: ((requestsOf addr log).map Prod.fst ++ [now])).Pairwise (· ≤ ·))
    (mem mem' : Option IpField) (created created' : ℤ) :
    ∃ limiter,
      (ratelimitCheckRequest config mem' created' now key s').1 =
        (ratelimitCheckRequest config mem created now key s).1 ∧
      (ratelimitCheckRequest config mem created now key s).1.record = some addr ∧
      (ratelimitCheckRequest config mem created now key s).2.limiters.find RateLimiter.ip key =
        some (addr, limiter) ∧
      (ratelimitCheckRequest config mem' created' now key s').2.limiters.find RateLimiter.ip key =
        some (addr, limiter) := by
  obtain ⟨l', hfind', hip, hmax, hrate, hbucket, hanswers⟩ := requests_found hen hrun hfind
  obtain ⟨hret, hleft⟩ := ratelimitCheckRequest_found hen hfind mem created now
  obtain ⟨hret', hleft'⟩ := ratelimitCheckRequest_found hen hfind' mem' created' now
  have hsame : l'.request now = l.request now := by
    have htimes : (l.bucket.last :: (times (requestsOf addr log) ++ [(now : ℚ)])).Pairwise
        (· ≤ ·) := by
      have hcast := hclock.map (fun n : ℤ => (n : ℚ)) fun _ _ hle => Int.cast_le.mpr hle
      rwa [List.map_cons, List.map_append, List.map_map] at hcast
    have hfalse : ∀ a ∈ answers l.maxTokens l.refillRate (times (requestsOf addr log)) l.bucket,
        a = false := by
      rw [← hanswers]
      intro a ha
      obtain ⟨r, hr, rfl⟩ := List.mem_map.mp ha
      exact hrefused r hr
    have hask : ask l.maxTokens l.refillRate now l'.bucket =
        ask l.maxTokens l.refillRate now l.bucket := by
      rw [hbucket]
      exact ask_after_refused hcap htimes hfalse
    have hrequest' := l'.request_bucket now
    rw [hmax, hrate, hask, ← l.request_bucket now, Prod.mk.injEq] at hrequest'
    obtain ⟨hip₁, hmax₁, hrate₁⟩ := l.request_frame now
    obtain ⟨hip₂, hmax₂, hrate₂⟩ := l'.request_frame now
    exact Prod.ext hrequest'.1 (RateLimiter.ext_bucket (hip₂.trans (hip.trans hip₁.symm))
      (hmax₂.trans (hmax.trans hmax₁.symm)) (hrate₂.trans (hrate.trans hrate₁.symm)) hrequest'.2)
  refine ⟨(l.request now).2, ?_, ?_, hleft, ?_⟩
  · rw [hret', hret, hsame]
  · rw [hret]
  · rw [hleft', hsame]

end Found

/-- The only client has taken its one token of this minute at the time 100. -/
def emptiedState : RateState where
  limiters := Records.empty.push ⟨usedField.strncpy shortIp, 0, 1, 1 / 60, 100⟩
  trackers := .empty

/-- It asks twice, too early. -/
def twoPolls : List RateCall :=
  [.checkRequest shortIp none 0 130, .checkRequest shortIp none 0 145]

/-- The token that has flowed in after a minute is there for a client that has asked in
between. -/
theorem refused_polls_free_two :
    ∃ log s' limiter,
      exec (rateStep ⟨1, 1, 0⟩) emptiedState twoPolls = some (log, s') ∧
      requestsOf 0 log = [(130, false), (145, false)] ∧
      (ratelimitCheckRequest ⟨1, 1, 0⟩ none 0 160 shortIp s').1 =
        (ratelimitCheckRequest ⟨1, 1, 0⟩ none 0 160 shortIp emptiedState).1 ∧
      (ratelimitCheckRequest ⟨1, 1, 0⟩ none 0 160 shortIp emptiedState).1.ret = 0 ∧
      (ratelimitCheckRequest ⟨1, 1, 0⟩ none 0 160 shortIp s').2.limiters.find
        RateLimiter.ip shortIp = some (0, limiter) := by
  have hrun : (exec (rateStep ⟨1, 1, 0⟩) emptiedState twoPolls).map (fun r => requestsOf 0 r.1) =
      some [(130, false), (145, false)] := by
    decide +kernel
  obtain ⟨⟨log, s'⟩, hex, hreq⟩ := Option.map_eq_some_iff.mp hrun
  have hreq : requestsOf 0 log = [(130, false), (145, false)] := hreq
  obtain ⟨limiter, hsame, -, -, hleft⟩ := refused_polls_free ⟨1, 1, 0⟩ (by decide) emptiedState s'
    shortIp 0 _ rfl (by decide) twoPolls log hex (by rw [hreq]; decide) 160
    (by rw [hreq]; decide) none none 0 0
  exact ⟨log, s', limiter, hex, hreq, hsame, by decide +kernel, hleft⟩

end ProxyMax
