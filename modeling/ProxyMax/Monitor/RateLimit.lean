import ProxyMax.Lib.Machine
import ProxyMax.Monitor.Records

/-!
Rate limiting, `src/monitor/ratelimit.c`. The double arithmetic is read as exact
rationals and `time_t` as integers; every call of `time` is a reading of its own.

* `RateLimiter`, `BandwidthTracker`, `RateState`: the records and the two lists.
* `ratelimitCheckRequest`, `ratelimitCheckBandwidth`, `ratelimitUpdateBandwidth`,
  `ratelimitCleanupOldEntries`: the operations.
* `RateCall`, `RateAnswer`, `rateStep`: the operations as the steps of a machine.
-/

namespace ProxyMax

open CString

/-- The settings of `g_config` that rate limiting reads. -/
structure RateConfig where
  enableRateLimiting : ℤ
  rateLimitRequests : ℤ
  rateLimitBandwidthKbps : ℤ

/-- `rate_limiter_t`. -/
structure RateLimiter where
  ip : IpField
  tokens : ℚ
  maxTokens : ℚ
  refillRate : ℚ
  lastRefill : ℤ

/-- `bandwidth_tracker_t`; the counters are `size_t`. -/
structure BandwidthTracker where
  ip : IpField
  bytesSent : ℕ
  bytesReceived : ℕ
  windowStart : ℤ
  lastActivity : ℤ

/-- `g_rate_limiters` and `g_bandwidth_trackers`. -/
structure RateState where
  limiters : Records RateLimiter
  trackers : Records BandwidthTracker

/-- The lists after `ratelimit_init`. -/
def ratelimitInit : RateState := ⟨.empty, .empty⟩

/-! ### Requests -/

/-- `get_rate_limiter`; `created` is the clock reading of a new record. -/
def getRateLimiter (config : RateConfig) (mem : Option IpField) (created : ℤ) (ip : ClientIp)
    (s : Records RateLimiter) : Option (ℕ × RateLimiter) × Records RateLimiter :=
  getOrCreate RateLimiter.ip id
    (fun field =>
      { ip := field
        maxTokens := config.rateLimitRequests
        tokens := config.rateLimitRequests
        refillRate := config.rateLimitRequests / 60
        lastRefill := created })
    mem ip s

/-- `refill_tokens`. -/
def refillTokens (now : ℤ) (limiter : RateLimiter) : RateLimiter :=
  let elapsed : ℚ := now - limiter.lastRefill
  if elapsed > 0 then
    let tokens := limiter.tokens + elapsed * limiter.refillRate
    { limiter with
      tokens := if tokens > limiter.maxTokens then limiter.maxTokens else tokens
      lastRefill := now }
  else limiter

/-- A return value, and the address of the record that the call was about. -/
structure RateAnswer where
  ret : ℤ
  record : Option ℕ
deriving DecidableEq

/-- `ratelimit_check_request`. -/
def ratelimitCheckRequest (config : RateConfig) (mem : Option IpField) (created now : ℤ)
    (ip : ClientIp) (s : RateState) : RateAnswer × RateState :=
  if config.enableRateLimiting = 0 then (⟨0, none⟩, s)
  else
    match getRateLimiter config mem created ip s.limiters with
    | (none, limiters) => (⟨-1, none⟩, { s with limiters })
    | (some (addr, limiter), limiters) =>
        let limiter := refillTokens now limiter
        if limiter.tokens ≥ 1 then
          (⟨0, some addr⟩, { s with
            limiters := limiters.store addr { limiter with tokens := limiter.tokens - 1 } })
        else (⟨-1, some addr⟩, { s with limiters := limiters.store addr limiter })

/-! ### Bandwidth -/

/-- `get_bandwidth_tracker`, when the clock shows `now`. -/
def getBandwidthTracker (mem : Option IpField) (now : ℤ) (ip : ClientIp)
    (s : Records BandwidthTracker) : Option (ℕ × BandwidthTracker) × Records BandwidthTracker :=
  getOrCreate BandwidthTracker.ip
    (fun tracker =>
      let tracker :=
        if now - tracker.windowStart ≥ 60 then
          { tracker with bytesSent := 0, bytesReceived := 0, windowStart := now }
        else tracker
      { tracker with lastActivity := now })
    (fun field =>
      { ip := field
        bytesSent := 0
        bytesReceived := 0
        windowStart := now
        lastActivity := now })
    mem ip s

/-- The counting of a transfer: up for the direction 0, down for any other. -/
def BandwidthTracker.count (tracker : BandwidthTracker) (bytes : ℕ) (direction : ℤ) :
    BandwidthTracker :=
  if direction = 0 then
    { tracker with bytesSent := addSize tracker.bytesSent bytes }
  else { tracker with bytesReceived := addSize tracker.bytesReceived bytes }

/-- The test of `ratelimit_check_bandwidth`: whether `bytes` more would exceed
the limit, when the clock shows `now`. -/
def bandwidthExceeded (config : RateConfig) (now : ℤ) (tracker : BandwidthTracker) (bytes : ℕ) :
    Bool :=
  let elapsed : ℚ := now - tracker.windowStart
  let windowDuration : ℚ := if elapsed = 0 then 1 else elapsed
  let totalBytes := addSize tracker.bytesSent tracker.bytesReceived
  let bandwidthBps := ⌊totalBytes / windowDuration⌋.toNat
  let limitBps := (config.rateLimitBandwidthKbps * 1024 % (sizeMod : ℤ)).toNat
  addSize bandwidthBps bytes > limitBps

/-- `ratelimit_check_bandwidth`; the clock shows `found` in the search for the
tracker and `now` after it. -/
def ratelimitCheckBandwidth (config : RateConfig) (mem : Option IpField) (found now : ℤ)
    (ip : ClientIp) (bytes : ℕ) (direction : ℤ) (s : RateState) : RateAnswer × RateState :=
  if config.enableRateLimiting = 0 ∨ config.rateLimitBandwidthKbps = 0 then (⟨0, none⟩, s)
  else
    match getBandwidthTracker mem found ip s.trackers with
    | (none, trackers) => (⟨-1, none⟩, { s with trackers })
    | (some (addr, tracker), trackers) =>
        if bandwidthExceeded config now tracker bytes then (⟨-1, some addr⟩, { s with trackers })
        else
          (⟨0, some addr⟩,
            { s with trackers := trackers.store addr (tracker.count bytes direction) })

/-- `ratelimit_update_bandwidth`, which returns nothing. -/
def ratelimitUpdateBandwidth (config : RateConfig) (mem : Option IpField) (now : ℤ) (ip : ClientIp)
    (bytes : ℕ) (direction : ℤ) (s : RateState) : RateAnswer × RateState :=
  if config.enableRateLimiting = 0 then (⟨0, none⟩, s)
  else
    match getBandwidthTracker mem now ip s.trackers with
    | (none, trackers) => (⟨0, none⟩, { s with trackers })
    | (some (addr, tracker), trackers) =>
        (⟨0, some addr⟩, { s with trackers := trackers.store addr (tracker.count bytes direction) })

/-- `ratelimit_cleanup_old_entries`. -/
def ratelimitCleanupOldEntries (now : ℤ) (s : RateState) : RateState :=
  { s with trackers := s.trackers.keep fun tracker => ¬ now - tracker.lastActivity > 300 }

/-! ### What an operation leaves alone -/

lemma ratelimitCheckRequest_trackers (config : RateConfig) (mem : Option IpField)
    (created now : ℤ) (ip : ClientIp) (s : RateState) :
    (ratelimitCheckRequest config mem created now ip s).2.trackers = s.trackers := by
  rw [ratelimitCheckRequest]
  split
  · rfl
  · split
    · rfl
    · simp only
      split <;> rfl

lemma ratelimitCheckBandwidth_limiters (config : RateConfig) (mem : Option IpField)
    (found now : ℤ) (ip : ClientIp) (bytes : ℕ) (direction : ℤ) (s : RateState) :
    (ratelimitCheckBandwidth config mem found now ip bytes direction s).2.limiters
      = s.limiters := by
  rw [ratelimitCheckBandwidth]
  split
  · rfl
  · split
    · rfl
    · split <;> rfl

lemma ratelimitUpdateBandwidth_limiters (config : RateConfig) (mem : Option IpField)
    (now : ℤ) (ip : ClientIp) (bytes : ℕ) (direction : ℤ) (s : RateState) :
    (ratelimitUpdateBandwidth config mem now ip bytes direction s).2.limiters = s.limiters := by
  rw [ratelimitUpdateBandwidth]
  split
  · rfl
  · split <;> rfl

/-! ### The machine -/

/-- A call of one of the operations, with what the memory allocator and the
clock give it. -/
inductive RateCall where
  | checkRequest (ip : ClientIp) (mem : Option IpField) (created now : ℤ)
  | checkBandwidth (ip : ClientIp) (bytes : ℕ) (direction : ℤ) (mem : Option IpField)
      (found now : ℤ)
  | updateBandwidth (ip : ClientIp) (bytes : ℕ) (direction : ℤ) (mem : Option IpField) (now : ℤ)
  | cleanupOldEntries (now : ℤ)

/-- One call. -/
def rateStep (config : RateConfig) (s : RateState) : RateCall → Option (RateAnswer × RateState)
  | .checkRequest ip mem created now => some (ratelimitCheckRequest config mem created now ip s)
  | .checkBandwidth ip bytes direction mem found now =>
      some (ratelimitCheckBandwidth config mem found now ip bytes direction s)
  | .updateBandwidth ip bytes direction mem now =>
      some (ratelimitUpdateBandwidth config mem now ip bytes direction s)
  | .cleanupOldEntries now => some (⟨0, none⟩, ratelimitCleanupOldEntries now s)

end ProxyMax
