import ProxyMax.Monitor.OneRecord

/-!
What the trackers of `src/monitor/ratelimit.c` amount to for each client.

* `Usage`: the counts of a tracker and its times; `RateState.usageOf` is what the list
  holds for a client, if anything.
* `Usage.touch`, `Usage.check`, `Usage.update`: the operations, on the usage of one client.
* `ratelimitCheckBandwidth_usage`, `ratelimitUpdateBandwidth_usage`: the list does to the
  usage of the client what these say, and leaves that of every other client.
-/

namespace ProxyMax

open CString

/-- A time before clock readings in order. -/
lemma exists_before {readings : List ℤ} (h : readings.Pairwise (· ≤ ·)) :
    ∃ t, (t :: readings).Pairwise (· ≤ ·) := by
  cases readings with
  | nil => exact ⟨0, List.pairwise_singleton ..⟩
  | cons r rs =>
      refine ⟨r, List.pairwise_cons.mpr ⟨fun x hx => ?_, h⟩⟩
      rcases List.mem_cons.mp hx with rfl | hx
      · exact le_rfl
      · exact (List.pairwise_cons.mp h).1 x hx

/-- What is counted in a tracker, and when. -/
structure Usage where
  sent : ℕ
  received : ℕ
  windowStart : ℤ
  lastActivity : ℤ

namespace Usage

/-- The counts for a call at the time `now`: a client without a tracker and one whose
window is over both begin again. -/
def touch (now : ℤ) : Option Usage → Usage
  | none => ⟨0, 0, now, now⟩
  | some u => if now - u.windowStart ≥ 60 then ⟨0, 0, now, now⟩ else { u with lastActivity := now }

/-- A transfer is counted. -/
def count (u : Usage) (bytes : ℕ) (direction : ℤ) : Usage :=
  if direction = 0 then { u with sent := addSize u.sent bytes }
  else { u with received := addSize u.received bytes }

/-- The test against the limit. -/
def exceeded (config : RateConfig) (now : ℤ) (u : Usage) (bytes : ℕ) : Bool :=
  let elapsed : ℚ := now - u.windowStart
  let windowDuration : ℚ := if elapsed = 0 then 1 else elapsed
  addSize ⌊addSize u.sent u.received / windowDuration⌋.toNat bytes >
    (config.rateLimitBandwidthKbps * 1024 % (sizeMod : ℤ)).toNat

/-- `ratelimit_check_bandwidth`, for the client: the return value and the usage. -/
def check (config : RateConfig) (found now : ℤ) (bytes : ℕ) (direction : ℤ) (old : Option Usage) :
    ℤ × Usage :=
  if (touch found old).exceeded config now bytes then (-1, touch found old)
  else (0, (touch found old).count bytes direction)

/-- `ratelimit_update_bandwidth`, for the client. -/
def update (now : ℤ) (bytes : ℕ) (direction : ℤ) (old : Option Usage) : Usage :=
  (touch now old).count bytes direction

lemma touch_times {old : Option Usage} {t now : ℤ}
    (hold : ∀ u, old = some u → u.windowStart ≤ t) (hle : t ≤ now) :
    (touch now old).windowStart ≤ now ∧ (touch now old).lastActivity = now := by
  cases old with
  | none => exact ⟨le_rfl, rfl⟩
  | some u =>
      rw [touch]
      split_ifs
      · exact ⟨le_rfl, rfl⟩
      · exact ⟨(hold u rfl).trans hle, rfl⟩

lemma count_times (u : Usage) (bytes : ℕ) (direction : ℤ) :
    (u.count bytes direction).windowStart = u.windowStart ∧
      (u.count bytes direction).lastActivity = u.lastActivity := by
  rw [count]
  split_ifs <;> exact ⟨rfl, rfl⟩

lemma check_times (config : RateConfig) (found now : ℤ) (bytes : ℕ) (direction : ℤ)
    (old : Option Usage) :
    (check config found now bytes direction old).2.windowStart = (touch found old).windowStart ∧
      (check config found now bytes direction old).2.lastActivity =
        (touch found old).lastActivity := by
  rw [check]
  split_ifs
  · exact ⟨rfl, rfl⟩
  · exact count_times _ bytes direction

end Usage

/-- The usage in a tracker. -/
def BandwidthTracker.usage (tracker : BandwidthTracker) : Usage :=
  ⟨tracker.bytesSent, tracker.bytesReceived, tracker.windowStart, tracker.lastActivity⟩

lemma BandwidthTracker.usage_count (tracker : BandwidthTracker) (bytes : ℕ) (direction : ℤ) :
    (tracker.count bytes direction).usage = tracker.usage.count bytes direction := by
  rw [count, Usage.count]
  split <;> rfl

/-- What a search does to a tracker that it finds. -/
def BandwidthTracker.touch (now : ℤ) (tracker : BandwidthTracker) : BandwidthTracker :=
  let tracker :=
    if now - tracker.windowStart ≥ 60 then
      { tracker with bytesSent := 0, bytesReceived := 0, windowStart := now }
    else tracker
  { tracker with lastActivity := now }

lemma BandwidthTracker.usage_touch (now : ℤ) (tracker : BandwidthTracker) :
    (tracker.touch now).usage = Usage.touch now (some tracker.usage) := by
  by_cases hover : now - tracker.windowStart ≥ 60 <;>
    simp [touch, usage, Usage.touch, hover]

lemma BandwidthTracker.ip_touch (now : ℤ) (tracker : BandwidthTracker) :
    (tracker.touch now).ip = tracker.ip := by
  rw [touch]
  simp only
  split_ifs <;> rfl

/-- The usage of a client. -/
def RateState.usageOf (s : RateState) (ip : ClientIp) : Option Usage :=
  (s.trackers.find BandwidthTracker.ip ip).map fun r => r.2.usage

/-- What `get_bandwidth_tracker` returns is what the client's usage comes to, and the
trackers of the other clients stay. -/
lemma getBandwidthTracker_cases (mem : Option IpField) (now : ℤ) (ip : ClientIp)
    (s : Records BandwidthTracker) :
    (getBandwidthTracker mem now ip s = (none, s) ∧ mem = none ∧
        s.find BandwidthTracker.ip ip = none) ∨
    ∃ addr tracker s', getBandwidthTracker mem now ip s = (some (addr, tracker), s') ∧
      tracker.usage =
        Usage.touch now ((s.find BandwidthTracker.ip ip).map fun r => r.2.usage) ∧
      (addr, tracker) ∈ s'.nodes ∧
      (Terminates mem ip → s'.find BandwidthTracker.ip ip = some (addr, tracker)) ∧
      ∀ key : ClientIp, key.text ≠ ip.text → tracker.ip.text ≠ key.text ∧
        s'.find BandwidthTracker.ip key = s.find BandwidthTracker.ip key := by
  rcases getOrCreate_cases BandwidthTracker.ip (BandwidthTracker.touch now) _ mem ip s with
    ⟨⟨addr, t⟩, hfind, hget⟩ | ⟨field, hfind, rfl, hget⟩ | ⟨hfind, rfl, hget⟩
  · obtain ⟨hmem, htext⟩ := Records.mem_of_find hfind
    have hip := t.ip_touch now
    refine .inr ⟨addr, t.touch now, _, hget, ?_, (Records.mem_store hmem).mpr (.inl rfl),
      fun _ => Records.find_store hfind hip, fun key hne => ?_⟩
    · rw [hfind, Option.map_some, BandwidthTracker.usage_touch]
    · have hkey : t.ip.text ≠ key.text := fun h => hne (h.symm.trans htext)
      exact ⟨hip ▸ hkey, Records.find_store_ne hmem hip hkey⟩
  · refine .inr ⟨s.fresh, _, _, hget, ?_, Records.mem_push.mpr (.inl rfl),
      fun hterm => Records.find_push ip hterm.text_strncpy, fun key hne => ?_⟩
    · rw [hfind]
      rfl
    · have htext : (field.strncpy ip).text ≠ key.text := fun h =>
        hne (IpField.eq_of_text_strncpy h).symm
      exact ⟨htext, Records.find_push_ne htext⟩
  · exact .inl ⟨hget, rfl, hfind⟩

section Calls

variable {config : RateConfig}

/-- **A check of a transfer**: it fails when there is no memory for the tracker, or does
to the client's usage what `Usage.check` says. -/
lemma ratelimitCheckBandwidth_usage
    (hon : ¬ (config.enableRateLimiting = 0 ∨ config.rateLimitBandwidthKbps = 0))
    (mem : Option IpField) (found now : ℤ) (ip : ClientIp) (bytes : ℕ) (direction : ℤ)
    (s : RateState) :
    (ratelimitCheckBandwidth config mem found now ip bytes direction s = (⟨-1, none⟩, s) ∧
        mem = none ∧ s.usageOf ip = none) ∨
    ∃ addr s', ratelimitCheckBandwidth config mem found now ip bytes direction s =
        (⟨(Usage.check config found now bytes direction (s.usageOf ip)).1, some addr⟩, s') ∧
      (Terminates mem ip → s'.usageOf ip =
        some (Usage.check config found now bytes direction (s.usageOf ip)).2) ∧
      ∀ key : ClientIp, key.text ≠ ip.text → s'.usageOf key = s.usageOf key := by
  rcases getBandwidthTracker_cases mem found ip s.trackers with
    ⟨hget, hmem, hfind⟩ | ⟨addr, t, trackers, hget, husage, hin, hself, hother⟩
  · exact .inl ⟨by rw [ratelimitCheckBandwidth, if_neg hon, hget], hmem,
      by rw [RateState.usageOf, hfind]; rfl⟩
  · have hexceeded : bandwidthExceeded config now t bytes =
        (Usage.touch found (s.usageOf ip)).exceeded config now bytes := by
      rw [RateState.usageOf, ← husage]
      rfl
    refine .inr ?_
    rw [ratelimitCheckBandwidth, if_neg hon, hget, Usage.check, ← hexceeded]
    show ∃ addr s', (if bandwidthExceeded config now t bytes = true then _ else _) = _ ∧ _
    split_ifs with h
    · refine ⟨addr, _, rfl, fun hterm => ?_, fun key hne => ?_⟩
      · rw [RateState.usageOf, hself hterm, Option.map_some, husage]
        rfl
      · rw [RateState.usageOf, (hother key hne).2]
        rfl
    · refine ⟨addr, _, rfl, fun hterm => ?_, fun key hne => ?_⟩
      · rw [RateState.usageOf, Records.find_store (hself hterm) (t.ip_count bytes direction),
          Option.map_some, BandwidthTracker.usage_count, husage]
        rfl
      · rw [RateState.usageOf, Records.find_store_ne hin (t.ip_count bytes direction)
          (hother key hne).1, (hother key hne).2]
        rfl

/-- **A transfer that is only counted.** -/
lemma ratelimitUpdateBandwidth_usage (hon : config.enableRateLimiting ≠ 0)
    (mem : Option IpField) (now : ℤ) (ip : ClientIp) (bytes : ℕ) (direction : ℤ) (s : RateState) :
    (ratelimitUpdateBandwidth config mem now ip bytes direction s = (⟨0, none⟩, s) ∧
        mem = none ∧ s.usageOf ip = none) ∨
    ∃ addr s', ratelimitUpdateBandwidth config mem now ip bytes direction s =
        (⟨0, some addr⟩, s') ∧
      (Terminates mem ip →
        s'.usageOf ip = some (Usage.update now bytes direction (s.usageOf ip))) ∧
      ∀ key : ClientIp, key.text ≠ ip.text → s'.usageOf key = s.usageOf key := by
  rcases getBandwidthTracker_cases mem now ip s.trackers with
    ⟨hget, hmem, hfind⟩ | ⟨addr, t, trackers, hget, husage, hin, hself, hother⟩
  · exact .inl ⟨by rw [ratelimitUpdateBandwidth, if_neg hon, hget], hmem,
      by rw [RateState.usageOf, hfind]; rfl⟩
  · refine .inr ⟨addr, _, by rw [ratelimitUpdateBandwidth, if_neg hon, hget], fun hterm => ?_,
      fun key hne => ?_⟩
    · rw [RateState.usageOf, Records.find_store (hself hterm) (t.ip_count bytes direction),
        Option.map_some, BandwidthTracker.usage_count, husage]
      rfl
    · rw [RateState.usageOf, Records.find_store_ne hin (t.ip_count bytes direction)
        (hother key hne).1, (hother key hne).2]
      rfl

end Calls

/-- A client whose address does not fill the field. -/
def shortIp : ClientIp := ⟨ascii "10.0.0.7", by decide +kernel, by decide +kernel⟩

/-- Memory that was used before. -/
def usedField : IpField := ⟨List.replicate 16 7, by decide⟩

end ProxyMax
