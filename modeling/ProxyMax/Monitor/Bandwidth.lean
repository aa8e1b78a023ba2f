import ProxyMax.Lib.CInt
import ProxyMax.Lib.WindowAverage
import ProxyMax.Monitor.Trackers

/-!
`ratelimit_check_bandwidth` of `src/monitor/ratelimit.c`: how much of a client's traffic
passes in a span of 60 seconds.

* `Usage.window`, `Usage.check_visit`: a check is a visit to the client's window.
* `Transfer`, `admittedBytes`: the calls, and what they let through.
* `exists_visits`: the calls of a client are answered as the visits to its window.
* `bandwidth_admitted_le`: the bound, which is the limit for 118 seconds; `greedy` calls
  come to 117.
-/

namespace ProxyMax

open CString Machine WindowAverage

/-- The counts of a client as a window. -/
def Usage.window (u : Usage) : Window := ⟨u.windowStart, u.sent + u.received⟩

/-- The average that a transfer is added to. -/
def Usage.average (u : Usage) (now : ℤ) : ℕ :=
  let elapsed : ℚ := now - u.windowStart
  let windowDuration : ℚ := if elapsed = 0 then 1 else elapsed
  ⌊addSize u.sent u.received / windowDuration⌋.toNat

/-- The sums in `size_t` that a check makes do not wrap. -/
structure Usage.SumsFit (config : RateConfig) (now : ℤ) (bytes : ℕ) (direction : ℤ) (u : Usage) :
    Prop where
  total : u.sent + u.received < sizeMod
  rate : u.average now + bytes < sizeMod
  count : u.exceeded config now bytes = false →
    (if direction = 0 then u.sent else u.received) + bytes < sizeMod

/-- A call of `ratelimit_check_bandwidth`. -/
structure Transfer where
  ip : ClientIp
  bytes : ℕ
  direction : ℤ
  mem : Option IpField
  found : ℤ
  now : ℤ

/-- The call, as an input of the machine. -/
def Transfer.call (c : Transfer) : RateCall :=
  .checkBandwidth c.ip c.bytes c.direction c.mem c.found c.now

/-- The clock readings of a call. -/
def Transfer.readings (c : Transfer) : List ℤ := [c.found, c.now]

instance (config : RateConfig) (now : ℤ) (bytes : ℕ) (direction : ℤ) (u : Usage) :
    Decidable (u.SumsFit config now bytes direction) :=
  decidable_of_iff
    (u.sent + u.received < sizeMod ∧ u.average now + bytes < sizeMod ∧
      (u.exceeded config now bytes = false →
        (if direction = 0 then u.sent else u.received) + bytes < sizeMod))
    ⟨fun h => ⟨h.1, h.2.1, h.2.2⟩, fun h => ⟨h.total, h.rate, h.count⟩⟩

/-- What the call is to the window of its client. -/
def Transfer.visit (c : Transfer) : Visit := ⟨c.found, c.now, c.bytes⟩

/-- The condition on the sums of a call. -/
def SumsFit (config : RateConfig) (s : RateState) (call : RateCall) : Prop :=
  match call with
  | .checkBandwidth ip bytes direction _ found now =>
      (Usage.touch found (s.usageOf ip)).SumsFit config now bytes direction
  | _ => True

instance (config : RateConfig) (s : RateState) (call : RateCall) :
    Decidable (SumsFit config s call) :=
  match call with
  | .checkBandwidth .. => inferInstanceAs (Decidable (Usage.SumsFit ..))
  | .checkRequest .. => isTrue trivial
  | .updateBandwidth .. => isTrue trivial
  | .cleanupOldEntries _ => isTrue trivial

/-- What one entry of a log let through for a client in the 60 seconds after `s`. -/
def admittedBy (ip : ClientIp) (s : ℤ) : RateCall × RateAnswer → ℕ
  | (.checkBandwidth key bytes _ _ _ now, answer) =>
      if key.text = ip.text ∧ answer.ret = 0 ∧ s < now ∧ now ≤ s + 60 then bytes else 0
  | _ => 0

/-- The bytes admitted for a client in the 60 seconds after `s`. -/
def admittedBytes (ip : ClientIp) (s : ℤ) (log : List (RateCall × RateAnswer)) : ℕ :=
  (log.map (admittedBy ip s)).sum

/-! ### A check as a visit -/

section Visits

variable {config : RateConfig} {t : ℤ}

/-- The limit, in bytes for each second. -/
def RateConfig.limitBps (config : RateConfig) : ℕ := (config.rateLimitBandwidthKbps * 1024).toNat

lemma Usage.average_eq {u : Usage} {now : ℤ} (hle : u.windowStart ≤ now)
    (htotal : u.sent + u.received < sizeMod) :
    u.average now = u.window.total / u.window.duration now := by
  obtain ⟨e, rfl⟩ : ∃ e : ℕ, now = u.windowStart + e := ⟨(now - u.windowStart).toNat, by omega⟩
  have helapsed : ((u.windowStart + e : ℤ) : ℚ) - u.windowStart = (e : ℕ) := by
    push_cast
    ring
  have hduration : (if ((e : ℕ) : ℚ) = 0 then 1 else ((e : ℕ) : ℚ)) = ((max e 1 : ℕ) : ℚ) := by
    rcases Nat.eq_zero_or_pos e with rfl | hpos
    · simp
    · rw [if_neg (by exact_mod_cast hpos.ne'), max_eq_left hpos]
  have hwindow : u.window.duration (u.windowStart + e) = max e 1 := by
    rw [Window.duration, Usage.window]
    simp
  rw [Usage.average]
  simp only [helapsed, hduration, hwindow]
  rw [addSize, Nat.mod_eq_of_lt htotal, ← Int.cast_natCast (u.sent + u.received),
    Rat.floor_intCast_div_natCast]
  rfl

lemma Usage.exceeded_eq_false {u : Usage} {found now : ℤ} {bytes : ℕ} {direction : ℤ}
    (hpos : 0 < config.rateLimitBandwidthKbps)
    (hint : config.rateLimitBandwidthKbps * 1024 ≤ CInt.intMax) (hle : u.windowStart ≤ now)
    (hfit : u.SumsFit config now bytes direction) :
    u.exceeded config now bytes = false ↔
      Admits config.limitBps u.window ⟨found, now, bytes⟩ := by
  have hexceeded : u.exceeded config now bytes = decide (addSize (u.average now) bytes >
      (config.rateLimitBandwidthKbps * 1024 % (sizeMod : ℤ)).toNat) := rfl
  have hlimit : (config.rateLimitBandwidthKbps * 1024 % (sizeMod : ℤ)).toNat =
      config.limitBps := by
    rw [CInt.intMax] at hint
    rw [Int.emod_eq_of_lt (by omega) (by rw [sizeMod]; omega), RateConfig.limitBps]
  rw [hexceeded, hlimit, addSize, Nat.mod_eq_of_lt hfit.rate, Usage.average_eq hle hfit.total,
    Admits, decide_eq_false_iff_not, not_lt]

lemma Usage.window_touch (found : ℤ) (old : Option Usage) :
    (Usage.touch found old).window = opened 60 found (old.map Usage.window) := by
  cases old with
  | none => rfl
  | some u =>
      rw [Usage.touch, Option.map_some, opened, Usage.window]
      show _ = if 60 ≤ found - u.windowStart then _ else _
      split_ifs <;> rfl

/-- **A check is a visit** to the window of the client. -/
lemma Usage.check_visit {old : Option Usage} {found now : ℤ} {bytes : ℕ} {direction : ℤ}
    (hpos : 0 < config.rateLimitBandwidthKbps)
    (hint : config.rateLimitBandwidthKbps * 1024 ≤ CInt.intMax)
    (hold : ∀ u, old = some u → u.windowStart ≤ t) (hle : t ≤ found) (hle' : found ≤ now)
    (hfit : (Usage.touch found old).SumsFit config now bytes direction) :
    ((check config found now bytes direction old).1 = 0 ↔
        (visit 60 config.limitBps (old.map Usage.window) ⟨found, now, bytes⟩).1 = true) ∧
      (check config found now bytes direction old).2.window =
        (visit 60 config.limitBps (old.map Usage.window) ⟨found, now, bytes⟩).2 ∧
      (check config found now bytes direction old).2.windowStart ≤ now := by
  have hstart := (touch_times hold hle).1.trans hle'
  have hadmits := @exceeded_eq_false _ _ found _ _ _ hpos hint hstart hfit
  rw [check, visit, ← window_touch]
  cases hexceeded : (touch found old).exceeded config now bytes with
  | true =>
      have hnot : ¬ Admits config.limitBps (touch found old).window ⟨found, now, bytes⟩ :=
        fun h => by rw [hadmits.mpr h] at hexceeded; cases hexceeded
      rw [if_pos rfl, if_neg hnot]
      exact ⟨iff_of_false (show (-1 : ℤ) ≠ 0 by decide) Bool.false_ne_true, rfl, hstart⟩
  | false =>
      have hcount := hfit.count hexceeded
      rw [if_neg Bool.false_ne_true, if_pos (hadmits.mp hexceeded)]
      have htimes := ((touch found old).count_times bytes direction).1
      refine ⟨iff_of_true rfl rfl, ?_, htimes.trans_le hstart⟩
      rw [window, count]
      split_ifs at hcount ⊢ <;> rw [addSize, Nat.mod_eq_of_lt hcount, window] <;>
        simp only [Window.mk.injEq, true_and] <;> omega

lemma admittedBytes_cons (ip : ClientIp) (s : ℤ) (entry : RateCall × RateAnswer)
    (log : List (RateCall × RateAnswer)) :
    admittedBytes ip s (entry :: log) = admittedBy ip s entry + admittedBytes ip s log := by
  rw [admittedBytes, List.map_cons, List.sum_cons, admittedBytes]

/-- **The step of a client**: a call does not come to its tracker, or is a visit to its
window. -/
lemma transfer_step {ip : ClientIp} (hlen : ip.text.length ≤ 14)
    (hen : config.enableRateLimiting ≠ 0) (hpos : 0 < config.rateLimitBandwidthKbps)
    (hint : config.rateLimitBandwidthKbps * 1024 ≤ CInt.intMax) {c : Transfer} {s s' : RateState}
    {answer : RateAnswer} (hstep : rateStep config s c.call = some (answer, s'))
    (hfit : SumsFit config s c.call) (hold : ∀ u, s.usageOf ip = some u → u.windowStart ≤ t)
    (hafter : c.visit.After t) :
    (s'.usageOf ip = s.usageOf ip ∧ ∀ start, admittedBy ip start (c.call, answer) = 0) ∨
      (c.ip.text = ip.text ∧ ∃ u, s'.usageOf ip = some u ∧ u.windowStart ≤ c.now ∧
        u.window =
          (WindowAverage.visit 60 config.limitBps ((s.usageOf ip).map Usage.window) c.visit).2 ∧
        ∀ start, admittedBy ip start (c.call, answer) =
          spentIn start 60 (c.visit,
            (WindowAverage.visit 60 config.limitBps ((s.usageOf ip).map Usage.window)
              c.visit).1)) := by
  have hon : ¬ (config.enableRateLimiting = 0 ∨ config.rateLimitBandwidthKbps = 0) := by
    rintro (h | h)
    · exact hen h
    · omega
  rw [Transfer.call, rateStep, Option.some.injEq] at hstep
  rcases ratelimitCheckBandwidth_usage hon c.mem c.found c.now c.ip c.bytes c.direction s with
    ⟨hret, -, -⟩ | ⟨addr, s₂, hret, hself, hother⟩
  · obtain ⟨rfl, rfl⟩ := Prod.mk.inj (hret.symm.trans hstep)
    exact .inl ⟨rfl, fun start => by simp [Transfer.call, admittedBy]⟩
  · obtain ⟨rfl, rfl⟩ := Prod.mk.inj (hret.symm.trans hstep)
    by_cases hip : c.ip.text = ip.text
    · obtain rfl := ClientIp.eq_of_text hip
      have hfound : t ≤ c.found := hafter.1
      have hnow : c.found ≤ c.now := hafter.2
      obtain ⟨hadmits, hwindow, hstart⟩ := Usage.check_visit hpos hint hold hfound hnow hfit
      refine .inr ⟨rfl, _, hself (.inl hlen), hstart, hwindow, fun start => ?_⟩
      rw [Transfer.call, admittedBy, spentIn]
      exact if_congr (by simp only [hadmits, true_and, Transfer.visit]) rfl rfl
    · refine .inl ⟨hother ip fun h => hip h.symm, fun start => ?_⟩
      rw [Transfer.call, admittedBy, if_neg fun h => hip h.1]

/-- **The run of a client.** What is admitted for a client is what is admitted of visits to
its window, which are calls of the client. -/
lemma exists_visits {ip : ClientIp} (hlen : ip.text.length ≤ 14)
    (hen : config.enableRateLimiting ≠ 0) (hpos : 0 < config.rateLimitBandwidthKbps)
    (hint : config.rateLimitBandwidthKbps * 1024 ≤ CInt.intMax) (calls : List Transfer) :
    ∀ {s s' : RateState} {log : List (RateCall × RateAnswer)} {t : ℤ},
      exec (rateStep config) s (calls.map Transfer.call) = some (log, s') →
      Along (rateStep config) (SumsFit config) s (calls.map Transfer.call) →
      (∀ u, s.usageOf ip = some u → u.windowStart ≤ t) →
      (t :: calls.flatMap Transfer.readings).Pairwise (· ≤ ·) →
      ∃ vs, Ordered t vs ∧ (∀ v ∈ vs, ∃ c ∈ calls, c.ip.text = ip.text ∧ v = c.visit) ∧
        ∀ start, admittedBytes ip start log =
          admittedIn start 60
            (answers 60 config.limitBps ((s.usageOf ip).map Usage.window) vs) := by
  induction calls with
  | nil =>
      intro s s' log t hrun _ _ _
      rw [List.map_nil, exec_nil, Option.some.injEq, Prod.mk.injEq] at hrun
      rw [← hrun.1]
      exact ⟨[], trivial, by simp, fun _ => rfl⟩
  | cons c calls ih =>
      intro s s' log t hrun hfit hold hclock
      obtain ⟨answer, s₁, log', hstep, hrest, rfl⟩ := exec_cons _ hrun
      have hfits := hfit.2 answer s₁ hstep
      rw [List.flatMap_cons, Transfer.readings, List.cons_append, List.cons_append,
        List.nil_append, List.pairwise_cons, List.pairwise_cons] at hclock
      obtain ⟨hlater, hfound, hnow⟩ := hclock
      have hafter : c.visit.After t := ⟨hlater _ List.mem_cons_self, hfound _ List.mem_cons_self⟩
      have hcalls : ∀ {vs : List Visit},
          (∀ v ∈ vs, ∃ d ∈ calls, d.ip.text = ip.text ∧ v = d.visit) →
          ∀ v ∈ vs, ∃ d ∈ c :: calls, d.ip.text = ip.text ∧ v = d.visit := fun h v hv =>
        (h v hv).imp fun d hd => ⟨.tail _ hd.1, hd.2⟩
      rcases transfer_step hlen hen hpos hint hstep hfit.1 hold hafter with
        ⟨hsame, hnone⟩ | ⟨hip, u, husage, hstart, hwindow, hspent⟩
      · obtain ⟨vs, hvs, hmem, hsum⟩ := ih hrest hfits (by rwa [hsame])
          (List.pairwise_cons.mpr ⟨fun r hr => hlater r (.tail _ (.tail _ hr)),
            (List.pairwise_cons.mp hnow).2⟩)
        refine ⟨vs, hvs, hcalls hmem, fun start => ?_⟩
        rw [admittedBytes_cons, hnone, hsum start, hsame, Nat.zero_add]
      · obtain ⟨vs, hvs, hmem, hsum⟩ := ih hrest hfits
          (fun v hv => by rwa [← Option.some.inj (husage.symm.trans hv)]) hnow
        refine ⟨c.visit :: vs, ⟨hafter, hvs⟩, fun v hv => ?_, fun start => ?_⟩
        · rcases List.mem_cons.mp hv with rfl | hv
          · exact ⟨c, List.mem_cons_self, hip, rfl⟩
          · exact hcalls hmem v hv
        · rw [admittedBytes_cons, hspent, hsum start, husage, Option.map_some, hwindow, answers,
            admittedIn, admittedIn, List.map_cons, List.sum_cons]

end Visits

/-- **The bandwidth over a minute.** In a run of checks from empty lists, with clock
readings that do not decrease and sums that do not wrap, what is admitted for a client in
any span of 60 seconds is at most the limit for 118 seconds, and for 117 if its calls take
no time. -/
theorem bandwidth_admitted_le (config : RateConfig) (hen : config.enableRateLimiting ≠ 0)
    (hpos : 0 < config.rateLimitBandwidthKbps)
    (hint : config.rateLimitBandwidthKbps * 1024 ≤ CInt.intMax) (ip : ClientIp)
    (hlen : ip.text.length ≤ 14) (calls : List Transfer)
    (hclock : (calls.flatMap Transfer.readings).Pairwise (· ≤ ·))
    (log : List (RateCall × RateAnswer)) (s' : RateState)
    (hrun : exec (rateStep config) ratelimitInit (calls.map Transfer.call) = some (log, s'))
    (hfit : Along (rateStep config) (SumsFit config) ratelimitInit (calls.map Transfer.call))
    (s : ℤ) :
    (admittedBytes ip s log : ℤ) ≤ 118 * (config.rateLimitBandwidthKbps * 1024) ∧
      ((∀ c ∈ calls, c.ip.text = ip.text → c.found = c.now) →
        (admittedBytes ip s log : ℤ) ≤ 117 * (config.rateLimitBandwidthKbps * 1024)) := by
  obtain ⟨t, ht⟩ := exists_before hclock
  obtain ⟨vs, hvs, hmem, hsum⟩ := exists_visits hlen hen hpos hint calls hrun hfit
    (fun u hu => by cases hu) ht
  have hlimit : (config.limitBps : ℤ) = config.rateLimitBandwidthKbps * 1024 :=
    Int.toNat_of_nonneg (by omega)
  obtain ⟨hlong, hshort⟩ := @admitted_le 60 config.limitBps t vs (by decide) hvs s
  rw [hlimit] at hlong hshort
  rw [hsum s]
  refine ⟨hlong, fun hone => hshort fun v hv => ?_⟩
  obtain ⟨c, hc, hip, rfl⟩ := hmem v hv
  exact hone c hc hip

/-- The largest amounts that the average admits, one after the other, when the window has
been open for `d` seconds. -/
def greedy (limit d : ℕ) : ℕ → ℕ → List ℕ
  | 0, _ => []
  | fuel + 1, total =>
      (limit - total / d) :: greedy limit d fuel (total + (limit - total / d))

/-- A call of one client, which takes no time. -/
def greedyCall (bytes : ℕ) (now : ℤ) : Transfer :=
  ⟨shortIp, bytes, 0, some usedField, now, now⟩

/-- Empty calls at the times 0 and 60, and all that passes at the times 59 and 118. -/
def greedyCalls : List Transfer :=
  greedyCall 0 0 :: (greedy 1024 59 440 0).map (greedyCall · 59) ++
    greedyCall 0 60 :: (greedy 1024 58 432 0).map (greedyCall · 118)

/-- The run of these calls, at a limit of 1024 bytes for each second. -/
lemma exec_greedyCalls :
    (exec (rateStep ⟨1, 0, 1⟩) ratelimitInit (greedyCalls.map Transfer.call)).map
        (fun r => admittedBytes shortIp 58 r.1) = some (117 * 1024) ∧
      Along (rateStep ⟨1, 0, 1⟩) (SumsFit ⟨1, 0, 1⟩) ratelimitInit
        (greedyCalls.map Transfer.call) := by
  decide +kernel

lemma greedyCalls_ordered : (greedyCalls.flatMap Transfer.readings).Pairwise (· ≤ ·) := by
  rw [← List.isChain_iff_pairwise]
  decide +kernel

/-- These calls come up to the bound for calls that take no time. -/
theorem bandwidth_admitted_le_greedyCalls :
    ∃ (log : List (RateCall × RateAnswer)) (s' : RateState),
      exec (rateStep ⟨1, 0, 1⟩) ratelimitInit (greedyCalls.map Transfer.call) = some (log, s') ∧
      (admittedBytes shortIp 58 log : ℤ) ≤ 117 * (1 * 1024) := by
  obtain ⟨⟨log, s'⟩, hrun, -⟩ := Option.map_eq_some_iff.mp exec_greedyCalls.1
  refine ⟨log, s', hrun, (bandwidth_admitted_le ⟨1, 0, 1⟩ (by decide) (by decide) (by decide)
    shortIp (by decide) greedyCalls greedyCalls_ordered log s' hrun exec_greedyCalls.2 58).2
    fun c hc _ => ?_⟩
  rcases List.mem_append.mp hc with hc | hc <;> rcases List.mem_cons.mp hc with rfl | hc
  · rfl
  · obtain ⟨b, -, rfl⟩ := List.mem_map.mp hc
    rfl
  · rfl
  · obtain ⟨b, -, rfl⟩ := List.mem_map.mp hc
    rfl

/-- In one minute they pass more than the limit for it. -/
theorem bandwidth_not_le :
    ∃ (log : List (RateCall × RateAnswer)) (s' : RateState),
      exec (rateStep ⟨1, 0, 1⟩) ratelimitInit (greedyCalls.map Transfer.call) = some (log, s') ∧
      shortIp.text.length ≤ 14 ∧
      (greedyCalls.flatMap Transfer.readings).Pairwise (· ≤ ·) ∧
      Along (rateStep ⟨1, 0, 1⟩) (SumsFit ⟨1, 0, 1⟩) ratelimitInit
        (greedyCalls.map Transfer.call) ∧
      admittedBytes shortIp 58 log = 117 * 1024 ∧
      ¬ (admittedBytes shortIp 58 log : ℤ) ≤ 60 * (1 * 1024) := by
  obtain ⟨⟨log, s'⟩, hrun, hbytes⟩ := Option.map_eq_some_iff.mp exec_greedyCalls.1
  have hbytes : admittedBytes shortIp 58 log = 117 * 1024 := hbytes
  refine ⟨log, s', hrun, by decide, greedyCalls_ordered, exec_greedyCalls.2, hbytes, ?_⟩
  rw [hbytes]
  decide

end ProxyMax
