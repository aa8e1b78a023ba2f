import ProxyMax.Monitor.Bandwidth

/-!
`ratelimit_check_bandwidth` of `src/monitor/ratelimit.c`: what a tracker may hold.

* `ratelimitCheckBandwidth_at`, `ratelimitUpdateBandwidth_at`: the calls, as they leave the
  record at their address and the others.
* `HoldsAt`: the tracker at an address holds no more than the limit for each second since
  its window began; `holdsAt_step` is the step, `holdsAt_run` the run.
* `window_bandwidth_le`: the bound in every state of a run from empty lists.
-/

namespace ProxyMax

open CString Machine WindowAverage

/-! ### The record at an address -/

/-- The tracker that a search returns, among the others. -/
lemma getBandwidthTracker_at {s s' : Records BandwidthTracker} {mem : Option IpField} {now : ℤ}
    {ip : ClientIp} {addr : ℕ} {tracker : BandwidthTracker}
    (h : getBandwidthTracker mem now ip s = (some (addr, tracker), s')) :
    tracker.usage = Usage.touch now ((s.find BandwidthTracker.ip ip).map fun r => r.2.usage) ∧
      (∀ r, s.find BandwidthTracker.ip ip = some r → r.1 = addr ∧ r ∈ s.nodes) ∧
      (addr, tracker) ∈ s'.nodes ∧ ∀ r ∈ s'.nodes, r = (addr, tracker) ∨ r ∈ s.nodes := by
  rcases getOrCreate_cases BandwidthTracker.ip (BandwidthTracker.touch now) _ mem ip s with
    ⟨⟨a, t⟩, hfind, hget⟩ | ⟨field, hfind, -, hget⟩ | ⟨-, -, hget⟩
  · have hmem := (Records.mem_of_find hfind).1
    obtain ⟨hrecord, rfl⟩ := Prod.mk.inj (hget.symm.trans h)
    obtain ⟨rfl, rfl⟩ := Prod.mk.inj (Option.some.inj hrecord)
    refine ⟨?_, fun r hr => ?_, (Records.mem_store hmem).mpr (.inl rfl),
      fun r hr => ((Records.mem_store hmem).mp hr).imp_right And.left⟩
    · rw [hfind, Option.map_some, BandwidthTracker.usage_touch]
    · obtain rfl := Option.some.inj (hfind.symm.trans hr)
      exact ⟨rfl, hmem⟩
  · obtain ⟨hrecord, rfl⟩ := Prod.mk.inj (hget.symm.trans h)
    obtain ⟨rfl, rfl⟩ := Prod.mk.inj (Option.some.inj hrecord)
    rw [hfind]
    exact ⟨rfl, nofun, Records.mem_push.mpr (.inl rfl), fun r hr => Records.mem_push.mp hr⟩
  · cases (Prod.mk.inj (hget.symm.trans h)).1

lemma getBandwidthTracker_none {s s' : Records BandwidthTracker} {mem : Option IpField} {now : ℤ}
    {ip : ClientIp} (h : getBandwidthTracker mem now ip s = (none, s')) : s' = s := by
  rcases getBandwidthTracker_cases mem now ip s with ⟨hnone, -⟩ | ⟨_, _, _, hsome, -⟩
  · exact ((Prod.mk.inj (hnone.symm.trans h)).2).symm
  · cases (Prod.mk.inj (hsome.symm.trans h)).1

/-- A store to the record that a search has returned. -/
lemma Records.mem_store_of_search {α : Type*} {s s' : Records α} {addr : ℕ} {a b : α}
    (hmem : (addr, a) ∈ s'.nodes) (hothers : ∀ r ∈ s'.nodes, r = (addr, a) ∨ r ∈ s.nodes)
    {r : ℕ × α} (hr : r ∈ (s'.store addr b).nodes) : r = (addr, b) ∨ r ∈ s.nodes := by
  rcases (mem_store hmem).mp hr with rfl | ⟨hr, hne⟩
  · exact .inl rfl
  · rcases hothers r hr with rfl | hr
    · exact absurd rfl hne
    · exact .inr hr

section Calls

variable {config : RateConfig} {s s' : RateState} {answer : RateAnswer}

/-- **A check**, as it leaves the trackers. -/
lemma ratelimitCheckBandwidth_at {mem : Option IpField} {found now : ℤ} {ip : ClientIp}
    {bytes : ℕ} {direction : ℤ}
    (h : ratelimitCheckBandwidth config mem found now ip bytes direction s = (answer, s')) :
    (answer.record = none ∧ s'.trackers = s.trackers) ∨
    ∃ addr tracker, answer.record = some addr ∧
      tracker.usage = (Usage.check config found now bytes direction (s.usageOf ip)).2 ∧
      (∀ u, s.usageOf ip = some u → ∃ t, (addr, t) ∈ s.trackers.nodes ∧ t.usage = u) ∧
      (addr, tracker) ∈ s'.trackers.nodes ∧
      ∀ r ∈ s'.trackers.nodes, r = (addr, tracker) ∨ r ∈ s.trackers.nodes := by
  rw [ratelimitCheckBandwidth] at h
  split_ifs at h with hoff
  · obtain ⟨rfl, rfl⟩ := Prod.mk.inj h
    exact .inl ⟨rfl, rfl⟩
  · rcases hget : getBandwidthTracker mem found ip s.trackers with ⟨_ | ⟨addr, t⟩, trackers⟩
    · rw [hget] at h
      obtain ⟨rfl, rfl⟩ := Prod.mk.inj h
      exact .inl ⟨rfl, getBandwidthTracker_none hget⟩
    · obtain ⟨husage, hfound, hmem, hothers⟩ := getBandwidthTracker_at hget
      have hold : ∀ u, s.usageOf ip = some u → ∃ t, (addr, t) ∈ s.trackers.nodes ∧ t.usage = u := by
        intro u hu
        obtain ⟨⟨a, t⟩, hfind, rfl⟩ := Option.map_eq_some_iff.mp hu
        obtain ⟨rfl, hin⟩ := hfound _ hfind
        exact ⟨t, hin, rfl⟩
      have husage : t.usage = Usage.touch found (s.usageOf ip) := husage
      have hexceeded : bandwidthExceeded config now t bytes =
          (Usage.touch found (s.usageOf ip)).exceeded config now bytes := by
        rw [← husage]
        rfl
      rw [hget] at h
      dsimp only at h
      rw [hexceeded] at h
      rw [Usage.check]
      split_ifs at h ⊢ with hover
      · obtain ⟨rfl, rfl⟩ := Prod.mk.inj h
        exact .inr ⟨addr, t, rfl, husage, hold, hmem, hothers⟩
      · obtain ⟨rfl, rfl⟩ := Prod.mk.inj h
        refine .inr ⟨addr, t.count bytes direction, rfl, ?_, hold,
          (Records.mem_store hmem).mpr (.inl rfl),
          fun r hr => Records.mem_store_of_search hmem hothers hr⟩
        rw [BandwidthTracker.usage_count, husage]

/-- **An update**, as it leaves the trackers. -/
lemma ratelimitUpdateBandwidth_at {mem : Option IpField} {now : ℤ} {ip : ClientIp} {bytes : ℕ}
    {direction : ℤ}
    (h : ratelimitUpdateBandwidth config mem now ip bytes direction s = (answer, s')) :
    ∀ r ∈ s'.trackers.nodes, answer.record = some r.1 ∨ r ∈ s.trackers.nodes := by
  rw [ratelimitUpdateBandwidth] at h
  split_ifs at h with hoff
  · obtain ⟨-, rfl⟩ := Prod.mk.inj h
    exact fun r hr => .inr hr
  · rcases hget : getBandwidthTracker mem now ip s.trackers with ⟨_ | ⟨addr, t⟩, trackers⟩
    · rw [hget] at h
      obtain ⟨-, rfl⟩ := Prod.mk.inj h
      exact fun r hr => .inr (getBandwidthTracker_none hget ▸ hr)
    · obtain ⟨-, -, hmem, hothers⟩ := getBandwidthTracker_at hget
      rw [hget] at h
      obtain ⟨rfl, rfl⟩ := Prod.mk.inj h
      intro r hr
      exact (Records.mem_store_of_search hmem hothers hr).imp_left fun he => by rw [he]

end Calls

/-! ### The bound along a run -/

/-- The clock readings of an entry, if it is a check that resolved to the address. -/
def checkReadings (addr : ℕ) : RateCall × RateAnswer → List ℤ
  | (.checkBandwidth _ _ _ _ found now, answer) =>
      if answer.record = some addr then [found, now] else []
  | _ => []

/-- The clock readings of the checks that resolved to the address. -/
def readingsOf (addr : ℕ) (log : List (RateCall × RateAnswer)) : List ℤ :=
  log.flatMap (checkReadings addr)

/-- An entry is an update that resolved to the address. -/
def UpdatesAt (addr : ℕ) : RateCall × RateAnswer → Prop
  | (.updateBandwidth .., answer) => answer.record = some addr
  | _ => False

/-- The sums of a call that resolves to the address do not wrap. -/
def ChecksFit (config : RateConfig) (addr : ℕ) (s : RateState) (call : RateCall) : Prop :=
  ((rateStep config s call).bind fun r => r.1.record) = some addr → SumsFit config s call

instance (config : RateConfig) (addr : ℕ) (s : RateState) (call : RateCall) :
    Decidable (ChecksFit config addr s call) := inferInstanceAs (Decidable (_ → _))

/-- At the time `t` the tracker at the address holds no more than the limit for each second
since its window began. -/
def HoldsAt (config : RateConfig) (addr : ℕ) (t : ℤ) (s : RateState) : Prop :=
  ∀ tracker, (addr, tracker) ∈ s.trackers.nodes → Kept config.limitBps t tracker.usage.window

section Run

variable {config : RateConfig} {s s' : RateState} {addr : ℕ} {t : ℤ}

/-- **A check** that resolves to the address is a visit to the window of the tracker. -/
lemma ratelimitCheckBandwidth_holdsAt (hpos : 0 < config.rateLimitBandwidthKbps)
    (hint : config.rateLimitBandwidthKbps * 1024 ≤ CInt.intMax) {ip : ClientIp} {bytes : ℕ}
    {direction : ℤ} {mem : Option IpField} {found now : ℤ} {answer : RateAnswer}
    (hcheck : ratelimitCheckBandwidth config mem found now ip bytes direction s = (answer, s'))
    (haddr : answer.record = some addr)
    (hfit : SumsFit config s (.checkBandwidth ip bytes direction mem found now))
    (hle : t ≤ found) (hle' : found ≤ now) (hold : HoldsAt config addr t s) :
    HoldsAt config addr now s' := by
  rcases ratelimitCheckBandwidth_at hcheck with
    ⟨hnone, -⟩ | ⟨addr', after, hrecord, husage, hfound, hmem, -⟩
  · rw [hnone] at haddr
    cases haddr
  obtain rfl : addr' = addr := Option.some.inj (hrecord.symm.trans haddr)
  have hwindows : ∀ x, (s.usageOf ip).map Usage.window = some x → Kept config.limitBps t x := by
    intro x hx
    obtain ⟨u, hu, rfl⟩ := Option.map_eq_some_iff.mp hx
    obtain ⟨tracker, htracker, rfl⟩ := hfound u hu
    exact hold tracker htracker
  have hstart : ∀ u, s.usageOf ip = some u → u.windowStart ≤ t := fun u hu =>
    (hwindows u.window (by rw [hu, Option.map_some])).start_le
  obtain ⟨-, hwindow, -⟩ := Usage.check_visit hpos hint hstart hle hle' hfit
  intro tracker h
  obtain rfl := Records.eq_of_mem h hmem
  rw [husage, hwindow]
  exact Kept.visit (v := ⟨found, now, bytes⟩) hwindows ⟨hle, hle'⟩

/-- **The step**. -/
lemma holdsAt_step (hpos : 0 < config.rateLimitBandwidthKbps)
    (hint : config.rateLimitBandwidthKbps * 1024 ≤ CInt.intMax) {call : RateCall}
    {answer : RateAnswer} (hstep : rateStep config s call = some (answer, s'))
    (hupdate : ¬ UpdatesAt addr (call, answer)) (hfit : ChecksFit config addr s call)
    (hclock : (t :: checkReadings addr (call, answer)).Pairwise (· ≤ ·))
    (hold : HoldsAt config addr t s) :
    HoldsAt config addr ((checkReadings addr (call, answer)).getLastD t) s' := by
  cases call with
  | checkRequest ip mem created now =>
      rw [rateStep, Option.some.injEq] at hstep
      have htrackers := ratelimitCheckRequest_trackers config mem created now ip s
      rw [hstep] at htrackers
      exact fun tracker h => hold tracker (htrackers ▸ h)
  | cleanupOldEntries now =>
      rw [rateStep, Option.some.injEq, Prod.mk.injEq] at hstep
      obtain ⟨-, rfl⟩ := hstep
      exact fun tracker h => hold tracker (List.mem_of_mem_filter h)
  | updateBandwidth ip bytes direction mem now =>
      rw [rateStep, Option.some.injEq] at hstep
      exact fun tracker h =>
        hold tracker ((ratelimitUpdateBandwidth_at hstep _ h).resolve_left hupdate)
  | checkBandwidth ip bytes direction mem found now =>
      rw [ChecksFit, hstep] at hfit
      rw [rateStep, Option.some.injEq] at hstep
      rw [checkReadings] at hclock ⊢
      by_cases haddr : answer.record = some addr
      · rw [if_pos haddr] at hclock ⊢
        obtain ⟨hle, hle', -⟩ : t ≤ found ∧ found ≤ now ∧ True := by simp_all
        exact ratelimitCheckBandwidth_holdsAt hpos hint hstep haddr (hfit haddr) hle hle' hold
      · -- another tracker, or none
        rw [if_neg haddr]
        rcases ratelimitCheckBandwidth_at hstep with
          ⟨-, hsame⟩ | ⟨addr', after, hrecord, -, -, -, hothers⟩
        · exact fun tracker h => hold tracker (hsame ▸ h)
        · intro tracker h
          refine hold tracker ((hothers _ h).resolve_left fun he => ?_)
          obtain rfl := congrArg Prod.fst he
          exact haddr hrecord

/-- **The run**. -/
lemma holdsAt_run (hpos : 0 < config.rateLimitBandwidthKbps)
    (hint : config.rateLimitBandwidthKbps * 1024 ≤ CInt.intMax) {calls : List RateCall}
    {log : List (RateCall × RateAnswer)}
    (hrun : exec (rateStep config) s calls = some (log, s'))
    (hupdates : ∀ entry ∈ log, ¬ UpdatesAt addr entry)
    (hfit : Along (rateStep config) (ChecksFit config addr) s calls)
    (hclock : (t :: readingsOf addr log).Pairwise (· ≤ ·)) (hold : HoldsAt config addr t s) :
    HoldsAt config addr ((readingsOf addr log).getLastD t) s' := by
  induction calls generalizing s log t with
  | nil =>
      rw [exec_nil, Option.some.injEq, Prod.mk.injEq] at hrun
      obtain ⟨rfl, rfl⟩ := hrun
      exact hold
  | cons call calls ih =>
      obtain ⟨answer, s₁, log', hstep, hrest, rfl⟩ := exec_cons _ hrun
      have hreadings : readingsOf addr ((call, answer) :: log') =
          checkReadings addr (call, answer) ++ readingsOf addr log' := List.flatMap_cons
      rw [hreadings, ← List.cons_append, List.pairwise_append] at hclock
      have hnext := holdsAt_step hpos hint hstep (hupdates _ List.mem_cons_self) hfit.1 hclock.1
        hold
      have hlast : (checkReadings addr (call, answer) ++ readingsOf addr log').getLastD t =
          (readingsOf addr log').getLastD ((checkReadings addr (call, answer)).getLastD t) := by
        rw [List.getLastD_eq_getLast?, List.getLast?_append, Option.getD_or,
          List.getLastD_eq_getLast?, List.getLastD_eq_getLast?]
      rw [hreadings, hlast]
      refine ih hrest (fun e he => hupdates e (List.mem_cons_of_mem _ he)) (hfit.2 _ _ hstep)
        (List.pairwise_cons.mpr ⟨hclock.2.2 _ List.getLastD_mem_cons, hclock.2.1⟩) hnext

/-- **The bound on a window.** In a run from empty lists in which only checks resolve to
the tracker at an address, at clock readings that do not decrease and with sums that do not
wrap, the tracker holds at most the limit for each second from the start of its window to
the last of these readings, and for one second where they are the same. -/
theorem window_bandwidth_le (config : RateConfig) (hpos : 0 < config.rateLimitBandwidthKbps)
    (hint : config.rateLimitBandwidthKbps * 1024 ≤ CInt.intMax) (addr : ℕ)
    (calls : List RateCall) (log : List (RateCall × RateAnswer)) (s' : RateState)
    (hrun : exec (rateStep config) ratelimitInit calls = some (log, s'))
    (hupdates : ∀ entry ∈ log, ¬ UpdatesAt addr entry)
    (hfit : Along (rateStep config) (ChecksFit config addr) ratelimitInit calls)
    (hclock : (readingsOf addr log).Pairwise (· ≤ ·)) (now : ℤ)
    (hnow : (readingsOf addr log).getLast? = some now) (tracker : BandwidthTracker)
    (htracker : (addr, tracker) ∈ s'.trackers.nodes) :
    (tracker.bytesSent + tracker.bytesReceived : ℤ) ≤
      config.rateLimitBandwidthKbps * 1024 * max 1 (now - tracker.windowStart) := by
  obtain ⟨t, ht⟩ := exists_before hclock
  have hrun := holdsAt_run hpos hint hrun hupdates hfit ht
    (fun tracker h => absurd h List.not_mem_nil) tracker htracker
  rw [List.getLastD_eq_getLast?, hnow, Option.getD_some] at hrun
  have hstart : tracker.windowStart ≤ now := hrun.start_le
  have hlimit : (config.limitBps : ℤ) = config.rateLimitBandwidthKbps * 1024 :=
    Int.toNat_of_nonneg (by omega)
  have hduration : (tracker.usage.window.duration now : ℤ) =
      max 1 (now - tracker.windowStart) := by
    rw [Window.duration, Nat.cast_max, Int.toNat_of_nonneg (by
      show 0 ≤ now - tracker.windowStart
      omega), max_comm]
    rfl
  calc (tracker.bytesSent + tracker.bytesReceived : ℤ)
      = (tracker.bytesSent + tracker.bytesReceived : ℕ) := (Nat.cast_add ..).symm
    _ ≤ (config.limitBps * tracker.usage.window.duration now : ℕ) := by
        exact_mod_cast hrun.total_le
    _ = config.rateLimitBandwidthKbps * 1024 * max 1 (now - tracker.windowStart) := by
        rw [Nat.cast_mul, hlimit, hduration]

end Run

/-- A check of 1024 bytes when the window begins, and one of 900 bytes ten seconds later. -/
def twoChecks : List RateCall := [(greedyCall 1024 100).call, (greedyCall 900 110).call]

/-- Both are admitted, and the tracker holds less than 1024 bytes for each of ten seconds. -/
theorem window_bandwidth_le_twoChecks :
    ∃ log s' tracker, exec (rateStep ⟨1, 0, 1⟩) ratelimitInit twoChecks = some (log, s') ∧
      (0, tracker) ∈ s'.trackers.nodes ∧ tracker.bytesSent = 1924 ∧
      (tracker.bytesSent + tracker.bytesReceived : ℤ) ≤
        1 * 1024 * max 1 (110 - tracker.windowStart) := by
  have hrun : (exec (rateStep ⟨1, 0, 1⟩) ratelimitInit twoChecks).map (fun r =>
      (readingsOf 0 r.1, r.2.trackers.nodes.map fun n => (n.1, n.2.bytesSent))) =
      some ([100, 100, 110, 110], [(0, 1924)]) := by
    decide +kernel
  obtain ⟨⟨log, s'⟩, hex, hresult⟩ := Option.map_eq_some_iff.mp hrun
  obtain ⟨hreadings, hnodes⟩ := Prod.mk.inj hresult
  have hreadings : readingsOf 0 log = [100, 100, 110, 110] := hreadings
  obtain ⟨⟨addr, tracker⟩, hmem, heq⟩ := List.mem_map.mp
    (show ((0, 1924) : ℕ × ℕ) ∈ s'.trackers.nodes.map fun n => (n.1, n.2.bytesSent) by
      rw [hnodes]; exact List.mem_cons_self)
  obtain ⟨rfl, hsent⟩ := Prod.mk.inj heq
  refine ⟨log, s', tracker, hex, hmem, hsent, ?_⟩
  refine window_bandwidth_le ⟨1, 0, 1⟩ (by decide) (by decide) 0 twoChecks log s' hex
    (fun entry hentry hupdate => ?_) (by decide +kernel) (by rw [hreadings]; decide) 110
    (by rw [hreadings]; rfl) tracker hmem
  have hcall : entry.1 ∈ twoChecks :=
    exec_inputs _ hex ▸ List.mem_map_of_mem hentry
  obtain ⟨call, answer⟩ := entry
  rcases List.mem_cons.mp hcall with rfl | hcall
  · exact hupdate
  · rcases List.mem_singleton.mp hcall with rfl
    exact hupdate

end ProxyMax
