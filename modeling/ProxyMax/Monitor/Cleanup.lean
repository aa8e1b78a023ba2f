import ProxyMax.Lib.LinkedList
import ProxyMax.Monitor.Trackers

/-!
`ratelimit_cleanup_old_entries` of `src/monitor/ratelimit.c`: which trackers it removes,
and that no later check can tell.

* `TrackerList`, `cleanupLoop`: the list of trackers in memory, and the loop that unlinks
  and frees nodes of it; `cleanupLoop_eq` says which list it leaves.
* `Inserted`: a run with cleanups put in anywhere.
* `Stale`, `Similar`: what the run with the cleanups has lost, its next call for the client
  would have reset; `similar_call` and `similar_cleanup` are the steps, `similar_run` the run.
* `cleanup_invisible`: the checks return the same.
-/

namespace ProxyMax

open CString Machine LinkedList

/-! ### The loop in memory -/

/-- `g_bandwidth_trackers` and the memory that it points into. -/
structure TrackerList where
  mem : ℕ → Option (Node ℕ BandwidthTracker)
  head : Option ℕ

/-- `prev->next = next`, or `g_bandwidth_trackers = next` if `prev` is null. -/
def TrackerList.link (l : TrackerList) (prev next : Option ℕ) : TrackerList :=
  match prev with
  | some p => { l with
      mem := Function.update l.mem p ((l.mem p).map fun n => { n with next := next }) }
  | none => { l with head := next }

/-- `free(tracker)`. -/
def TrackerList.free (l : TrackerList) (tracker : ℕ) : TrackerList :=
  { l with mem := Function.update l.mem tracker none }

/-- The loop of `ratelimit_cleanup_old_entries`, for at most so many passes. It does not
return when it follows a pointer to a node that is not there. -/
def cleanupLoop (now : ℤ) : ℕ → TrackerList → Option ℕ → Option ℕ → Option TrackerList
  | _, l, _, none => some l
  | 0, _, _, some _ => none
  | fuel + 1, l, prev, some tracker =>
      (l.mem tracker).bind fun node =>
        if now - node.value.lastActivity > 300 then
          cleanupLoop now fuel ((l.link prev node.next).free tracker) prev node.next
        else cleanupLoop now fuel l (some tracker) node.next

/-- The test for the trackers that stay. -/
def BandwidthTracker.recent (now : ℤ) (tracker : BandwidthTracker) : Bool :=
  ¬ now - tracker.lastActivity > 300

lemma BandwidthTracker.recent_iff {now : ℤ} {tracker : BandwidthTracker} :
    tracker.recent now = true ↔ now - 300 ≤ tracker.lastActivity := by
  rw [recent, decide_eq_true_iff]
  omega

/-- A node is unlinked and freed. -/
lemma chain_unlinked {l : TrackerList} {kept rest : List (ℕ × BandwidthTracker)} {q : ℕ}
    {b : BandwidthTracker} {next : Option ℕ} (h : Chain l.mem l.head (kept ++ (q, b) :: rest))
    (hq : l.mem q = some ⟨b, next⟩) :
    Chain ((l.link (lastAddress kept) next).free q).mem
      ((l.link (lastAddress kept) next).free q).head (kept ++ rest) := by
  rcases kept.eq_nil_or_concat with rfl | ⟨kept, ⟨t, a⟩, rfl⟩
  · have hhead : l.head = some q := h.1
    rw [hhead] at h
    exact chain_free_first h hq
  · rw [List.concat_eq_append, List.append_assoc, List.singleton_append] at h ⊢
    obtain ⟨nx, ht⟩ := chain_mem h (List.mem_append_right kept List.mem_cons_self)
    rw [lastAddress_snoc, TrackerList.link, ht]
    exact chain_unlink h hq

/-- **The loop**: from a node on, it keeps what is recent of the rest of the list. -/
lemma cleanupLoop_spec (now : ℤ) {rest : List (ℕ × BandwidthTracker)} :
    ∀ {l : TrackerList} {kept : List (ℕ × BandwidthTracker)} {fuel : ℕ},
      Chain l.mem l.head (kept ++ rest) → rest.length ≤ fuel →
      ∃ l', cleanupLoop now fuel l (lastAddress kept) (rest.map Prod.fst).head? = some l' ∧
        Chain l'.mem l'.head (kept ++ rest.filter fun r => r.2.recent now) := by
  induction rest with
  | nil =>
      intro l kept fuel h _
      exact ⟨l, by rw [List.map_nil, List.head?_nil, cleanupLoop], h⟩
  | cons r rest ih =>
      intro l kept fuel h hfuel
      obtain ⟨q, b⟩ := r
      obtain ⟨-, next, hq, hnext⟩ := chain_suffix h
      obtain ⟨fuel, rfl⟩ := Nat.exists_eq_add_of_lt (Nat.lt_of_lt_of_le (Nat.succ_pos _) hfuel)
      rw [List.length_cons] at hfuel
      rw [Nat.zero_add, List.map_cons, List.head?_cons, cleanupLoop, hq, Option.bind_some,
        List.filter_cons, chain_first hnext]
      by_cases hold : now - b.lastActivity > 300
      · rw [if_pos hold, if_neg (show ¬ b.recent now = true by
          rw [BandwidthTracker.recent_iff]; omega)]
        rw [chain_first hnext] at hq
        exact ih (chain_unlinked h hq) (by omega)
      · rw [if_neg hold, if_pos (show b.recent now = true from
          BandwidthTracker.recent_iff.mpr (by omega))]
        have happend : ∀ ns, kept ++ (q, b) :: ns = kept ++ [(q, b)] ++ ns := by simp
        have hlast : lastAddress (kept ++ [(q, b)]) = some q := lastAddress_snoc ..
        rw [happend] at h ⊢
        rw [← hlast]
        exact ih h (by omega)

/-! ### Runs with cleanups -/

/-- The clock readings of a call. -/
def RateCall.readings : RateCall → List ℤ
  | .checkRequest _ _ created now => [created, now]
  | .checkBandwidth _ _ _ _ found now => [found, now]
  | .updateBandwidth _ _ _ _ now => [now]
  | .cleanupOldEntries now => [now]

/-- Calls that differ in the memory that they are given, of clients whose addresses do not
fill the field, with memory to give. -/
inductive SameCall : RateCall → RateCall → Prop
  | checkBandwidth {ip : ClientIp} (hlen : ip.text.length ≤ 14) (bytes : ℕ) (direction : ℤ)
      (mem mem' : IpField) (found now : ℤ) :
      SameCall (.checkBandwidth ip bytes direction (some mem) found now)
        (.checkBandwidth ip bytes direction (some mem') found now)
  | updateBandwidth {ip : ClientIp} (hlen : ip.text.length ≤ 14) (bytes : ℕ) (direction : ℤ)
      (mem mem' : IpField) (now : ℤ) :
      SameCall (.updateBandwidth ip bytes direction (some mem) now)
        (.updateBandwidth ip bytes direction (some mem') now)

/-- The first run is the second one with cleanups put in. -/
inductive Inserted : List RateCall → List RateCall → Prop
  | nil : Inserted [] []
  | cleanup (now : ℤ) {calls calls' : List RateCall} (h : Inserted calls calls') :
      Inserted (.cleanupOldEntries now :: calls) calls'
  | call {call call' : RateCall} {calls calls' : List RateCall} (hcall : SameCall call call')
      (h : Inserted calls calls') : Inserted (call :: calls) (call' :: calls')

/-- The return value of a check. -/
def checkReturn : RateCall × RateAnswer → Option ℤ
  | (.checkBandwidth .., answer) => some answer.ret
  | _ => none

/-- The return values of the checks of a run, in order. -/
def checkReturns (log : List (RateCall × RateAnswer)) : List ℤ := log.filterMap checkReturn

/-- What is there of a client where cleanups were made, and where they were not: the same,
or nothing and what the next call begins again. -/
def Stale (t : ℤ) (usage usage' : Option Usage) : Prop :=
  usage = usage' ∨ usage = none ∧ ∀ u, usage' = some u → u.windowStart + 60 ≤ t

lemma Stale.touch {t now : ℤ} {usage usage' : Option Usage} (h : Stale t usage usage')
    (hle : t ≤ now) : Usage.touch now usage = Usage.touch now usage' := by
  rcases h with rfl | ⟨rfl, hold⟩
  · rfl
  · cases usage' with
    | none => rfl
    | some u =>
        have hover := hold u rfl
        rw [Usage.touch, Usage.touch, if_pos (by omega)]

lemma Stale.mono {t t' : ℤ} {usage usage' : Option Usage} (h : Stale t usage usage')
    (hle : t ≤ t') : Stale t' usage usage' :=
  h.imp_right fun h => ⟨h.1, fun u hu => (h.2 u hu).trans hle⟩

/-- **The simulation.** After clock readings up to `t`, the state with the cleanups and the
one without. -/
structure Similar (t : ℤ) (s s' : RateState) : Prop where
  stale : ∀ ip : ClientIp, ip.text.length ≤ 14 → Stale t (s.usageOf ip) (s'.usageOf ip)
  active : ∀ (ip : ClientIp) (u : Usage), s.usageOf ip = some u →
    u.windowStart ≤ u.lastActivity ∧ u.lastActivity ≤ t
  unique : ((s.trackers.names BandwidthTracker.ip).map Prod.snd).Nodup

section Steps

variable {config : RateConfig} {t now : ℤ} {s s' s₁ s₁' : RateState} {call call' : RateCall}
  {answer answer' : RateAnswer}

lemma Similar.mono (h : Similar t s s') (hle : t ≤ now) : Similar now s s' :=
  ⟨fun ip hlen => (h.stale ip hlen).mono hle,
    fun ip u hu => (h.active ip u hu).imp_right fun h => h.trans hle, h.unique⟩

/-- A call gives both runs the same usage of its client. -/
lemma Similar.both (h : Similar t s s') {ip : ClientIp} {u : Usage} (hle : t ≤ now)
    (hself : s₁.usageOf ip = some u) (hself' : s₁'.usageOf ip = some u)
    (hother : ∀ key : ClientIp, key.text ≠ ip.text → s₁.usageOf key = s.usageOf key)
    (hother' : ∀ key : ClientIp, key.text ≠ ip.text → s₁'.usageOf key = s'.usageOf key)
    (hactive : u.windowStart ≤ u.lastActivity ∧ u.lastActivity ≤ now)
    (hunique : ((s₁.trackers.names BandwidthTracker.ip).map Prod.snd).Nodup) :
    Similar now s₁ s₁' := by
  refine ⟨fun key hlen => ?_, fun key v hv => ?_, hunique⟩
  · by_cases hkey : key.text = ip.text
    · obtain rfl := ClientIp.eq_of_text hkey
      exact .inl (hself.trans hself'.symm)
    · rw [hother key hkey, hother' key hkey]
      exact (h.stale key hlen).mono hle
  · by_cases hkey : key.text = ip.text
    · obtain rfl := ClientIp.eq_of_text hkey
      rwa [← Option.some.inj (hself.symm.trans hv)]
    · rw [hother key hkey] at hv
      exact (h.active key v hv).imp_right fun h => h.trans hle

/-- A call of a client whose address does not fill the field leaves one record for each. -/
lemma unique_step (hlen : ∀ key mem, call.trackerSearch = some (key, mem) → key.text.length ≤ 14)
    (hunique : ((s.trackers.names BandwidthTracker.ip).map Prod.snd).Nodup)
    (hstep : rateStep config s call = some (answer, s₁)) :
    ((s₁.trackers.names BandwidthTracker.ip).map Prod.snd).Nodup := by
  have hone : OneEach BandwidthTracker.ip [] s.trackers :=
    ⟨hunique, fun _ _ _ h => absurd h List.not_mem_nil⟩
  exact (hone.evolves (rateStep_trackers_evolve hstep)
    fun key mem hsearch => .inr (.inl (hlen key mem hsearch))).nodup

/-- **A check** in both runs returns the same. -/
lemma similar_check (h : Similar t s s') {ip : ClientIp} (hlen : ip.text.length ≤ 14) {bytes : ℕ}
    {direction : ℤ} {mem mem' : IpField} {found asked : ℤ} (hle : t ≤ found)
    (hle' : found ≤ asked) (hnow : asked ≤ now)
    (hunique : ((s₁.trackers.names BandwidthTracker.ip).map Prod.snd).Nodup)
    (hcheck : ratelimitCheckBandwidth config (some mem) found asked ip bytes direction s =
      (answer, s₁))
    (hcheck' : ratelimitCheckBandwidth config (some mem') found asked ip bytes direction s' =
      (answer', s₁')) :
    Similar now s₁ s₁' ∧ answer.ret = answer'.ret := by
  by_cases hon : config.enableRateLimiting = 0 ∨ config.rateLimitBandwidthKbps = 0
  · rw [ratelimitCheckBandwidth, if_pos hon] at hcheck hcheck'
    obtain ⟨rfl, rfl⟩ := Prod.mk.inj hcheck
    obtain ⟨rfl, rfl⟩ := Prod.mk.inj hcheck'
    exact ⟨h.mono (by omega), rfl⟩
  rcases ratelimitCheckBandwidth_usage hon (some mem) found asked ip bytes direction s with
    ⟨-, hmem, -⟩ | ⟨addr, s₂, hret, hself, hother⟩
  · cases hmem
  rcases ratelimitCheckBandwidth_usage hon (some mem') found asked ip bytes direction s' with
    ⟨-, hmem, -⟩ | ⟨addr', s₂', hret', hself', hother'⟩
  · cases hmem
  obtain ⟨rfl, rfl⟩ := Prod.mk.inj (hret.symm.trans hcheck)
  obtain ⟨rfl, rfl⟩ := Prod.mk.inj (hret'.symm.trans hcheck')
  have hsame : Usage.check config found asked bytes direction (s.usageOf ip) =
      Usage.check config found asked bytes direction (s'.usageOf ip) := by
    rw [Usage.check, (h.stale ip hlen).touch hle, Usage.check]
  obtain ⟨hstart, hlast⟩ := Usage.touch_times
    (fun u hu => (h.active ip u hu).1.trans (h.active ip u hu).2) hle
  obtain ⟨hstart', hlast'⟩ := Usage.check_times config found asked bytes direction (s.usageOf ip)
  refine ⟨h.both (by omega) (hself (.inl hlen)) (hsame ▸ hself' (.inl hlen)) hother hother'
    ⟨?_, ?_⟩ hunique, congrArg Prod.fst hsame⟩
  · rw [hstart', hlast', hlast]
    exact hstart
  · rw [hlast', hlast]
    omega

/-- **An update** in both runs. -/
lemma similar_update (h : Similar t s s') {ip : ClientIp} (hlen : ip.text.length ≤ 14) {bytes : ℕ}
    {direction : ℤ} {mem mem' : IpField} {asked : ℤ} (hle : t ≤ asked) (hnow : asked ≤ now)
    (hunique : ((s₁.trackers.names BandwidthTracker.ip).map Prod.snd).Nodup)
    (hupdate : ratelimitUpdateBandwidth config (some mem) asked ip bytes direction s =
      (answer, s₁))
    (hupdate' : ratelimitUpdateBandwidth config (some mem') asked ip bytes direction s' =
      (answer', s₁')) :
    Similar now s₁ s₁' := by
  by_cases hon : config.enableRateLimiting = 0
  · rw [ratelimitUpdateBandwidth, if_pos hon] at hupdate hupdate'
    obtain ⟨rfl, rfl⟩ := Prod.mk.inj hupdate
    obtain ⟨rfl, rfl⟩ := Prod.mk.inj hupdate'
    exact h.mono (by omega)
  rcases ratelimitUpdateBandwidth_usage hon (some mem) asked ip bytes direction s with
    ⟨-, hmem, -⟩ | ⟨addr, s₂, hret, hself, hother⟩
  · cases hmem
  rcases ratelimitUpdateBandwidth_usage hon (some mem') asked ip bytes direction s' with
    ⟨-, hmem, -⟩ | ⟨addr', s₂', hret', hself', hother'⟩
  · cases hmem
  obtain ⟨rfl, rfl⟩ := Prod.mk.inj (hret.symm.trans hupdate)
  obtain ⟨rfl, rfl⟩ := Prod.mk.inj (hret'.symm.trans hupdate')
  have hsame : Usage.update asked bytes direction (s.usageOf ip) =
      Usage.update asked bytes direction (s'.usageOf ip) := by
    rw [Usage.update, (h.stale ip hlen).touch hle, Usage.update]
  obtain ⟨hstart, hlast⟩ := Usage.touch_times
    (fun u hu => (h.active ip u hu).1.trans (h.active ip u hu).2) hle
  obtain ⟨hstart', hlast'⟩ := (Usage.touch asked (s.usageOf ip)).count_times bytes direction
  refine h.both (by omega) (hself (.inl hlen)) (hsame ▸ hself' (.inl hlen)) hother hother'
    ⟨?_, ?_⟩ hunique
  · rw [Usage.update, hstart', hlast', hlast]
    exact hstart
  · rw [Usage.update, hlast', hlast]
    exact hnow

/-- **A call** in both runs returns the same. -/
lemma similar_call (h : Similar t s s') (hcall : SameCall call call')
    (hclock : (t :: call.readings ++ [now]).Pairwise (· ≤ ·))
    (hstep : rateStep config s call = some (answer, s₁))
    (hstep' : rateStep config s' call' = some (answer', s₁')) :
    Similar now s₁ s₁' ∧ checkReturn (call, answer) = checkReturn (call', answer') := by
  have hunique : ((s₁.trackers.names BandwidthTracker.ip).map Prod.snd).Nodup := by
    refine unique_step (fun key mem hsearch => ?_) h.unique hstep
    cases hcall <;> obtain ⟨rfl, -⟩ := Prod.mk.inj (Option.some.inj hsearch) <;> assumption
  cases hcall with
  | @checkBandwidth ip hlen bytes direction mem mem' found asked =>
      rw [rateStep, Option.some.injEq] at hstep hstep'
      obtain ⟨⟨htf, -, -⟩, ⟨hfa, -⟩, han⟩ : (t ≤ found ∧ t ≤ asked ∧ t ≤ now) ∧
          (found ≤ asked ∧ found ≤ now) ∧ asked ≤ now := by
        simpa [RateCall.readings] using hclock
      obtain ⟨hsimilar, hret⟩ := similar_check h hlen htf hfa han hunique hstep hstep'
      exact ⟨hsimilar, congrArg some hret⟩
  | @updateBandwidth ip hlen bytes direction mem mem' asked =>
      rw [rateStep, Option.some.injEq] at hstep hstep'
      obtain ⟨⟨hta, -⟩, han⟩ : (t ≤ asked ∧ t ≤ now) ∧ asked ≤ now := by
        simpa [RateCall.readings] using hclock
      exact ⟨similar_update h hlen hta han hunique hstep hstep', rfl⟩

/-- **A cleanup** in the one run removes what the other run would begin again. -/
lemma similar_cleanup (h : Similar t s s') (hle : t ≤ now) :
    Similar now (ratelimitCleanupOldEntries now s) s' := by
  have husage : ∀ ip, (ratelimitCleanupOldEntries now s).usageOf ip =
      (s.usageOf ip).filter fun u => decide (now - 300 ≤ u.lastActivity) := by
    intro ip
    have hnodup : (s.trackers.nodes.map fun r => r.2.ip.text).Nodup := by
      have := h.unique
      rwa [Records.names, List.map_map] at this
    rw [RateState.usageOf, ratelimitCleanupOldEntries, Records.find_keep hnodup, RateState.usageOf,
      Option.filter_map]
    congr 2
    funext r
    have hrecent : (¬ now - r.2.lastActivity > 300) ↔ now - 300 ≤ r.2.usage.lastActivity := by
      show _ ↔ now - 300 ≤ r.2.lastActivity
      omega
    exact decide_eq_decide.mpr hrecent
  refine ⟨fun ip hlen => ?_, fun ip u hu => ?_, ?_⟩
  · rw [husage]
    rcases h.stale ip hlen with heq | ⟨hnone, hold⟩
    · cases hs : s.usageOf ip with
      | none => exact .inl (by rw [← heq, hs]; rfl)
      | some u =>
          rw [Option.filter_some]
          split_ifs with hrecent
          · exact .inl (by rw [← heq, hs])
          · refine .inr ⟨rfl, fun v hv => ?_⟩
            obtain rfl : u = v := Option.some.inj (hs.symm.trans (heq.trans hv))
            have hactive := (h.active ip u hs).1
            rw [decide_eq_true_iff] at hrecent
            omega
    · rw [hnone]
      exact .inr ⟨rfl, fun u hu => (hold u hu).trans hle⟩
  · rw [husage, Option.filter_eq_some_iff] at hu
    exact (h.active ip u hu.1).imp_right fun h => h.trans hle
  · exact h.unique.sublist ((List.filter_sublist.map _).map _)

/-- **The run.** -/
lemma similar_run {calls calls' : List RateCall} (hins : Inserted calls calls') :
    ∀ {t : ℤ} {s s' s₁ s₁' : RateState} {log log' : List (RateCall × RateAnswer)},
      Similar t s s' → (t :: calls.flatMap RateCall.readings).Pairwise (· ≤ ·) →
      exec (rateStep config) s calls = some (log, s₁) →
      exec (rateStep config) s' calls' = some (log', s₁') →
      checkReturns log = checkReturns log' := by
  induction hins with
  | nil =>
      intro t s s' s₁ s₁' log log' _ _ hrun hrun'
      rw [exec_nil, Option.some.injEq, Prod.mk.injEq] at hrun hrun'
      rw [← hrun.1, ← hrun'.1]
  | @cleanup now calls calls' _ ih =>
      intro t s s' s₁ s₁' log log' h hclock hrun hrun'
      obtain ⟨answer, s₂, log₂, hstep, hrest, rfl⟩ := exec_cons _ hrun
      rw [rateStep, Option.some.injEq, Prod.mk.injEq] at hstep
      obtain ⟨-, rfl⟩ := hstep
      rw [List.flatMap_cons, RateCall.readings, List.singleton_append, List.pairwise_cons] at hclock
      show checkReturns log₂ = checkReturns log'
      exact ih (similar_cleanup h (hclock.1 _ List.mem_cons_self)) hclock.2 hrest hrun'
  | @call call call' calls calls' hcall _ ih =>
      intro t s s' s₁ s₁' log log' h hclock hrun hrun'
      obtain ⟨answer, s₂, log₂, hstep, hrest, rfl⟩ := exec_cons _ hrun
      obtain ⟨answer', s₂', log₂', hstep', hrest', rfl⟩ := exec_cons _ hrun'
      -- the last reading of the call is not after the ones that follow
      obtain ⟨now, hnow, hlater⟩ : ∃ now, (t :: call.readings ++ [now]).Pairwise (· ≤ ·) ∧
          (now :: calls.flatMap RateCall.readings).Pairwise (· ≤ ·) := by
        rw [List.flatMap_cons] at hclock
        cases hcall with
        | checkBandwidth hlen bytes direction mem mem' found asked =>
            simp only [RateCall.readings, List.cons_append, List.nil_append,
              List.pairwise_cons] at hclock
            have htf : t ≤ found := hclock.1 _ List.mem_cons_self
            have hfa : found ≤ asked := hclock.2.1 _ List.mem_cons_self
            refine ⟨asked, ?_, List.pairwise_cons.mpr hclock.2.2⟩
            simp only [RateCall.readings, List.cons_append, List.nil_append, List.pairwise_cons,
              List.forall_mem_cons]
            simp
            omega
        | updateBandwidth hlen bytes direction mem mem' asked =>
            simp only [RateCall.readings, List.cons_append, List.nil_append,
              List.pairwise_cons] at hclock
            have hta : t ≤ asked := hclock.1 _ List.mem_cons_self
            refine ⟨asked, ?_, List.pairwise_cons.mpr hclock.2⟩
            simp [RateCall.readings, hta]
      obtain ⟨hsimilar, hreturn⟩ := similar_call h hcall hnow hstep hstep'
      rw [checkReturns, checkReturns, List.filterMap_cons, List.filterMap_cons, hreturn]
      have hrest := ih hsimilar hlater hrest hrest'
      rw [checkReturns, checkReturns] at hrest
      rw [hrest]

end Steps

/-- **Cleanups are invisible.** In runs from empty lists, on clients whose addresses do not
fill the field, with clock readings that do not decrease and memory for every tracker,
cleanups put in anywhere change the return value of no check; and a cleanup leaves of the
list in memory the trackers that were active in the last 300 seconds, in their order. -/
theorem cleanup_invisible (config : RateConfig) :
    (∀ (calls calls' : List RateCall) (log log' : List (RateCall × RateAnswer)) (s s' : RateState),
      Inserted calls calls' → (calls.flatMap RateCall.readings).Pairwise (· ≤ ·) →
      exec (rateStep config) ratelimitInit calls = some (log, s) →
      exec (rateStep config) ratelimitInit calls' = some (log', s') →
      checkReturns log = checkReturns log') ∧
    ∀ (now : ℤ) (s : RateState) (l : TrackerList), Chain l.mem l.head s.trackers.nodes →
      ∃ l', cleanupLoop now s.trackers.nodes.length l none l.head = some l' ∧
        Chain l'.mem l'.head (ratelimitCleanupOldEntries now s).trackers.nodes ∧
        (ratelimitCleanupOldEntries now s).trackers.nodes =
          s.trackers.nodes.filter fun r => decide (now - 300 ≤ r.2.lastActivity) := by
  refine ⟨fun calls calls' log log' s s' hins hclock hrun hrun' => ?_, fun now s l h => ?_⟩
  · obtain ⟨t, ht⟩ := exists_before hclock
    have hinit : Similar t ratelimitInit ratelimitInit :=
      ⟨fun _ _ => .inl rfl, fun _ _ hu => (by cases hu), List.nodup_nil⟩
    exact similar_run hins hinit ht hrun hrun'
  · obtain ⟨l', hloop, hl'⟩ := @cleanupLoop_spec now s.trackers.nodes l [] _ h le_rfl
    rw [lastAddress_nil, ← chain_first h] at hloop
    refine ⟨l', hloop, hl', List.filter_congr fun r _ => ?_⟩
    exact decide_eq_decide.mpr (by omega)

/-- A client sends 800 bytes and comes back after 400 seconds, to a tracker that a cleanup
has removed in the one run and not in the other. -/
theorem cleanup_invisible_idle :
    (∃ log log' s s',
      exec (rateStep ⟨1, 0, 1⟩) ratelimitInit
        [.checkBandwidth shortIp 800 0 (some usedField) 0 0, .cleanupOldEntries 350,
          .checkBandwidth shortIp 800 0 (some usedField) 400 400] = some (log, s) ∧
      exec (rateStep ⟨1, 0, 1⟩) ratelimitInit
        [.checkBandwidth shortIp 800 0 (some usedField) 0 0,
          .checkBandwidth shortIp 800 0 (some usedField) 400 400] = some (log', s') ∧
      checkReturns log = checkReturns log') ∧
    ∃ l', cleanupLoop 350 1
        ⟨fun p => if p = 0 then some ⟨⟨usedField, 800, 0, 0, 0⟩, none⟩ else none, some 0⟩
        none (some 0) = some l' ∧ l'.head = none := by
  constructor
  · refine ⟨_, _, _, _, rfl, rfl, ?_⟩
    refine (cleanup_invisible ⟨1, 0, 1⟩).1
      [.checkBandwidth shortIp 800 0 (some usedField) 0 0, .cleanupOldEntries 350,
        .checkBandwidth shortIp 800 0 (some usedField) 400 400]
      [.checkBandwidth shortIp 800 0 (some usedField) 0 0,
        .checkBandwidth shortIp 800 0 (some usedField) 400 400] _ _ _ _ ?_ (by decide) rfl rfl
    exact .call (.checkBandwidth (by decide) ..) (.cleanup _ (.call
      (.checkBandwidth (by decide) ..) .nil))
  · obtain ⟨l', hloop, hchain, -⟩ := (cleanup_invisible ⟨1, 0, 1⟩).2 350
      { trackers := Records.empty.push ⟨usedField, 800, 0, 0, 0⟩, limiters := .empty }
      ⟨fun p => if p = 0 then some ⟨⟨usedField, 800, 0, 0, 0⟩, none⟩ else none, some 0⟩
      ⟨rfl, none, rfl, rfl⟩
    exact ⟨l', hloop, hchain⟩

end ProxyMax
