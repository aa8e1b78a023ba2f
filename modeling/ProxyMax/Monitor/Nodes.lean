import ProxyMax.Lib.NodeLists
import ProxyMax.Monitor.Cleanup
import ProxyMax.Monitor.Isolation

/-!
`src/monitor/ratelimit.c` with its pointers: the two lists as nodes in memory.

* `visitNodes`, `sweepNodes`: the search for a node with its creation and change, and the loop of
  the cleanup.
* `RateMemory`, `ListCall`, `nodeStep`: the functions of the file, on nodes.
* `Represents`: the nodes of a list are the records, and all that is allocated.
* `visitNodes_refines`, `sweepNodes_refines`: what keeps this; `nodeStep_refines` is a call.
* `ratelimit_nodes_refine`: a run on nodes is one on records, comes to no node that is not there,
  and leaks none.
-/

namespace ProxyMax

open CString Machine LinkedList

/-! ### The functions on nodes -/

/-- The search for the node of a client, with its creation, and a change to it. -/
def visitNodes {α : Type*} (ip : α → IpField) (touch : α → α) (create : IpField → α)
    (mem : Option IpField) (key : ClientIp) (f : α → ℤ × α) (fail : ℤ) (fuel : ℕ)
    (l : NodeList α) : Option (ℤ × NodeList α) :=
  (findNode (fun a => (ip a).text = key.text) l.mem fuel l.head).bind fun
    | some p => (l.update p fun a => ((), touch a)).bind fun r => r.2.update p f
    | none =>
        match mem with
        | none => some (fail, l)
        | some field => (l.push (create (field.strncpy key))).update l.fresh f

/-- `ratelimit_cleanup_old_entries`, on its list. -/
def sweepNodes (now : ℤ) (fuel : ℕ) (l : NodeList BandwidthTracker) :
    Option (NodeList BandwidthTracker) :=
  (cleanupLoop now fuel ⟨l.mem, l.head⟩ none l.head).map fun r => ⟨r.mem, r.head, l.fresh⟩

/-- `g_rate_limiters` and `g_bandwidth_trackers`, with the nodes. -/
structure RateMemory where
  limiters : NodeList RateLimiter
  trackers : NodeList BandwidthTracker

/-- The memory after `ratelimit_init` at the start. -/
def RateMemory.init : RateMemory := ⟨.empty, .empty⟩

section Functions

variable (config : RateConfig) (fuel : ℕ) (m : RateMemory)

/-- `ratelimit_check_request`. -/
def checkRequestNodes (ip : ClientIp) (mem : Option IpField) (created now : ℤ) :
    Option (ℤ × RateMemory) :=
  if config.enableRateLimiting = 0 then some (0, m)
  else
    (visitNodes RateLimiter.ip id (RateLimiter.new config created) mem ip
      (fun limiter => (if (limiter.request now).1 then 0 else -1, (limiter.request now).2)) (-1)
      fuel m.limiters).map fun r => (r.1, { m with limiters := r.2 })

/-- `ratelimit_check_bandwidth`. -/
def checkBandwidthNodes (ip : ClientIp) (bytes : ℕ) (direction : ℤ) (mem : Option IpField)
    (found now : ℤ) : Option (ℤ × RateMemory) :=
  if config.enableRateLimiting = 0 ∨ config.rateLimitBandwidthKbps = 0 then some (0, m)
  else
    (visitNodes BandwidthTracker.ip (BandwidthTracker.touch found) (BandwidthTracker.new found) mem
      ip (BandwidthTracker.check config now bytes direction) (-1) fuel m.trackers).map
        fun r => (r.1, { m with trackers := r.2 })

/-- `ratelimit_update_bandwidth`. -/
def updateBandwidthNodes (ip : ClientIp) (bytes : ℕ) (direction : ℤ) (mem : Option IpField)
    (now : ℤ) : Option (ℤ × RateMemory) :=
  if config.enableRateLimiting = 0 then some (0, m)
  else
    (visitNodes BandwidthTracker.ip (BandwidthTracker.touch now) (BandwidthTracker.new now) mem ip
      (fun tracker => (0, tracker.count bytes direction)) 0 fuel m.trackers).map
        fun r => (r.1, { m with trackers := r.2 })

/-- `ratelimit_cleanup_old_entries`. -/
def cleanupOldEntriesNodes (now : ℤ) : Option (ℤ × RateMemory) :=
  (sweepNodes now fuel m.trackers).map fun trackers => (0, { m with trackers })

/-- `ratelimit_cleanup`: the limiters are freed, and then the trackers. -/
def cleanupNodes : Option RateMemory :=
  (m.limiters.freeAll fuel).bind fun limiters =>
    (m.trackers.freeAll fuel).map fun trackers => ⟨limiters, trackers⟩

/-- `ratelimit_print_stats`: the numbers of the limiters and of the trackers. -/
def printStatsNodes : Option (ℕ × ℕ) :=
  (countNodes m.limiters.mem fuel m.limiters.head).bind fun numLimiters =>
    (countNodes m.trackers.mem fuel m.trackers.head).map fun numTrackers =>
      (numLimiters, numTrackers)

end Functions

/-! ### The machines -/

/-- A call of a function of the file. -/
inductive ListCall where
  | rate (call : RateCall)
  | printStats
  | cleanup

/-- What a call returns or prints; 0 where it returns nothing. -/
inductive ListAnswer where
  | ret (r : ℤ)
  | stats (numLimiters numTrackers : ℕ)
deriving DecidableEq

/-- One call on nodes; there is none where it comes to a node that is not there. -/
def nodeStep (config : RateConfig) (fuel : ℕ) (m : RateMemory) :
    ListCall → Option (ListAnswer × RateMemory)
  | .rate (.checkRequest ip mem created now) =>
      (checkRequestNodes config fuel m ip mem created now).map fun r => (.ret r.1, r.2)
  | .rate (.checkBandwidth ip bytes direction mem found now) =>
      (checkBandwidthNodes config fuel m ip bytes direction mem found now).map
        fun r => (.ret r.1, r.2)
  | .rate (.updateBandwidth ip bytes direction mem now) =>
      (updateBandwidthNodes config fuel m ip bytes direction mem now).map fun r => (.ret r.1, r.2)
  | .rate (.cleanupOldEntries now) =>
      (cleanupOldEntriesNodes fuel m now).map fun r => (.ret r.1, r.2)
  | .printStats => (printStatsNodes fuel m).map fun r => (.stats r.1 r.2, m)
  | .cleanup => (cleanupNodes fuel m).map fun m => (.ret 0, m)

/-- One call on records. -/
def listStep (config : RateConfig) (s : RateState) : ListCall → Option (ListAnswer × RateState)
  | .rate call => (rateStep config s call).map fun r => (.ret r.1.ret, r.2)
  | .printStats => some (.stats s.limiters.nodes.length s.trackers.nodes.length, s)
  | .cleanup =>
      some (.ret 0, ⟨s.limiters.keep fun _ => false, s.trackers.keep fun _ => false⟩)

/-! ### The refinement -/

/-- The nodes are the records, and all that is allocated. -/
structure Represents {α : Type*} (l : NodeList α) (s : Records α) : Prop where
  holds : l.Holds s.nodes
  fresh : l.fresh = s.fresh

section Visits

variable {α : Type*} {ip : α → IpField} {touch : α → α} {create : IpField → α}
  {mem : Option IpField} {key : ClientIp} {f : α → ℤ × α} {fail : ℤ} {l : NodeList α}
  {s : Records α}

lemma Represents.update {β : Type*} (h : Represents l s) {p : ℕ} {a : α} (hp : (p, a) ∈ s.nodes)
    (g : α → β × α) :
    ∃ l', l.update p g = some ((g a).1, l') ∧ Represents l' (s.store p (g a).2) := by
  obtain ⟨l', hl', hfresh, hholds⟩ := h.holds.update hp g
  exact ⟨l', hl', hholds, hfresh.trans h.fresh⟩

lemma Represents.push (h : Represents l s) (a : α) : Represents (l.push a) (s.push a) where
  holds := by
    have hpush := h.holds.push a
    rw [h.fresh] at hpush
    exact hpush
  fresh := congrArg (· + 1) h.fresh

/-- **The search on nodes** gives what it gives on records. -/
lemma visitNodes_refines (h : Represents l s) {fuel : ℕ} (hfuel : s.nodes.length ≤ fuel) :
    ∃ l', visitNodes ip touch create mem key f fail fuel l =
        some ((s.visit ip touch create mem key f fail).1, l') ∧
      Represents l' (s.visit ip touch create mem key f fail).2 ∧
      (s.visit ip touch create mem key f fail).2.nodes.length ≤ s.nodes.length + 1 := by
  have hfound : findNode (fun a => decide ((ip a).text = key.text)) l.mem fuel l.head =
      some ((s.find ip key).map Prod.fst) := findNode_chain _ h.holds.chain hfuel
  unfold visitNodes
  rw [hfound, Option.bind_some, Records.visit]
  rcases getOrCreate_cases ip touch create mem key s with
    ⟨⟨addr, a⟩, hfind, hget⟩ | ⟨field, hfind, rfl, hget⟩ | ⟨hfind, rfl, hget⟩
  · obtain ⟨l₁, hl₁, h₁⟩ :=
      h.update (Records.mem_of_find hfind).1 fun a => ((), touch a)
    obtain ⟨l₂, hl₂, h₂⟩ :=
      h₁.update ((Records.mem_store (Records.mem_of_find hfind).1).mpr (.inl rfl)) f
    rw [hfind, hget]
    refine ⟨l₂, ?_, h₂, ?_⟩
    · simp only [Option.map_some, hl₁, Option.bind_some]
      exact hl₂
    · simp [Records.store]
  · obtain ⟨l₁, hl₁, h₁⟩ := (h.push (create (field.strncpy key))).update
      (Records.mem_push.mpr (.inl rfl)) f
    rw [hfind, hget]
    refine ⟨l₁, ?_, h₁, ?_⟩
    · rw [h.fresh]
      exact hl₁
    · simp [Records.store, Records.push]
  · rw [hfind, hget]
    exact ⟨l, rfl, h, Nat.le_succ _⟩

end Visits

/-- A link that is set leaves what is allocated; what is freed is not. -/
lemma mem_link_free (l : TrackerList) (prev next : Option ℕ) (q p : ℕ) :
    ((l.link prev next).free q).mem p = none ↔ q = p ∨ l.mem p = none := by
  have hlink : (l.link prev next).mem p = none ↔ l.mem p = none := by
    cases prev with
    | none => exact Iff.rfl
    | some t =>
        rw [TrackerList.link]
        by_cases ht : p = t
        · subst ht
          simp
        · simp [ht]
  change Function.update (l.link prev next).mem q none p = none ↔ _
  by_cases hq : p = q
  · subst hq
    simp
  · rw [Function.update_of_ne hq, hlink, or_iff_right (Ne.symm hq)]

/-- What the loop frees is no longer there, and nothing else goes. -/
lemma cleanupLoop_domain (now : ℤ) {rest : List (ℕ × BandwidthTracker)} :
    ∀ {l l' : TrackerList} {kept : List (ℕ × BandwidthTracker)} {fuel : ℕ},
      Chain l.mem l.head (kept ++ rest) →
      cleanupLoop now fuel l (lastAddress kept) (rest.map Prod.fst).head? = some l' →
      ∀ p, l'.mem p = none ↔
        l.mem p = none ∨ ∃ r ∈ rest, r.1 = p ∧ ¬r.2.recent now = true := by
  induction rest with
  | nil =>
      intro l l' kept fuel _ hloop p
      rw [List.map_nil, List.head?_nil] at hloop
      cases fuel <;> simp_all [cleanupLoop]
  | cons r rest ih =>
      intro l l' kept fuel h hloop p
      obtain ⟨q, b⟩ := r
      obtain ⟨-, next, hq, hnext⟩ := chain_suffix h
      rw [List.map_cons, List.head?_cons] at hloop
      cases fuel with
      | zero => cases hloop
      | succ fuel =>
          rw [cleanupLoop, hq, Option.bind_some] at hloop
          by_cases hold : now - b.lastActivity > 300
          · rw [if_pos hold, chain_first hnext] at hloop
            rw [chain_first hnext] at hq
            have hgone : ¬b.recent now = true := by
              rw [BandwidthTracker.recent_iff]
              omega
            rw [ih (chain_unlinked h hq) hloop, mem_link_free, List.exists_mem_cons_iff,
              and_iff_left hgone, or_assoc]
            exact or_left_comm
          · rw [if_neg hold, chain_first hnext] at hloop
            have happend : ∀ ns, kept ++ (q, b) :: ns = kept ++ [(q, b)] ++ ns := by simp
            have hlast : lastAddress (kept ++ [(q, b)]) = some q := lastAddress_snoc ..
            rw [happend] at h
            rw [← hlast] at hloop
            have hkept : b.recent now = true := BandwidthTracker.recent_iff.mpr (by omega)
            rw [ih h hloop, List.exists_mem_cons_iff]
            simp [hkept]

/-- **The cleanup on nodes** leaves the nodes that it leaves of the records. -/
lemma sweepNodes_refines {l : NodeList BandwidthTracker} {s : Records BandwidthTracker}
    (h : Represents l s) {fuel : ℕ} (hfuel : s.nodes.length ≤ fuel) (now : ℤ) :
    ∃ l', sweepNodes now fuel l = some l' ∧
      Represents l' (s.keep fun tracker => ¬now - tracker.lastActivity > 300) := by
  have hchain : Chain (TrackerList.mk l.mem l.head).mem (TrackerList.mk l.mem l.head).head
      ([] ++ s.nodes) := h.holds.chain
  obtain ⟨r, hloop, hkept⟩ := cleanupLoop_spec now hchain hfuel
  have hhead : (s.nodes.map Prod.fst).head? = l.head := (chain_first h.holds.chain).symm
  have hdomain := cleanupLoop_domain now hchain hloop
  rw [hhead] at hloop
  refine ⟨⟨r.mem, r.head, l.fresh⟩, ?_, ⟨hkept, fun p hp => ?_, fun n hn => ?_⟩, h.fresh⟩
  · exact congrArg (Option.map _) hloop
  · rw [hdomain]
    by_cases hmem : p ∈ s.nodes.map Prod.fst
    · obtain ⟨n, hn, rfl⟩ := List.mem_map.mp hmem
      refine .inr ⟨n, hn, rfl, fun hrecent => hp ?_⟩
      exact List.mem_map_of_mem (List.mem_filter.mpr ⟨hn, hrecent⟩)
    · exact .inl (h.holds.only p hmem)
  · exact h.holds.lt_fresh n (List.mem_of_mem_filter hn)

/-- Freeing all on nodes leaves no record. -/
lemma freeAll_refines {α : Type*} {l : NodeList α} {s : Records α} (h : Represents l s) {fuel : ℕ}
    (hfuel : s.nodes.length ≤ fuel) :
    ∃ l', l.freeAll fuel = some l' ∧ Represents l' (s.keep fun _ => false) := by
  obtain ⟨l', hl', hfresh, hholds⟩ := h.holds.freeAll hfuel
  have hnil : (s.keep fun _ => false).nodes = [] := by simp [Records.keep]
  exact ⟨l', hl', hnil ▸ hholds, hfresh.trans h.fresh⟩

/-! ### The runs -/

/-- The two lists represent the records. -/
structure RateMemory.Represents (m : RateMemory) (s : RateState) : Prop where
  limiters : ProxyMax.Represents m.limiters s.limiters
  trackers : ProxyMax.Represents m.trackers s.trackers

/-- Neither list is longer than `n`. -/
structure RateState.Within (n : ℕ) (s : RateState) : Prop where
  limiters : s.limiters.nodes.length ≤ n
  trackers : s.trackers.nodes.length ≤ n

/-- A call on nodes gives what it gives on records, which have grown by one at most. -/
def Follows (n : ℕ) (r : Option (ℤ × RateMemory)) (v : ℤ × RateState) : Prop :=
  ∃ m', r = some (v.1, m') ∧ m'.Represents v.2 ∧ v.2.Within (n + 1)

section Calls

variable {config : RateConfig} {fuel n : ℕ} {m : RateMemory} {s : RateState}

/-- A call that does not come to the lists. -/
lemma follows_idle (h : m.Represents s) (hn : s.Within n) : Follows n (some (0, m)) (0, s) :=
  ⟨m, rfl, h, hn.limiters.trans (Nat.le_succ n), hn.trackers.trans (Nat.le_succ n)⟩

lemma checkRequestNodes_follows (h : m.Represents s) (hn : s.Within n) (hfuel : n ≤ fuel)
    (ip : ClientIp) (mem : Option IpField) (created now : ℤ) :
    Follows n (checkRequestNodes config fuel m ip mem created now)
      (visited config s (.checkRequest ip mem created now)) := by
  rw [checkRequestNodes, visited]
  split_ifs
  · exact follows_idle h hn
  · obtain ⟨l', hl', hrep, hlen⟩ := visitNodes_refines h.limiters (hn.limiters.trans hfuel)
    rw [hl']
    exact ⟨{ m with limiters := l' }, rfl, ⟨hrep, h.trackers⟩,
      hlen.trans (Nat.succ_le_succ hn.limiters), hn.trackers.trans (Nat.le_succ n)⟩

lemma checkBandwidthNodes_follows (h : m.Represents s) (hn : s.Within n) (hfuel : n ≤ fuel)
    (ip : ClientIp) (bytes : ℕ) (direction : ℤ) (mem : Option IpField) (found now : ℤ) :
    Follows n (checkBandwidthNodes config fuel m ip bytes direction mem found now)
      (visited config s (.checkBandwidth ip bytes direction mem found now)) := by
  rw [checkBandwidthNodes, visited]
  split_ifs
  · exact follows_idle h hn
  · obtain ⟨l', hl', hrep, hlen⟩ := visitNodes_refines h.trackers (hn.trackers.trans hfuel)
    rw [hl']
    exact ⟨{ m with trackers := l' }, rfl, ⟨h.limiters, hrep⟩,
      hn.limiters.trans (Nat.le_succ n), hlen.trans (Nat.succ_le_succ hn.trackers)⟩

lemma updateBandwidthNodes_follows (h : m.Represents s) (hn : s.Within n) (hfuel : n ≤ fuel)
    (ip : ClientIp) (bytes : ℕ) (direction : ℤ) (mem : Option IpField) (now : ℤ) :
    Follows n (updateBandwidthNodes config fuel m ip bytes direction mem now)
      (visited config s (.updateBandwidth ip bytes direction mem now)) := by
  rw [updateBandwidthNodes, visited]
  split_ifs
  · exact follows_idle h hn
  · obtain ⟨l', hl', hrep, hlen⟩ := visitNodes_refines h.trackers (hn.trackers.trans hfuel)
    rw [hl']
    exact ⟨{ m with trackers := l' }, rfl, ⟨h.limiters, hrep⟩,
      hn.limiters.trans (Nat.le_succ n), hlen.trans (Nat.succ_le_succ hn.trackers)⟩

lemma cleanupOldEntriesNodes_follows (h : m.Represents s) (hn : s.Within n) (hfuel : n ≤ fuel)
    (now : ℤ) :
    Follows n (cleanupOldEntriesNodes fuel m now) (visited config s (.cleanupOldEntries now)) := by
  obtain ⟨l', hl', hrep⟩ := sweepNodes_refines h.trackers (hn.trackers.trans hfuel) now
  have hlen := (List.length_filter_le (fun r => decide ¬now - r.2.lastActivity > 300)
    s.trackers.nodes).trans hn.trackers
  rw [cleanupOldEntriesNodes, hl']
  exact ⟨{ m with trackers := l' }, rfl, ⟨h.limiters, hrep⟩, hn.limiters.trans (Nat.le_succ n),
    hlen.trans (Nat.le_succ n)⟩

lemma listStep_rate (config : RateConfig) (s : RateState) (call : RateCall) :
    listStep config s (.rate call) =
      some (.ret (visited config s call).1, (visited config s call).2) := by
  obtain ⟨answer, hstep, hret⟩ := rateStep_visited config s call
  rw [listStep, hstep, Option.map_some, hret]

/-- **One call.** -/
lemma nodeStep_refines (config : RateConfig) (h : m.Represents s) (hn : s.Within n)
    (hfuel : n ≤ fuel) (call : ListCall) :
    ∃ answer m' s', nodeStep config fuel m call = some (answer, m') ∧
      listStep config s call = some (answer, s') ∧ m'.Represents s' ∧ s'.Within (n + 1) := by
  have hrate : ∀ {call : RateCall} {r : Option (ℤ × RateMemory)},
      Follows n r (visited config s call) →
      nodeStep config fuel m (.rate call) = r.map (fun r => (.ret r.1, r.2)) →
      ∃ answer m' s', nodeStep config fuel m (.rate call) = some (answer, m') ∧
        listStep config s (.rate call) = some (answer, s') ∧ m'.Represents s' ∧
        s'.Within (n + 1) := by
    rintro call r ⟨m', rfl, hrep, hlen⟩ hstep
    exact ⟨_, m', _, hstep, listStep_rate config s call, hrep, hlen⟩
  cases call with
  | rate call =>
      cases call with
      | checkRequest ip mem created now =>
          exact hrate (checkRequestNodes_follows h hn hfuel ip mem created now) rfl
      | checkBandwidth ip bytes direction mem found now =>
          exact hrate (checkBandwidthNodes_follows h hn hfuel ip bytes direction mem found now) rfl
      | updateBandwidth ip bytes direction mem now =>
          exact hrate (updateBandwidthNodes_follows h hn hfuel ip bytes direction mem now) rfl
      | cleanupOldEntries now =>
          exact hrate (cleanupOldEntriesNodes_follows h hn hfuel now) rfl
  | printStats =>
      refine ⟨_, m, s, ?_, rfl, h, hn.limiters.trans (Nat.le_succ n),
        hn.trackers.trans (Nat.le_succ n)⟩
      rw [nodeStep, printStatsNodes,
        countNodes_chain h.limiters.holds.chain (hn.limiters.trans hfuel), Option.bind_some,
        countNodes_chain h.trackers.holds.chain (hn.trackers.trans hfuel)]
      rfl
  | cleanup =>
      obtain ⟨limiters, hlimiters, hrep⟩ := freeAll_refines h.limiters (hn.limiters.trans hfuel)
      obtain ⟨trackers, htrackers, hrep'⟩ := freeAll_refines h.trackers (hn.trackers.trans hfuel)
      refine ⟨_, ⟨limiters, trackers⟩, _, ?_, rfl, ⟨hrep, hrep'⟩, ?_, ?_⟩
      · rw [nodeStep, cleanupNodes, hlimiters, Option.bind_some, htrackers]
        rfl
      · simp [Records.keep]
      · simp [Records.keep]

/-- **A run.** -/
lemma exec_nodes_refines (config : RateConfig) (calls : List ListCall) :
    ∀ {n : ℕ} {m : RateMemory} {s : RateState}, m.Represents s → s.Within n →
      n + calls.length ≤ fuel → ∃ log m' s', exec (nodeStep config fuel) m calls = some (log, m') ∧
        exec (listStep config) s calls = some (log, s') ∧ m'.Represents s' := by
  induction calls with
  | nil =>
      intro n m s h _ _
      exact ⟨[], m, s, rfl, rfl, h⟩
  | cons call calls ih =>
      intro n m s h hn hfuel
      rw [List.length_cons] at hfuel
      obtain ⟨answer, m₁, s₁, hnode, hlist, h₁, hn₁⟩ :=
        nodeStep_refines config h hn (by omega : n ≤ fuel) call
      obtain ⟨log, m', s', hnodes, hlists, h'⟩ := ih h₁ hn₁ (by omega)
      refine ⟨(call, answer) :: log, m', s', ?_, ?_, h'⟩
      · rw [exec, hnode, Option.bind_some, hnodes, Option.map_some]
      · rw [exec, hlist, Option.bind_some, hlists, Option.map_some]

end Calls

/-- **The lists in memory.** A run of the functions on nodes, with room for as many passes as
there are calls, never comes to a node that is not there, neither to read it nor to free it. It
returns and prints what the run on records does, and the nodes that are allocated at its end are
those of the records: none where `ratelimit_cleanup` was the last call. -/
theorem ratelimit_nodes_refine (config : RateConfig) (calls : List ListCall) (fuel : ℕ)
    (hfuel : calls.length ≤ fuel) :
    ∃ log m s, exec (nodeStep config fuel) RateMemory.init calls = some (log, m) ∧
      exec (listStep config) ratelimitInit calls = some (log, s) ∧
      m.limiters.Holds s.limiters.nodes ∧ m.trackers.Holds s.trackers.nodes ∧
      (calls.getLast? = some .cleanup →
        ∀ p, m.limiters.mem p = none ∧ m.trackers.mem p = none) := by
  have hinit : RateMemory.init.Represents ratelimitInit :=
    ⟨⟨NodeList.holds_empty, rfl⟩, ⟨NodeList.holds_empty, rfl⟩⟩
  obtain ⟨log, m, s, hnodes, hlists, h⟩ :=
    exec_nodes_refines config calls hinit ⟨le_rfl, le_rfl⟩ (by omega : 0 + calls.length ≤ fuel)
  refine ⟨log, m, s, hnodes, hlists, h.limiters.holds, h.trackers.holds, fun hlast p => ?_⟩
  obtain ⟨pre, rfl⟩ := List.getLast?_eq_some_iff.mp hlast
  obtain ⟨_, _, _, _, hstep, -⟩ := exec_snoc_eq_some _ hlists
  obtain ⟨-, rfl⟩ := Prod.mk.inj (Option.some.inj hstep)
  have hlimiters := h.limiters.holds
  have htrackers := h.trackers.holds
  simp only [Records.keep, List.filter_false] at hlimiters htrackers
  exact ⟨hlimiters.mem_eq_none p, htrackers.mem_eq_none p⟩

/-- A client asks and sends, and the lists are freed. -/
def cleanedCalls : List ListCall :=
  [.rate (.checkRequest shortIp (some usedField) 0 0),
    .rate (.updateBandwidth shortIp 10 0 (some usedField) 1), .printStats, .cleanup]

/-- Its two nodes are gone. -/
theorem ratelimit_nodes_refine_cleaned :
    ∃ log m, exec (nodeStep ⟨1, 60, 1⟩ 4) RateMemory.init cleanedCalls = some (log, m) ∧
      ∀ p, m.limiters.mem p = none ∧ m.trackers.mem p = none := by
  obtain ⟨log, m, s, hrun, -, -, -, hgone⟩ :=
    ratelimit_nodes_refine ⟨1, 60, 1⟩ cleanedCalls 4 (by decide)
  exact ⟨log, m, hrun, hgone rfl⟩

end ProxyMax
