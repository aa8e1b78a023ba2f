import ProxyMax.Lib.Unwinding
import ProxyMax.Monitor.OneRecord
import ProxyMax.Monitor.TokenBound
import ProxyMax.Monitor.Trackers

/-!
The clients of `src/monitor/ratelimit.c` do not affect each other.

* `Records.ofClient`: the records that read as a client; what an operation does to them.
* `Records.visit`: the search for a record and a change to it, which the operations share.
* `RateCall.Concerns`: the calls about a client, and the cleanup.
* `clients_isolated`: in every run, the calls about a client return what they return in the run
  of these calls alone.
-/

namespace ProxyMax

open CString Machine

section Clients

variable {α : Type*} {ip : α → IpField}

/-- The records that read as the client, in order. -/
def Records.ofClient (ip : α → IpField) (key : ClientIp) (s : Records α) : List α :=
  (s.nodes.filter fun r => (ip r.2).text = key.text).map Prod.snd

lemma Records.ofClient_push (key : ClientIp) (s : Records α) (a : α) :
    (s.push a).ofClient ip key =
      if (ip a).text = key.text then a :: s.ofClient ip key else s.ofClient ip key := by
  by_cases htext : (ip a).text = key.text <;> simp [ofClient, push, htext]

lemma Records.ofClient_keep (key : ClientIp) (s : Records α) (p : α → Bool) :
    (s.keep p).ofClient ip key = (s.ofClient ip key).filter p := by
  simp only [ofClient, keep, List.filter_filter, List.filter_map, Function.comp_def]
  congr 2
  funext r
  exact Bool.and_comm _ _

/-- The change of one record, where no other one has its address. -/
lemma map_overwrite_of_ne {nodes : List (ℕ × α)} {addr : ℕ} (b : α)
    (hne : ∀ r ∈ nodes, r.1 ≠ addr) :
    (nodes.map fun r => if r.1 = addr then (addr, b) else r) = nodes := by
  refine (List.map_congr_left fun r hr => ?_).trans (List.map_id _)
  exact if_neg (hne r hr)

/-- A store goes on beside the search. -/
lemma Records.filter_store {s : Records α} {addr : ℕ} {a b : α} (hmem : (addr, a) ∈ s.nodes)
    (hip : ip b = ip a) (key : ClientIp) :
    ((s.store addr b).nodes.filter fun r => (ip r.2).text = key.text) =
      (s.nodes.filter fun r => (ip r.2).text = key.text).map
        fun r => if r.1 = addr then (addr, b) else r := by
  rw [store, List.filter_map]
  congr 1
  refine List.filter_congr fun r hr => ?_
  simp only [Function.comp_apply, text_store hmem hip hr]

/-- A store to a record that does not read as the client. -/
lemma Records.ofClient_store_ne {s : Records α} {addr : ℕ} {a b : α}
    (hmem : (addr, a) ∈ s.nodes) (hip : ip b = ip a) {key : ClientIp}
    (hne : (ip a).text ≠ key.text) :
    (s.store addr b).ofClient ip key = s.ofClient ip key := by
  rw [ofClient, filter_store hmem hip, map_overwrite_of_ne, ofClient]
  rintro ⟨addr', c⟩ hr rfl
  obtain ⟨hr, htext⟩ := List.mem_filter.mp hr
  have hsame := Records.eq_of_mem hmem hr
  subst hsame
  exact hne (by simpa using htext)

/-- The first record of the client is the one that is found, and a store changes it alone. -/
lemma Records.ofClient_of_find {s : Records α} {key : ClientIp} {addr : ℕ} {a : α}
    (h : s.find ip key = some (addr, a)) :
    ∃ rest, s.ofClient ip key = a :: rest ∧ ∀ b, ip b = ip a →
      (s.store addr b).ofClient ip key = b :: rest := by
  have hhead : (s.nodes.filter fun r => (ip r.2).text = key.text).head? = some (addr, a) := by
    rw [List.head?_filter]
    exact h
  obtain ⟨rest, hfilter⟩ := List.head?_eq_some_iff.mp hhead
  have hnodup : ((addr, a) :: rest).map Prod.fst |>.Nodup := by
    rw [← hfilter]
    exact s.nodup.sublist (List.filter_sublist.map Prod.fst)
  have hne : ∀ r ∈ rest, r.1 ≠ addr := by
    intro r hr haddr
    rw [List.map_cons, List.nodup_cons] at hnodup
    exact hnodup.1 (List.mem_map.mpr ⟨r, hr, haddr⟩)
  refine ⟨rest.map Prod.snd, by rw [ofClient, hfilter, List.map_cons], fun b hip => ?_⟩
  rw [ofClient, filter_store (mem_of_find h).1 hip, hfilter, List.map_cons, if_pos rfl,
    map_overwrite_of_ne b hne, List.map_cons]

lemma Records.ofClient_of_find_none {s : Records α} {key : ClientIp}
    (h : s.find ip key = none) : s.ofClient ip key = [] := by
  rw [ofClient, List.map_eq_nil_iff, List.filter_eq_nil_iff]
  exact fun r hr => List.find?_eq_none.mp h r hr

/-! ### A visit to the record of a client -/

variable {touch : α → α} {create : IpField → α} {mem : Option IpField} {key : ClientIp}
  {f : α → ℤ × α} {fail : ℤ} {s : Records α}

/-- The record of a client is searched for or created, and then `f` gives the return value and
the new record; `fail` is returned where there is no memory. -/
def Records.visit (ip : α → IpField) (touch : α → α) (create : IpField → α) (mem : Option IpField)
    (key : ClientIp) (f : α → ℤ × α) (fail : ℤ) (s : Records α) : ℤ × Records α :=
  match getOrCreate ip touch create mem key s with
  | (none, s') => (fail, s')
  | (some (addr, a), s') => ((f a).1, s'.store addr (f a).2)

/-- What a visit does to the records of its client. -/
def Records.visitOwn (ip : α → IpField) (touch : α → α) (create : IpField → α)
    (mem : Option IpField) (key : ClientIp) (f : α → ℤ × α) (fail : ℤ) : List α → ℤ × List α
  | a :: rest => ((f (touch a)).1, (f (touch a)).2 :: rest)
  | [] =>
      match mem with
      | none => (fail, [])
      | some field =>
          let a := create (field.strncpy key)
          ((f a).1, if (ip a).text = key.text then [(f a).2] else [])

/-- A visit keeps the name in the record. -/
structure KeepsName (ip : α → IpField) (touch : α → α) (create : IpField → α) (f : α → ℤ × α) :
    Prop where
  touch : ∀ a, ip (touch a) = ip a
  create : ∀ field, ip (create field) = field
  change : ∀ a, ip (f a).2 = ip a

/-- **A visit**, as the client sees it. -/
lemma Records.visit_own (h : KeepsName ip touch create f) (mem : Option IpField) (key : ClientIp)
    (fail : ℤ) (s : Records α) :
    (visit ip touch create mem key f fail s).1 =
        (visitOwn ip touch create mem key f fail (s.ofClient ip key)).1 ∧
      (visit ip touch create mem key f fail s).2.ofClient ip key =
        (visitOwn ip touch create mem key f fail (s.ofClient ip key)).2 := by
  rcases getOrCreate_cases ip touch create mem key s with
    ⟨⟨addr, a⟩, hfind, hget⟩ | ⟨field, hfind, rfl, hget⟩ | ⟨hfind, rfl, hget⟩
  · obtain ⟨rest, hown, -⟩ := Records.ofClient_of_find hfind
    obtain ⟨rest', hown', hstore⟩ :=
      Records.ofClient_of_find (Records.find_store hfind (h.touch a))
    obtain ⟨_, hown₁, hstore₁⟩ := Records.ofClient_of_find hfind
    have hrest : touch a :: rest' = touch a :: rest := by
      rw [← hown', hstore₁ _ (h.touch a)]
      congr 1
      exact (List.cons.inj (hown₁.symm.trans hown)).2
    rw [visit, hget, hown]
    exact ⟨rfl, (hstore _ (h.change _)).trans (congrArg _ (List.cons.inj hrest).2)⟩
  · rw [visit, hget, Records.ofClient_of_find_none hfind]
    refine ⟨rfl, ?_⟩
    have hmem : (s.fresh, create (field.strncpy key)) ∈
        (s.push (create (field.strncpy key))).nodes := Records.mem_push.mpr (.inl rfl)
    by_cases htext : (ip (create (field.strncpy key))).text = key.text
    · obtain ⟨rest, hown, hstore⟩ :=
        Records.ofClient_of_find (Records.find_push (s := s) key htext)
      rw [Records.ofClient_push, if_pos htext, Records.ofClient_of_find_none hfind] at hown
      refine (hstore _ (h.change _)).trans ?_
      rw [← (List.cons.inj hown).2]
      exact (if_pos htext).symm
    · refine (Records.ofClient_store_ne hmem (h.change _) htext).trans ?_
      rw [Records.ofClient_push, if_neg htext, Records.ofClient_of_find_none hfind]
      exact (if_neg htext).symm
  · rw [visit, hget, Records.ofClient_of_find_none hfind]
    exact ⟨rfl, rfl⟩

/-- **A visit**, as the other clients see it. -/
lemma Records.visit_other (h : KeepsName ip touch create f) {key' : ClientIp}
    (hne : key.text ≠ key'.text) :
    (visit ip touch create mem key f fail s).2.ofClient ip key' = s.ofClient ip key' := by
  rcases getOrCreate_cases ip touch create mem key s with
    ⟨⟨addr, a⟩, hfind, hget⟩ | ⟨field, hfind, rfl, hget⟩ | ⟨hfind, rfl, hget⟩
  · obtain ⟨hmem, htext⟩ := Records.mem_of_find hfind
    have htouched : (addr, touch a) ∈ (s.store addr (touch a)).nodes :=
      (Records.mem_store hmem).mpr (.inl rfl)
    have hkey : (ip a).text ≠ key'.text := fun heq => hne (htext.symm.trans heq)
    have hkey' : (ip (touch a)).text ≠ key'.text := by rwa [h.touch]
    rw [visit, hget]
    exact (Records.ofClient_store_ne htouched (h.change _) hkey').trans
      (Records.ofClient_store_ne hmem (h.touch a) hkey)
  · have hmem : (s.fresh, create (field.strncpy key)) ∈
        (s.push (create (field.strncpy key))).nodes := Records.mem_push.mpr (.inl rfl)
    have htext : (ip (create (field.strncpy key))).text ≠ key'.text := by
      rw [h.create]
      exact fun heq => hne (IpField.eq_of_text_strncpy heq)
    rw [visit, hget]
    refine (Records.ofClient_store_ne hmem (h.change _) htext).trans ?_
    rw [Records.ofClient_push, if_neg htext]
  · rw [visit, hget]

/-- A visit that stores what it found. -/
lemma Records.store_self {s : Records α} {addr : ℕ} {a : α} (hmem : (addr, a) ∈ s.nodes) :
    s.store addr a = s := by
  have hnodes : (s.store addr a).nodes = s.nodes := by
    refine (List.map_congr_left fun r hr => ?_).trans (List.map_id _)
    split
    · rename_i haddr
      subst haddr
      rw [Records.eq_of_mem hmem hr, id]
    · rfl
  cases s
  simp only [store, Records.mk.injEq, and_true] at hnodes ⊢
  exact hnodes

/-- The record that a search returns is in the list that it leaves. -/
lemma mem_of_getOrCreate {r : ℕ × α} {s' : Records α}
    (h : getOrCreate ip touch create mem key s = (some r, s')) : r ∈ s'.nodes := by
  rcases getOrCreate_cases ip touch create mem key s with
    ⟨⟨addr, a⟩, hfind, hget⟩ | ⟨field, hfind, rfl, hget⟩ | ⟨hfind, rfl, hget⟩
  · obtain ⟨hr, rfl⟩ := Prod.mk.inj (hget.symm.trans h)
    rw [← Option.some.inj hr]
    exact (Records.mem_store (Records.mem_of_find hfind).1).mpr (.inl rfl)
  · obtain ⟨hr, rfl⟩ := Prod.mk.inj (hget.symm.trans h)
    rw [← Option.some.inj hr]
    exact Records.mem_push.mpr (.inl rfl)
  · cases (Prod.mk.inj (hget.symm.trans h)).1

end Clients

/-! ### The operations as visits -/

/-- The record of a new client in the list of limiters. -/
def RateLimiter.new (config : RateConfig) (created : ℤ) (field : IpField) : RateLimiter :=
  { ip := field
    maxTokens := config.rateLimitRequests
    tokens := config.rateLimitRequests
    refillRate := config.rateLimitRequests / 60
    lastRefill := created }

/-- The record of a new client in the list of trackers. -/
def BandwidthTracker.new (now : ℤ) (field : IpField) : BandwidthTracker :=
  { ip := field
    bytesSent := 0
    bytesReceived := 0
    windowStart := now
    lastActivity := now }

/-- The visit to a limiter. -/
def limiterVisit (config : RateConfig) (mem : Option IpField) (created now : ℤ) (ip : ClientIp)
    (s : Records RateLimiter) : ℤ × Records RateLimiter :=
  s.visit RateLimiter.ip id (RateLimiter.new config created) mem ip
    (fun limiter => (if (limiter.request now).1 then 0 else -1, (limiter.request now).2)) (-1)

/-- The visit to a tracker, for the change `f`. -/
def trackerVisit (mem : Option IpField) (now : ℤ) (ip : ClientIp)
    (f : BandwidthTracker → ℤ × BandwidthTracker) (fail : ℤ) (s : Records BandwidthTracker) :
    ℤ × Records BandwidthTracker :=
  s.visit BandwidthTracker.ip (BandwidthTracker.touch now) (BandwidthTracker.new now) mem ip f fail

/-- What `ratelimit_check_bandwidth` does to the record. -/
def BandwidthTracker.check (config : RateConfig) (now : ℤ) (bytes : ℕ) (direction : ℤ)
    (tracker : BandwidthTracker) : ℤ × BandwidthTracker :=
  if bandwidthExceeded config now tracker bytes then (-1, tracker)
  else (0, tracker.count bytes direction)

section Operations

variable {config : RateConfig} (mem : Option IpField) (ip : ClientIp) (s : RateState)

lemma ratelimitCheckRequest_visit (hen : config.enableRateLimiting ≠ 0) (created now : ℤ) :
    (ratelimitCheckRequest config mem created now ip s).1.ret =
        (limiterVisit config mem created now ip s.limiters).1 ∧
      (ratelimitCheckRequest config mem created now ip s).2 =
        { s with limiters := (limiterVisit config mem created now ip s.limiters).2 } := by
  cases hget : getRateLimiter config mem created ip s.limiters with
  | mk found limiters =>
      have hvisit : getOrCreate RateLimiter.ip id (RateLimiter.new config created) mem ip
          s.limiters = (found, limiters) := hget
      rw [limiterVisit, Records.visit, hvisit]
      cases found with
      | none =>
          rw [ratelimitCheckRequest, if_neg hen, hget]
          exact ⟨rfl, rfl⟩
      | some r =>
          rw [ratelimitCheckRequest_request now hen hget]
          exact ⟨rfl, rfl⟩

lemma ratelimitCheckBandwidth_visit
    (hon : ¬ (config.enableRateLimiting = 0 ∨ config.rateLimitBandwidthKbps = 0)) (found now : ℤ)
    (bytes : ℕ) (direction : ℤ) :
    (ratelimitCheckBandwidth config mem found now ip bytes direction s).1.ret =
        (trackerVisit mem found ip (BandwidthTracker.check config now bytes direction) (-1)
          s.trackers).1 ∧
      (ratelimitCheckBandwidth config mem found now ip bytes direction s).2 =
        { s with trackers := (trackerVisit mem found ip
          (BandwidthTracker.check config now bytes direction) (-1) s.trackers).2 } := by
  cases hget : getBandwidthTracker mem found ip s.trackers with
  | mk r trackers =>
      have hvisit : getOrCreate BandwidthTracker.ip (BandwidthTracker.touch found)
          (BandwidthTracker.new found) mem ip s.trackers = (r, trackers) := hget
      rw [ratelimitCheckBandwidth, if_neg hon, hget, trackerVisit, Records.visit, hvisit]
      cases r with
      | none => exact ⟨rfl, rfl⟩
      | some r =>
          simp only [BandwidthTracker.check]
          split_ifs
          · exact ⟨rfl, by rw [Records.store_self (mem_of_getOrCreate hvisit)]⟩
          · exact ⟨rfl, rfl⟩

lemma ratelimitUpdateBandwidth_visit (hen : config.enableRateLimiting ≠ 0) (now : ℤ) (bytes : ℕ)
    (direction : ℤ) :
    (ratelimitUpdateBandwidth config mem now ip bytes direction s).1.ret =
        (trackerVisit mem now ip (fun tracker => (0, tracker.count bytes direction)) 0
          s.trackers).1 ∧
      (ratelimitUpdateBandwidth config mem now ip bytes direction s).2 =
        { s with trackers := (trackerVisit mem now ip
          (fun tracker => (0, tracker.count bytes direction)) 0 s.trackers).2 } := by
  cases hget : getBandwidthTracker mem now ip s.trackers with
  | mk r trackers =>
      have hvisit : getOrCreate BandwidthTracker.ip (BandwidthTracker.touch now)
          (BandwidthTracker.new now) mem ip s.trackers = (r, trackers) := hget
      rw [ratelimitUpdateBandwidth, if_neg hen, hget, trackerVisit, Records.visit, hvisit]
      cases r <;> exact ⟨rfl, rfl⟩

end Operations

/-- A call, by its return value and what it leaves of the lists. -/
def visited (config : RateConfig) (s : RateState) : RateCall → ℤ × RateState
  | .checkRequest ip mem created now =>
      if config.enableRateLimiting = 0 then (0, s)
      else
        let r := limiterVisit config mem created now ip s.limiters
        (r.1, { s with limiters := r.2 })
  | .checkBandwidth ip bytes direction mem found now =>
      if config.enableRateLimiting = 0 ∨ config.rateLimitBandwidthKbps = 0 then (0, s)
      else
        let r := trackerVisit mem found ip (BandwidthTracker.check config now bytes direction) (-1)
          s.trackers
        (r.1, { s with trackers := r.2 })
  | .updateBandwidth ip bytes direction mem now =>
      if config.enableRateLimiting = 0 then (0, s)
      else
        let r := trackerVisit mem now ip (fun tracker => (0, tracker.count bytes direction)) 0
          s.trackers
        (r.1, { s with trackers := r.2 })
  | .cleanupOldEntries now => (0, ratelimitCleanupOldEntries now s)

lemma rateStep_visited (config : RateConfig) (s : RateState) (call : RateCall) :
    ∃ answer, rateStep config s call = some (answer, (visited config s call).2) ∧
      answer.ret = (visited config s call).1 := by
  cases call with
  | checkRequest ip mem created now =>
      by_cases hen : config.enableRateLimiting = 0
      · simp [rateStep, ratelimitCheckRequest, visited, hen]
      · obtain ⟨hret, hs⟩ := ratelimitCheckRequest_visit mem ip s hen
          created now
        rw [visited, if_neg hen]
        exact ⟨_, congrArg some (Prod.ext rfl hs), hret⟩
  | checkBandwidth ip bytes direction mem found now =>
      by_cases hoff : config.enableRateLimiting = 0 ∨ config.rateLimitBandwidthKbps = 0
      · simp [rateStep, ratelimitCheckBandwidth, visited, hoff]
      · obtain ⟨hret, hs⟩ := ratelimitCheckBandwidth_visit mem ip s hoff
          found now bytes direction
        rw [visited, if_neg hoff]
        exact ⟨_, congrArg some (Prod.ext rfl hs), hret⟩
  | updateBandwidth ip bytes direction mem now =>
      by_cases hen : config.enableRateLimiting = 0
      · simp [rateStep, ratelimitUpdateBandwidth, visited, hen]
      · obtain ⟨hret, hs⟩ := ratelimitUpdateBandwidth_visit mem ip s hen
          now bytes direction
        rw [visited, if_neg hen]
        exact ⟨_, congrArg some (Prod.ext rfl hs), hret⟩
  | cleanupOldEntries now => exact ⟨_, rfl, rfl⟩

/-! ### What a client sees -/

/-- The records that read as the client, in the two lists. -/
def RateState.ofClient (key : ClientIp) (s : RateState) :
    List RateLimiter × List BandwidthTracker :=
  (s.limiters.ofClient RateLimiter.ip key, s.trackers.ofClient BandwidthTracker.ip key)

/-- The calls about the client, and the cleanup, which is about all of them. -/
def RateCall.concerns (key : ClientIp) : RateCall → Bool
  | .checkRequest ip _ _ _ => ip.text = key.text
  | .checkBandwidth ip _ _ _ _ _ => ip.text = key.text
  | .updateBandwidth ip _ _ _ _ => ip.text = key.text
  | .cleanupOldEntries _ => true

section View

variable {config : RateConfig} {key : ClientIp} {call : RateCall} {s t : RateState}

lemma keepsName_limiter (config : RateConfig) (created now : ℤ) :
    KeepsName RateLimiter.ip id (RateLimiter.new config created)
      fun limiter => (if (limiter.request now).1 then 0 else -1, (limiter.request now).2) where
  touch _ := rfl
  create _ := rfl
  change limiter := (limiter.request_frame now).1

lemma keepsName_check (config : RateConfig) (found now : ℤ) (bytes : ℕ) (direction : ℤ) :
    KeepsName BandwidthTracker.ip (BandwidthTracker.touch found) (BandwidthTracker.new found)
      (BandwidthTracker.check config now bytes direction) where
  touch := BandwidthTracker.ip_touch found
  create _ := rfl
  change tracker := by
    rw [BandwidthTracker.check]
    split_ifs
    · rfl
    · exact tracker.ip_count bytes direction

lemma keepsName_update (now : ℤ) (bytes : ℕ) (direction : ℤ) :
    KeepsName BandwidthTracker.ip (BandwidthTracker.touch now) (BandwidthTracker.new now)
      fun tracker => (0, tracker.count bytes direction) where
  touch := BandwidthTracker.ip_touch now
  create _ := rfl
  change tracker := tracker.ip_count bytes direction

/-- Two lists that look the same to the client look the same to it after a visit. -/
lemma Records.visit_same {α : Type*} {ip : α → IpField} {touch : α → α} {create : IpField → α}
    {f : α → ℤ × α} {s t : Records α} (mem : Option IpField) (fail : ℤ)
    (h : KeepsName ip touch create f) (hview : s.ofClient ip key = t.ofClient ip key) :
    (s.visit ip touch create mem key f fail).1 = (t.visit ip touch create mem key f fail).1 ∧
      (s.visit ip touch create mem key f fail).2.ofClient ip key =
        (t.visit ip touch create mem key f fail).2.ofClient ip key := by
  obtain ⟨hret, hown⟩ := visit_own h mem key fail s
  obtain ⟨hret', hown'⟩ := visit_own h mem key fail t
  rw [hret, hret', hown, hown', hview]
  exact ⟨rfl, rfl⟩

/-- A call about another client. -/
lemma visited_other (hother : call.concerns key = false) :
    (visited config s call).2.ofClient key = s.ofClient key := by
  cases call with
  | checkRequest ip mem created now =>
      have hne : ip.text ≠ key.text := by simpa [RateCall.concerns] using hother
      rw [visited]
      split_ifs
      · rfl
      · exact congrArg (·, _) (Records.visit_other (keepsName_limiter config created now) hne)
  | checkBandwidth ip bytes direction mem found now =>
      have hne : ip.text ≠ key.text := by simpa [RateCall.concerns] using hother
      rw [visited]
      split_ifs
      · rfl
      · exact congrArg (_, ·)
          (Records.visit_other (keepsName_check config found now bytes direction) hne)
  | updateBandwidth ip bytes direction mem now =>
      have hne : ip.text ≠ key.text := by simpa [RateCall.concerns] using hother
      rw [visited]
      split_ifs
      · rfl
      · exact congrArg (_, ·) (Records.visit_other (keepsName_update now bytes direction) hne)
  | cleanupOldEntries now => cases hother

/-- A call about the client, in two states that look the same to it. -/
lemma visited_same (config : RateConfig) (hown : call.concerns key = true)
    (hview : s.ofClient key = t.ofClient key) :
    (visited config s call).1 = (visited config t call).1 ∧
      (visited config s call).2.ofClient key = (visited config t call).2.ofClient key := by
  obtain ⟨hlimiters, htrackers⟩ := Prod.mk.inj hview
  cases call with
  | checkRequest ip mem created now =>
      obtain rfl : ip = key := ClientIp.eq_of_text (by simpa [RateCall.concerns] using hown)
      rw [visited, visited]
      split_ifs
      · exact ⟨rfl, hview⟩
      · obtain ⟨hret, hrest⟩ := Records.visit_same mem (-1)
          (keepsName_limiter config created now) hlimiters
        exact ⟨hret, Prod.ext hrest htrackers⟩
  | checkBandwidth ip bytes direction mem found now =>
      obtain rfl : ip = key := ClientIp.eq_of_text (by simpa [RateCall.concerns] using hown)
      rw [visited, visited]
      split_ifs
      · exact ⟨rfl, hview⟩
      · obtain ⟨hret, hrest⟩ := Records.visit_same mem (-1)
          (keepsName_check config found now bytes direction) htrackers
        exact ⟨hret, Prod.ext hlimiters hrest⟩
  | updateBandwidth ip bytes direction mem now =>
      obtain rfl : ip = key := ClientIp.eq_of_text (by simpa [RateCall.concerns] using hown)
      rw [visited, visited]
      split_ifs
      · exact ⟨rfl, hview⟩
      · obtain ⟨hret, hrest⟩ := Records.visit_same mem 0
          (keepsName_update now bytes direction) htrackers
        exact ⟨hret, Prod.ext hlimiters hrest⟩
  | cleanupOldEntries now =>
      refine ⟨rfl, Prod.ext hlimiters ?_⟩
      exact (Records.ofClient_keep ..).trans
        ((congrArg _ htrackers).trans (Records.ofClient_keep ..).symm)

/-- A client sees its own calls and the cleanup. -/
lemma rateStep_unwinding (config : RateConfig) (key : ClientIp) :
    Unwinding (rateStep config) (RateCall.concerns key) (RateState.ofClient key)
      RateAnswer.ret where
  other := by
    intro s s' call answer hstep hother
    obtain ⟨_, hvisited, -⟩ := rateStep_visited config s call
    obtain ⟨-, rfl⟩ := Prod.mk.inj (Option.some.inj (hstep.symm.trans hvisited))
    exact visited_other hother
  same := by
    intro s t s' call answer hstep hown hview
    obtain ⟨_, hvisited, hret⟩ := rateStep_visited config s call
    obtain ⟨rfl, rfl⟩ := Prod.mk.inj (Option.some.inj (hstep.symm.trans hvisited))
    obtain ⟨answer', ht, hret'⟩ := rateStep_visited config t call
    obtain ⟨hsame, hlast⟩ := visited_same config hown hview
    exact ⟨answer', _, ht, by rw [hret, hret', hsame], hlast⟩

end View

/-- **The clients are apart.** Whatever the others call in between, the calls of a client
return what they return in the run of these calls and the cleanups alone, and the records of
the client end up the same. -/
theorem clients_isolated (config : RateConfig) (key : ClientIp) (calls : List RateCall) :
    ∃ log s log' s',
      exec (rateStep config) ratelimitInit calls = some (log, s) ∧
      exec (rateStep config) ratelimitInit (calls.filter (RateCall.concerns key)) =
        some (log', s') ∧
      ((log.filter fun e => e.1.concerns key).map fun e => (e.1, e.2.ret)) =
        (log'.map fun e => (e.1, e.2.ret)) ∧
      s.ofClient key = s'.ofClient key := by
  have htotal : ∃ log s, exec (rateStep config) ratelimitInit calls = some (log, s) ∧ True :=
    exec_invariant _ ratelimitInit calls trivial fun _ s call _ _ => by
      obtain ⟨answer, hstep, -⟩ := rateStep_visited config s call
      exact ⟨answer, _, hstep, trivial⟩
  obtain ⟨log, s, hrun, -⟩ := htotal
  obtain ⟨log', s', hrun', hlog, hlast⟩ := (rateStep_unwinding config key).purge _ hrun rfl
  exact ⟨log, s, log', s', hrun, hrun', hlog, hlast⟩

end ProxyMax
