import ProxyMax.Cache.Concurrent

/-!
`cache_cleanup` of `src/cache/cache.c`, after any number of threads.

* `cleanupEntries`, `cacheCleanup`: the code, which destroys the records one by one and prints the
  counters.
* `Cache.Valid.cleanupEntries`: on a valid cache it destroys each record once, and all of them.
* `Counted`: the counters are what the lookups came to, as `int`s; `Counted.step` is a call.
* `cache_shutdown`: the two together, after a run of the threads.
-/

namespace ProxyMax

open CInt CString Interaction Machine Sections

/-! ### The code -/

/-- "while ((entry = TAILQ_FIRST(&g_cache->lru)))", for at most `fuel` passes: the records that are
destroyed, in order. There is no result where one is destroyed that is not there. -/
def cleanupEntries : ℕ → Cache → Option (List Ptr × Cache)
  | 0, _ => none
  | fuel + 1, c =>
      match c.lru with
      | [] => some ([], c)
      | entry :: _ =>
          if (c.heap entry).isSome then
            (cleanupEntries fuel ((c.tailqRemove entry).cacheEntryDestroy entry)).map
              fun r => (entry :: r.1, r.2)
          else none

/-- What `cache_cleanup` does: the records that it destroys, what is left of them, and the counters
that it prints. -/
structure CacheEnd where
  destroyed : List Ptr
  heap : Ptr → Option CacheEntry
  hits : ℤ
  misses : ℤ

/-- `cache_cleanup`. -/
def cacheCleanup (fuel : ℕ) (c : Cache) : Option CacheEnd :=
  (cleanupEntries fuel c).map fun r => ⟨r.1, r.2.heap, r.2.hits, r.2.misses⟩

/-! ### The records -/

/-- The loop destroys what the list links, once each. -/
lemma cleanupEntries_eq {c : Cache} (hnodup : c.lru.Nodup)
    (hlive : ∀ p, p ∈ c.lru ↔ (c.heap p).isSome) {fuel : ℕ} (hfuel : c.lru.length < fuel) :
    ∃ c', cleanupEntries fuel c = some (c.lru, c') ∧ (∀ p, c'.heap p = none) ∧
      c'.hits = c.hits ∧ c'.misses = c.misses := by
  induction fuel generalizing c with
  | zero => omega
  | succ fuel ih =>
      cases hlru : c.lru with
      | nil =>
          refine ⟨c, by rw [cleanupEntries, hlru], fun p => ?_, rfl, rfl⟩
          have hp := (hlive p).not.mp (by simp [hlru])
          simpa using hp
      | cons entry rest =>
          have hentry : (c.heap entry).isSome := (hlive entry).mp (by simp [hlru])
          rw [hlru] at hnodup hfuel
          obtain ⟨hnotMem, hrest⟩ := List.nodup_cons.mp hnodup
          set d := (c.tailqRemove entry).cacheEntryDestroy entry with hd
          have hdlru : d.lru = rest := by
            simp [hd, Cache.cacheEntryDestroy, Cache.tailqRemove, hlru]
          have hdlive : ∀ p, p ∈ d.lru ↔ (d.heap p).isSome := by
            intro p
            rw [hdlru]
            by_cases hp : p = entry
            · subst hp
              simp [hd, Cache.cacheEntryDestroy, hnotMem]
            · have hheap : d.heap p = c.heap p := Function.update_of_ne hp ..
              rw [hheap, ← hlive p, hlru, List.mem_cons, or_iff_right hp]
          obtain ⟨c', hloop, hgone, hhits, hmisses⟩ :=
            ih (by rwa [hdlru]) hdlive (by rw [hdlru]; simp at hfuel; omega)
          refine ⟨c', ?_, hgone, hhits, hmisses⟩
          rw [cleanupEntries, hlru]
          simp only [hentry, if_true, ← hd, hloop, Option.map_some, hdlru]

/-! ### The counters -/

/-- A lookup that handed data out. -/
def IsHit : CacheOp × Answer → Bool
  | (.get _, .hit _ _) => true
  | _ => false

/-- A lookup that failed. -/
def IsFailedGet : CacheOp × Answer → Bool
  | (.get _, .fail) => true
  | _ => false

/-- Each lookup that handed data out is counted as a hit, and some of those that failed as misses;
the others found no memory for the copy. The counters wrap around. -/
structure Counted (ops : List (CacheOp × Answer)) (c : Cache) : Prop where
  hits : c.hits = (ops.countP IsHit : ℤ).bmod (2 ^ 32)
  misses : ∃ misses ≤ ops.countP IsFailedGet, c.misses = (misses : ℤ).bmod (2 ^ 32)

/-- One more is counted. -/
lemma incr_bmod (n : ℕ) : incr ((n : ℤ).bmod (2 ^ 32)) = ((n + 1 : ℕ) : ℤ).bmod (2 ^ 32) := by
  rw [incr, Int.bmod_add_bmod]
  norm_cast

/-- What leaves the counters. -/
structure SameCounters (c c' : Cache) : Prop where
  hits : c'.hits = c.hits
  misses : c'.misses = c.misses

lemma sameCounters_evictLru (c : Cache) : SameCounters c (cacheEvictLru c) := by
  rw [cacheEvictLru]
  split <;> exact ⟨rfl, rfl⟩

lemma sameCounters_evictLoop {size : ℕ} (fuel : ℕ) : ∀ {c c' : Cache},
    evictLoop size fuel c = some c' → SameCounters c c' := by
  induction fuel with
  | zero =>
      intro c c' h
      cases h
  | succ fuel ih =>
      intro c c' h
      rw [evictLoop] at h
      split at h
      · have hevict := sameCounters_evictLru c
        have hrest := ih h
        exact ⟨hrest.hits.trans hevict.hits, hrest.misses.trans hevict.misses⟩
      · cases h
        exact ⟨rfl, rfl⟩

lemma sameCounters_cachePut {c c' : Cache} {key data : Bytes} {size : ℕ} {ttl now : ℤ}
    {alloc : PutAlloc} {r : ℤ} (h : cachePut c key data size ttl now alloc = some (r, c')) :
    SameCounters c c' := by
  rw [cachePut] at h
  split at h
  · cases h
    exact ⟨rfl, rfl⟩
  · split at h
    · cases h
      exact ⟨rfl, rfl⟩
    · simp only at h
      split at h
      · split at h <;> cases h <;> exact ⟨rfl, rfl⟩
      · obtain ⟨d, hloop, h⟩ := Option.map_eq_some_iff.mp h
        have hsame := sameCounters_evictLoop _ hloop
        split at h
        · split at h <;> cases h <;> exact ⟨hsame.hits, hsame.misses⟩
        · cases h
          exact hsame

/-- What a lookup does to the counters: it fails, and is counted as a miss or not at all, or it is
counted as a hit. -/
lemma cacheGet_counters (c : Cache) (key : Bytes) (now : ℤ) (dataOk : Bool) :
    ((cacheGet c key now dataOk).1 = none ∧ (cacheGet c key now dataOk).2.hits = c.hits ∧
        ((cacheGet c key now dataOk).2.misses = c.misses ∨
          (cacheGet c key now dataOk).2.misses = incr c.misses)) ∨
      ∃ r, (cacheGet c key now dataOk).1 = some r ∧
        (cacheGet c key now dataOk).2.hits = incr c.hits ∧
        (cacheGet c key now dataOk).2.misses = c.misses := by
  rw [cacheGet]
  split
  · exact .inl ⟨rfl, rfl, .inr rfl⟩
  · simp only
    split
    · exact .inl ⟨rfl, rfl, .inr rfl⟩
    · split
      · exact .inr ⟨_, rfl, rfl, rfl⟩
      · exact .inl ⟨rfl, rfl, .inl rfl⟩

/-- **One call more.** -/
lemma Counted.step {ops : List (CacheOp × Answer)} {c c' : Cache} {op : CacheOp} {a : Answer}
    {m : Outcomes} (h : Counted ops c) (hstep : cacheStep c (op.call m) = some (a, c')) :
    Counted (ops ++ [(op, a)]) c' := by
  obtain ⟨hhits, misses, hle, hmisses⟩ := h
  cases op with
  | get key =>
      obtain ⟨rfl, rfl⟩ := Prod.mk.inj (Option.some.inj hstep)
      rcases cacheGet_counters c key m.now m.dataOk with ⟨hnone, hh, hm⟩ | ⟨r, hsome, hh, hm⟩
      · have hfail : getAnswer (cacheGet c key m.now m.dataOk).1 = .fail := by rw [hnone]; rfl
        have hcount : (ops ++ [(CacheOp.get key, Answer.fail)]).countP IsFailedGet =
            ops.countP IsFailedGet + 1 := by
          simp [IsFailedGet]
        rw [hfail]
        refine ⟨by simp [IsHit, hh, hhits], ?_⟩
        rw [hcount]
        rcases hm with hsame | hmiss
        · exact ⟨misses, by omega, hsame.trans hmisses⟩
        · exact ⟨misses + 1, by omega, by rw [hmiss, hmisses, incr_bmod]⟩
      · have hhit : getAnswer (cacheGet c key m.now m.dataOk).1 = .hit r.1 r.2 := by
          rw [hsome]
          rfl
        have hcount : (ops ++ [(CacheOp.get key, Answer.hit r.1 r.2)]).countP IsHit =
            ops.countP IsHit + 1 := by
          simp [IsHit]
        rw [hhit]
        refine ⟨by rw [hcount, hh, hhits, incr_bmod], misses, ?_, hm.trans hmisses⟩
        simpa [IsFailedGet] using hle
  | put key data size size_pos size_le ttl =>
      obtain ⟨⟨r, d⟩, hput, hanswer⟩ := Option.map_eq_some_iff.mp hstep
      obtain ⟨rfl, rfl⟩ := Prod.mk.inj hanswer
      have hsame := sameCounters_cachePut hput
      refine ⟨by simp [IsHit, hsame.hits, hhits], misses, ?_, hsame.misses.trans hmisses⟩
      simpa [IsFailedGet] using hle

/-- Sections one after the other leave a valid cache, whose counters are what they came to. -/
lemma serial_counted {sizeMb fuel : ℕ} {c : Cache} {ops : List (CacheOp × Answer)}
    (h : Serial cacheAccess (CacheOp.body fuel) (cacheInit sizeMb) ops c) :
    c.Valid ∧ Counted ops c := by
  refine h.invariant (P := fun ops c => c.Valid ∧ Counted ops c) ?_
    ⟨valid_cacheInit sizeMb, rfl, 0, le_rfl, rfl⟩
  rintro ops c op a c' ⟨hvalid, hcounted⟩ hdoes
  obtain ⟨m, hstep⟩ := cacheOp_does hdoes
  refine ⟨?_, hcounted.step hstep⟩
  obtain ⟨d, hrefines, hbecomes⟩ := hvalid.cacheStep_refines (op.call m)
  obtain ⟨-, rfl⟩ := Prod.mk.inj (Option.some.inj (hstep.symm.trans hrefines))
  exact hbecomes.valid

/-- **The end of the cache.** After any run of the threads, with nobody in a section,
`cache_cleanup` destroys each record that is stored once, and leaves none in memory. The hits
that it prints are the lookups that handed data out, and its misses are some of those that
failed, as far as an `int` can count them. -/
theorem cache_shutdown {T : Type} [DecidableEq T] (sizeMb fuel : ℕ)
    (moves : List (Move T CacheOp CacheReply))
    (log : List (Move T CacheOp CacheReply × Option (CacheOp × Answer)))
    (s : System T Cache CacheOp CacheReply Unit Answer)
    (hrun : exec (sectionStep cacheAccess (CacheOp.body fuel)) (System.idle (cacheInit sizeMb))
      moves = some (log, s)) (howner : s.owner = none) :
    ∃ last, cacheCleanup (s.memory.lru.length + 1) s.memory = some last ∧
      last.destroyed.Nodup ∧ (∀ p, p ∈ last.destroyed ↔ (s.memory.heap p).isSome) ∧
      (∀ p, last.heap p = none) ∧
      last.hits = ((completed log).countP IsHit : ℤ).bmod (2 ^ 32) ∧
      (∃ misses ≤ (completed log).countP IsFailedGet,
        last.misses = (misses : ℤ).bmod (2 ^ 32)) ∧
      ((completed log).countP IsHit ≤ intMax →
        last.hits = (completed log).countP IsHit) := by
  obtain ⟨base, hserial, hguarded⟩ := serializable hrun
  obtain ⟨hvalid, hcounted⟩ := serial_counted hserial
  rw [hguarded.free howner]
  obtain ⟨c', hloop, hgone, hhits, hmisses⟩ :=
    cleanupEntries_eq hvalid.lru_nodup hvalid.live (Nat.lt_succ_self _)
  obtain ⟨misses, hle, hcount⟩ := hcounted.misses
  refine ⟨⟨base.lru, c'.heap, c'.hits, c'.misses⟩, by rw [cacheCleanup, hloop, Option.map_some],
    hvalid.lru_nodup, hvalid.live, hgone, hhits.trans hcounted.hits,
    ⟨misses, hle, hmisses.trans hcount⟩, fun hmax => ?_⟩
  rw [intMax] at hmax
  calc c'.hits = base.hits := hhits
    _ = ((completed log).countP IsHit : ℤ).bmod (2 ^ 32) := hcounted.hits
    _ = (completed log).countP IsHit := Int.bmod_eq_of_le (by omega) (by omega)

/-- After the letter was stored and found, its record is destroyed, with one hit counted. -/
theorem cache_shutdown_stored : ∃ log s last,
    exec (sectionStep cacheAccess (CacheOp.body 2)) (System.idle (cacheInit 1))
      (storedMoves (0 : Fin 2) 1) = some (log, s) ∧
    cacheCleanup (s.memory.lru.length + 1) s.memory = some last ∧
    (∀ p, last.heap p = none) ∧ last.hits = 1 := by
  have hrun : (exec (sectionStep cacheAccess (CacheOp.body 2)) (System.idle (cacheInit 1))
      (storedMoves (0 : Fin 2) 1)).map (fun r => ((completed r.1).countP IsHit, r.2.owner)) =
        some (1, none) := by
    decide +kernel
  obtain ⟨⟨log, s⟩, hexec, hout⟩ := Option.map_eq_some_iff.mp hrun
  obtain ⟨hcount, howner⟩ := Prod.mk.inj hout
  obtain ⟨last, hlast, -, -, hgone, -, -, hhits⟩ := cache_shutdown 1 2 (storedMoves 0 1) log s hexec
    howner
  have hone : last.hits = 1 := by
    rw [hcount] at hhits
    exact hhits (by decide)
  exact ⟨log, s, last, hexec, hlast, hgone, hone⟩

end ProxyMax
