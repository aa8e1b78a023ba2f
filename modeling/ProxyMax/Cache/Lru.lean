import ProxyMax.Cache.Invariant

/-!
What the cache is for: the abstract cache is a recency list of entries, and the
operations of `src/cache/cache.c` refine its operations.

* `lruGet`, `lruPut`: the two operations on recency lists.
* `evictLoop_refines`, `cacheGet_refines`, `cachePut_refines`: on a valid cache
  the operations return, answer as the abstract ones, keep `Valid` and have the
  abstract effect on `contents`.
* `lruStep`, `cacheStep_refines`: the same for a call.
* `cacheExec_refines`: a run of calls from `cacheInit` is a run of the abstract
  cache.
-/

namespace ProxyMax

open CString Recency Machine

/-! ### The abstract cache -/

/-- Looking a key up: an expired entry is dropped, a found one becomes the most
recently used one. -/
def lruGet (l : List CacheEntry) (key : Bytes) (now : ℤ) (dataOk : Bool) :
    Option (Bytes × ℕ) × List CacheEntry :=
  match lookup CacheEntry.key key l with
  | none => (none, l)
  | some e =>
      if 0 < e.expiry ∧ e.expiry < now then (none, del CacheEntry.key key l)
      else (if dataOk then some (e.data.take e.size, e.size) else none,
        touch CacheEntry.key e l)

/-- The entries together with one of `size` bytes exceed the limit `max`. -/
def overFull (max size : ℕ) (l : List CacheEntry) : Bool :=
  max < addSize ((l.map CacheEntry.size).sum % sizeMod) size

/-- Storing an entry in a cache of size `max`: replacing the entry of its key, or
making room among the others. -/
def lruPut (max : ℕ) (l : List CacheEntry) (e : CacheEntry) (alloc : PutAlloc) :
    ℤ × List CacheEntry :=
  if e.size = 0 ∨ max / 2 < e.size then (-1, l)
  else
    match lookup CacheEntry.key e.key l with
    | some _ => if alloc.newData then (0, touch CacheEntry.key e l) else (-1, l)
    | none =>
        if alloc.entry && alloc.key && alloc.data then (0, evict (overFull max e.size) l ++ [e])
        else (-1, evict (overFull max e.size) l)

/-- The entry a call of `cache_put` stores. -/
def putEntry (key data : Bytes) (size : ℕ) (ttl now : ℤ) : CacheEntry :=
  ⟨key, data.take size, size, expiryOf ttl now⟩

/-- One call of the abstract cache. -/
def lruStep (max : ℕ) (l : List CacheEntry) : Call → Answer × List CacheEntry
  | .get key now dataOk =>
      let r := lruGet l key now dataOk
      (getAnswer r.1, r.2)
  | .put key data size _ ttl now alloc =>
      let r := lruPut max l (putEntry key data size ttl now) alloc
      (putAnswer r.1, r.2)

/-! ### The refinement -/

namespace Cache

/-- The cache after an operation is valid, its contents are `l`, and its
parameters are those of `c`. -/
structure Becomes (c : Cache) (l : List CacheEntry) (c' : Cache) : Prop where
  valid : c'.Valid
  contents : c'.contents = l
  maxSize : c'.maxSize = c.maxSize
  numBuckets : c'.numBuckets = c.numBuckets

lemma Valid.becomes {c : Cache} (h : c.Valid) : c.Becomes c.contents c := ⟨h, rfl, rfl, rfl⟩

lemma Valid.evictLru {c : Cache} (h : c.Valid) :
    c.Becomes c.contents.tail (cacheEvictLru c) := by
  cases hl : c.lru with
  | nil =>
      have he : cacheEvictLru c = c := by simp [cacheEvictLru, hl]
      rw [he]
      exact ⟨h, by simp [Cache.contents, hl], rfl, rfl⟩
  | cons p l =>
      have hp : p ∈ c.lru := by simp [hl]
      have he : cacheEvictLru c = c.unlink p := by simp only [cacheEvictLru, hl]; rfl
      have htail : (c.lru.erase p).map c.deref = c.contents.tail := by
        simp [Cache.contents, hl]
      rw [he]
      exact ⟨h.unlink hp, by rw [h.contents_unlink hp, ← h.map_erase hp, htail], rfl, rfl⟩

/-- The eviction loop tests what `overFull` says of the contents. -/
lemma Valid.overFull_iff {c : Cache} (h : c.Valid) (size : ℕ) :
    overFull c.maxSize size c.contents = true ↔ c.maxSize < addSize c.totalSize size := by
  rw [overFull, decide_eq_true_eq, h.total]
  rfl

/-- **The eviction loop ends**: a cache without entries has room for every size
that passed the test against half of `maxSize`. -/
theorem Valid.evictLoop_refines {c : Cache} (h : c.Valid) {size : ℕ}
    (hsize : size ≤ c.maxSize / 2) {fuel : ℕ} (hfuel : c.lru.length < fuel) :
    ∃ c', evictLoop size fuel c = some c' ∧
      c.Becomes (evict (overFull c.maxSize size) c.contents) c' := by
  induction fuel generalizing c with
  | zero => omega
  | succ fuel ih =>
      cases hl : c.lru with
      | nil =>
          have hnil : c.contents = [] := by simp [Cache.contents, hl]
          have hroom : ¬ c.maxSize < addSize c.totalSize size := by
            have hmod := Nat.mod_le size sizeMod
            rw [h.total, Cache.storedSize, hnil]
            simp only [List.map_nil, List.sum_nil, Nat.zero_mod, addSize, Nat.zero_add]
            omega
          refine ⟨c, by rw [evictLoop, if_neg hroom], ?_⟩
          rw [hnil, evict, ← hnil]
          exact h.becomes
      | cons p l =>
          have hcons : c.contents = c.deref p :: l.map c.deref := by simp [Cache.contents, hl]
          rw [evictLoop, hcons, evict, ← hcons]
          by_cases hover : c.maxSize < addSize c.totalSize size
          · have hev := h.evictLru
            have hlen : (cacheEvictLru c).lru.length < fuel := by
              have := congrArg List.length hev.contents
              simp only [Cache.contents, List.length_map, List.length_tail, hl,
                List.length_cons] at this hfuel
              omega
            obtain ⟨c', hc', hb⟩ := ih hev.valid (by rw [hev.maxSize]; exact hsize) hlen
            rw [if_pos hover, if_pos ((h.overFull_iff size).mpr hover)]
            refine ⟨c', hc', hb.valid, ?_, hb.maxSize.trans hev.maxSize,
              hb.numBuckets.trans hev.numBuckets⟩
            rw [hb.contents, hev.maxSize, hev.contents, hcons, List.tail_cons]
          · rw [if_neg hover, if_neg (fun hf => hover ((h.overFull_iff size).mp hf))]
            exact ⟨c, rfl, h.becomes⟩

/-- **`cache_get` refines `lruGet`.** -/
theorem Valid.cacheGet_refines {c : Cache} (h : c.Valid) (key : Bytes) (now : ℤ) (dataOk : Bool) :
    (cacheGet c key now dataOk).1 = (lruGet c.contents key now dataOk).1 ∧
      c.Becomes (lruGet c.contents key now dataOk).2 (cacheGet c key now dataOk).2 := by
  have hfind := h.findEntry_eq key
  rw [cacheGet, lruGet, ← hfind]
  cases hf : c.findEntry (hashKey key c.numBuckets) key with
  | none => exact ⟨rfl, h.counters _ _, rfl, rfl, rfl⟩
  | some p =>
      obtain ⟨hp, rfl⟩ := h.findEntry_some hf
      simp only [Option.map_some]
      by_cases hexp : 0 < (c.deref p).expiry ∧ (c.deref p).expiry < now
      · rw [if_pos hexp, if_pos hexp]
        exact ⟨rfl, (h.unlink hp).counters _ _, h.contents_unlink hp, rfl, rfl⟩
      · rw [if_neg hexp, if_neg hexp]
        cases dataOk with
        | true => exact ⟨rfl, (h.relink hp).counters _ _, h.contents_relink hp, rfl, rfl⟩
        | false => exact ⟨rfl, h.relink hp, h.contents_relink hp, rfl, rfl⟩

/-! ### `cache_put`, path by path -/

section Put

variable {c : Cache} {key data : Bytes} {size : ℕ} {ttl now : ℤ} {alloc : PutAlloc}

lemma cachePut_rejected (hrej : size = 0 ∨ c.maxSize / 2 < size) :
    cachePut c key data size ttl now alloc = some (-1, c) := by
  rw [cachePut]
  rcases hrej with h0 | hbig
  · rw [if_pos h0]
  · rw [if_pos hbig, ite_self]

/-- The overwriting path. -/
lemma cachePut_present (hacc : ¬ (size = 0 ∨ c.maxSize / 2 < size)) {p : Ptr}
    (hf : c.findEntry (hashKey key c.numBuckets) key = some p) (hk : (c.deref p).key = key) :
    cachePut c key data size ttl now alloc =
      if alloc.newData then some (0, c.overwrite p (putEntry key data size ttl now))
      else some (-1, c) := by
  rw [not_or] at hacc
  rw [cachePut, if_neg hacc.1, if_neg hacc.2]
  simp only [hf, hk]
  rfl

/-- The inserting path: the links are made after every allocation, so a failed
one leaves only the evictions. -/
lemma cachePut_absent (hacc : ¬ (size = 0 ∨ c.maxSize / 2 < size)) {d : Cache}
    (hf : c.findEntry (hashKey key c.numBuckets) key = none)
    (hd : evictLoop size (c.lru.length + 1) c = some d) (hb : d.numBuckets = c.numBuckets) :
    cachePut c key data size ttl now alloc =
      if alloc.entry && alloc.key && alloc.data then
        some (0, d.insert (putEntry key data size ttl now))
      else if alloc.entry then
        some (-1, { d with fresh := d.fresh + 1, heap := Function.update d.heap d.fresh none })
      else some (-1, d) := by
  rw [not_or] at hacc
  have hbucket : hashKey key c.numBuckets = hashKey key d.numBuckets := by rw [hb]
  rw [cachePut, if_neg hacc.1, if_neg hacc.2]
  simp only [hf, hd, Option.map_some]
  rw [hbucket]
  cases alloc.entry <;> cases alloc.key <;> cases alloc.data <;> rfl

end Put

lemma lruPut_rejected {max : ℕ} {l : List CacheEntry} {e : CacheEntry} {alloc : PutAlloc}
    (hrej : e.size = 0 ∨ max / 2 < e.size) : lruPut max l e alloc = (-1, l) := if_pos hrej

lemma lruPut_present {max : ℕ} {l : List CacheEntry} {e a : CacheEntry} {alloc : PutAlloc}
    (hacc : ¬ (e.size = 0 ∨ max / 2 < e.size)) (hl : lookup CacheEntry.key e.key l = some a) :
    lruPut max l e alloc =
      if alloc.newData then (0, touch CacheEntry.key e l) else (-1, l) := by
  rw [lruPut, if_neg hacc, hl]

lemma lruPut_absent {max : ℕ} {l : List CacheEntry} {e : CacheEntry} {alloc : PutAlloc}
    (hacc : ¬ (e.size = 0 ∨ max / 2 < e.size)) (hl : lookup CacheEntry.key e.key l = none) :
    lruPut max l e alloc =
      if alloc.entry && alloc.key && alloc.data then (0, evict (overFull max e.size) l ++ [e])
      else (-1, evict (overFull max e.size) l) := by
  rw [lruPut, if_neg hacc, hl]

/-- A freed record is none of the contents. -/
lemma Valid.contents_allocFree {c : Cache} (h : c.Valid) :
    contents { c with fresh := c.fresh + 1, heap := Function.update c.heap c.fresh none }
      = c.contents := by
  refine List.map_congr_left ?_
  intro q hq
  have hne : q ≠ c.fresh := fun hqf => h.fresh_notMem (hqf ▸ hq)
  simp [deref, hne]

/-- **`cache_put` refines `lruPut`**, and in particular returns. -/
theorem Valid.cachePut_refines {c : Cache} (h : c.Valid) {key data : Bytes} {size : ℕ}
    (hdata : size ≤ data.length) (ttl now : ℤ) (alloc : PutAlloc) :
    ∃ r c', cachePut c key data size ttl now alloc = some (r, c') ∧
      r = (lruPut c.maxSize c.contents (putEntry key data size ttl now) alloc).1 ∧
      c.Becomes (lruPut c.maxSize c.contents (putEntry key data size ttl now) alloc).2 c' := by
  by_cases hacc : size = 0 ∨ c.maxSize / 2 < size
  · rw [lruPut_rejected hacc]
    exact ⟨-1, c, cachePut_rejected hacc, rfl, h.becomes⟩
  have hfits : Fits c.maxSize (putEntry key data size ttl now) := by
    rw [not_or, not_lt] at hacc
    exact ⟨Nat.pos_of_ne_zero hacc.1, hacc.2, by simp [putEntry, hdata]⟩
  have hfind := h.findEntry_eq key
  cases hf : c.findEntry (hashKey key c.numBuckets) key with
  | some p =>
      obtain ⟨hp, hk⟩ := h.findEntry_some hf
      rw [hf, Option.map_some] at hfind
      rw [cachePut_present hacc hf hk, lruPut_present hacc hfind.symm]
      split
      · exact ⟨0, _, rfl, rfl, h.overwrite hp hk.symm hfits, h.contents_overwrite hp hk.symm,
          rfl, rfl⟩
      · exact ⟨-1, c, rfl, rfl, h.becomes⟩
  | none =>
      have hnone := h.findEntry_none hf
      obtain ⟨d, hd, hb⟩ := h.evictLoop_refines hfits.2.1 (Nat.lt_succ_self c.lru.length)
      rw [cachePut_absent hacc hf hd hb.numBuckets, lruPut_absent hacc hnone]
      have hnew : lookup CacheEntry.key key d.contents = none := by
        rw [hb.contents, lookup_eq_none]
        exact fun e he => lookup_eq_none.mp hnone e ((evict_suffix _ _).subset he)
      split
      · exact ⟨0, _, rfl, rfl, hb.valid.insert hnew (by rw [hb.maxSize]; exact hfits),
          by rw [hb.valid.contents_insert, hb.contents], hb.maxSize, hb.numBuckets⟩
      · split
        · exact ⟨-1, _, rfl, rfl, hb.valid.allocFree,
            hb.valid.contents_allocFree.trans hb.contents, hb.maxSize, hb.numBuckets⟩
        · exact ⟨-1, d, rfl, rfl, hb⟩

/-- **A call refines a call of the abstract cache**, and in particular returns. -/
theorem Valid.cacheStep_refines {c : Cache} (h : c.Valid) (call : Call) :
    ∃ c', cacheStep c call = some ((lruStep c.maxSize c.contents call).1, c') ∧
      c.Becomes (lruStep c.maxSize c.contents call).2 c' := by
  cases call with
  | get key now dataOk =>
      obtain ⟨hr, hb⟩ := h.cacheGet_refines key now dataOk
      refine ⟨_, ?_, hb⟩
      simp only [cacheStep, lruStep, hr]
  | put key data size hsize ttl now alloc =>
      obtain ⟨r, c', hput, hr, hb⟩ := h.cachePut_refines hsize ttl now alloc
      refine ⟨c', ?_, hb⟩
      rw [cacheStep, lruStep, hput, Option.map_some, hr]

end Cache

/-! ### Runs from `cache_init` -/

lemma valid_cacheInit (sizeMb : ℕ) : (cacheInit sizeMb).Valid where
  lru_nodup := List.nodup_nil
  live p := by simp [cacheInit]
  lt_fresh p hp := absurd hp (by simp [cacheInit])
  mem_bucket b p := by simp [cacheInit]
  bucket_nodup b := List.nodup_nil
  key_inj p hp := absurd hp (by simp [cacheInit])
  fits e he := absurd he (by simp [cacheInit, Cache.contents])
  total := rfl
  max_lt := Nat.mod_lt _ (by simp [sizeMod])

/-- **A run of the cache is a run of the abstract cache.** Every sequence of
calls from `cache_init` returns, keeps `Valid`, and has the answers and the
contents of the abstract cache. -/
theorem cacheExec_refines (sizeMb : ℕ) (calls : List Call) :
    ∃ log c, exec cacheStep (cacheInit sizeMb) calls = some (log, c) ∧
      (cacheInit sizeMb).Becomes c.contents c ∧
      exec (fun l call => some (lruStep (cacheInit sizeMb).maxSize l call)) [] calls
        = some (log, c.contents) := by
  obtain ⟨log, c, hex, hb, habs⟩ := exec_invariant cacheStep (cacheInit sizeMb)
    (P := fun log c => (cacheInit sizeMb).Becomes c.contents c ∧
      exec (fun l call => some (lruStep (cacheInit sizeMb).maxSize l call)) []
        (log.map Prod.fst) = some (log, c.contents)) calls
    ⟨(valid_cacheInit sizeMb).becomes, rfl⟩
    fun log c call _ ⟨hb, habs⟩ => by
      obtain ⟨c', hstep, hb'⟩ := hb.valid.cacheStep_refines call
      refine ⟨_, c', hstep, ⟨hb'.valid, rfl, hb'.maxSize.trans hb.maxSize,
        hb'.numBuckets.trans hb.numBuckets⟩, ?_⟩
      rw [List.map_append, List.map_cons, List.map_nil, exec_snoc _ habs, Option.map_some,
        hb'.contents, hb.maxSize]
  refine ⟨log, c, hex, hb, ?_⟩
  rwa [exec_inputs cacheStep hex] at habs

/-- **The two linked structures and the byte counter agree**: the buckets and
the recency list link the same records, each once, a record sits in the bucket
of its key, keys are distinct, and sizes and their sum are as recorded. -/
structure RepInvariant (c : Cache) : Prop where
  allocated : ∀ p ∈ c.lru, (c.heap p).isSome
  same_entries : ∀ p, p ∈ c.lru ↔ ∃ b < c.numBuckets, p ∈ c.buckets b
  once_in_lru : ∀ p ∈ c.lru, c.lru.count p = 1
  once_in_bucket :
    ∀ p ∈ c.lru, (c.buckets (hashKey (c.deref p).key c.numBuckets)).count p = 1
  no_other_bucket : ∀ b p, p ∈ c.buckets b → b = hashKey (c.deref p).key c.numBuckets
  keys_distinct : ∀ p ∈ c.lru, ∀ q ∈ c.lru, (c.deref p).key = (c.deref q).key → p = q
  sizes : ∀ p ∈ c.lru, 0 < (c.deref p).size ∧ (c.deref p).size ≤ c.maxSize / 2 ∧
    (c.deref p).size = (c.deref p).data.length
  total : c.storedSize < sizeMod → c.totalSize = c.storedSize

lemma hashKey_lt (key : Bytes) {n : ℕ} (h : 0 < n) : hashKey key n < n := Nat.mod_lt _ h

lemma Cache.Valid.repInvariant {c : Cache} (h : c.Valid) (hn : 0 < c.numBuckets) :
    RepInvariant c where
  allocated p hp := (h.live p).mp hp
  same_entries p :=
    ⟨fun hp => ⟨_, hashKey_lt _ hn, (h.mem_bucket _ p).mpr ⟨hp, rfl⟩⟩,
      fun ⟨b, _, hb⟩ => ((h.mem_bucket b p).mp hb).1⟩
  once_in_lru p hp := List.count_eq_one_of_mem h.lru_nodup hp
  once_in_bucket p hp :=
    List.count_eq_one_of_mem (h.bucket_nodup _) ((h.mem_bucket _ p).mpr ⟨hp, rfl⟩)
  no_other_bucket b p hp := ((h.mem_bucket b p).mp hp).2.symm
  keys_distinct := h.key_inj
  sizes p hp := h.fits _ (List.mem_map_of_mem hp)
  total hlt := by rw [h.total, Nat.mod_eq_of_lt hlt]

/-- **Representation invariant of the cache**: every sequence of calls from
`cache_init` returns, and leaves the two structures and the byte counter in
agreement. -/
theorem cache_representation (sizeMb : ℕ) (calls : List Call) :
    ∃ log c, exec cacheStep (cacheInit sizeMb) calls = some (log, c) ∧ RepInvariant c := by
  obtain ⟨log, c, hex, hb, -⟩ := cacheExec_refines sizeMb calls
  refine ⟨log, c, hex, hb.valid.repInvariant ?_⟩
  rw [hb.numBuckets]
  show 0 < 1024
  omega

end ProxyMax
