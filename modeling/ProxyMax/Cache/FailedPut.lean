import ProxyMax.Cache.Capacity

/-!
What a `cache_put` that returns -1 leaves of the cache.

* `Cache.SameStore`: the records, the two structures that link them and the byte
  counter are the same.
* `Cache.RoomFor`: the entry needs no other one to go.
* `failedPut_iff`: a failed call leaves the cache as it was just when the
  inserting path has room or finds memory.
-/

namespace ProxyMax

open CString Recency Machine

namespace Cache

/-- The entries, their data, sizes and expiries, their order and the byte counter. -/
structure SameStore (c c' : Cache) : Prop where
  heap : c'.heap = c.heap
  lru : c'.lru = c.lru
  buckets : c'.buckets = c.buckets
  totalSize : c'.totalSize = c.totalSize

lemma SameStore.refl (c : Cache) : c.SameStore c := ⟨rfl, rfl, rfl, rfl⟩

lemma SameStore.contents_eq {c c' : Cache} (h : c.SameStore c') : c'.contents = c.contents := by
  have hderef : c'.deref = c.deref := funext fun p => congrArg (·.getD default) (congrFun h.heap p)
  rw [Cache.contents, Cache.contents, h.lru, hderef]

/-- The test of the eviction loop, where it does not evict. -/
def RoomFor (c : Cache) (size : ℕ) : Prop := addSize c.totalSize size ≤ c.maxSize

/-- A record that is allocated and freed again leaves the others as they were. -/
lemma Valid.sameStore_allocFree {c : Cache} (h : c.Valid) :
    c.SameStore { c with fresh := c.fresh + 1, heap := Function.update c.heap c.fresh none } := by
  refine ⟨?_, rfl, rfl, rfl⟩
  rw [Function.update_eq_self_iff, eq_comm, ← Option.not_isSome_iff_eq_none, ← h.live]
  exact h.fresh_notMem

/-- Where there is no room, an entry goes. -/
lemma Valid.contents_evict_ne {c d : Cache} (h : c.Valid) {size : ℕ} (hsize : size ≤ c.maxSize / 2)
    (hd : c.Becomes (evict (overFull c.maxSize size) c.contents) d) (hroom : ¬c.RoomFor size) :
    d.contents ≠ c.contents := by
  intro hsame
  rw [hd.contents] at hsame
  have hfull := (h.overFull_iff size).mpr (not_le.mp hroom)
  rcases evict_light (overFull c.maxSize size) c.contents with hnil | hlight
  · -- without entries there is room
    rw [hsame] at hnil
    rw [hnil, overFull, decide_eq_true_eq, addSize] at hfull
    have hmod := Nat.mod_le size sizeMod
    simp only [List.map_nil, List.sum_nil, Nat.zero_mod, Nat.zero_add] at hfull
    omega
  · rw [hsame, hfull] at hlight
    cases hlight

end Cache

/-- The allocations of the inserting path succeed. -/
def PutAlloc.Inserts (alloc : PutAlloc) : Prop := (alloc.entry && alloc.key && alloc.data) = true

/-- A call of `cache_put` leaves the cache as it was, if it returns -1. -/
def FailsClean (c : Cache) (key data : Bytes) (size : ℕ) (ttl now : ℤ) (alloc : PutAlloc) : Prop :=
  ∀ c', cachePut c key data size ttl now alloc = some (-1, c') → c.SameStore c'

/-- The call is refused, or its key is stored already; or there is room for the entry;
or the call finds its memory. -/
def NeedsNoRoom (c : Cache) (key : Bytes) (size : ℕ) (alloc : PutAlloc) : Prop :=
  size = 0 ∨ c.maxSize / 2 < size ∨ (∃ e ∈ c.contents, e.key = key) ∨ c.RoomFor size ∨ alloc.Inserts

section Put

variable {c : Cache} {key data : Bytes} {size : ℕ} {ttl now : ℤ} {alloc : PutAlloc}

/-- The paths on which nothing is evicted before the last allocation. -/
lemma Cache.Valid.failsClean_of_stored (h : c.Valid) (hkey : ∃ e ∈ c.contents, e.key = key) :
    FailsClean c key data size ttl now alloc := by
  intro c' hput
  by_cases hacc : size = 0 ∨ c.maxSize / 2 < size
  · rw [cachePut_rejected hacc, Option.some.injEq, Prod.mk.injEq] at hput
    rw [← hput.2]
    exact .refl c
  cases hf : c.findEntry (hashKey key c.numBuckets) key with
  | none =>
      obtain ⟨e, he, hek⟩ := hkey
      exact absurd hek (lookup_eq_none.mp (h.findEntry_none hf) e he)
  | some p =>
      rw [cachePut_present hacc hf (h.findEntry_some hf).2] at hput
      split at hput
      · simp at hput
      · rw [Option.some.injEq, Prod.mk.injEq] at hput
        rw [← hput.2]
        exact .refl c

/-- **The inserting path** leaves the cache as it was just when it evicts nothing or does
not fail. -/
lemma Cache.Valid.failsClean_absent_iff (h : c.Valid) (hpos : 0 < size)
    (hhalf : size ≤ c.maxSize / 2) (habsent : ∀ e ∈ c.contents, e.key ≠ key) :
    FailsClean c key data size ttl now alloc ↔ c.RoomFor size ∨ alloc.Inserts := by
  have hacc : ¬(size = 0 ∨ c.maxSize / 2 < size) := by omega
  have hf : c.findEntry (hashKey key c.numBuckets) key = none := by
    cases hf : c.findEntry (hashKey key c.numBuckets) key with
    | none => rfl
    | some p =>
        obtain ⟨hp, hk⟩ := h.findEntry_some hf
        exact absurd hk (habsent _ (List.mem_map_of_mem hp))
  obtain ⟨d, hloop, hd⟩ := h.evictLoop_refines hhalf (Nat.lt_succ_self c.lru.length)
  rw [FailsClean, cachePut_absent hacc hf hloop hd.numBuckets]
  by_cases halloc : (alloc.entry && alloc.key && alloc.data) = true
  · rw [if_pos halloc]
    refine iff_of_true (fun c' hput => ?_) (.inr halloc)
    simp at hput
  rw [if_neg halloc]
  by_cases hroom : c.RoomFor size
  · -- the loop ends at its first test
    have hsame : d = c := by
      rw [evictLoop, if_neg (not_lt.mpr hroom)] at hloop
      exact (Option.some.inj hloop).symm
    subst hsame
    refine iff_of_true (fun c' hput => ?_) (.inl hroom)
    split at hput
    · rw [Option.some.injEq, Prod.mk.injEq] at hput
      rw [← hput.2]
      exact h.sameStore_allocFree
    · rw [Option.some.injEq, Prod.mk.injEq] at hput
      rw [← hput.2]
      exact .refl d
  · refine iff_of_false (fun hclean => ?_) (not_or.mpr ⟨hroom, halloc⟩)
    have hgone := h.contents_evict_ne hhalf hd hroom
    by_cases hentry : alloc.entry
    · rw [if_pos hentry] at hclean
      have hsame := (hclean _ rfl).contents_eq
      rw [hd.valid.contents_allocFree] at hsame
      exact hgone hsame
    · rw [if_neg hentry] at hclean
      exact hgone (hclean d rfl).contents_eq

end Put

/-- **A failed store.** In every cache that is reached from `cache_init`, a call of
`cache_put` that returns -1 leaves the entries, their order and the byte counter as they
were if and only if it needs no room, or has it, or does not run out of memory. -/
theorem failedPut_iff (sizeMb : ℕ) (calls : List Call) (c : Cache)
    (hc : Reach cacheStep (cacheInit sizeMb) calls c) (key data : Bytes) (size : ℕ) (ttl now : ℤ)
    (alloc : PutAlloc) :
    FailsClean c key data size ttl now alloc ↔ NeedsNoRoom c key size alloc := by
  obtain ⟨log, hlog⟩ := hc
  obtain ⟨log', d, hex, hb, -⟩ := cacheExec_refines sizeMb calls
  rw [hlog, Option.some.injEq, Prod.mk.injEq] at hex
  obtain ⟨-, rfl⟩ := hex
  have h := hb.valid
  by_cases hacc : size = 0 ∨ c.maxSize / 2 < size
  · refine iff_of_true (fun c' hput => ?_) (hacc.elim .inl fun hbig => .inr (.inl hbig))
    rw [Cache.cachePut_rejected hacc, Option.some.injEq, Prod.mk.injEq] at hput
    rw [← hput.2]
    exact .refl c
  by_cases hkey : ∃ e ∈ c.contents, e.key = key
  · exact iff_of_true (h.failsClean_of_stored hkey) (.inr (.inr (.inl hkey)))
  rw [h.failsClean_absent_iff (by omega) (by omega) fun e he hk => hkey ⟨e, he, hk⟩, NeedsNoRoom]
  have hpos : size ≠ 0 := by omega
  have hhalf : ¬c.maxSize / 2 < size := by omega
  simp only [hpos, hhalf, hkey, false_or]

/-- Two entries fill a cache of one megabyte. -/
def twoHalves : List Call := [putZeros (ascii "/a") 524288, putZeros (ascii "/b") 524288]

/-- In the full cache a call that finds no memory leaves an entry of its key as it was, and another
one drops an entry. -/
theorem failedPut_iff_full : ∃ c, Reach cacheStep (cacheInit 1) twoHalves c ∧
    c.totalSize = c.maxSize ∧
    FailsClean c (ascii "/a") [1] 1 0 0 ⟨false, false, false, false⟩ ∧
    ¬FailsClean c (ascii "/c") [1] 1 0 0 ⟨true, false, true, true⟩ := by
  have hrun : (exec cacheStep (cacheInit 1) twoHalves).map (fun r => (r.2.totalSize, r.2.maxSize,
      r.2.contents.map CacheEntry.key)) =
        some (1048576, 1048576, [ascii "/a", ascii "/b"]) := by
    decide +kernel
  obtain ⟨⟨log, c⟩, hex, heq⟩ := Option.map_eq_some_iff.mp hrun
  simp only [Prod.mk.injEq] at heq
  obtain ⟨htotal, hmax, hkeys⟩ := heq
  have hreach : Reach cacheStep (cacheInit 1) twoHalves c := ⟨log, hex⟩
  refine ⟨c, hreach, htotal.trans hmax.symm, ?_, fun hclean => ?_⟩
  · refine (failedPut_iff 1 twoHalves c hreach (ascii "/a") [1] 1 0 0
      ⟨false, false, false, false⟩).mpr (.inr (.inr (.inl ?_)))
    exact List.mem_map.mp (hkeys ▸ List.mem_cons_self)
  · have hcond := (failedPut_iff 1 twoHalves c hreach (ascii "/c") [1] 1 0 0
      ⟨true, false, true, true⟩).mp hclean
    simp only [NeedsNoRoom, Cache.RoomFor, PutAlloc.Inserts, htotal, hmax] at hcond
    rcases hcond with hzero | hlarge | hkey | hroom | hinserts
    · omega
    · omega
    · have hmem : ascii "/c" ∈ c.contents.map CacheEntry.key := List.mem_map.mpr hkey
      rw [hkeys] at hmem
      exact absurd hmem (by decide)
    · exact absurd hroom (by decide)
    · exact absurd hinserts (by decide)

/-- The third one takes the place of the first, and finds no memory. -/
theorem twoHalves_lost : ∃ c c', Reach cacheStep (cacheInit 1) twoHalves c ∧
    cachePut c (ascii "/c") (List.replicate 524288 0) 524288 0 1 ⟨true, false, true, true⟩ =
      some (-1, c') ∧ c.totalSize = 1048576 ∧ c'.totalSize = 524288 := by
  have hrun : (exec cacheStep (cacheInit 1) twoHalves).map (fun r => (r.2.totalSize,
      (cachePut r.2 (ascii "/c") (List.replicate 524288 0) 524288 0 1 ⟨true, false, true, true⟩).map
        fun q => (q.1, q.2.totalSize))) = some (1048576, some (-1, 524288)) := by
    decide +kernel
  obtain ⟨⟨log, c⟩, hex, heq⟩ := Option.map_eq_some_iff.mp hrun
  obtain ⟨htotal, hput⟩ := Prod.mk.inj heq
  obtain ⟨⟨r, c'⟩, hput, heq'⟩ := Option.map_eq_some_iff.mp hput
  obtain ⟨rfl, hsize⟩ := Prod.mk.inj heq'
  exact ⟨c, c', ⟨log, hex⟩, hput, htotal, hsize⟩

end ProxyMax
