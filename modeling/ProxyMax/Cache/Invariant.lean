import ProxyMax.Cache.Table
import ProxyMax.Lib.Recency

/-!
The representation invariant of the cache, and the cache as a recency list.

* `Cache.Valid`: the two structures link the same records, each once and in
  the bucket of its key, and `totalSize` is the sum of the stored sizes modulo
  `2^64`.
* `Cache.contents`: the abstraction, the stored entries in recency order.
* `unlink`, `relink`, `overwrite`, `insert`: what the operations do to the
  records and the links, each with the lemma that it keeps `Valid` and with
  its effect on `contents`.
-/

namespace ProxyMax

open CString Recency

namespace Cache

/-- The stored entries, least recently used first. -/
def contents (c : Cache) : List CacheEntry := c.lru.map c.deref

/-- The sum of the sizes of the stored entries. -/
def storedSize (c : Cache) : ℕ := (c.contents.map CacheEntry.size).sum

/-- An entry that `cache_put` accepts into a cache of size `max`. -/
def Fits (max : ℕ) (e : CacheEntry) : Prop :=
  0 < e.size ∧ e.size ≤ max / 2 ∧ e.size = e.data.length

/-- **The representation invariant.** The records in memory are the ones the
recency list links, each once; a bucket links, each once, the records whose key
hashes to it; keys are distinct, sizes are within bounds and they add up. -/
structure Valid (c : Cache) : Prop where
  lru_nodup : c.lru.Nodup
  live : ∀ p, p ∈ c.lru ↔ (c.heap p).isSome
  lt_fresh : ∀ p ∈ c.lru, p < c.fresh
  mem_bucket : ∀ b p, p ∈ c.buckets b ↔ p ∈ c.lru ∧ hashKey (c.deref p).key c.numBuckets = b
  bucket_nodup : ∀ b, (c.buckets b).Nodup
  key_inj : ∀ p ∈ c.lru, ∀ q ∈ c.lru, (c.deref p).key = (c.deref q).key → p = q
  fits : ∀ e ∈ c.contents, Fits c.maxSize e
  total : c.totalSize = c.storedSize % sizeMod
  max_lt : c.maxSize < sizeMod

/-- The hit counters are no part of the representation. -/
lemma Valid.counters {c : Cache} (h : c.Valid) (hits misses : ℤ) :
    Valid { c with hits := hits, misses := misses } :=
  ⟨h.lru_nodup, h.live, h.lt_fresh, h.mem_bucket, h.bucket_nodup, h.key_inj, h.fits, h.total,
    h.max_lt⟩

lemma Valid.keysNodup {c : Cache} (h : c.Valid) : KeysNodup CacheEntry.key c.contents := by
  rw [KeysNodup, contents, List.map_map]
  exact h.lru_nodup.map_on fun p hp q hq hk => h.key_inj p hp q hq hk

lemma storedSize_eq (c : Cache) : c.storedSize = (c.lru.map fun p => (c.deref p).size).sum := by
  rw [storedSize, contents, List.map_map]
  rfl

/-- The stored sizes with one entry taken out. -/
lemma storedSize_erase (c : Cache) {p : Ptr} (hp : p ∈ c.lru) :
    c.storedSize = (c.deref p).size + ((c.lru.erase p).map fun q => (c.deref q).size).sum := by
  rw [storedSize_eq, ← List.sum_cons]
  exact ((List.perm_cons_erase hp).map _).sum_eq

/-! ### Looking a key up -/

lemma Valid.findEntry_some {c : Cache} (h : c.Valid) {key : Bytes} {p : Ptr}
    (hf : c.findEntry (hashKey key c.numBuckets) key = some p) :
    p ∈ c.lru ∧ (c.deref p).key = key :=
  ⟨((h.mem_bucket _ p).mp (List.mem_of_find?_eq_some hf)).1, by simpa using List.find?_some hf⟩

lemma Valid.findEntry_none {c : Cache} (h : c.Valid) {key : Bytes}
    (hf : c.findEntry (hashKey key c.numBuckets) key = none) :
    lookup CacheEntry.key key c.contents = none := by
  rw [lookup_eq_none]
  intro e he hk
  obtain ⟨p, hp, rfl⟩ := List.mem_map.mp he
  have hmem : p ∈ c.buckets (hashKey key c.numBuckets) :=
    (h.mem_bucket _ p).mpr ⟨hp, by rw [hk]⟩
  simp only [findEntry, List.find?_eq_none, decide_eq_true_eq] at hf
  exact hf p hmem hk

/-- The bucket of a key holds its entry if any does: `findEntry` is the lookup
of the recency list. -/
lemma Valid.findEntry_eq {c : Cache} (h : c.Valid) (key : Bytes) :
    (c.findEntry (hashKey key c.numBuckets) key).map c.deref
      = lookup CacheEntry.key key c.contents := by
  cases hf : c.findEntry (hashKey key c.numBuckets) key with
  | none => rw [h.findEntry_none hf]; rfl
  | some p =>
      obtain ⟨hp, rfl⟩ := h.findEntry_some hf
      rw [h.keysNodup.lookup_eq (List.mem_map_of_mem hp)]
      rfl

/-! ### Taking an entry out -/

/-- Unlinking a record from both structures and freeing it. -/
def unlink (c : Cache) (p : Ptr) : Cache :=
  { c with
    heap := Function.update c.heap p none
    buckets := fun b => (c.buckets b).erase p
    lru := c.lru.erase p
    totalSize := subSize c.totalSize (c.deref p).size }

lemma deref_unlink (c : Cache) {p q : Ptr} (h : q ≠ p) : (c.unlink p).deref q = c.deref q := by
  simp [unlink, deref, h]

/-- Erasing a record from the recency list deletes its key from the contents. -/
lemma Valid.map_erase {c : Cache} (h : c.Valid) {p : Ptr} (hp : p ∈ c.lru) :
    (c.lru.erase p).map c.deref = del CacheEntry.key (c.deref p).key c.contents := by
  rw [del, contents, List.filter_map, h.lru_nodup.erase_eq_filter]
  congr 1
  refine List.filter_congr ?_
  intro q hq
  have hiff : q ≠ p ↔ (c.deref q).key ≠ (c.deref p).key :=
    not_congr ⟨fun hqp => by rw [hqp], h.key_inj q hq p hp⟩
  rw [Bool.eq_iff_iff, bne_iff_ne, hiff]
  simp

lemma Valid.map_deref_erase {c d : Cache} (h : c.Valid) {p : Ptr}
    (hd : ∀ q, q ≠ p → d.deref q = c.deref q) :
    (c.lru.erase p).map d.deref = (c.lru.erase p).map c.deref :=
  List.map_congr_left fun q hq => hd q ((h.lru_nodup.mem_erase_iff).mp hq).1

lemma Valid.contents_unlink {c : Cache} (h : c.Valid) {p : Ptr} (hp : p ∈ c.lru) :
    (c.unlink p).contents = del CacheEntry.key (c.deref p).key c.contents := by
  rw [← h.map_erase hp, ← h.map_deref_erase fun q hq => c.deref_unlink hq]
  rfl

lemma Valid.unlink {c : Cache} (h : c.Valid) {p : Ptr} (hp : p ∈ c.lru) : (c.unlink p).Valid where
  lru_nodup := h.lru_nodup.erase p
  live q := by
    have hq := h.live q
    by_cases hqp : q = p
    · simp [Cache.unlink, hqp, h.lru_nodup.mem_erase_iff]
    · simpa [Cache.unlink, hqp, h.lru_nodup.mem_erase_iff] using hq
  lt_fresh q hq := h.lt_fresh q (List.mem_of_mem_erase hq)
  mem_bucket b q := by
    have hq := h.mem_bucket b q
    by_cases hqp : q = p
    · simp [Cache.unlink, hqp, h.lru_nodup.mem_erase_iff, (h.bucket_nodup b).mem_erase_iff]
    · rw [deref_unlink c hqp]
      simpa [Cache.unlink, hqp, h.lru_nodup.mem_erase_iff, (h.bucket_nodup b).mem_erase_iff]
        using hq
  bucket_nodup b := (h.bucket_nodup b).erase p
  key_inj q hq r hr hk := by
    have hq' := h.lru_nodup.mem_erase_iff.mp hq
    have hr' := h.lru_nodup.mem_erase_iff.mp hr
    rw [deref_unlink c hq'.1, deref_unlink c hr'.1] at hk
    exact h.key_inj q hq'.2 r hr'.2 hk
  fits e he := by
    rw [h.contents_unlink hp] at he
    exact h.fits e (mem_del.mp he).1
  total := by
    have hsum := c.storedSize_erase hp
    have hrest : (c.unlink p).storedSize
        = ((c.lru.erase p).map fun q => (c.deref q).size).sum := by
      rw [storedSize_eq]
      exact congrArg List.sum (List.map_congr_left fun q hq => by
        rw [c.deref_unlink (h.lru_nodup.mem_erase_iff.mp hq).1])
    rw [hrest]
    show subSize c.totalSize (c.deref p).size = _
    rw [h.total, hsum, subSize]
    simp only [sizeMod]
    omega
  max_lt := h.max_lt

/-! ### Making an entry the most recently used one -/

/-- Moving a record to the end of the recency list. -/
def relink (c : Cache) (p : Ptr) : Cache := { c with lru := c.lru.erase p ++ [p] }

lemma mem_relink (c : Cache) {p q : Ptr} (hp : p ∈ c.lru) : q ∈ (c.relink p).lru ↔ q ∈ c.lru := by
  have hperm : (c.lru.erase p ++ [p]).Perm c.lru :=
    (List.perm_append_singleton p _).trans (List.perm_cons_erase hp).symm
  exact hperm.mem_iff

lemma Valid.contents_relink {c : Cache} (h : c.Valid) {p : Ptr} (hp : p ∈ c.lru) :
    (c.relink p).contents = touch CacheEntry.key (c.deref p) c.contents := by
  rw [touch, ← h.map_erase hp]
  simp only [contents, relink, List.map_append, List.map_cons, List.map_nil]
  rfl

lemma storedSize_relink (c : Cache) {p : Ptr} (hp : p ∈ c.lru) :
    (c.relink p).storedSize = c.storedSize := by
  rw [storedSize_eq, storedSize_eq]
  refine List.Perm.sum_eq (List.Perm.map _ ?_)
  exact (List.perm_append_singleton p _).trans (List.perm_cons_erase hp).symm

lemma Valid.relink {c : Cache} (h : c.Valid) {p : Ptr} (hp : p ∈ c.lru) : (c.relink p).Valid where
  lru_nodup :=
    (List.perm_append_singleton p _).nodup_iff.mpr
      ((List.perm_cons_erase hp).nodup_iff.mp h.lru_nodup)
  live q := (c.mem_relink hp).trans (h.live q)
  lt_fresh q hq := h.lt_fresh q ((c.mem_relink hp).mp hq)
  mem_bucket b q := (h.mem_bucket b q).trans (and_congr_left' (c.mem_relink hp).symm)
  bucket_nodup := h.bucket_nodup
  key_inj q hq r hr hk :=
    h.key_inj q ((c.mem_relink hp).mp hq) r ((c.mem_relink hp).mp hr) hk
  fits e he := by
    rw [h.contents_relink hp, mem_touch] at he
    rcases he with rfl | he
    · exact h.fits _ (List.mem_map_of_mem hp)
    · exact h.fits e he.1
  total := by rw [c.storedSize_relink hp]; exact h.total
  max_lt := h.max_lt

/-! ### Replacing the data of an entry -/

/-- Writing new data under the key of a record, which becomes the most recently
used one. -/
def overwrite (c : Cache) (p : Ptr) (e : CacheEntry) : Cache :=
  { c with
    heap := Function.update c.heap p (some e)
    lru := c.lru.erase p ++ [p]
    totalSize := addSize (subSize c.totalSize (c.deref p).size) e.size }

lemma deref_overwrite_self (c : Cache) (p : Ptr) (e : CacheEntry) :
    (c.overwrite p e).deref p = e := by simp [overwrite, deref]

lemma deref_overwrite_of_ne (c : Cache) {p q : Ptr} (e : CacheEntry) (h : q ≠ p) :
    (c.overwrite p e).deref q = c.deref q := by simp [overwrite, deref, h]

/-- An overwritten record keeps its key. -/
lemma key_deref_overwrite (c : Cache) {p : Ptr} {e : CacheEntry} (hk : e.key = (c.deref p).key)
    (q : Ptr) : ((c.overwrite p e).deref q).key = (c.deref q).key := by
  by_cases hq : q = p
  · rw [hq, deref_overwrite_self, hk]
  · rw [deref_overwrite_of_ne c e hq]

lemma Valid.contents_overwrite {c : Cache} (h : c.Valid) {p : Ptr} (hp : p ∈ c.lru)
    {e : CacheEntry} (hk : e.key = (c.deref p).key) :
    (c.overwrite p e).contents = touch CacheEntry.key e c.contents := by
  rw [touch, hk, ← h.map_erase hp,
    ← h.map_deref_erase (d := c.overwrite p e) fun q hq => c.deref_overwrite_of_ne e hq]
  show (c.lru.erase p ++ [p]).map _ = _
  rw [List.map_append, List.map_cons, List.map_nil, deref_overwrite_self]

lemma Valid.overwrite {c : Cache} (h : c.Valid) {p : Ptr} (hp : p ∈ c.lru) {e : CacheEntry}
    (hk : e.key = (c.deref p).key) (he : Fits c.maxSize e) : (c.overwrite p e).Valid where
  lru_nodup := (h.relink hp).lru_nodup
  live q := by
    have hq := (h.relink hp).live q
    by_cases hqp : q = p
    · simp [Cache.overwrite, hqp]
    · simpa [Cache.overwrite, Cache.relink, hqp] using hq
  lt_fresh := (h.relink hp).lt_fresh
  mem_bucket b q := by
    rw [c.key_deref_overwrite hk]
    exact (h.relink hp).mem_bucket b q
  bucket_nodup := h.bucket_nodup
  key_inj q hq r hr hqr := by
    rw [c.key_deref_overwrite hk, c.key_deref_overwrite hk] at hqr
    exact (h.relink hp).key_inj q hq r hr hqr
  fits a ha := by
    rw [h.contents_overwrite hp hk, mem_touch] at ha
    rcases ha with rfl | ha
    · exact he
    · exact h.fits a ha.1
  total := by
    have hsum := c.storedSize_erase hp
    have hrest : (c.overwrite p e).storedSize
        = ((c.lru.erase p).map fun q => (c.deref q).size).sum + e.size := by
      rw [storedSize, h.contents_overwrite hp hk, touch, hk, ← h.map_erase hp]
      simp [Function.comp_def]
    rw [hrest]
    show addSize (subSize c.totalSize (c.deref p).size) e.size = _
    rw [h.total, hsum, subSize, addSize]
    simp only [sizeMod]
    omega
  max_lt := h.max_lt

/-! ### Storing a new entry -/

/-- Linking a fresh record in the bucket of its key and at the end of the
recency list. -/
def insert (c : Cache) (e : CacheEntry) : Cache :=
  { c with
    heap := Function.update c.heap c.fresh (some e)
    fresh := c.fresh + 1
    buckets := Function.update c.buckets (hashKey e.key c.numBuckets)
      (c.fresh :: c.buckets (hashKey e.key c.numBuckets))
    lru := c.lru ++ [c.fresh]
    totalSize := addSize c.totalSize e.size }

lemma Valid.fresh_notMem {c : Cache} (h : c.Valid) : c.fresh ∉ c.lru := fun hm =>
  lt_irrefl _ (h.lt_fresh _ hm)

lemma deref_insert_self (c : Cache) (e : CacheEntry) : (c.insert e).deref c.fresh = e := by
  simp [insert, deref]

lemma Valid.deref_insert {c : Cache} (h : c.Valid) (e : CacheEntry) {q : Ptr} (hq : q ∈ c.lru) :
    (c.insert e).deref q = c.deref q := by
  have hne : q ≠ c.fresh := fun hqf => h.fresh_notMem (hqf ▸ hq)
  simp [insert, deref, hne]

lemma Valid.contents_insert {c : Cache} (h : c.Valid) (e : CacheEntry) :
    (c.insert e).contents = c.contents ++ [e] := by
  show (c.lru ++ [c.fresh]).map _ = _
  rw [List.map_append, List.map_cons, List.map_nil, deref_insert_self,
    List.map_congr_left fun q hq => h.deref_insert e hq]
  rfl

lemma mem_insert_lru (c : Cache) (e : CacheEntry) {q : Ptr} :
    q ∈ (c.insert e).lru ↔ q ∈ c.lru ∨ q = c.fresh := by simp [insert]

lemma mem_insert_bucket (c : Cache) (e : CacheEntry) {b : ℕ} {q : Ptr} :
    q ∈ (c.insert e).buckets b ↔
      q ∈ c.buckets b ∨ q = c.fresh ∧ b = hashKey e.key c.numBuckets := by
  by_cases hb : b = hashKey e.key c.numBuckets
  · simp [insert, hb, or_comm]
  · simp [insert, hb]

lemma Valid.fresh_notMem_bucket {c : Cache} (h : c.Valid) (b : ℕ) : c.fresh ∉ c.buckets b :=
  fun hm => h.fresh_notMem ((h.mem_bucket b _).mp hm).1

lemma Valid.insert {c : Cache} (h : c.Valid) {e : CacheEntry}
    (hnew : lookup CacheEntry.key e.key c.contents = none) (he : Fits c.maxSize e) :
    (c.insert e).Valid where
  lru_nodup := by
    show (c.lru ++ [c.fresh]).Nodup
    rw [List.nodup_append]
    refine ⟨h.lru_nodup, by simp, ?_⟩
    intro q hq r hr
    rw [List.mem_singleton.mp hr]
    exact fun hqf => h.fresh_notMem (hqf ▸ hq)
  live q := by
    rw [mem_insert_lru, h.live q]
    by_cases hq : q = c.fresh
    · simp [Cache.insert, hq]
    · simp [Cache.insert, hq]
  lt_fresh q hq := by
    rcases (c.mem_insert_lru e).mp hq with hq | rfl
    · exact Nat.lt_succ_of_lt (h.lt_fresh q hq)
    · exact Nat.lt_succ_self _
  mem_bucket b q := by
    rw [mem_insert_bucket, mem_insert_lru]
    by_cases hqf : q = c.fresh
    · -- the new record is in no bucket yet
      rw [hqf, deref_insert_self]
      simp [h.fresh_notMem_bucket b, Cache.insert, eq_comm]
    · rw [or_iff_left fun hq => hqf hq.1, or_iff_left hqf, h.mem_bucket b q]
      refine and_congr_right fun hql => ?_
      rw [h.deref_insert e hql]
      rfl
  bucket_nodup b := by
    by_cases hb : b = hashKey e.key c.numBuckets
    · subst hb
      simpa [Cache.insert, h.fresh_notMem_bucket _] using h.bucket_nodup _
    · simpa [Cache.insert, hb] using h.bucket_nodup b
  key_inj q hq r hr hk := by
    -- no stored record has the key of the new one
    have hkey : ∀ s ∈ c.lru, (c.deref s).key ≠ e.key := fun s hs =>
      lookup_eq_none.mp hnew _ (List.mem_map_of_mem hs)
    rcases (c.mem_insert_lru e).mp hq with hq | rfl <;>
      rcases (c.mem_insert_lru e).mp hr with hr | rfl
    · rw [h.deref_insert e hq, h.deref_insert e hr] at hk
      exact h.key_inj q hq r hr hk
    · rw [h.deref_insert e hq, deref_insert_self] at hk
      exact absurd hk (hkey q hq)
    · rw [h.deref_insert e hr, deref_insert_self] at hk
      exact absurd hk.symm (hkey r hr)
    · rfl
  fits a ha := by
    rw [h.contents_insert e, List.mem_append, List.mem_singleton] at ha
    rcases ha with ha | rfl
    · exact h.fits a ha
    · exact he
  total := by
    rw [storedSize, h.contents_insert e, List.map_append, List.sum_append]
    show addSize c.totalSize e.size = _
    rw [h.total, addSize]
    simp [sizeMod, storedSize]
  max_lt := h.max_lt

/-- A record that is allocated and freed again leaves the cache as it was. -/
lemma Valid.allocFree {c : Cache} (h : c.Valid) :
    Valid { c with fresh := c.fresh + 1, heap := Function.update c.heap c.fresh none } := by
  have hheap : Function.update c.heap c.fresh none = c.heap := by
    rw [Function.update_eq_self_iff, eq_comm, ← Option.not_isSome_iff_eq_none, ← h.live]
    exact h.fresh_notMem
  rw [hheap]
  exact ⟨h.lru_nodup, h.live, fun p hp => Nat.lt_succ_of_lt (h.lt_fresh p hp), h.mem_bucket,
    h.bucket_nodup, h.key_inj, h.fits, h.total, h.max_lt⟩

end Cache

end ProxyMax
