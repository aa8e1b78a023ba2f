import ProxyMax.Cache.Lru

/-!
The byte limit of the cache. Inserting a new key evicts until the entry fits,
but replacing the data of a present key does not, so a run of growing
overwrites takes the cache past `max_size`.

* `Cache.WithinLimit`: the stored bytes are within the limit.
* `KeepsLimit`: the condition on a call and the state before it.
* `withinLimit_step_iff`: a call from a cache within the limit keeps it exactly
  on this condition.
* `cache_capacity_iff`: the states of a run are within the limit exactly when
  its calls meet the condition.
* `growingOverwrite`: a run that leaves the limit.
-/

namespace ProxyMax

open CString Recency Machine

/-- The byte counter is the number of stored bytes and within the limit. -/
def Cache.WithinLimit (c : Cache) : Prop :=
  c.totalSize = c.storedSize ∧ c.totalSize ≤ c.maxSize

/-- The condition on a call: an overwrite that goes through leaves the counter,
less the old size and plus the new one, within the limit. An insertion makes
room itself; it only relies on its test not wrapping around. -/
def KeepsLimit (c : Cache) : Call → Prop
  | .get _ _ _ => True
  | .put key _ size _ _ _ alloc =>
      0 < size → size ≤ c.maxSize / 2 →
        match c.findEntry (hashKey key c.numBuckets) key with
        | some entry =>
            alloc.newData = true → c.totalSize - (c.deref entry).size + size ≤ c.maxSize
        | none =>
            (alloc.entry && alloc.key && alloc.data) = true → c.totalSize + size < sizeMod

lemma Cache.Valid.withinLimit_iff {c : Cache} (h : c.Valid) :
    c.WithinLimit ↔ weight CacheEntry.size c.contents ≤ c.maxSize := by
  have hlt := h.max_lt
  have htotal : c.totalSize = weight CacheEntry.size c.contents % sizeMod := h.total
  have hstored : c.storedSize = weight CacheEntry.size c.contents := rfl
  rw [Cache.WithinLimit, htotal, hstored]
  constructor
  · rintro ⟨heq, hle⟩
    rwa [heq] at hle
  · intro hle
    rw [Nat.mod_eq_of_lt (by omega)]
    exact ⟨rfl, hle⟩

/-- A lookup adds nothing to the stored bytes. -/
lemma weight_lruGet_le {l : List CacheEntry} (h : KeysNodup CacheEntry.key l) (key : Bytes)
    (now : ℤ) (dataOk : Bool) :
    weight CacheEntry.size (lruGet l key now dataOk).2 ≤ weight CacheEntry.size l := by
  rw [lruGet]
  cases hl : lookup CacheEntry.key key l with
  | none => exact le_rfl
  | some e =>
      have hw := h.weight_eq CacheEntry.size hl
      simp only
      split
      · show weight CacheEntry.size (del CacheEntry.key key l) ≤ _
        omega
      · rw [weight_touch, (mem_of_lookup hl).2]
        omega

/-- Replacing an entry exchanges its size. -/
lemma weight_touch_present {l : List CacheEntry} (h : KeysNodup CacheEntry.key l)
    {e a : CacheEntry} (hl : lookup CacheEntry.key e.key l = some a) :
    weight CacheEntry.size (touch CacheEntry.key e l)
      = weight CacheEntry.size l - a.size + e.size := by
  have hw := h.weight_eq CacheEntry.size hl
  rw [weight_touch]
  omega

/-- Making room leaves the limit for one more entry exactly when the size test
of the eviction loop does not wrap around. -/
lemma weight_evict_le_iff {max size : ℕ} {l : List CacheEntry} (hmax : max < sizeMod)
    (hsize : size ≤ max / 2) (hl : weight CacheEntry.size l ≤ max) :
    weight CacheEntry.size (evict (overFull max size) l) + size ≤ max
      ↔ weight CacheEntry.size l + size < sizeMod := by
  have hover : ∀ m : List CacheEntry, overFull max size m = false ↔
      (weight CacheEntry.size m % sizeMod + size) % sizeMod ≤ max := by
    intro m
    rw [overFull, decide_eq_false_iff_not, not_lt]
    rfl
  have hmod : ∀ {n : ℕ}, n ≤ max → n % sizeMod = n := fun hn =>
    Nat.mod_eq_of_lt (lt_of_le_of_lt hn hmax)
  constructor
  · intro hle
    by_contra hwrap
    have hself : evict (overFull max size) l = l := by
      refine evict_eq_self ((hover l).mpr ?_)
      rw [hmod hl, Nat.mod_eq_sub_mod (by omega), hmod (by omega)]
      omega
    rw [hself] at hle
    omega
  · intro hfit
    have hsub := weight_mono CacheEntry.size (evict_suffix (overFull max size) l).sublist
    rcases evict_light (overFull max size) l with hnil | hlight
    · rw [hnil]
      simp only [weight, List.map_nil, List.sum_nil]
      omega
    · rw [hover, hmod (hsub.trans hl), Nat.mod_eq_of_lt (by omega)] at hlight
      exact hlight

/-- **The step**: a call from a cache within the limit keeps it exactly when it
meets the condition. -/
theorem Cache.Valid.withinLimit_step_iff {c c' : Cache} {call : Call} {answer : Answer}
    (h : c.Valid) (hlim : c.WithinLimit) (hstep : cacheStep c call = some (answer, c')) :
    c'.WithinLimit ↔ KeepsLimit c call := by
  obtain ⟨d, hd, hb⟩ := h.cacheStep_refines call
  rw [hstep, Option.some.injEq, Prod.mk.injEq] at hd
  obtain ⟨-, rfl⟩ := hd
  have hw := h.withinLimit_iff.mp hlim
  have hw' : c'.WithinLimit ↔
      weight CacheEntry.size (lruStep c.maxSize c.contents call).2 ≤ c.maxSize := by
    rw [hb.valid.withinLimit_iff, hb.contents, hb.maxSize]
  have htotal : c.totalSize = weight CacheEntry.size c.contents := hlim.1
  rw [hw']
  cases call with
  | get key now dataOk =>
      exact iff_of_true ((weight_lruGet_le h.keysNodup key now dataOk).trans hw) trivial
  | put key data size hsize ttl now alloc =>
      simp only [lruStep, KeepsLimit]
      by_cases hacc : size = 0 ∨ c.maxSize / 2 < size
      · rw [lruPut_rejected hacc]
        exact iff_of_true hw (by omega)
      have hpos : 0 < size := by omega
      have hhalf : size ≤ c.maxSize / 2 := by omega
      simp only [hpos, hhalf, forall_const]
      have hfind := h.findEntry_eq key
      cases hf : c.findEntry (hashKey key c.numBuckets) key with
      -- an entry that is overwritten evicts nothing
      | some p =>
          rw [hf, Option.map_some] at hfind
          rw [lruPut_present hacc hfind.symm, htotal]
          by_cases halloc : alloc.newData = true
          · rw [if_pos halloc, weight_touch_present h.keysNodup hfind.symm]
            simp [halloc, putEntry]
          · rw [if_neg halloc]
            exact iff_of_true hw fun hn => absurd hn halloc
      -- a new one comes after the evictions
      | none =>
          rw [lruPut_absent hacc (h.findEntry_none hf), htotal]
          by_cases halloc : (alloc.entry && alloc.key && alloc.data) = true
          · have hiff := weight_evict_le_iff h.max_lt hhalf hw
            rw [if_pos halloc]
            simp only [halloc, forall_const, ← hiff]
            simp [weight, putEntry]
          · rw [if_neg halloc]
            exact iff_of_true ((weight_mono _ (evict_suffix _ _).sublist).trans hw)
              fun hn => absurd hn halloc

/-- A call of a cache that is reached from `cacheInit` returns. -/
lemma reach_snoc {sizeMb : ℕ} {pre : List Call} {c : Cache}
    (h : Reach cacheStep (cacheInit sizeMb) pre c) (call : Call) :
    c.Valid ∧ ∃ answer c', cacheStep c call = some (answer, c') ∧
      Reach cacheStep (cacheInit sizeMb) (pre ++ [call]) c' := by
  obtain ⟨log, hlog⟩ := h
  obtain ⟨log', d, hex, hb, -⟩ := cacheExec_refines sizeMb pre
  rw [hlog, Option.some.injEq, Prod.mk.injEq] at hex
  obtain ⟨-, rfl⟩ := hex
  obtain ⟨c', hstep, -⟩ := hb.valid.cacheStep_refines call
  exact ⟨hb.valid, _, c', hstep, _, by rw [exec_snoc _ hlog, hstep]; rfl⟩

/-- **Capacity of the cache**: the states of a run from `cache_init` are all
within the limit exactly when every call of the run meets the condition. -/
theorem cache_capacity_iff (sizeMb : ℕ) (calls : List Call) :
    (∀ pre, pre <+: calls → ∀ c, Reach cacheStep (cacheInit sizeMb) pre c → c.WithinLimit) ↔
      ∀ pre call, pre ++ [call] <+: calls →
        ∀ c, Reach cacheStep (cacheInit sizeMb) pre c → KeepsLimit c call := by
  constructor
  · intro hall pre call hpre c hc
    obtain ⟨hv, answer, c', hstep, hreach⟩ := reach_snoc hc call
    exact (hv.withinLimit_step_iff (hall pre ((List.prefix_append _ _).trans hpre) c hc) hstep).mp
      (hall _ hpre c' hreach)
  · intro hall pre
    induction pre using List.reverseRecOn with
    | nil =>
        rintro - c ⟨log, hlog⟩
        simp only [exec_nil, Option.some.injEq, Prod.mk.injEq] at hlog
        rw [← hlog.2]
        exact ⟨rfl, Nat.zero_le _⟩
    | append_singleton pre call ih =>
        rintro hpre c' ⟨log, hlog⟩
        obtain ⟨log₀, c, hex, -⟩ := cacheExec_refines sizeMb pre
        have hc : Reach cacheStep (cacheInit sizeMb) pre c := ⟨log₀, hex⟩
        obtain ⟨hv, answer, d, hstep, -⟩ := reach_snoc hc call
        rw [exec_snoc _ hex, hstep, Option.map_some, Option.some.injEq, Prod.mk.injEq] at hlog
        rw [← hlog.2]
        exact (hv.withinLimit_step_iff (ih ((List.prefix_append _ _).trans hpre) c hc) hstep).mpr
          (hall pre call hpre c hc)

/-- A store of `size` zero bytes that never expires. -/
def putZeros (key : Bytes) (size : ℕ) : Call :=
  .put key (List.replicate size 0) size List.length_replicate.ge 0 1 ⟨true, true, true, true⟩

/-- Four stores into a cache of one megabyte. The first three fill it exactly,
and the last one grows the entry of one byte to half a megabyte. -/
def growingOverwrite : List Call :=
  [putZeros (ascii "/a") 1, putZeros (ascii "/b") 524288, putZeros (ascii "/c") 524287,
    putZeros (ascii "/a") 524288]

/-- The run leaves one and a half megabytes, less a byte, in a cache of one. -/
theorem growingOverwrite_exceeds :
    ∃ c, Reach cacheStep (cacheInit 1) growingOverwrite c ∧ c.maxSize = 1 * 2 ^ 20 ∧
      ¬ c.totalSize ≤ c.maxSize := by
  have hrun : (exec cacheStep (cacheInit 1) growingOverwrite).map
      (fun r => (r.2.totalSize, r.2.maxSize)) = some (1572863, 1048576) := by
    decide +kernel
  obtain ⟨⟨log, c⟩, hex, heq⟩ := Option.map_eq_some_iff.mp hrun
  rw [Prod.mk.injEq] at heq
  have htotal : c.totalSize = 1572863 := heq.1
  have hmax : c.maxSize = 1048576 := heq.2
  exact ⟨c, ⟨log, hex⟩, hmax, by omega⟩

end ProxyMax
