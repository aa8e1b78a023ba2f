import ProxyMax.Cache.Lru

/-!
A hit of the cache is the most recent store under its key, and not expired.

* `Stores`, `LastPut`: what a log of calls stored under a key last.
* `Fresh`: the invariant, every stored entry is the last one put under its key.
* `mem_lruStep`: what a call leaves in the cache was there before, and not just
  replaced, or is the entry the call stores.
* `cache_freshness`: the property of every hit in every run.
-/

namespace ProxyMax

open CString Recency Machine

/-- The call stores an entry under the key. -/
def Stores (key : Bytes) : Call × Answer → Prop
  | (.put k _ _ _ _ _ _, .stored) => k = key
  | _ => False

/-- The last entry that the log stores under the key is `e`. -/
def LastPut (log : List (Call × Answer)) (key : Bytes) (e : CacheEntry) : Prop :=
  ∃ pre mid data size hsize ttl now alloc,
    log = pre ++ (Call.put key data size hsize ttl now alloc, Answer.stored) :: mid ∧
      (∀ x ∈ mid, ¬ Stores key x) ∧ e = putEntry key data size ttl now

/-- Every entry of the list is the last one put under its key. -/
def Fresh (log : List (Call × Answer)) (l : List CacheEntry) : Prop :=
  ∀ e ∈ l, LastPut log e.key e

/-- A call that stores nothing under the key leaves the last entry. -/
lemma LastPut.snoc {log : List (Call × Answer)} {key : Bytes} {e : CacheEntry}
    (h : LastPut log key e) {x : Call × Answer} (hx : ¬ Stores key x) :
    LastPut (log ++ [x]) key e := by
  obtain ⟨pre, mid, data, size, hsize, ttl, now, alloc, rfl, hmid, he⟩ := h
  refine ⟨pre, mid ++ [x], data, size, hsize, ttl, now, alloc, by simp, ?_, he⟩
  intro y hy
  rcases List.mem_append.mp hy with hy | hy
  · exact hmid y hy
  · rwa [List.mem_singleton.mp hy]

/-- The entry of a call that stores is the last one. -/
lemma lastPut_snoc_put (log : List (Call × Answer)) (key data : Bytes) {size : ℕ}
    (hsize : size ≤ data.length) (ttl now : ℤ) (alloc : PutAlloc) :
    LastPut (log ++ [(.put key data size hsize ttl now alloc, .stored)]) key
      (putEntry key data size ttl now) :=
  ⟨log, [], data, size, hsize, ttl, now, alloc, rfl, by simp, rfl⟩

/-- Looking up stores nothing. -/
lemma mem_lruGet {l : List CacheEntry} {key : Bytes} {now : ℤ} {dataOk : Bool} {e : CacheEntry}
    (he : e ∈ (lruGet l key now dataOk).2) : e ∈ l := by
  rw [lruGet] at he
  cases hl : lookup CacheEntry.key key l with
  | none => rwa [hl] at he
  | some a =>
      simp only [hl] at he
      split at he
      · exact (mem_del.mp he).1
      · rcases mem_touch.mp he with rfl | he
        · exact (mem_of_lookup hl).1
        · exact he.1

/-- What a store leaves in the list: the stored entry and entries of other keys
if it succeeds, entries of before if it fails. -/
lemma mem_lruPut {max : ℕ} {l : List CacheEntry} {a : CacheEntry} {alloc : PutAlloc}
    {e : CacheEntry} (he : e ∈ (lruPut max l a alloc).2) :
    (lruPut max l a alloc).1 = 0 ∧ (e = a ∨ e ∈ l ∧ e.key ≠ a.key) ∨
      (lruPut max l a alloc).1 = -1 ∧ e ∈ l := by
  have hsub := (evict_suffix (overFull max a.size) l).subset
  by_cases hacc : a.size = 0 ∨ max / 2 < a.size
  · rw [Cache.lruPut_rejected hacc] at he ⊢
    exact Or.inr ⟨rfl, he⟩
  cases hl : lookup CacheEntry.key a.key l with
  | some b =>
      rw [Cache.lruPut_present hacc hl] at he ⊢
      by_cases halloc : alloc.newData = true
      · rw [if_pos halloc] at he ⊢
        exact Or.inl ⟨rfl, mem_touch.mp he⟩
      · rw [if_neg halloc] at he ⊢
        exact Or.inr ⟨rfl, he⟩
  | none =>
      rw [Cache.lruPut_absent hacc hl] at he ⊢
      by_cases halloc : (alloc.entry && alloc.key && alloc.data) = true
      · rw [if_pos halloc] at he ⊢
        refine Or.inl ⟨rfl, ?_⟩
        rcases List.mem_append.mp he with he | he
        · exact Or.inr ⟨hsub he, lookup_eq_none.mp hl e (hsub he)⟩
        · exact Or.inl (List.mem_singleton.mp he)
      · rw [if_neg halloc] at he ⊢
        exact Or.inr ⟨rfl, hsub he⟩

/-- **The step of the freshness invariant.** -/
lemma Fresh.step {log : List (Call × Answer)} {l : List CacheEntry} (h : Fresh log l) (max : ℕ)
    (call : Call) : Fresh (log ++ [(call, (lruStep max l call).1)]) (lruStep max l call).2 := by
  intro e he
  cases call with
  | get key now dataOk => exact (h e (mem_lruGet he)).snoc (by simp [Stores])
  | put key data size hsize ttl now alloc =>
      rcases mem_lruPut he with ⟨hr, rfl | ⟨hmem, hk⟩⟩ | ⟨hr, hmem⟩
      · simp only [lruStep, hr, putAnswer, if_true]
        exact lastPut_snoc_put log key data hsize ttl now alloc
      · refine (h e hmem).snoc ?_
        simp only [lruStep, hr, putAnswer, if_true, Stores]
        exact fun hkey => hk hkey.symm
      · refine (h e hmem).snoc ?_
        simp [lruStep, hr, putAnswer, Stores]

/-- Every state of a run is fresh with respect to its log. -/
lemma fresh_exec {max : ℕ} {calls : List Call} {log : List (Call × Answer)}
    {l : List CacheEntry} (h : exec (fun l call => some (lruStep max l call)) [] calls
      = some (log, l)) : Fresh log l := by
  obtain ⟨log', l', hex, hfresh⟩ := exec_invariant
    (fun l call => some (lruStep max l call)) [] (P := Fresh) calls
    (fun _ he => absurd he List.not_mem_nil)
    fun log l call _ hfresh => ⟨_, _, rfl, hfresh.step max call⟩
  rw [h] at hex
  simp only [Option.some.injEq, Prod.mk.injEq] at hex
  rwa [hex.1, hex.2]

/-- A hit hands out an entry of its key that has not expired. -/
lemma lruGet_hit {l : List CacheEntry} {key : Bytes} {now : ℤ} {dataOk : Bool} {data : Bytes}
    {size : ℕ} (h : (lruGet l key now dataOk).1 = some (data, size)) :
    ∃ e ∈ l, e.key = key ∧ e.data.take e.size = data ∧ e.size = size ∧
      ¬ (0 < e.expiry ∧ e.expiry < now) := by
  rw [lruGet] at h
  cases hl : lookup CacheEntry.key key l with
  | none => simp [hl] at h
  | some e =>
      obtain ⟨hmem, hkey⟩ := mem_of_lookup hl
      simp only [hl] at h
      split at h
      · simp at h
      · next hexp =>
          cases dataOk with
          | false => simp at h
          | true =>
              simp only [if_true, Option.some.injEq, Prod.mk.injEq] at h
              exact ⟨e, hmem, hkey, h.1, h.2, hexp⟩

/-- **A hit of a run** hands out the last entry put under its key, which has not
expired. -/
lemma lastPut_of_hit {sizeMb : ℕ} {calls : List Call} {pre post : List (Call × Answer)}
    {key data : Bytes} {now : ℤ} {dataOk : Bool} {size : ℕ} {c : Cache}
    (h : exec cacheStep (cacheInit sizeMb) calls
      = some (pre ++ (.get key now dataOk, .hit data size) :: post, c)) :
    ∃ e, LastPut pre key e ∧ e.data.take e.size = data ∧ e.size = size ∧
      ¬ (0 < e.expiry ∧ e.expiry < now) := by
  obtain ⟨log, c', hex, -, habs⟩ := cacheExec_refines sizeMb calls
  rw [h, Option.some.injEq, Prod.mk.injEq] at hex
  obtain ⟨rfl, -⟩ := hex
  obtain ⟨l, l', hpre, hstep, -⟩ := exec_split _ habs
  have hhit : (lruGet l key now dataOk).1 = some (data, size) := by
    simp only [Option.some.injEq, Prod.mk.injEq, lruStep] at hstep
    cases hget : (lruGet l key now dataOk).1 with
    | none => simp [hget, getAnswer] at hstep
    | some r =>
        simp only [hget, getAnswer, Answer.hit.injEq] at hstep
        rw [← hstep.1.1, ← hstep.1.2]
  obtain ⟨e, he, rfl, hrest⟩ := lruGet_hit hhit
  exact ⟨e, fresh_exec hpre e he, hrest⟩

/-- Every hit of the log is preceded by a successful `cache_put` of the same key;
the most recent one stored exactly the bytes that are handed out, and a positive
time to live is not over. -/
def FreshHits (log : List (Call × Answer)) : Prop :=
  ∀ pre post key now dataOk data size,
    log = pre ++ (Call.get key now dataOk, Answer.hit data size) :: post →
    ∃ pre' mid buffer hsize ttl putNow alloc,
      pre = pre' ++ (Call.put key buffer size hsize ttl putNow alloc, Answer.stored) :: mid ∧
      (∀ x ∈ mid, ¬ Stores key x) ∧ data = buffer.take size ∧ data.length = size ∧
      (0 < ttl → now ≤ putNow + ttl)

/-- **Cache freshness**: with a positive clock, every run from `cache_init`
answers its lookups with fresh hits. -/
theorem cache_freshness (sizeMb : ℕ) (calls : List Call) (hclock : ∀ call ∈ calls, 0 < call.now) :
    ∃ log c, exec cacheStep (cacheInit sizeMb) calls = some (log, c) ∧ FreshHits log := by
  obtain ⟨log, c, hex, -⟩ := cacheExec_refines sizeMb calls
  refine ⟨log, c, hex, ?_⟩
  rintro pre post key now dataOk data size rfl
  obtain ⟨e, hput, hdata, hsize, hexp⟩ := lastPut_of_hit hex
  obtain ⟨pre', mid, buffer, n, hn, ttl, putNow, alloc, rfl, hmid, heq⟩ := hput
  have hput : (Call.put key buffer n hn ttl putNow alloc) ∈ calls := by
    rw [← exec_inputs _ hex]
    simp
  have hpos := hclock _ hput
  rw [heq] at hdata hsize hexp
  simp only [putEntry, List.take_take, min_self] at hdata hsize hexp
  subst hsize
  refine ⟨pre', mid, buffer, hn, ttl, putNow, alloc, rfl, hmid, hdata.symm, ?_, ?_⟩
  · rw [← hdata, List.length_take, min_eq_left hn]
  · intro httl
    rw [expiryOf, if_pos httl] at hexp
    simp only [Call.now] at hpos
    omega

/-- A store and a lookup of its key at the last moment its time to live allows. -/
def storeThenLookup : List Call :=
  [.put (ascii "/a") [1, 2, 3] 3 (by decide) 10 5 ⟨true, true, true, true⟩,
    .get (ascii "/a") 15 true]

theorem cache_freshness_storeThenLookup :
    (exec cacheStep (cacheInit 1) storeThenLookup).map (fun r => r.1.map Prod.snd)
        = some [.stored, .hit [1, 2, 3] 3] ∧
      ∃ log c, exec cacheStep (cacheInit 1) storeThenLookup = some (log, c) ∧ FreshHits log :=
  ⟨by decide +kernel, cache_freshness 1 storeThenLookup (by decide)⟩

end ProxyMax
