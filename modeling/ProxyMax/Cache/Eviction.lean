import ProxyMax.Cache.Capacity

/-!
What `cache_put` evicts.

* `Uses`, `lastUse`: the calls that use a key, and the place of the last one in a log.
* `UseOrdered`: the invariant, the entries stand in the order of their last uses.
* `lruStep_uses`: a call uses no key and leaves a part of the list, or it uses one and puts
  its entry after a part without it.
* `cache_eviction`: a new entry displaces as few of the least recently used ones as it can.
-/

namespace ProxyMax

open CString Recency Machine

/-! ### The last use of a key -/

/-- The call uses the key: it stores an entry under it, or finds the one that is there. -/
def Uses (key : Bytes) : Call × Answer → Bool
  | (.put key' _ _ _ _ _ _, .stored) => key' = key
  | (.get key' _ _, .hit _ _) => key' = key
  | _ => false

/-- The number of the last call in the log that uses the key, counted from 1, or 0. -/
def lastUse (log : List (Call × Answer)) (key : Bytes) : ℕ :=
  log.length - log.reverse.findIdx (Uses key)

lemma lastUse_le (log : List (Call × Answer)) (key : Bytes) : lastUse log key ≤ log.length :=
  Nat.sub_le _ _

lemma lastUse_snoc (log : List (Call × Answer)) (x : Call × Answer) (key : Bytes) :
    lastUse (log ++ [x]) key = if Uses key x then log.length + 1 else lastUse log key := by
  rw [lastUse, List.reverse_append, List.reverse_singleton, List.singleton_append,
    List.findIdx_cons, List.length_append, List.length_singleton]
  cases Uses key x with
  | true => rfl
  | false => exact Nat.add_sub_add_right _ _ _

/-- All allocations of the call succeed. -/
def Call.Allocates : Call → Prop
  | .get _ _ dataOk => dataOk = true
  | .put _ _ _ _ _ _ alloc => alloc = ⟨true, true, true, true⟩

/-- The entries stand in the order of their last uses. -/
structure UseOrdered (log : List (Call × Answer)) (l : List CacheEntry) : Prop where
  used : ∀ e ∈ l, 0 < lastUse log e.key
  ordered : l.Pairwise fun e e' => lastUse log e.key < lastUse log e'.key

/-- What a call does to the order: it uses no key and leaves a part of the list, or it uses
one and puts its entry after a part of the list without it. -/
inductive Reorders (l : List CacheEntry) (x : Call × Answer) : List CacheEntry → Prop
  | drops {l'} (hnone : ∀ key, Uses key x = false) (hsub : List.Sublist l' l) : Reorders l x l'
  | uses {l' e} (huses : ∀ key, Uses key x = true ↔ key = e.key) (hsub : List.Sublist l' l)
      (hother : ∀ a ∈ l', a.key ≠ e.key) : Reorders l x (l' ++ [e])

/-- **The order is kept.** -/
lemma UseOrdered.snoc {log : List (Call × Answer)} {l l' : List CacheEntry} (h : UseOrdered log l)
    {x : Call × Answer} (hx : Reorders l x l') : UseOrdered (log ++ [x]) l' := by
  cases hx with
  | drops hnone hsub =>
      have hsame : ∀ key, lastUse (log ++ [x]) key = lastUse log key := fun key => by
        rw [lastUse_snoc, hnone key, if_neg Bool.false_ne_true]
      refine ⟨fun e he => ?_, ?_⟩
      · rw [hsame]
        exact h.used e (hsub.subset he)
      · simp only [hsame]
        exact h.ordered.sublist hsub
  | @uses l' e huses hsub hother =>
      have hsame : ∀ a ∈ l', lastUse (log ++ [x]) a.key = lastUse log a.key := fun a ha => by
        rw [lastUse_snoc, if_neg fun huse => hother a ha ((huses _).mp huse)]
      have hlast : lastUse (log ++ [x]) e.key = log.length + 1 := by
        rw [lastUse_snoc, if_pos ((huses _).mpr rfl)]
      refine ⟨fun a ha => ?_, ?_⟩
      · rcases List.mem_append.mp ha with ha | ha
        · rw [hsame a ha]
          exact h.used a (hsub.subset ha)
        · rw [List.mem_singleton.mp ha, hlast]
          exact Nat.succ_pos _
      · refine pairwise_rank_snoc (h.ordered.sublist hsub) hsame fun a _ => ?_
        rw [hlast]
        exact Nat.lt_succ_of_le (lastUse_le log a.key)

/-! ### What the calls do to the order -/

lemma lruGet_reorders (l : List CacheEntry) (key : Bytes) (now : ℤ) :
    Reorders l (.get key now true, getAnswer (lruGet l key now true).1)
      (lruGet l key now true).2 := by
  rw [lruGet]
  cases hl : lookup CacheEntry.key key l with
  | none => exact .drops (fun _ => rfl) (List.Sublist.refl _)
  | some e =>
      obtain ⟨-, rfl⟩ := mem_of_lookup hl
      dsimp only
      split
      · exact .drops (fun _ => rfl) List.filter_sublist
      · refine .uses (fun key => ?_) List.filter_sublist fun a ha => (mem_del.mp ha).2
        simp [getAnswer, Uses, eq_comm]

lemma lruPut_reorders (max : ℕ) (l : List CacheEntry) {key data : Bytes} {size : ℕ}
    (hsize : size ≤ data.length) (ttl now : ℤ) :
    Reorders l (.put key data size hsize ttl now ⟨true, true, true, true⟩,
        putAnswer (lruPut max l (putEntry key data size ttl now) ⟨true, true, true, true⟩).1)
      (lruPut max l (putEntry key data size ttl now) ⟨true, true, true, true⟩).2 := by
  have huses : ∀ key', Uses key' (.put key data size hsize ttl now ⟨true, true, true, true⟩,
      putAnswer 0) = true ↔ key' = (putEntry key data size ttl now).key := by
    intro key'
    simp [putAnswer, Uses, putEntry, eq_comm]
  rw [lruPut]
  split
  · exact .drops (fun _ => rfl) (List.Sublist.refl _)
  · cases hl : lookup CacheEntry.key (putEntry key data size ttl now).key l with
    | some a =>
        exact .uses huses List.filter_sublist fun b hb => (mem_del.mp hb).2
    | none =>
        have hsub := (evict_suffix (overFull max (putEntry key data size ttl now).size) l).sublist
        exact .uses huses hsub fun a ha => lookup_eq_none.mp hl a (hsub.subset ha)

/-- **A call** either drops entries or uses one. -/
lemma lruStep_reorders (max : ℕ) (l : List CacheEntry) {call : Call} (hcall : call.Allocates) :
    Reorders l (call, (lruStep max l call).1) (lruStep max l call).2 := by
  cases call with
  | get key now dataOk =>
      obtain rfl : dataOk = true := hcall
      exact lruGet_reorders l key now
  | put key data size hsize ttl now alloc =>
      obtain rfl : alloc = ⟨true, true, true, true⟩ := hcall
      exact lruPut_reorders max l hsize ttl now

/-- The invariant holds in every run in which no allocation fails. -/
lemma useOrdered_exec {max : ℕ} {calls : List Call} (hcalls : ∀ call ∈ calls, call.Allocates)
    {log : List (Call × Answer)} {l : List CacheEntry}
    (h : exec (fun l call => some (lruStep max l call)) [] calls = some (log, l)) :
    UseOrdered log l := by
  obtain ⟨log', l', hex, hordered⟩ := exec_invariant
    (fun l call => some (lruStep max l call)) [] (P := UseOrdered) calls
    ⟨fun _ he => absurd he List.not_mem_nil, .nil⟩
    fun log l call hpre hordered => by
      have hmem : call ∈ calls := hpre.subset (List.mem_append_right _ List.mem_cons_self)
      exact ⟨_, _, rfl, hordered.snoc (lruStep_reorders max l (hcalls call hmem))⟩
  rw [h] at hex
  simp only [Option.some.injEq, Prod.mk.injEq] at hex
  rwa [hex.1, hex.2]

/-! ### The eviction -/

/-- The call, which stores the entry `e`, leaves the cache `c'`: the entries stood in the order of
their last uses, the first `n` of them are gone, which are as few as make room, and `e` is the
most recently used one. -/
structure Displaces (log : List (Call × Answer)) (c : Cache) (call : Call) (e : CacheEntry)
    (c' : Cache) (n : ℕ) : Prop where
  before : UseOrdered log c.contents
  total : c.totalSize = c.storedSize
  shortest : IsLeast {k | ((c.contents.drop k).map CacheEntry.size).sum + e.size ≤ c.maxSize} n
  contents : c'.contents = c.contents.drop n ++ [e]
  after : UseOrdered (log ++ [(call, .stored)]) c'.contents

/-- Without overflow the loop tests the sizes themselves. -/
lemma overFull_eq_false_iff {max size : ℕ} {l : List CacheEntry}
    (h : (l.map CacheEntry.size).sum + size < sizeMod) :
    overFull max size l = false ↔ (l.map CacheEntry.size).sum + size ≤ max := by
  rw [overFull, decide_eq_false_iff_not, not_lt, addSize,
    Nat.mod_eq_of_lt (lt_of_le_of_lt (Nat.le_add_right _ size) h), Nat.mod_eq_of_lt h]

/-- A new entry is stored in a valid cache. -/
lemma Cache.Valid.put_absent {c : Cache} (h : c.Valid) {key data : Bytes} {size : ℕ}
    (hsize : size ≤ data.length) (ttl now : ℤ) (habsent : ∀ e ∈ c.contents, e.key ≠ key)
    (hpos : 0 < size) (hhalf : size ≤ c.maxSize / 2) (hwrap : c.storedSize + size < sizeMod) :
    ∃ c' n, cachePut c key data size ttl now ⟨true, true, true, true⟩ = some (0, c') ∧
      IsLeast {k | ((c.contents.drop k).map CacheEntry.size).sum + size ≤ c.maxSize} n ∧
      c'.contents = c.contents.drop n ++ [putEntry key data size ttl now] ∧
      lruPut c.maxSize c.contents (putEntry key data size ttl now) ⟨true, true, true, true⟩ =
        (0, c'.contents) := by
  obtain ⟨r, c', hput, hr, hb⟩ := h.cachePut_refines hsize ttl now ⟨true, true, true, true⟩
  have hacc : ¬(size = 0 ∨ c.maxSize / 2 < size) := by omega
  have hlru := @Cache.lruPut_absent c.maxSize c.contents (putEntry key data size ttl now)
    ⟨true, true, true, true⟩ hacc (lookup_eq_none.mpr habsent)
  have hroom : ∀ k, overFull c.maxSize size (c.contents.drop k) = false ↔
      ((c.contents.drop k).map CacheEntry.size).sum + size ≤ c.maxSize := by
    intro k
    have hle : ((c.contents.drop k).map CacheEntry.size).sum ≤ c.storedSize :=
      weight_mono CacheEntry.size (List.drop_sublist k c.contents)
    exact overFull_eq_false_iff (by omega)
  have hnil : overFull c.maxSize size [] = false := by
    rw [overFull_eq_false_iff (by simp only [List.map_nil, List.sum_nil]; omega)]
    simp only [List.map_nil, List.sum_nil]
    omega
  obtain ⟨n, hevict, hleast⟩ := exists_evict_eq_drop hnil c.contents
  simp only [hroom] at hleast
  rw [hlru] at hr hb
  have hcontents := hb.contents
  refine ⟨c', n, by rw [hput, hr]; rfl, hleast, ?_, ?_⟩
  · rw [hcontents, ← hevict]
    rfl
  · rw [hlru, hcontents]
    rfl

/-- **Eviction.** In every run in which no allocation fails, storing an entry under a new key,
of no more than half the capacity, returns and displaces the least recently used entries, as few
as make room. -/
theorem cache_eviction (sizeMb : ℕ) (calls : List Call) (hcalls : ∀ call ∈ calls, call.Allocates) :
    ∃ log c, exec cacheStep (cacheInit sizeMb) calls = some (log, c) ∧
      ∀ (key data : Bytes) (size : ℕ) (hsize : size ≤ data.length) (ttl now : ℤ),
        (∀ e ∈ c.contents, e.key ≠ key) → 0 < size → size ≤ c.maxSize / 2 →
        c.storedSize + size < sizeMod →
        ∃ c' n, cachePut c key data size ttl now ⟨true, true, true, true⟩ = some (0, c') ∧
          Displaces log c (.put key data size hsize ttl now ⟨true, true, true, true⟩)
            (putEntry key data size ttl now) c' n := by
  obtain ⟨log, c, hex, hb, habs⟩ := cacheExec_refines sizeMb calls
  have hordered := useOrdered_exec hcalls habs
  refine ⟨log, c, hex, fun key data size hsize ttl now habsent hpos hhalf hwrap => ?_⟩
  obtain ⟨c', n, hput, hleast, hcontents, hlru⟩ :=
    hb.valid.put_absent hsize ttl now habsent hpos hhalf hwrap
  have hreorders := @lruPut_reorders c.maxSize c.contents key data size hsize ttl now
  rw [hlru] at hreorders
  refine ⟨c', n, hput, hordered, ?_, hleast, hcontents, hordered.snoc hreorders⟩
  rw [hb.valid.total, Nat.mod_eq_of_lt (by omega)]

/-- After the run that leaves the limit, an entry of two bytes displaces the two least recently used
ones. -/
theorem cache_eviction_growingOverwrite :
    ∃ log c c', exec cacheStep (cacheInit 1) growingOverwrite = some (log, c) ∧
      cachePut c (ascii "/d") [1, 2] 2 0 0 ⟨true, true, true, true⟩ = some (0, c') ∧
      Displaces log c (.put (ascii "/d") [1, 2] 2 le_rfl 0 0 ⟨true, true, true, true⟩)
        (putEntry (ascii "/d") [1, 2] 2 0 0) c' 2 := by
  have hallocates : ∀ call ∈ growingOverwrite, call.Allocates := by
    simp only [growingOverwrite, List.forall_mem_cons]
    exact ⟨rfl, rfl, rfl, rfl, fun _ h => absurd h List.not_mem_nil⟩
  obtain ⟨log, c, hex, hput⟩ := cache_eviction 1 growingOverwrite hallocates
  have hrun : (exec cacheStep (cacheInit 1) growingOverwrite).map (fun r => (r.2.maxSize,
      r.2.contents.map CacheEntry.key, r.2.contents.map CacheEntry.size)) =
        some (1048576, [ascii "/b", ascii "/c", ascii "/a"], [524288, 524287, 524288]) := by
    decide +kernel
  rw [hex, Option.map_some, Option.some.injEq, Prod.mk.injEq, Prod.mk.injEq] at hrun
  obtain ⟨hmax, hkeys, hsizes⟩ := hrun
  simp only at hmax hkeys hsizes
  have habsent : ∀ e ∈ c.contents, e.key ≠ ascii "/d" := by
    intro e he hkey
    have hmem : ascii "/d" ∈ c.contents.map CacheEntry.key := List.mem_map.mpr ⟨e, he, hkey⟩
    rw [hkeys] at hmem
    exact absurd hmem (by decide)
  obtain ⟨c', n, hstored, hdisplaces⟩ := hput (ascii "/d") [1, 2] 2 le_rfl 0 0 habsent (by omega)
    (by omega) (by rw [Cache.storedSize, hsizes]; decide)
  -- one entry is not enough, and two are
  have hleft : ∀ k, ((c.contents.drop k).map CacheEntry.size).sum =
      ([524288, 524287, 524288].drop k).sum := fun k => by rw [List.map_drop, hsizes]
  obtain ⟨hroom, hleast⟩ := hdisplaces.shortest
  simp only [Set.mem_ofPred_eq, lowerBounds, hleft, hmax] at hroom hleast
  obtain rfl : n = 2 := by
    have hle : n ≤ 2 := hleast (by decide)
    interval_cases n
    · exact absurd hroom (by decide)
    · exact absurd hroom (by decide)
    · rfl
  exact ⟨log, c, c', hex, hstored, hdisplaces⟩

end ProxyMax
