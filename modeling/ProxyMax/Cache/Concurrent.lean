import ProxyMax.Cache.Lru
import ProxyMax.Lib.Sections

/-!
`src/cache/cache.c` one access of `g_cache` at a time, with any number of threads.

* `CacheAccess`, `cacheAccess`: the accesses of the table, the list and the records.
* `CacheOp.body`: `cache_get` and `cache_put` between their lock and their unlock.
* `Outcomes`, `CallOf`: what the clock and the allocator give, and the call of a section with what
  they gave in it.
* `cacheOp_performs`: alone, a section does what the whole operation does, for the clock and the
  allocator that it met.
* `cache_linearizable`: however the sections interleave, the calls that are completed returned
  what they return one after the other, with the clock and the allocator that their sections met,
  and left what these leave.
-/

namespace ProxyMax

open CInt CString Interaction Machine Sections

/-! ### The accesses -/

/-- A number that is read. -/
inductive SizeField where
  | numBuckets
  | maxSize
  | totalSize
  | size (entry : Ptr)
deriving DecidableEq

/-- A signed number that is read. -/
inductive IntField where
  | hits
  | misses
  | expiry (entry : Ptr)
deriving DecidableEq

/-- A record that is read from a list. `entryAt bucket i` is where `LIST_FOREACH` is after `i`
entries. -/
inductive LinkField where
  | lruFirst
  | entryAt (bucket passed : ℕ)
deriving DecidableEq

/-- A block that is read. -/
inductive BlockField where
  | key (entry : Ptr)
  | data (entry : Ptr)
deriving DecidableEq

def Cache.size (c : Cache) : SizeField → ℕ
  | .numBuckets => c.numBuckets
  | .maxSize => c.maxSize
  | .totalSize => c.totalSize
  | .size entry => (c.deref entry).size

def Cache.int (c : Cache) : IntField → ℤ
  | .hits => c.hits
  | .misses => c.misses
  | .expiry entry => (c.deref entry).expiry

def Cache.link (c : Cache) : LinkField → Option Ptr
  | .lruFirst => c.lru.head?
  | .entryAt bucket passed => (c.buckets bucket)[passed]?

def Cache.block (c : Cache) : BlockField → Bytes
  | .key entry => (c.deref entry).key
  | .data entry => (c.deref entry).data

/-- A write, with the `TAILQ` and `LIST` macros. `fill` writes the fields of a record that is not
linked yet. -/
inductive CacheWrite where
  | totalSize (n : ℕ)
  | hits (n : ℤ)
  | misses (n : ℤ)
  | tailqRemove (entry : Ptr)
  | tailqInsertTail (entry : Ptr)
  | listRemove (entry : Ptr)
  | listInsertHead (bucket : ℕ) (entry : Ptr)
  | destroy (entry : Ptr)
  | data (entry : Ptr) (bytes : Bytes)
  | size (entry : Ptr) (n : ℕ)
  | expiry (entry : Ptr) (t : ℤ)
  | fill (entry : Ptr) (record : CacheEntry)
deriving DecidableEq

def Cache.write (c : Cache) : CacheWrite → Cache
  | .totalSize n => { c with totalSize := n }
  | .hits n => { c with hits := n }
  | .misses n => { c with misses := n }
  | .tailqRemove entry => c.tailqRemove entry
  | .tailqInsertTail entry => c.tailqInsertTail entry
  | .listRemove entry => c.listRemove entry
  | .listInsertHead bucket entry => c.listInsertHead bucket entry
  | .destroy entry => c.cacheEntryDestroy entry
  | .data entry bytes => c.store entry { c.deref entry with data := bytes }
  | .size entry n => c.store entry { c.deref entry with size := n }
  | .expiry entry t => c.store entry { c.deref entry with expiry := t }
  | .fill entry record => c.store entry record

/-- What a block is allocated for, other than a record: the copy that `cache_get` hands out, the
new data of a record that is stored again, and the key and the data of a new one. -/
inductive Copied where
  | answer
  | newData
  | key
  | data
deriving DecidableEq

/-- What a section does: it reads and writes the cache, reads the clock, and allocates a record or
another block. -/
inductive CacheAccess where
  | loadSize (f : SizeField)
  | loadInt (f : IntField)
  | loadLink (f : LinkField)
  | loadBlock (f : BlockField)
  | write (w : CacheWrite)
  | time
  | mallocEntry
  | malloc (copy : Copied)
deriving DecidableEq

abbrev CacheReply : CacheAccess → Type
  | .loadSize _ => ℕ
  | .loadInt _ => ℤ
  | .loadLink _ => Option Ptr
  | .loadBlock _ => Bytes
  | .write _ => Unit
  | .time => ℤ
  | .mallocEntry => Option Ptr
  | .malloc _ => Bool

/-- What an access does to the cache. A record that is allocated is at the next address. -/
def cacheAccess (c : Cache) : Event CacheReply → Option Cache
  | ⟨.loadSize f, v⟩ => if v = c.size f then some c else none
  | ⟨.loadInt f, v⟩ => if v = c.int f then some c else none
  | ⟨.loadLink f, v⟩ => if v = c.link f then some c else none
  | ⟨.loadBlock f, v⟩ => if v = c.block f then some c else none
  | ⟨.write w, ()⟩ => some (c.write w)
  | ⟨.time, _⟩ => some c
  | ⟨.mallocEntry, none⟩ => some c
  | ⟨.mallocEntry, some entry⟩ =>
      if entry = c.fresh then some { c with fresh := c.fresh + 1 } else none
  | ⟨.malloc _, _⟩ => some c

/-! ### The sections -/

/-- What a thread does between its lock and its unlock. -/
abbrev CacheSection := Prog CacheAccess CacheReply Unit

def loadSize (f : SizeField) : CacheSection ℕ := ask (CacheAccess.loadSize f)

def loadInt (f : IntField) : CacheSection ℤ := ask (CacheAccess.loadInt f)

def loadLink (f : LinkField) : CacheSection (Option Ptr) := ask (CacheAccess.loadLink f)

def loadBlock (f : BlockField) : CacheSection Bytes := ask (CacheAccess.loadBlock f)

def writeCache (w : CacheWrite) : CacheSection Unit := ask (CacheAccess.write w)

def readClock : CacheSection ℤ := ask CacheAccess.time

def mallocEntry : CacheSection (Option Ptr) := ask CacheAccess.mallocEntry

def mallocBlock (copy : Copied) : CacheSection Bool := ask (CacheAccess.malloc copy)

/-- `LIST_FOREACH` with the comparison of the keys, for at most `fuel` entries. -/
def findEntrySection (bucket : ℕ) (key : Bytes) : ℕ → ℕ → CacheSection (Option Ptr)
  | 0, _ => .raise ()
  | fuel + 1, passed => do
      match ← loadLink (.entryAt bucket passed) with
      | none => pure none
      | some entry => do
          let entryKey ← loadBlock (.key entry)
          if entryKey = key then pure (some entry)
          else findEntrySection bucket key fuel (passed + 1)

/-- `g_cache->total_size -= entry->size`. -/
def subTotalSize (entry : Ptr) : CacheSection Unit := do
  let totalSize ← loadSize .totalSize
  let size ← loadSize (.size entry)
  writeCache (.totalSize (subSize totalSize size))

/-- `g_cache->misses++`. -/
def countMiss : CacheSection Unit := do
  let misses ← loadInt .misses
  writeCache (.misses (incr misses))

/-- `cache_evict_lru`. -/
def cacheEvictLruSection : CacheSection Unit := do
  match ← loadLink .lruFirst with
  | none => pure ()
  | some entry => do
      writeCache (.tailqRemove entry)
      -- the bucket number is computed, and not used
      let _ ← loadBlock (.key entry)
      let _ ← loadSize .numBuckets
      writeCache (.listRemove entry)
      subTotalSize entry
      writeCache (.destroy entry)

/-- "while (g_cache->total_size + size > g_cache->max_size)", for at most `fuel` tests. -/
def evictLoopSection (size : ℕ) : ℕ → CacheSection Unit
  | 0 => .raise ()
  | fuel + 1 => do
      let totalSize ← loadSize .totalSize
      let maxSize ← loadSize .maxSize
      if maxSize < addSize totalSize size then do
        cacheEvictLruSection
        evictLoopSection size fuel
      else pure ()

/-- `(ttl > 0) ? time(NULL) + ttl : 0`. -/
def expirySection (ttl : ℤ) : CacheSection ℤ := do
  if 0 < ttl then do
    let now ← readClock
    pure (now + ttl)
  else pure 0

/-- `entry->expiry > 0 && time(NULL) > entry->expiry`. -/
def expiredSection (entry : Ptr) : CacheSection Bool := do
  let expiry ← loadInt (.expiry entry)
  if 0 < expiry then do
    let now ← readClock
    let expiry ← loadInt (.expiry entry)
    pure (decide (expiry < now))
  else pure false

/-- The section of `cache_get`. -/
def cacheGetSection (fuel : ℕ) (key : Bytes) : CacheSection Answer := do
  let numBuckets ← loadSize .numBuckets
  match ← findEntrySection (hashKey key numBuckets) key fuel 0 with
  | none => do
      countMiss
      pure .fail
  | some entry => do
      let expired ← expiredSection entry
      if expired then do
        writeCache (.tailqRemove entry)
        writeCache (.listRemove entry)
        subTotalSize entry
        writeCache (.destroy entry)
        countMiss
        pure .fail
      else do
        writeCache (.tailqRemove entry)
        writeCache (.tailqInsertTail entry)
        let _ ← loadSize (.size entry)
        let allocated ← mallocBlock .answer
        if allocated then do
          let data ← loadBlock (.data entry)
          let copied ← loadSize (.size entry)
          let size ← loadSize (.size entry)
          let hits ← loadInt .hits
          writeCache (.hits (incr hits))
          pure (.hit (data.take copied) size)
        else pure .fail

/-- What `cache_put` does with the record of its key: "Update existing entry". -/
def overwriteSection (entry : Ptr) (data : Bytes) (size : ℕ) (ttl : ℤ) : CacheSection Answer := do
  let newData ← mallocBlock .newData
  if newData then do
    subTotalSize entry
    let totalSize ← loadSize .totalSize
    writeCache (.totalSize (addSize totalSize size))
    writeCache (.data entry (data.take size))
    writeCache (.size entry size)
    let expiry ← expirySection ttl
    writeCache (.expiry entry expiry)
    writeCache (.tailqRemove entry)
    writeCache (.tailqInsertTail entry)
    pure .stored
  else pure .fail

/-- What `cache_put` does without one: "Evict entries if necessary" and "Create new entry". -/
def insertSection (fuel bucket : ℕ) (key data : Bytes) (size : ℕ) (ttl : ℤ) :
    CacheSection Answer := do
  evictLoopSection size fuel
  match ← mallocEntry with
  | none => pure .fail
  | some entry => do
      let keyCopy ← mallocBlock .key
      let dataCopy ← mallocBlock .data
      if keyCopy && dataCopy then do
        let expiry ← expirySection ttl
        writeCache (.fill entry ⟨key, data.take size, size, expiry⟩)
        writeCache (.listInsertHead bucket entry)
        writeCache (.tailqInsertTail entry)
        let totalSize ← loadSize .totalSize
        writeCache (.totalSize (addSize totalSize size))
        pure .stored
      else do
        writeCache (.destroy entry)
        pure .fail

/-- The section of `cache_put`. -/
def cachePutSection (fuel : ℕ) (key data : Bytes) (size : ℕ) (ttl : ℤ) : CacheSection Answer := do
  let maxSize ← loadSize .maxSize
  if maxSize / 2 < size then pure .fail
  else do
    let numBuckets ← loadSize .numBuckets
    let bucket := hashKey key numBuckets
    match ← findEntrySection bucket key fuel 0 with
    | some entry => overwriteSection entry data size ttl
    | none => insertSection fuel bucket key data size ttl

/-- A call that comes to its lock: `cache_put` returns before it for a size of 0. -/
inductive CacheOp where
  | get (key : Bytes)
  | put (key data : Bytes) (size : ℕ) (size_pos : 0 < size) (size_le : size ≤ data.length) (ttl : ℤ)

/-- The arguments of a call. -/
def CacheOp.arguments : CacheOp → Bytes × Option (Bytes × ℕ × ℤ)
  | .get key => (key, none)
  | .put key data size _ _ ttl => (key, some (data, size, ttl))

lemma CacheOp.arguments_injective : Function.Injective CacheOp.arguments := by
  intro op op' h
  cases op <;> cases op' <;> simp_all [CacheOp.arguments]

instance : DecidableEq CacheOp := CacheOp.arguments_injective.decidableEq

def CacheOp.body (fuel : ℕ) : CacheOp → CacheSection Answer
  | .get key => cacheGetSection fuel key
  | .put key data size _ _ ttl => cachePutSection fuel key data size ttl

/-- What the clock and the allocator give a call. -/
structure Outcomes where
  now : ℤ
  dataOk : Bool
  alloc : PutAlloc

def Outcomes.granted (m : Outcomes) : Copied → Bool
  | .answer => m.dataOk
  | .newData => m.alloc.newData
  | .key => m.alloc.key
  | .data => m.alloc.data

/-- Whether the clock and the allocator replied so. -/
def Outcomes.allows (m : Outcomes) : Event CacheReply → Bool
  | ⟨.time, now⟩ => decide (now = m.now)
  | ⟨.mallocEntry, entry⟩ => decide (entry.isSome = m.alloc.entry)
  | ⟨.malloc copy, ok⟩ => decide (ok = m.granted copy)
  | _ => true

/-- The operation as a whole, for what the clock and the allocator gave. -/
def CacheOp.call (m : Outcomes) : CacheOp → Call
  | .get key => .get key m.now m.dataOk
  | .put key data size _ size_le ttl => .put key data size size_le ttl m.now m.alloc

/-- The accesses for which the clock and the allocator give this. -/
def accessWith (m : Outcomes) : Cache → Event CacheReply → Option Cache :=
  restrict cacheAccess m.allows

/-! ### What a section does alone -/

section Does

variable {ρ : Type} {m : Outcomes} {c c' : Cache} {a : ρ}

@[simp] lemma does_loadSize {f : SizeField} {k : ℕ → CacheSection ρ} :
    Does (accessWith m) ((loadSize f).bind k) c a c' ↔
      Does (accessWith m) (k (c.size f)) c a c' := by
  simp [loadSize, ask, Prog.bind, accessWith, restrict, Outcomes.allows, cacheAccess]

@[simp] lemma does_loadInt {f : IntField} {k : ℤ → CacheSection ρ} :
    Does (accessWith m) ((loadInt f).bind k) c a c' ↔
      Does (accessWith m) (k (c.int f)) c a c' := by
  simp [loadInt, ask, Prog.bind, accessWith, restrict, Outcomes.allows, cacheAccess]

@[simp] lemma does_loadLink {f : LinkField} {k : Option Ptr → CacheSection ρ} :
    Does (accessWith m) ((loadLink f).bind k) c a c' ↔
      Does (accessWith m) (k (c.link f)) c a c' := by
  simp [loadLink, ask, Prog.bind, accessWith, restrict, Outcomes.allows, cacheAccess]

@[simp] lemma does_loadBlock {f : BlockField} {k : Bytes → CacheSection ρ} :
    Does (accessWith m) ((loadBlock f).bind k) c a c' ↔
      Does (accessWith m) (k (c.block f)) c a c' := by
  simp [loadBlock, ask, Prog.bind, accessWith, restrict, Outcomes.allows, cacheAccess]

lemma accessWith_write (w : CacheWrite) (u : Unit) :
    accessWith m c ⟨.write w, u⟩ = some (c.write w) := rfl

@[simp] lemma does_writeCache {w : CacheWrite} {k : Unit → CacheSection ρ} :
    Does (accessWith m) ((writeCache w).bind k) c a c' ↔
      Does (accessWith m) (k ()) (c.write w) a c' := by
  simp only [writeCache, ask, Prog.bind, does_call, accessWith_write, Option.some.injEq,
    exists_eq_left']
  constructor
  · rintro ⟨⟨⟩, h⟩
    exact h
  · intro h
    exact ⟨(), h⟩

/-- The last access of a section that returns nothing. -/
lemma does_writeCache_last {w : CacheWrite} :
    Does (accessWith m) (writeCache w) c () c' ↔ c' = c.write w := by
  simp only [writeCache, ask, does_call, accessWith_write, Option.some.injEq, exists_eq_left',
    does_ret]
  constructor
  · rintro ⟨-, -, h⟩
    exact h
  · intro h
    exact ⟨(), trivial, h⟩

@[simp] lemma does_readClock {k : ℤ → CacheSection ρ} :
    Does (accessWith m) (readClock.bind k) c a c' ↔ Does (accessWith m) (k m.now) c a c' := by
  simp [readClock, ask, Prog.bind, accessWith, restrict, Outcomes.allows, cacheAccess]

@[simp] lemma does_mallocBlock {copy : Copied} {k : Bool → CacheSection ρ} :
    Does (accessWith m) ((mallocBlock copy).bind k) c a c' ↔
      Does (accessWith m) (k (m.granted copy)) c a c' := by
  simp [-Bool.exists_bool, mallocBlock, ask, Prog.bind, accessWith, restrict, Outcomes.allows,
    cacheAccess]

@[simp] lemma does_mallocEntry {k : Option Ptr → CacheSection ρ} :
    Does (accessWith m) (mallocEntry.bind k) c a c' ↔
      if m.alloc.entry then
        Does (accessWith m) (k (some c.fresh)) { c with fresh := c.fresh + 1 } a c'
      else Does (accessWith m) (k none) c a c' := by
  have hcall : Does (accessWith m) (mallocEntry.bind k) c a c' ↔
      ∃ entry s₁, accessWith m c ⟨.mallocEntry, entry⟩ = some s₁ ∧
        Does (accessWith m) (k entry) s₁ a c' := by
    simp only [mallocEntry, ask, Prog.bind, does_call]
  rw [hcall]
  cases hentry : m.alloc.entry with
  | true =>
      simp [Option.exists, accessWith, restrict, Outcomes.allows, cacheAccess, hentry]
  | false =>
      simp [Option.exists, accessWith, restrict, Outcomes.allows, cacheAccess, hentry]

@[simp] lemma does_subTotalSize {entry : Ptr} {k : Unit → CacheSection ρ} :
    Does (accessWith m) ((subTotalSize entry).bind k) c a c' ↔
      Does (accessWith m) (k ()) { c with totalSize := subSize c.totalSize (c.deref entry).size }
        a c' := by
  have hassoc : (subTotalSize entry).bind k = (loadSize .totalSize).bind fun totalSize =>
      (loadSize (.size entry)).bind fun size =>
        (writeCache (.totalSize (subSize totalSize size))).bind k := rfl
  rw [hassoc, does_loadSize, does_loadSize, does_writeCache]
  rfl

@[simp] lemma does_countMiss {k : Unit → CacheSection ρ} :
    Does (accessWith m) (countMiss.bind k) c a c' ↔
      Does (accessWith m) (k ()) { c with misses := incr c.misses } a c' := by
  have hassoc : countMiss.bind k = (loadInt .misses).bind fun misses =>
      (writeCache (.misses (incr misses))).bind k := rfl
  rw [hassoc, does_loadInt, does_writeCache]
  rfl

/-- The clock is read where there is an expiry. -/
@[simp] lemma does_expirySection {ttl : ℤ} {k : ℤ → CacheSection ρ} :
    Does (accessWith m) ((expirySection ttl).bind k) c a c' ↔
      Does (accessWith m) (k (expiryOf ttl m.now)) c a c' := by
  rw [expirySection, does_bind]
  by_cases hpos : 0 < ttl <;> simp [expiryOf, hpos]

@[simp] lemma does_expiredSection {entry : Ptr} {k : Bool → CacheSection ρ} :
    Does (accessWith m) ((expiredSection entry).bind k) c a c' ↔
      Does (accessWith m)
        (k (decide (0 < (c.deref entry).expiry ∧ (c.deref entry).expiry < m.now))) c a c' := by
  rw [does_bind, expiredSection]
  simp only [bind_eq, does_loadInt, Cache.int]
  by_cases hpos : 0 < (c.deref entry).expiry
  · simp [-Bool.exists_bool, hpos, Cache.int]
    rfl
  · simp [hpos]

end Does

section Alone

variable {m : Outcomes}

/-- **The search** finds what is left to find. -/
lemma does_findEntrySection {c c' : Cache} {bucket : ℕ} {key : Bytes} {found : Option Ptr}
    (fuel : ℕ) : ∀ {passed : ℕ},
      Does (accessWith m) (findEntrySection bucket key fuel passed) c found c' →
        c' = c ∧
          found = ((c.buckets bucket).drop passed).find? fun p => (c.deref p).key = key := by
  induction fuel with
  | zero =>
      intro passed h
      exact absurd h not_does_raise
  | succ fuel ih =>
      intro passed h
      rw [findEntrySection, bind_eq, does_loadLink, Cache.link] at h
      cases hentry : (c.buckets bucket)[passed]? with
      | none =>
          rw [hentry] at h
          obtain ⟨rfl, rfl⟩ := does_ret.mp h
          rw [List.drop_eq_nil_of_le (List.getElem?_eq_none_iff.mp hentry)]
          exact ⟨rfl, rfl⟩
      | some entry =>
          obtain ⟨hlt, hget⟩ := List.getElem?_eq_some_iff.mp hentry
          rw [hentry] at h
          simp only [bind_eq, does_loadBlock] at h
          rw [List.drop_eq_getElem_cons hlt, hget]
          by_cases hkey : c.block (.key entry) = key
          · rw [if_pos hkey] at h
            obtain ⟨rfl, rfl⟩ := does_ret.mp h
            rw [List.find?_cons_of_pos (by simpa [Cache.block] using hkey)]
            exact ⟨rfl, rfl⟩
          · rw [if_neg hkey] at h
            rw [List.find?_cons_of_neg (by simpa [Cache.block] using hkey)]
            exact ih h

/-- `cache_evict_lru`, alone. -/
lemma does_cacheEvictLruSection {c c' : Cache}
    (h : Does (accessWith m) cacheEvictLruSection c () c') : c' = cacheEvictLru c := by
  rw [cacheEvictLruSection, bind_eq, does_loadLink, Cache.link] at h
  cases hlru : c.lru with
  | nil =>
      rw [hlru] at h
      rw [(does_ret.mp h).2, cacheEvictLru, hlru]
  | cons entry rest =>
      rw [hlru] at h
      simp only [List.head?_cons, bind_eq, does_writeCache, does_loadBlock, does_loadSize,
        does_subTotalSize, does_writeCache_last] at h
      rw [h, cacheEvictLru, hlru]
      rfl

/-- **The loop**, where it ends. -/
lemma does_evictLoopSection {size : ℕ} (fuel : ℕ) : ∀ {c c' : Cache},
    Does (accessWith m) (evictLoopSection size fuel) c () c' → evictLoop size fuel c = some c' := by
  induction fuel with
  | zero =>
      intro c c' h
      exact absurd h not_does_raise
  | succ fuel ih =>
      intro c c' h
      simp only [evictLoopSection, bind_eq, does_loadSize] at h
      rw [evictLoop]
      by_cases hfull : c.size .maxSize < addSize (c.size .totalSize) size
      · have hover : c.maxSize < addSize c.totalSize size := hfull
        rw [if_pos hfull, does_bind] at h
        obtain ⟨⟨⟩, c₁, hevict, hrest⟩ := h
        rw [if_pos hover, ← does_cacheEvictLruSection hevict]
        exact ih hrest
      · have hroom : ¬c.maxSize < addSize c.totalSize size := hfull
        rw [if_neg hfull] at h
        rw [if_neg hroom, (does_ret.mp h).2]

/-- On an empty list the loop goes on for ever. -/
lemma evictLoop_nil {c : Cache} {size : ℕ} (hlru : c.lru = [])
    (hfull : c.maxSize < addSize c.totalSize size) (fuel : ℕ) : evictLoop size fuel c = none := by
  have hsame : cacheEvictLru c = c := by simp [cacheEvictLru, hlru]
  induction fuel with
  | zero => rfl
  | succ fuel ih => rw [evictLoop, if_pos hfull, hsame, ih]

/-- The tests of the loop that a list of its length asks for are enough where it ends at all. -/
lemma evictLoop_of_ends {size : ℕ} (fuel : ℕ) : ∀ {c c' : Cache},
    evictLoop size fuel c = some c' → ∀ {fuel' : ℕ}, c.lru.length < fuel' →
      evictLoop size fuel' c = some c' := by
  induction fuel with
  | zero =>
      intro c c' h
      cases h
  | succ fuel ih =>
      intro c c' h fuel' hlt
      obtain ⟨fuel', rfl⟩ := Nat.exists_eq_succ_of_ne_zero (Nat.ne_zero_of_lt hlt)
      rw [evictLoop] at h ⊢
      split_ifs at h ⊢ with hfull
      · cases hlru : c.lru with
        | nil =>
            have hsame : cacheEvictLru c = c := by simp [cacheEvictLru, hlru]
            rw [hsame, evictLoop_nil hlru hfull] at h
            cases h
        | cons entry rest =>
            refine ih h ?_
            have hlen : (cacheEvictLru c).lru.length = rest.length := by
              simp [cacheEvictLru, hlru, Cache.tailqRemove, Cache.listRemove,
                Cache.cacheEntryDestroy]
            rw [hlru, List.length_cons] at hlt
            omega
      · exact h

/-! ### The operations alone -/

/-- `cache_get`, alone. -/
lemma does_cacheGetSection {c c' : Cache} {fuel : ℕ} {key : Bytes} {a : Answer}
    (h : Does (accessWith m) (cacheGetSection fuel key) c a c') :
    cacheStep c (.get key m.now m.dataOk) = some (a, c') := by
  rw [cacheGetSection, bind_eq, does_loadSize, bind_eq, does_bind] at h
  obtain ⟨found, c₁, hfind, hrest⟩ := h
  obtain ⟨rfl, hfound⟩ := does_findEntrySection fuel hfind
  have hfound : c₁.findEntry (hashKey key c₁.numBuckets) key = found := hfound.symm
  rw [cacheStep, cacheGet, hfound]
  cases found with
  | none =>
      simp only [bind_eq, does_countMiss, pure_eq, does_ret] at hrest
      obtain ⟨rfl, rfl⟩ := hrest
      rfl
  | some entry =>
      simp only [bind_eq, does_expiredSection] at hrest
      by_cases hexp : 0 < (c₁.deref entry).expiry ∧ (c₁.deref entry).expiry < m.now
      · simp only [hexp, and_self, decide_true, if_true, does_writeCache, does_subTotalSize,
          does_countMiss, pure_eq, does_ret] at hrest
        obtain ⟨rfl, rfl⟩ := hrest
        simp only [if_pos hexp]
        rfl
      · simp only [hexp, decide_false, Bool.false_eq_true, if_false, does_writeCache, does_loadSize,
          does_mallocBlock, Outcomes.granted] at hrest
        simp only [if_neg hexp]
        cases hcopy : m.dataOk with
        | true =>
            simp only [hcopy, if_true, does_loadBlock, does_loadSize, does_loadInt,
              does_writeCache, pure_eq, does_ret] at hrest
            rw [hrest.1, hrest.2]
            rfl
        | false =>
            simp only [hcopy, Bool.false_eq_true, if_false, pure_eq, does_ret] at hrest
            rw [hrest.1, hrest.2]
            rfl

/-- The three writes to a record that is stored again. -/
lemma write_record (c : Cache) (entry : Ptr) (bytes : Bytes) (n : ℕ) (t : ℤ) :
    ((c.write (.data entry bytes)).write (.size entry n)).write (.expiry entry t) =
      c.store entry { c.deref entry with data := bytes, size := n, expiry := t } := by
  simp [Cache.write, Cache.store, Cache.deref, Function.update_idem]

section Put

variable {c c' : Cache} {fuel : ℕ} {key data : Bytes} {size : ℕ} {ttl : ℤ} {a : Answer}

/-- The result of `cache_put`, for these outcomes of the clock and the allocator. -/
def Puts (m : Outcomes) (c : Cache) (key data : Bytes) (size : ℕ) (ttl : ℤ) (a : Answer)
    (c' : Cache) : Prop :=
  ∃ r, cachePut c key data size ttl m.now m.alloc = some (r, c') ∧ a = putAnswer r

lemma does_overwriteSection (hpos : 0 < size) (hle : ¬c.maxSize / 2 < size) {entry : Ptr}
    (hfound : c.findEntry (hashKey key c.numBuckets) key = some entry)
    (h : Does (accessWith m) (overwriteSection entry data size ttl) c a c') :
    Puts m c key data size ttl a c' := by
  rw [overwriteSection, bind_eq, does_mallocBlock, Outcomes.granted] at h
  rw [Puts, cachePut, if_neg hpos.ne', if_neg hle]
  simp only [hfound]
  cases hnew : m.alloc.newData with
  | false =>
      rw [hnew] at h
      obtain ⟨rfl, rfl⟩ := does_ret.mp h
      exact ⟨-1, rfl, rfl⟩
  | true =>
      simp only [hnew, if_true, bind_eq, does_subTotalSize, does_loadSize, does_writeCache,
        does_expirySection, pure_eq, does_ret, write_record] at h
      obtain ⟨rfl, rfl⟩ := h
      exact ⟨0, rfl, rfl⟩

/-- `cache_put` for a key without a record, after the evictions. -/
lemma cachePut_new {now : ℤ} {alloc : PutAlloc} (hpos : 0 < size) (hle : ¬c.maxSize / 2 < size)
    (hfound : c.findEntry (hashKey key c.numBuckets) key = none) {d : Cache}
    (hloop : evictLoop size (c.lru.length + 1) c = some d) :
    cachePut c key data size ttl now alloc = some
      (if alloc.entry then
        let allocated := { d with fresh := d.fresh + 1 }
        if alloc.key && alloc.data then
          let linked := ((allocated.store d.fresh ⟨key, data.take size, size,
            expiryOf ttl now⟩).listInsertHead (hashKey key c.numBuckets) d.fresh).tailqInsertTail
              d.fresh
          (0, { linked with totalSize := addSize linked.totalSize size })
        else (-1, allocated.cacheEntryDestroy d.fresh)
      else (-1, d)) := by
  rw [cachePut, if_neg hpos.ne', if_neg hle]
  simp only [hfound, hloop, Option.map_some]

lemma does_insertSection (hpos : 0 < size) (hle : ¬c.maxSize / 2 < size)
    (hfound : c.findEntry (hashKey key c.numBuckets) key = none)
    (h : Does (accessWith m) (insertSection fuel (hashKey key c.numBuckets) key data size ttl) c a
      c') :
    Puts m c key data size ttl a c' := by
  rw [insertSection, bind_eq, does_bind] at h
  obtain ⟨⟨⟩, d, hevict, h⟩ := h
  have hloop := evictLoop_of_ends fuel (does_evictLoopSection fuel hevict) (Nat.lt_succ_self _)
  rw [Puts, cachePut_new hpos hle hfound hloop]
  rw [bind_eq, does_mallocEntry] at h
  cases hentry : m.alloc.entry with
  | false =>
      rw [hentry] at h
      obtain ⟨rfl, rfl⟩ := does_ret.mp h
      exact ⟨-1, rfl, rfl⟩
  | true =>
      simp only [hentry, if_true, bind_eq, does_mallocBlock, Outcomes.granted] at h
      cases hcopies : m.alloc.key && m.alloc.data with
      | true =>
          simp only [hcopies, if_true, does_expirySection, does_writeCache, does_loadSize, pure_eq,
            does_ret] at h
          obtain ⟨rfl, rfl⟩ := h
          exact ⟨0, rfl, rfl⟩
      | false =>
          simp only [hcopies, Bool.false_eq_true, if_false, does_writeCache, pure_eq,
            does_ret] at h
          obtain ⟨rfl, rfl⟩ := h
          exact ⟨-1, rfl, rfl⟩

/-- `cache_put`, alone. -/
lemma does_cachePutSection (hpos : 0 < size)
    (h : Does (accessWith m) (cachePutSection fuel key data size ttl) c a c') :
    Puts m c key data size ttl a c' := by
  rw [cachePutSection, bind_eq, does_loadSize] at h
  by_cases hlarge : c.size .maxSize / 2 < size
  · have hrejected : c.maxSize / 2 < size := hlarge
    rw [if_pos hlarge] at h
    obtain ⟨rfl, rfl⟩ := does_ret.mp h
    exact ⟨-1, by rw [cachePut, if_neg hpos.ne', if_pos hrejected], rfl⟩
  · have hle : ¬c.maxSize / 2 < size := hlarge
    rw [if_neg hlarge, bind_eq, does_loadSize, bind_eq, does_bind] at h
    obtain ⟨found, c₁, hfind, hrest⟩ := h
    obtain ⟨rfl, hfound⟩ := does_findEntrySection fuel hfind
    have hfound : c₁.findEntry (hashKey key c₁.numBuckets) key = found := hfound.symm
    cases found with
    | some entry => exact does_overwriteSection hpos hle hfound hrest
    | none => exact does_insertSection hpos hle hfound hrest

end Put

end Alone

/-- **The sections, as a whole.** Alone, a section does what its operation does, for the clock and
the allocator that it met. -/
lemma cacheOp_performs {c c' : Cache} {fuel : ℕ} {op : CacheOp} {a : Answer}
    {tr : List (Event CacheReply)} (h : Performs cacheAccess (op.body fuel) c tr (.ret a) c')
    {m : Outcomes} (hm : ∀ e ∈ tr, m.allows e = true) :
    cacheStep c (op.call m) = some (a, c') := by
  have hdoes : Does (accessWith m) (op.body fuel) c a c' := ⟨tr, h.restrict hm⟩
  cases op with
  | get key => exact does_cacheGetSection hdoes
  | put key data size size_pos size_le ttl =>
      obtain ⟨r, hput, rfl⟩ := does_cachePutSection size_pos hdoes
      rw [CacheOp.call, cacheStep, hput]
      rfl

/-! ### What a section meets -/

/-- The accesses that the clock and the allocator reply to. -/
def CacheAccess.asks : CacheAccess → Bool
  | .time => true
  | .mallocEntry => true
  | .malloc _ => true
  | _ => false

lemma avoids_findEntrySection (bucket : ℕ) (key : Bytes) (fuel : ℕ) : ∀ passed,
    Avoids CacheAccess.asks (findEntrySection bucket key fuel passed) := by
  induction fuel with
  | zero => exact fun _ => trivial
  | succ fuel ih =>
      refine fun passed => ⟨rfl, fun found => ?_⟩
      cases found with
      | none => trivial
      | some entry =>
          refine ⟨rfl, fun entryKey => ?_⟩
          change Avoids CacheAccess.asks (if entryKey = key then _ else _)
          split
          · trivial
          · exact ih _

lemma avoids_cacheEvictLruSection : Avoids CacheAccess.asks cacheEvictLruSection := by
  refine ⟨rfl, fun found => ?_⟩
  cases found with
  | none => trivial
  | some entry =>
      exact ⟨rfl, fun _ => ⟨rfl, fun _ => ⟨rfl, fun _ => ⟨rfl, fun _ => ⟨rfl, fun _ =>
        ⟨rfl, fun _ => ⟨rfl, fun _ => ⟨rfl, fun _ => trivial⟩⟩⟩⟩⟩⟩⟩⟩

lemma avoids_evictLoopSection (size fuel : ℕ) :
    Avoids CacheAccess.asks (evictLoopSection size fuel) := by
  induction fuel with
  | zero => trivial
  | succ fuel ih =>
      refine ⟨rfl, fun totalSize => ⟨rfl, fun maxSize => ?_⟩⟩
      change Avoids CacheAccess.asks (if maxSize < addSize totalSize size then _ else _)
      split
      · exact avoids_bind avoids_cacheEvictLruSection fun _ => ih
      · trivial

/-- The clock is read at most once, whether there is an expiry or not. -/
lemma once_expiredSection {ρ : Type} {made : List CacheAccess} (entry : Ptr)
    {k : Bool → CacheSection ρ} (hmade : CacheAccess.time ∉ made)
    (hk : ∀ expired, ∀ made' ⊆ .time :: made, Once CacheAccess.asks made' (k expired)) :
    Once CacheAccess.asks made ((expiredSection entry).bind k) := by
  simp only [expiredSection, loadInt, readClock, ask, bind_eq, pure_eq, Prog.bind]
  refine once_skip rfl fun expiry => ?_
  split
  · exact once_ask rfl hmade fun now => once_skip rfl fun expiry => hk _ _ (List.Subset.refl _)
  · exact hk _ _ (List.subset_cons_self ..)

lemma once_expirySection {ρ : Type} {made : List CacheAccess} (ttl : ℤ) {k : ℤ → CacheSection ρ}
    (hmade : CacheAccess.time ∉ made)
    (hk : ∀ expiry, ∀ made' ⊆ .time :: made, Once CacheAccess.asks made' (k expiry)) :
    Once CacheAccess.asks made ((expirySection ttl).bind k) := by
  rw [expirySection]
  split
  · exact once_ask rfl hmade fun now => hk _ _ (List.Subset.refl _)
  · exact hk _ _ (List.subset_cons_self ..)

lemma once_cacheGetSection (fuel : ℕ) (key : Bytes) :
    Once CacheAccess.asks [] (cacheGetSection fuel key) := by
  simp only [cacheGetSection, loadSize, loadInt, loadBlock, writeCache, mallocBlock, countMiss,
    subTotalSize, ask, bind_eq, pure_eq, Prog.bind]
  refine once_skip rfl fun numBuckets => once_bind (avoids_findEntrySection ..) fun found => ?_
  cases found with
  | none => exact once_skip rfl fun _ => once_skip rfl fun _ => trivial
  | some entry =>
      refine once_expiredSection entry (by simp) fun expired made hmade => once_ite ?_ ?_
      · simp [Once, CacheAccess.asks]
      · refine once_skip rfl fun _ => once_skip rfl fun _ => once_skip rfl fun _ =>
          once_ask rfl (fun hmem => by simpa using hmade hmem) fun allocated =>
            once_ite ?_ trivial
        simp [Once, CacheAccess.asks]

lemma once_overwriteSection (entry : Ptr) (data : Bytes) (size : ℕ) (ttl : ℤ) :
    Once CacheAccess.asks [] (overwriteSection entry data size ttl) := by
  simp only [overwriteSection, loadSize, writeCache, mallocBlock, subTotalSize, ask, bind_eq,
    pure_eq, Prog.bind]
  refine once_ask rfl (by simp) fun newData => once_ite ?_ trivial
  refine once_skip rfl fun _ => once_skip rfl fun _ => once_skip rfl fun _ =>
    once_skip rfl fun _ => once_skip rfl fun _ => once_skip rfl fun _ => once_skip rfl fun _ =>
      once_expirySection ttl (by simp) fun expiry made _ => ?_
  simp [Once, CacheAccess.asks]

lemma once_insertSection (fuel bucket : ℕ) (key data : Bytes) (size : ℕ) (ttl : ℤ) :
    Once CacheAccess.asks [] (insertSection fuel bucket key data size ttl) := by
  simp only [insertSection, mallocEntry, loadSize, writeCache, mallocBlock, ask, bind_eq,
    pure_eq, Prog.bind]
  refine once_bind (avoids_evictLoopSection ..) fun _ => once_ask rfl (by simp) fun found => ?_
  cases found with
  | none => trivial
  | some entry =>
      refine once_ask rfl (by simp) fun keyCopy => once_ask rfl (by simp) fun dataCopy =>
        once_ite ?_ (once_skip rfl fun _ => trivial)
      refine once_expirySection ttl (by simp) fun expiry made _ => ?_
      simp [Once, CacheAccess.asks]

lemma once_cachePutSection (fuel : ℕ) (key data : Bytes) (size : ℕ) (ttl : ℤ) :
    Once CacheAccess.asks [] (cachePutSection fuel key data size ttl) := by
  simp only [cachePutSection, loadSize, ask, bind_eq, pure_eq, Prog.bind]
  refine once_skip rfl fun maxSize => once_ite trivial ?_
  refine once_skip rfl fun numBuckets => once_bind (avoids_findEntrySection ..) fun found => ?_
  cases found with
  | some entry => exact once_overwriteSection entry data size ttl
  | none => exact once_insertSection fuel _ key data size ttl

instance (c : CacheAccess) : Inhabited (CacheReply c) :=
  match c with
  | .loadSize _ => inferInstanceAs (Inhabited ℕ)
  | .loadInt _ => inferInstanceAs (Inhabited ℤ)
  | .loadLink _ => inferInstanceAs (Inhabited (Option Ptr))
  | .loadBlock _ => inferInstanceAs (Inhabited Bytes)
  | .write _ => inferInstanceAs (Inhabited Unit)
  | .time => inferInstanceAs (Inhabited ℤ)
  | .mallocEntry => inferInstanceAs (Inhabited (Option Ptr))
  | .malloc _ => inferInstanceAs (Inhabited Bool)

/-- There are outcomes of the clock and the allocator that are those that a section met. -/
lemma exists_outcomes {c c' : Cache} {fuel : ℕ} {op : CacheOp} {tr : List (Event CacheReply)}
    {rest : CacheSection Answer} (h : Performs cacheAccess (op.body fuel) c tr rest c') :
    ∃ m : Outcomes, ∀ e ∈ tr, m.allows e = true := by
  have honce : Once CacheAccess.asks [] (op.body fuel) := by
    cases op with
    | get key => exact once_cacheGetSection fuel key
    | put key data size _ _ ttl => exact once_cachePutSection fuel key data size ttl
  obtain ⟨answer, hanswer⟩ := exists_answers honce h
  refine ⟨⟨answer .time, answer (.malloc .answer), ⟨answer (.malloc .newData),
    (answer .mallocEntry).isSome, answer (.malloc .key), answer (.malloc .data)⟩⟩, ?_⟩
  rintro ⟨c, r⟩ he
  cases c with
  | time => simp [Outcomes.allows, hanswer .time r rfl he]
  | mallocEntry => simp [Outcomes.allows, hanswer .mallocEntry r rfl he]
  | malloc copy =>
      have hr := hanswer (.malloc copy) r rfl he
      cases copy <;> simp [Outcomes.allows, Outcomes.granted, hr]
  | _ => rfl

/-- Alone, a section does what its operation does, for some outcomes of the clock and the
allocator. -/
lemma cacheOp_does {c c' : Cache} {fuel : ℕ} {op : CacheOp} {a : Answer}
    (h : Does cacheAccess (op.body fuel) c a c') : ∃ m, cacheStep c (op.call m) = some (a, c') := by
  obtain ⟨tr, hperf⟩ := h
  obtain ⟨m, hm⟩ := exists_outcomes hperf
  exact ⟨m, cacheOp_performs hperf hm⟩

/-! ### The threads -/

/-- The call that a section makes: its operation, with a clock and an allocator that give what the
section met. -/
def CallOf (done : (CacheOp × Answer) × List (Event CacheReply)) (call : Call) : Prop :=
  ∃ m : Outcomes, (∀ e ∈ done.2, m.allows e = true) ∧ call = done.1.1.call m

/-- There are calls of sections that were performed one after the other. -/
lemma exists_calls {fuel : ℕ} {c₀ c : Cache}
    {ops : List ((CacheOp × Answer) × List (Event CacheReply))}
    (h : Performed cacheAccess (CacheOp.body fuel) c₀ ops c) :
    ∃ calls, List.Forall₂ CallOf ops calls := by
  refine h.invariant (P := fun ops _ => ∃ calls, List.Forall₂ CallOf ops calls) ?_ ⟨[], .nil⟩
  rintro ops c op a tr c' ⟨calls, hcalls⟩ hperf
  obtain ⟨m, hm⟩ := exists_outcomes hperf
  exact ⟨calls ++ [op.call m], List.rel_append hcalls (.cons ⟨m, hm, rfl⟩ .nil)⟩

/-- **Sections one after the other** are a run of their calls, whatever the clock and the allocator
would give where they were not asked. -/
lemma performed_exec {fuel : ℕ} {c₀ c : Cache}
    {ops : List ((CacheOp × Answer) × List (Event CacheReply))}
    (h : Performed cacheAccess (CacheOp.body fuel) c₀ ops c) :
    ∀ calls, List.Forall₂ CallOf ops calls →
      exec cacheStep c₀ calls = some (calls.zip (ops.map fun done => done.1.2), c) := by
  refine h.invariant (P := fun ops c => ∀ calls, List.Forall₂ CallOf ops calls →
    exec cacheStep c₀ calls = some (calls.zip (ops.map fun done => done.1.2), c)) ?_ ?_
  · intro ops c op a tr c' hall hperf calls hcalls
    -- the call of the last section comes after those of the other ones
    have hbefore := (List.forall₂_take_append calls ops _ hcalls.flip).flip
    have hlast := (List.forall₂_drop_append calls ops _ hcalls.flip).flip
    obtain ⟨call, _, ⟨m, hm, rfl⟩, hnil, hdrop⟩ := List.forall₂_cons_left_iff.mp hlast
    obtain rfl := List.forall₂_nil_left_iff.mp hnil
    have hsplit : calls = calls.take ops.length ++ [op.call m] := by
      rw [← hdrop, List.take_append_drop]
    have hlength : (calls.take ops.length).length = (ops.map fun done => done.1.2).length := by
      rw [List.length_map]
      exact hbefore.length_eq.symm
    rw [hsplit, exec_snoc cacheStep (hall _ hbefore), cacheOp_performs hperf hm, List.map_append,
      List.zip_append hlength]
    rfl
  · intro calls hcalls
    cases hcalls
    rfl

/-- **The cache under its mutex.** However the accesses of the threads interleave, the completed
calls returned what they return when they are made one after the other, in the order of their
sections, with a clock and an allocator that give what each section met, whatever these would give
where they were not asked; with nobody in a section the cache is what these calls leave. -/
theorem cache_linearizable {T : Type} [DecidableEq T] (sizeMb fuel : ℕ)
    (moves : List (Move T CacheOp CacheReply))
    (log : List (Move T CacheOp CacheReply × Option (CacheOp × Answer)))
    (s : System T Cache CacheOp CacheReply Unit Answer)
    (hrun : exec (sectionStep cacheAccess (CacheOp.body fuel)) (System.idle (cacheInit sizeMb))
      moves = some (log, s)) :
    ∃ base, (∃ calls, List.Forall₂ CallOf (performed log) calls) ∧
      (∀ calls, List.Forall₂ CallOf (performed log) calls →
        exec cacheStep (cacheInit sizeMb) calls =
          some (calls.zip ((completed log).map Prod.snd), base)) ∧
      (s.owner = none → s.memory = base) := by
  obtain ⟨base, hperf, hfst, hguarded⟩ := performed_serial hrun
  refine ⟨base, exists_calls hperf, fun calls h => ?_, hguarded.free⟩
  rw [performed_exec hperf calls h, ← hfst, List.map_map]
  rfl

/-- One thread stores the letter `a` for a minute; another one asks for it, and waits until it is
stored. -/
def storedMoves {T : Type} (t u : T) : List (Move T CacheOp CacheReply) :=
  let bucket := hashKey [97] 1024
  [.call t (.put [97] [98] 1 Nat.one_pos Nat.one_pos 60), .lock t, .call u (.get [97]),
    .access t ⟨.loadSize .maxSize, (1048576 : ℕ)⟩, .access t ⟨.loadSize .numBuckets, (1024 : ℕ)⟩,
    .access t ⟨.loadLink (.entryAt bucket 0), none⟩,
    .access t ⟨.loadSize .totalSize, (0 : ℕ)⟩, .access t ⟨.loadSize .maxSize, (1048576 : ℕ)⟩,
    .access t ⟨.mallocEntry, some 0⟩, .access t ⟨.malloc .key, true⟩,
    .access t ⟨.malloc .data, true⟩, .access t ⟨.time, (100 : ℤ)⟩,
    .access t ⟨.write (.fill 0 ⟨[97], [98], 1, 160⟩), ()⟩,
    .access t ⟨.write (.listInsertHead bucket 0), ()⟩,
    .access t ⟨.write (.tailqInsertTail 0), ()⟩, .access t ⟨.loadSize .totalSize, (0 : ℕ)⟩,
    .access t ⟨.write (.totalSize 1), ()⟩, .unlock t, .lock u,
    .access u ⟨.loadSize .numBuckets, (1024 : ℕ)⟩,
    .access u ⟨.loadLink (.entryAt bucket 0), some 0⟩, .access u ⟨.loadBlock (.key 0), [97]⟩,
    .access u ⟨.loadInt (.expiry 0), (160 : ℤ)⟩, .access u ⟨.time, (130 : ℤ)⟩,
    .access u ⟨.loadInt (.expiry 0), (160 : ℤ)⟩, .access u ⟨.write (.tailqRemove 0), ()⟩,
    .access u ⟨.write (.tailqInsertTail 0), ()⟩, .access u ⟨.loadSize (.size 0), (1 : ℕ)⟩,
    .access u ⟨.malloc .answer, true⟩, .access u ⟨.loadBlock (.data 0), [98]⟩,
    .access u ⟨.loadSize (.size 0), (1 : ℕ)⟩, .access u ⟨.loadSize (.size 0), (1 : ℕ)⟩,
    .access u ⟨.loadInt .hits, (0 : ℤ)⟩, .access u ⟨.write (.hits 1), ()⟩, .unlock u]

/-- The call that stores the letter, at the time 100. -/
def storeCall : Call := .put [97] [98] 1 Nat.one_pos 60 100 ⟨true, true, true, true⟩

/-- The second thread gets what the first one stored half a minute before, and so does the second
call after the first one. -/
theorem cache_linearizable_stored : ∃ log s base,
    exec (sectionStep cacheAccess (CacheOp.body 2)) (System.idle (cacheInit 1))
      (storedMoves (0 : Fin 2) 1) = some (log, s) ∧
    exec cacheStep (cacheInit 1) [storeCall, .get [97] 130 true] =
      some ([(storeCall, .stored), (.get [97] 130 true, .hit [98] 1)], base) ∧
    s.memory = base := by
  let outcomes : List Outcomes :=
    [⟨100, true, ⟨true, true, true, true⟩⟩, ⟨130, true, ⟨true, true, true, true⟩⟩]
  have hrun : (exec (sectionStep cacheAccess (CacheOp.body 2)) (System.idle (cacheInit 1))
      (storedMoves (0 : Fin 2) 1)).map (fun r => (completed r.1, (performed r.1).map Prod.fst,
        List.zipWith (fun done m => done.2.all m.allows) (performed r.1) outcomes, r.2.owner)) =
      some ([(.put [97] [98] 1 Nat.one_pos Nat.one_pos 60, .stored), (.get [97], .hit [98] 1)],
        [(.put [97] [98] 1 Nat.one_pos Nat.one_pos 60, .stored), (.get [97], .hit [98] 1)],
        [true, true], none) := by
    decide +kernel
  obtain ⟨⟨log, s⟩, hexec, hout⟩ := Option.map_eq_some_iff.mp hrun
  simp only [Prod.mk.injEq] at hout
  obtain ⟨hlog, hfst, hmet, howner⟩ := hout
  obtain ⟨⟨_, tr₁⟩, rest, hperf, rfl, hrest⟩ := List.map_eq_cons_iff.mp hfst
  obtain ⟨⟨_, tr₂⟩, rest', rfl, rfl, hnil⟩ := List.map_eq_cons_iff.mp hrest
  obtain rfl := List.map_eq_nil_iff.mp hnil
  obtain ⟨base, -, hall, hbase⟩ := cache_linearizable 1 2 (storedMoves 0 1) log s hexec
  rw [hperf] at hall hmet
  simp only [outcomes, List.zipWith_cons_cons, List.zipWith_nil_right, List.cons.injEq,
    List.all_eq_true, and_true] at hmet
  have hcalls := hall [storeCall, .get [97] 130 true]
    (.cons ⟨_, hmet.1, rfl⟩ (.cons ⟨_, hmet.2, rfl⟩ .nil))
  rw [hlog] at hcalls
  exact ⟨log, s, base, hexec, hcalls, hbase howner⟩

end ProxyMax
