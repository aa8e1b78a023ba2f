import ProxyMax.Lib.CInt
import ProxyMax.Lib.CString
import ProxyMax.Lib.Machine

/-!
`src/cache/cache.c`: the response cache, a chained hash table whose entries
are also linked in a recency list.

* `Cache`: the records in memory and the two structures that link them. A
  record is named by its address, so a write through one structure is seen
  through the other.
* `cacheGet`, `cachePut`, `cacheEvictLru`, `cacheInit`: the operations, with
  the outcomes of `malloc`, `strdup` and `time` as arguments.
* `Call`, `cacheStep`: the calls a client of the cache makes, as a machine.
-/

namespace ProxyMax

open CString

/-- The address of a record. -/
abbrev Ptr := ℕ

/-- `struct cache_entry`, without its two linkage fields. -/
structure CacheEntry where
  key : Bytes
  data : Bytes
  size : ℕ
  expiry : ℤ
  deriving DecidableEq, Inhabited, Repr

/-- `cache_t`. `heap` holds the records that are allocated, `fresh` is the next
address `malloc` hands out, and each structure is the list of the addresses it
links, in order. The counters are of type `int`. -/
structure Cache where
  heap : Ptr → Option CacheEntry
  fresh : Ptr
  buckets : ℕ → List Ptr
  numBuckets : ℕ
  lru : List Ptr
  totalSize : ℕ
  maxSize : ℕ
  hits : ℤ
  misses : ℤ

/-- A `char` widened to `int` and converted to `unsigned int`; `char` is signed. -/
def charToUnsigned (c : UInt8) : UInt32 := c.toInt8.toInt32.toUInt32

/-- `hash_key`: `unsigned int` arithmetic, reduced to a bucket number. -/
def hashKey (key : Bytes) (numBuckets : ℕ) : ℕ :=
  (key.foldl (fun (hash : UInt32) c => (hash <<< 5) + hash + charToUnsigned c) 5381).toNat
    % numBuckets

/-- `cache_init`, when its two allocations succeed. -/
def cacheInit (sizeMb : ℕ) : Cache where
  heap := fun _ => none
  fresh := 0
  buckets := fun _ => []
  numBuckets := 1024
  lru := []
  totalSize := 0
  maxSize := sizeMb * 1024 * 1024 % sizeMod
  hits := 0
  misses := 0

namespace Cache

/-- Reading a record. Reading one that is not allocated is undefined in C and
reads a dummy here; `Valid` rules it out. -/
def deref (c : Cache) (p : Ptr) : CacheEntry := (c.heap p).getD default

/-- Writing a record. -/
def store (c : Cache) (p : Ptr) (e : CacheEntry) : Cache :=
  { c with heap := Function.update c.heap p (some e) }

/-- `cache_entry_destroy`. -/
def cacheEntryDestroy (c : Cache) (p : Ptr) : Cache :=
  { c with heap := Function.update c.heap p none }

/-- `TAILQ_REMOVE(&g_cache->lru, entry, lru_entries)`. -/
def tailqRemove (c : Cache) (p : Ptr) : Cache := { c with lru := c.lru.erase p }

/-- `TAILQ_INSERT_TAIL(&g_cache->lru, entry, lru_entries)`. -/
def tailqInsertTail (c : Cache) (p : Ptr) : Cache := { c with lru := c.lru ++ [p] }

/-- `LIST_REMOVE(entry, hash_entries)`: the macro takes no list, it unlinks the
record from the bucket that links it. -/
def listRemove (c : Cache) (p : Ptr) : Cache :=
  { c with buckets := fun b => (c.buckets b).erase p }

/-- `LIST_INSERT_HEAD(&g_cache->buckets[bucket], entry, hash_entries)`. -/
def listInsertHead (c : Cache) (bucket : ℕ) (p : Ptr) : Cache :=
  { c with buckets := Function.update c.buckets bucket (p :: c.buckets bucket) }

/-- `LIST_FOREACH` over a bucket, stopping at the first entry with the key. -/
def findEntry (c : Cache) (bucket : ℕ) (key : Bytes) : Option Ptr :=
  (c.buckets bucket).find? fun p => (c.deref p).key = key

end Cache

/-- `cache_evict_lru`. -/
def cacheEvictLru (c : Cache) : Cache :=
  match c.lru with
  | [] => c
  | entry :: _ =>
      let size := (c.deref entry).size
      let c := (c.tailqRemove entry).listRemove entry
      { c with totalSize := subSize c.totalSize size }.cacheEntryDestroy entry

/-- `cache_get` at time `now`; `dataOk` tells whether `malloc` of the copy
succeeds. The result is `none` where the code returns -1, and the bytes and the
size it hands out where it returns 0. -/
def cacheGet (c : Cache) (key : Bytes) (now : ℤ) (dataOk : Bool) :
    Option (Bytes × ℕ) × Cache :=
  match c.findEntry (hashKey key c.numBuckets) key with
  | none => (none, { c with misses := CInt.incr c.misses })
  | some entry =>
      let e := c.deref entry
      if 0 < e.expiry ∧ e.expiry < now then
        let c := (c.tailqRemove entry).listRemove entry
        let c := { c with totalSize := subSize c.totalSize e.size }.cacheEntryDestroy entry
        (none, { c with misses := CInt.incr c.misses })
      else
        let c := (c.tailqRemove entry).tailqInsertTail entry
        if dataOk then
          (some (e.data.take e.size, e.size), { c with hits := CInt.incr c.hits })
        else (none, c)

/-- The outcomes of the four allocations of `cache_put`: `new_data` on the
overwriting path, and the record, its key and its data on the inserting one. -/
structure PutAlloc where
  newData : Bool
  entry : Bool
  key : Bool
  data : Bool
  deriving DecidableEq, Repr

/-- `while (g_cache->total_size + size > g_cache->max_size) cache_evict_lru();`
for at most `fuel` tests of its condition; `none` when it has not ended then. -/
def evictLoop (size : ℕ) : ℕ → Cache → Option Cache
  | 0, _ => none
  | fuel + 1, c =>
      if c.maxSize < addSize c.totalSize size then evictLoop size fuel (cacheEvictLru c)
      else some c

/-- The expiry `cache_put` records: `(ttl > 0) ? time(NULL) + ttl : 0`. -/
def expiryOf (ttl now : ℤ) : ℤ := if 0 < ttl then now + ttl else 0

/-- `cache_put` at time `now`, with its return value. The eviction loop may not
end, and then neither does the call; on an empty list it makes no progress, so
one test more than there are entries decides whether it ends. -/
def cachePut (c : Cache) (key data : Bytes) (size : ℕ) (ttl now : ℤ) (alloc : PutAlloc) :
    Option (ℤ × Cache) :=
  if size = 0 then some (-1, c)
  else if c.maxSize / 2 < size then some (-1, c)
  else
    let bucket := hashKey key c.numBuckets
    match c.findEntry bucket key with
    | some entry =>
        if alloc.newData then
          let e := c.deref entry
          let c := { c with totalSize := addSize (subSize c.totalSize e.size) size }
          let c := c.store entry
            { e with data := data.take size, size := size, expiry := expiryOf ttl now }
          some (0, (c.tailqRemove entry).tailqInsertTail entry)
        else some (-1, c)
    | none =>
        (evictLoop size (c.lru.length + 1) c).map fun c =>
          if alloc.entry then
            let entry := c.fresh
            let c := { c with fresh := c.fresh + 1 }
            if alloc.key && alloc.data then
              let c := c.store entry ⟨key, data.take size, size, expiryOf ttl now⟩
              let c := (c.listInsertHead bucket entry).tailqInsertTail entry
              (0, { c with totalSize := addSize c.totalSize size })
            else (-1, c.cacheEntryDestroy entry)
          else (-1, c)

/-- A call of the cache. The buffer handed to `cache_put` holds at least the
number of bytes that the call names. -/
inductive Call where
  | get (key : Bytes) (now : ℤ) (dataOk : Bool)
  | put (key data : Bytes) (size : ℕ) (size_le : size ≤ data.length) (ttl now : ℤ)
      (alloc : PutAlloc)

/-- The clock reading of a call. -/
def Call.now : Call → ℤ
  | .get _ now _ => now
  | .put _ _ _ _ _ now _ => now

/-- What a call returns: -1, the 0 of `cache_put`, or the 0 of `cache_get` with
the bytes and the size it hands out. -/
inductive Answer where
  | fail
  | stored
  | hit (data : Bytes) (size : ℕ)
  deriving DecidableEq, Repr

def getAnswer : Option (Bytes × ℕ) → Answer
  | some (data, size) => .hit data size
  | none => .fail

def putAnswer (r : ℤ) : Answer := if r = 0 then .stored else .fail

/-- One call of the cache; `none` when it does not return. -/
def cacheStep (c : Cache) : Call → Option (Answer × Cache)
  | .get key now dataOk =>
      let r := cacheGet c key now dataOk
      some (getAnswer r.1, r.2)
  | .put key data size _ ttl now alloc =>
      (cachePut c key data size ttl now alloc).map fun r => (putAnswer r.1, r.2)

end ProxyMax
