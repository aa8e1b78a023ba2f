import ProxyMax.Lib.CString

/-!
The linked lists of `src/monitor/ratelimit.c`: records of clients, found by the
text in a field of fixed size, that are created when they are not found.

* `ClientIp`, `IpField`: the address of a client and the field for it;
  `IpField.strncpy` writes the address into the field.
* `Records`: a list of records at addresses, with the memory allocator's promise
  that a new record is at a new address.
* `getOrCreate`: the search and the creation that the two `get_` functions of the
  source share; `getOrCreate_found` and `getOrCreate_none` are its two branches.
-/

namespace ProxyMax

open CString

/-- The text of an address, as `inet_ntop` writes it into `INET_ADDRSTRLEN` bytes. -/
structure ClientIp where
  text : Bytes
  length_le : text.length ≤ 15
  ne_zero : ∀ c ∈ text, c ≠ 0

lemma ClientIp.eq_of_text {ip key : ClientIp} (h : ip.text = key.text) : ip = key := by
  cases ip
  cases key
  simpa using h

/-- A `char ip[INET_ADDRSTRLEN]`. -/
structure IpField where
  bytes : Bytes
  length_eq : bytes.length = 16
deriving DecidableEq

/-- The string in the field. A comparison with an address ends within the field,
whether or not it holds a NUL. -/
def IpField.text (field : IpField) : Bytes := cstr field.bytes

lemma IpField.length_strncpy (field : IpField) (ip : ClientIp) :
    (CString.strncpy ip.text 15 ++ field.bytes.drop 15).length = 16 := by
  have h := field.length_eq
  simp only [CString.strncpy, List.length_append, List.length_take, List.length_replicate,
    List.length_drop]
  omega

/-- `strncpy(field, ip, sizeof(field) - 1)`: the last byte stays as it is. -/
def IpField.strncpy (field : IpField) (ip : ClientIp) : IpField where
  bytes := CString.strncpy ip.text 15 ++ field.bytes.drop 15
  length_eq := field.length_strncpy ip

/-- A list of records, head first, each at its address. -/
structure Records (α : Type*) where
  nodes : List (ℕ × α)
  fresh : ℕ
  lt_fresh : ∀ r ∈ nodes, r.1 < fresh
  nodup : (nodes.map Prod.fst).Nodup

namespace Records

variable {α : Type*}

/-- The empty list. -/
def empty : Records α := ⟨[], 0, by simp, by simp⟩

/-- A record at a new address, linked in at the head. -/
def push (s : Records α) (a : α) : Records α where
  nodes := (s.fresh, a) :: s.nodes
  fresh := s.fresh + 1
  lt_fresh := by
    intro r hr
    rcases List.mem_cons.mp hr with rfl | hr
    · exact Nat.lt_succ_self _
    · exact Nat.lt_succ_of_lt (s.lt_fresh r hr)
  nodup := by
    rw [List.map_cons, List.nodup_cons]
    refine ⟨fun h => ?_, s.nodup⟩
    obtain ⟨r, hr, hfresh⟩ := List.mem_map.mp h
    exact absurd (s.lt_fresh r hr) (by omega)

/-- Overwriting the record at an address leaves the addresses as they are. -/
lemma map_fst_overwrite (nodes : List (ℕ × α)) (addr : ℕ) (a : α) :
    (nodes.map fun r => if r.1 = addr then (addr, a) else r).map Prod.fst
      = nodes.map Prod.fst := by
  rw [List.map_map]
  refine List.map_congr_left ?_
  intro r _
  simp only [Function.comp_apply]
  split
  · rename_i haddr
    exact haddr.symm
  · rfl

/-- A store to the record at an address. -/
def store (s : Records α) (addr : ℕ) (a : α) : Records α where
  nodes := s.nodes.map fun r => if r.1 = addr then (addr, a) else r
  fresh := s.fresh
  lt_fresh := by
    intro r hr
    obtain ⟨r', hr', rfl⟩ := List.mem_map.mp hr
    split
    · rename_i haddr
      exact haddr ▸ s.lt_fresh r' hr'
    · exact s.lt_fresh r' hr'
  nodup := by
    rw [map_fst_overwrite]
    exact s.nodup

/-- The records that satisfy `p` stay, and the others are unlinked and freed. -/
def keep (s : Records α) (p : α → Bool) : Records α where
  nodes := s.nodes.filter fun r => p r.2
  fresh := s.fresh
  lt_fresh := fun r hr => s.lt_fresh r (List.mem_of_mem_filter hr)
  nodup := s.nodup.sublist (List.filter_sublist.map Prod.fst)

lemma mem_push {s : Records α} {r : ℕ × α} {a : α} :
    r ∈ (s.push a).nodes ↔ r = (s.fresh, a) ∨ r ∈ s.nodes := List.mem_cons

/-- A store replaces the record at its address and leaves the others. -/
lemma mem_store {s : Records α} {addr : ℕ} {a : α} (h : (addr, a) ∈ s.nodes) {b : α}
    {r : ℕ × α} :
    r ∈ (s.store addr b).nodes ↔ r = (addr, b) ∨ (r ∈ s.nodes ∧ r.1 ≠ addr) := by
  simp only [store, List.mem_map]
  constructor
  · rintro ⟨r', hr', rfl⟩
    split
    · exact .inl rfl
    · rename_i hne
      exact .inr ⟨hr', hne⟩
  · rintro (rfl | ⟨hr, hne⟩)
    · exact ⟨(addr, a), h, if_pos rfl⟩
    · exact ⟨r, hr, if_neg hne⟩

/-- An address holds one record. -/
lemma eq_of_mem {s : Records α} {addr : ℕ} {a b : α} (ha : (addr, a) ∈ s.nodes)
    (hb : (addr, b) ∈ s.nodes) : a = b :=
  congrArg Prod.snd (List.inj_on_of_nodup_map s.nodup ha hb rfl)

lemma fresh_notMem (s : Records α) (a : α) : (s.fresh, a) ∉ s.nodes :=
  fun h => absurd (s.lt_fresh _ h) (lt_irrefl _)

/-- The first record whose field reads as the address `key`. -/
def find (ip : α → IpField) (key : ClientIp) (s : Records α) : Option (ℕ × α) :=
  s.nodes.find? fun r => (ip r.2).text = key.text

end Records

/-- The search for the record of a client, and its creation when there is none:
`touch` is done to a record that is found, `create` fills in the rest of a new
one, and `mem` is what the allocated memory holds in the field, or `none` when
the allocation fails. -/
def getOrCreate {α : Type*} (ip : α → IpField) (touch : α → α) (create : IpField → α)
    (mem : Option IpField) (key : ClientIp) (s : Records α) : Option (ℕ × α) × Records α :=
  match s.find ip key with
  | some r => (some (r.1, touch r.2), s.store r.1 (touch r.2))
  | none =>
      match mem with
      | none => (none, s)
      | some field =>
          let a := create (field.strncpy key)
          (some (s.fresh, a), s.push a)

section GetOrCreate

variable {α : Type*} {ip : α → IpField} {touch : α → α} {create : IpField → α}
  {mem : Option IpField} {key : ClientIp} {s : Records α}

lemma Records.mem_of_find {r : ℕ × α} (h : s.find ip key = some r) :
    r ∈ s.nodes ∧ (ip r.2).text = key.text :=
  ⟨List.mem_of_find?_eq_some h, by simpa using List.find?_some h⟩

lemma getOrCreate_found {r : ℕ × α} (h : s.find ip key = some r) :
    getOrCreate ip touch create mem key s
      = (some (r.1, touch r.2), s.store r.1 (touch r.2)) := by
  simp only [getOrCreate, h]

lemma getOrCreate_new (h : s.find ip key = none) (field : IpField) :
    getOrCreate ip touch create (some field) key s
      = (some (s.fresh, create (field.strncpy key)), s.push (create (field.strncpy key))) := by
  simp only [getOrCreate, h]

lemma getOrCreate_none (h : s.find ip key = none) :
    getOrCreate ip touch create none key s = (none, s) := by
  simp only [getOrCreate, h]

/-- **The cases of the search**: a record is found, or a new one is made, or the
allocation fails. -/
lemma getOrCreate_cases (ip : α → IpField) (touch : α → α) (create : IpField → α)
    (mem : Option IpField) (key : ClientIp) (s : Records α) :
    (∃ r, s.find ip key = some r ∧ getOrCreate ip touch create mem key s
        = (some (r.1, touch r.2), s.store r.1 (touch r.2))) ∨
    (∃ field, s.find ip key = none ∧ mem = some field ∧ getOrCreate ip touch create mem key s
        = (some (s.fresh, create (field.strncpy key)), s.push (create (field.strncpy key)))) ∨
    (s.find ip key = none ∧ mem = none ∧ getOrCreate ip touch create mem key s = (none, s)) := by
  cases hfind : s.find ip key with
  | some r => exact .inl ⟨r, rfl, getOrCreate_found hfind⟩
  | none =>
      cases mem with
      | some field => exact .inr (.inl ⟨field, rfl, rfl, getOrCreate_new hfind field⟩)
      | none => exact .inr (.inr ⟨rfl, rfl, getOrCreate_none hfind⟩)

/-- A store leaves the texts in the fields. -/
lemma Records.text_store {addr : ℕ} {a b : α} (hmem : (addr, a) ∈ s.nodes) (hip : ip b = ip a)
    {r : ℕ × α} (hr : r ∈ s.nodes) :
    (ip (if r.1 = addr then (addr, b) else r).2).text = (ip r.2).text := by
  split_ifs with haddr
  · subst haddr
    rw [hip, Records.eq_of_mem hmem hr]
  · rfl

lemma Records.find_store_eq {addr : ℕ} {a b : α} (hmem : (addr, a) ∈ s.nodes)
    (hip : ip b = ip a) (key : ClientIp) :
    (s.store addr b).find ip key =
      (s.find ip key).map fun r => if r.1 = addr then (addr, b) else r := by
  rw [find, store, List.find?_map, find]
  congr 1
  refine List.find?_congr fun r hr => ?_
  simp only [Function.comp_apply, text_store hmem hip hr]

/-- The record that was found is found after a store to it. -/
lemma Records.find_store {addr : ℕ} {a b : α} (h : s.find ip key = some (addr, a))
    (hip : ip b = ip a) : (s.store addr b).find ip key = some (addr, b) := by
  rw [find_store_eq (mem_of_find h).1 hip, h, Option.map_some, if_pos rfl]

/-- A store to the record of another client. -/
lemma Records.find_store_ne {addr : ℕ} {a b : α} (hmem : (addr, a) ∈ s.nodes)
    (hip : ip b = ip a) {key : ClientIp} (hne : (ip a).text ≠ key.text) :
    (s.store addr b).find ip key = s.find ip key := by
  rw [find_store_eq hmem hip]
  cases hfind : s.find ip key with
  | none => rfl
  | some r =>
      have haddr : r.1 ≠ addr := by
        rintro rfl
        have heq := Records.eq_of_mem hmem (mem_of_find hfind).1
        exact hne (heq ▸ (mem_of_find hfind).2)
      rw [Option.map_some, if_neg haddr]

lemma Records.find_push {a : α} (key : ClientIp) (htext : (ip a).text = key.text) :
    (s.push a).find ip key = some (s.fresh, a) := by
  rw [find, push, List.find?_cons_of_pos (by simpa using htext)]

lemma Records.find_push_ne {a : α} {key : ClientIp} (htext : (ip a).text ≠ key.text) :
    (s.push a).find ip key = s.find ip key := by
  rw [find, push, List.find?_cons_of_neg (by simpa using htext)]
  rfl

/-- Where no two records read the same, the search goes on among those that are kept. -/
lemma Records.find_keep (hnodup : (s.nodes.map fun r => (ip r.2).text).Nodup) (p : α → Bool)
    (key : ClientIp) :
    (s.keep p).find ip key = (s.find ip key).filter fun r => p r.2 := by
  show (s.nodes.filter fun r => p r.2).find? _ = (s.nodes.find? _).filter _
  generalize s.nodes = nodes at hnodup
  induction nodes with
  | nil => rfl
  | cons r nodes ih =>
      rw [List.map_cons, List.nodup_cons] at hnodup
      by_cases htext : (ip r.2).text = key.text
      · rw [List.find?_cons_of_pos (by simpa using htext), Option.filter_some, List.filter_cons]
        split_ifs with hp
        · rw [List.find?_cons_of_pos (by simpa using htext)]
        · refine List.find?_eq_none.mpr fun r' hr' heq => hnodup.1 (List.mem_map.mpr ?_)
          exact ⟨r', List.mem_of_mem_filter hr', by simpa [htext] using heq⟩
      · rw [List.find?_cons_of_neg (by simpa using htext), ← ih hnodup.2, List.filter_cons]
        split_ifs with hp
        · rw [List.find?_cons_of_neg (by simpa using htext)]
        · rfl

end GetOrCreate

end ProxyMax
