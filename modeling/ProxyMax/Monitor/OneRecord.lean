import ProxyMax.Monitor.RateLimit

/-!
One record for each client.

* `IpField.text_strncpy`: what `strncpy` leaves in a field reads as the address,
  unless the address fills it and its last byte is not NUL.
* `Records.names`: the addresses of the records and the texts in their fields, on
  which the search depends; `Searched` is what a search does to them.
* `SharedLimiter`, `SharedTracker`: every later search for a client finds the
  same record.
* `one_record_iff`: when a search for a client settles its record, and what a run
  of such searches keeps.
-/

namespace ProxyMax

open CString Machine

/-! ### The field after `strncpy` -/

/-- The last byte of the field. -/
def IpField.last (field : IpField) : UInt8 := field.bytes.getD 15 0

lemma IpField.drop_eq (field : IpField) : field.bytes.drop 15 = [field.last] := by
  have hlen : 15 < field.bytes.length := by rw [field.length_eq]; omega
  rw [List.drop_eq_getElem_cons hlen, List.drop_eq_nil_of_le field.length_eq.le, last]
  simp [hlen]

/-- **Reading back.** The last byte is left as it was, so an address that fills
the other fifteen is read with it. -/
lemma IpField.text_strncpy (field : IpField) (ip : ClientIp) :
    (field.strncpy ip).text
      = if ip.text.length = 15 ∧ field.last ≠ 0 then ip.text ++ [field.last] else ip.text := by
  have hlen := ip.length_le
  have hbytes : (field.strncpy ip).bytes = CString.strncpy ip.text 15 ++ [field.last] :=
    congrArg (CString.strncpy ip.text 15 ++ ·) field.drop_eq
  rw [text, hbytes]
  rcases Nat.lt_or_eq_of_le hlen with h | h
  · rw [cstr_strncpy ip.ne_zero h, if_neg fun h15 => absurd h15.1 (by omega)]
  · rw [CString.strncpy, List.take_of_length_le hlen, h, Nat.sub_self, List.replicate_zero,
      List.append_nil, cstr_append ip.ne_zero]
    by_cases h0 : field.last = 0
    · simp [h0, cstr_zero]
    · simp [h0, cstr]

/-- The field reads as the address it was written for or as none. -/
lemma IpField.eq_of_text_strncpy {field : IpField} {ip k : ClientIp}
    (h : (field.strncpy ip).text = k.text) : ip.text = k.text := by
  rw [text_strncpy] at h
  split at h
  · rename_i hfull
    have hlen := congrArg List.length h
    have hk := k.length_le
    simp only [List.length_append, List.length_singleton] at hlen
    omega
  · exact h

/-- The memory that a new record is made in leaves the field terminated. -/
def Terminates (mem : Option IpField) (ip : ClientIp) : Prop :=
  ip.text.length ≤ 14 ∨ ∀ field, mem = some field → field.last = 0

lemma Terminates.text_strncpy {field : IpField} {ip : ClientIp} (h : Terminates (some field) ip) :
    (field.strncpy ip).text = ip.text := by
  rw [IpField.text_strncpy]
  refine if_neg ?_
  intro hfull
  rcases h with h | h
  · omega
  · exact hfull.2 (h field rfl)

/-! ### Searching -/

section Searched

variable {α : Type*} {ip : α → IpField}

/-- The addresses of the records with the texts in their fields. -/
def Records.names (ip : α → IpField) (s : Records α) : List (ℕ × Bytes) :=
  s.nodes.map fun r => (r.1, (ip r.2).text)

/-- The first record under the name of a client, by its address. -/
def Records.named (ip : α → IpField) (key : ClientIp) (s : Records α) : Option ℕ :=
  ((s.names ip).find? fun n => n.2 = key.text).map Prod.fst

lemma Records.find_map_fst (key : ClientIp) (s : Records α) :
    (s.find ip key).map Prod.fst = s.named ip key := by
  rw [named, names, find, List.find?_map, Option.map_map]
  rfl

lemma Records.names_store {s : Records α} {addr : ℕ} {a b : α} (hmem : (addr, a) ∈ s.nodes)
    (hip : ip b = ip a) : (s.store addr b).names ip = s.names ip := by
  rw [names, names, store, List.map_map]
  refine List.map_congr_left ?_
  intro r hr
  simp only [Function.comp_apply]
  split
  · rename_i haddr
    subst haddr
    rw [Records.eq_of_mem hr hmem, hip]
  · rfl

/-- **What a search does**: it finds a record, or makes one at a new address, or
fails; `record` is the address it returns. -/
inductive Searched (ip : α → IpField) (key : ClientIp) (mem : Option IpField)
    (s s' : Records α) : Option ℕ → Prop
  | found {addr : ℕ} (hnamed : s.named ip key = some addr) (hnames : s'.names ip = s.names ip)
      (hfresh : s'.fresh = s.fresh) : Searched ip key mem s s' (some addr)
  | created {field : IpField} (hmem : mem = some field) (hnamed : s.named ip key = none)
      (hnames : s'.names ip = (s.fresh, (field.strncpy key).text) :: s.names ip)
      (hfresh : s'.fresh = s.fresh + 1) : Searched ip key mem s s' (some s.fresh)
  | failed (hmem : mem = none) (hnamed : s.named ip key = none) (hnames : s'.names ip = s.names ip)
      (hfresh : s'.fresh = s.fresh) : Searched ip key mem s s' none

/-- A store that leaves the field as it is comes after the search. -/
lemma Searched.store {key : ClientIp} {mem : Option IpField} {s s' : Records α} {record : Option ℕ}
    (h : Searched ip key mem s s' record) {addr : ℕ} {a b : α} (hmem : (addr, a) ∈ s'.nodes)
    (hip : ip b = ip a) : Searched ip key mem s (s'.store addr b) record := by
  have hnames := Records.names_store hmem hip
  cases h with
  | found hnamed hn hf => exact .found hnamed (hnames.trans hn) hf
  | created hm hnamed hn hf => exact .created hm hnamed (hnames.trans hn) hf
  | failed hm hnamed hn hf => exact .failed hm hnamed (hnames.trans hn) hf

/-- `getOrCreate` is a search, when `touch` and `create` leave the field as it is. -/
lemma getOrCreate_searched {touch : α → α} {create : IpField → α}
    (htouch : ∀ a, ip (touch a) = ip a) (hcreate : ∀ field, ip (create field) = field)
    (mem : Option IpField) (key : ClientIp) (s : Records α) :
    Searched ip key mem s (getOrCreate ip touch create mem key s).2
        ((getOrCreate ip touch create mem key s).1.map Prod.fst) ∧
      ∀ r, (getOrCreate ip touch create mem key s).1 = some r →
        r ∈ (getOrCreate ip touch create mem key s).2.nodes := by
  rcases getOrCreate_cases ip touch create mem key s with
    ⟨⟨addr, a⟩, hfind, hget⟩ | ⟨field, hfind, rfl, hget⟩ | ⟨hfind, rfl, hget⟩
  · have hmem := (Records.mem_of_find hfind).1
    rw [hget]
    refine ⟨.found ?_ (Records.names_store hmem (htouch a)) rfl, fun r hr => ?_⟩
    · rw [← Records.find_map_fst, hfind]
      rfl
    · rw [← Option.some.inj hr]
      exact (Records.mem_store hmem).mpr (.inl rfl)
  · rw [hget]
    refine ⟨.created rfl ?_ ?_ rfl, fun r hr => ?_⟩
    · rw [← Records.find_map_fst, hfind]
      rfl
    · rw [Records.names, Records.push, List.map_cons, hcreate]
      rfl
    · rw [← Option.some.inj hr]
      exact Records.mem_push.mpr (.inl rfl)
  · rw [hget]
    refine ⟨.failed rfl ?_ rfl rfl, fun r hr => by simp at hr⟩
    rw [← Records.find_map_fst, hfind]
    rfl

lemma Records.named_eq_none {s : Records α} {key : ClientIp} :
    s.named ip key = none ↔ ∀ n ∈ s.names ip, n.2 ≠ key.text := by
  simp [named]

lemma Records.nodup_names (s : Records α) : ((s.names ip).map Prod.fst).Nodup := by
  rw [names, List.map_map]
  exact s.nodup

/-- **The record a search returns** is found under the client's name after it
just when one was found before it or the new one is terminated. -/
lemma Searched.named_iff {key : ClientIp} {mem : Option IpField} {s s' : Records α} {addr : ℕ}
    (h : Searched ip key mem s s' (some addr)) :
    s'.named ip key = some addr ↔ s.named ip key ≠ none ∨ Terminates mem key := by
  cases h with
  | found hnamed hnames _ =>
      rw [Records.named, hnames]
      exact iff_of_true hnamed (.inl (by rw [hnamed]; simp))
  | @created field hmem hnamed hnames _ =>
      subst hmem
      have hrest : (s.names ip).find? (fun n => n.2 = key.text) = none := by
        rwa [Records.named, Option.map_eq_none_iff] at hnamed
      rw [Records.named, hnames, List.find?_cons, hnamed]
      by_cases hterm : Terminates (some field) key
      · simp [hterm.text_strncpy, hterm]
      · have hne : (field.strncpy key).text ≠ key.text := by
          intro heq
          rw [IpField.text_strncpy] at heq
          split at heq
          · simp at heq
          · rename_i hfull
            refine hterm ?_
            by_cases h15 : key.text.length = 15
            · exact .inr fun f hf => by
                rw [← Option.some.inj hf]
                exact of_not_not fun h0 => hfull ⟨h15, h0⟩
            · exact .inl (by have := key.length_le; omega)
        simp [hne, hrest, hterm]

/-- A search returns the record under the client's name. -/
lemma Searched.record_eq {key : ClientIp} {mem : Option IpField} {s s' : Records α}
    {record : Option ℕ} (h : Searched ip key mem s s' record) {addr : ℕ}
    (hnamed : s.named ip key = some addr) : record = some addr := by
  cases h with
  | found h _ _ => rw [← h, hnamed]
  | created _ h _ _ => simp [hnamed] at h
  | failed _ h _ _ => simp [hnamed] at h

/-- Without memory for a new record, what a search returns was there. -/
lemma Searched.named_of_no_mem {key : ClientIp} {s s' : Records α} {addr : ℕ}
    (h : Searched ip key none s s' (some addr)) : s.named ip key = some addr := by
  cases h with
  | found h _ _ => exact h
  | created hmem _ _ _ => simp at hmem

/-! ### What the steps of a run do to a list -/

/-- The search of a call in one of the lists, if it makes one. -/
abbrev Search := Option (ClientIp × Option IpField)

/-- What a step does to a list: a search of its own, or the freeing of some
records. A call that does not come to its search returns no record. -/
inductive Evolves (ip : α → IpField) (search : Search) (s s' : Records α)
    (record : Option ℕ) : Prop
  | searched {key : ClientIp} {mem : Option IpField} (hsearch : search = some (key, mem))
      (h : Searched ip key mem s s' record)
  | kept (hnames : List.Sublist (s'.names ip) (s.names ip)) (hfresh : s'.fresh = s.fresh)
      (hrecord : search ≠ none → record = none)

/-- The record at an address is the one found for a client as long as it exists. -/
def Settled (ip : α → IpField) (key : ClientIp) (addr : ℕ) (s : Records α) : Prop :=
  addr < s.fresh ∧ (addr ∈ (s.names ip).map Prod.fst → s.named ip key = some addr)

/-- The first record that satisfies `p` stays the first as long as it stays. -/
lemma find?_sublist {β : Type*} {p : β → Bool} {l l' : List β} {x : β} (hl : List.Sublist l' l)
    (hnodup : l.Nodup) (hfind : l.find? p = some x) (hx : x ∈ l') : l'.find? p = some x := by
  induction hl with
  | slnil => simp at hx
  | @cons l₁ l₂ a hsub ih =>
      rw [List.nodup_cons] at hnodup
      rw [List.find?_cons] at hfind
      split at hfind
      · rw [Option.some.inj hfind] at hnodup
        exact absurd (hsub.subset hx) hnodup.1
      · exact ih hnodup.2 hfind hx
  | @cons_cons l₁ l₂ a hsub ih =>
      rw [List.nodup_cons] at hnodup
      rw [List.find?_cons] at hfind ⊢
      split at hfind
      · exact hfind
      · rcases List.mem_cons.mp hx with rfl | hx
        · rename_i hp
          rw [List.find?_some hfind] at hp
          simp at hp
        · exact ih hnodup.2 hfind hx

lemma Settled.evolves {search : Search} {s s' : Records α} {record : Option ℕ} {key : ClientIp}
    {addr : ℕ} (h : Settled ip key addr s) (hstep : Evolves ip search s s' record) :
    Settled ip key addr s' := by
  cases hstep with
  | kept hnames hfresh _ =>
      refine ⟨hfresh ▸ h.1, ?_⟩
      intro hmem
      have hnamed := h.2 ((hnames.map Prod.fst).subset hmem)
      obtain ⟨n, hn, rfl⟩ := List.mem_map.mp hmem
      obtain ⟨m, hm, hmaddr⟩ := Option.map_eq_some_iff.mp hnamed
      have hmn : m = n := List.inj_on_of_nodup_map s.nodup_names (List.mem_of_find?_eq_some hm)
        (hnames.subset hn) hmaddr
      subst hmn
      rw [Records.named, find?_sublist hnames (s.nodup_names.of_map _) hm hn, Option.map_some]
  | @searched key' mem hsearch hs =>
      cases hs with
      | found _ hnames hfresh =>
          rw [Settled, Records.named, hnames, hfresh]
          exact h
      | failed _ _ hnames hfresh =>
          rw [Settled, Records.named, hnames, hfresh]
          exact h
      | @created field _ hnamed hnames hfresh =>
          refine ⟨by rw [hfresh]; exact Nat.lt_succ_of_lt h.1, ?_⟩
          intro hmem
          rw [hnames, List.map_cons, List.mem_cons] at hmem
          have hold := h.2 (hmem.resolve_left fun heq => absurd h.1 (by omega))
          have hne : (field.strncpy key').text ≠ key.text := by
            intro heq
            obtain ⟨m, hm, _⟩ := Option.map_eq_some_iff.mp hold
            have htext : m.2 = key.text := by simpa using List.find?_some hm
            exact Records.named_eq_none.mp hnamed m (List.mem_of_find?_eq_some hm)
              (htext.trans (IpField.eq_of_text_strncpy heq).symm)
          rw [Records.named, hnames, List.find?_cons_of_neg (by simpa using hne)]
          exact hold

/-- A search of this kind settles its client's record. -/
def Settles (ip : α → IpField) (s : Records α) (search : Search) : Prop :=
  ∀ key mem, search = some (key, mem) → s.named ip key ≠ none ∨ Terminates mem key

/-- One record for each client, after searches that returned these records: no two
records read the same, and a record that was returned for a client reads as it. -/
structure OneEach (ip : α → IpField) (searches : List (Search × Option ℕ)) (s : Records α) :
    Prop where
  nodup : ((s.names ip).map Prod.snd).Nodup
  returned : ∀ key mem addr, (some (key, mem), some addr) ∈ searches →
    addr < s.fresh ∧ ∀ n ∈ s.names ip, n.1 = addr → n.2 = key.text

lemma Records.lt_fresh_of_mem_names {s : Records α} {n : ℕ × Bytes} (h : n ∈ s.names ip) :
    n.1 < s.fresh := by
  obtain ⟨r, hr, rfl⟩ := List.mem_map.mp h
  exact s.lt_fresh r hr

/-- The record that was found reads as the client. -/
lemma Records.text_of_named {s : Records α} {key : ClientIp} {addr : ℕ}
    (h : s.named ip key = some addr) {n : ℕ × Bytes} (hn : n ∈ s.names ip) (haddr : n.1 = addr) :
    n.2 = key.text := by
  obtain ⟨m, hm, hmaddr⟩ := Option.map_eq_some_iff.mp h
  have hmn : m = n := List.inj_on_of_nodup_map s.nodup_names (List.mem_of_find?_eq_some hm) hn
    (hmaddr.trans haddr.symm)
  rw [← hmn]
  simpa using List.find?_some hm

section OneEach

variable {search : Search} {s s' : Records α} {record : Option ℕ}
  {searches : List (Search × Option ℕ)}

/-- What was returned in the end was returned before, or by the last search. -/
lemma mem_snoc_search {key : ClientIp} {mem : Option IpField} {addr : ℕ}
    (hin : (some (key, mem), some addr) ∈ searches ++ [(search, record)]) :
    (some (key, mem), some addr) ∈ searches ∨ search = some (key, mem) ∧ record = some addr := by
  rcases List.mem_append.mp hin with hin | hin
  · exact .inl hin
  · rw [List.mem_singleton, Prod.mk.injEq] at hin
    exact .inr ⟨hin.1.symm, hin.2.symm⟩

/-- Where no record is new, the one that is returned has to read as its client. -/
lemma OneEach.of_sublist (h : OneEach ip searches s)
    (hnames : List.Sublist (s'.names ip) (s.names ip)) (hfresh : s'.fresh = s.fresh)
    (hrecord : ∀ key mem addr, search = some (key, mem) → record = some addr →
      addr < s.fresh ∧ ∀ n ∈ s.names ip, n.1 = addr → n.2 = key.text) :
    OneEach ip (searches ++ [(search, record)]) s' := by
  refine ⟨h.nodup.sublist (hnames.map _), fun key mem addr hin => ?_⟩
  rw [hfresh]
  rcases mem_snoc_search hin with hin | ⟨hs, hr⟩
  · obtain ⟨hlt, hread⟩ := h.returned key mem addr hin
    exact ⟨hlt, fun n hn => hread n (hnames.subset hn)⟩
  · obtain ⟨hlt, hread⟩ := hrecord key mem addr hs hr
    exact ⟨hlt, fun n hn => hread n (hnames.subset hn)⟩

/-- A new record reads as its client, of which there was none. -/
lemma OneEach.of_created {key : ClientIp} {mem : Option IpField} (h : OneEach ip searches s)
    (hsearch : search = some (key, mem)) (hnamed : s.named ip key = none)
    (hnames : s'.names ip = (s.fresh, key.text) :: s.names ip) (hfresh : s'.fresh = s.fresh + 1) :
    OneEach ip (searches ++ [(search, some s.fresh)]) s' := by
  refine ⟨?_, fun key' mem' addr hin => ?_⟩
  · rw [hnames, List.map_cons, List.nodup_cons]
    refine ⟨fun hdup => ?_, h.nodup⟩
    obtain ⟨n, hn, htext⟩ := List.mem_map.mp hdup
    exact Records.named_eq_none.mp hnamed n hn htext
  · rw [hnames, hfresh]
    rcases mem_snoc_search hin with hin | ⟨hs, hr⟩
    · obtain ⟨hlt, hread⟩ := h.returned key' mem' addr hin
      refine ⟨Nat.lt_succ_of_lt hlt, fun n hn haddr => ?_⟩
      rcases List.mem_cons.mp hn with rfl | hn
      · exact absurd haddr (Nat.ne_of_gt hlt)
      · exact hread n hn haddr
    · rw [hsearch] at hs
      cases hs
      cases hr
      refine ⟨Nat.lt_succ_self _, fun n hn haddr => ?_⟩
      rcases List.mem_cons.mp hn with rfl | hn
      · rfl
      · exact absurd haddr (Nat.ne_of_lt (Records.lt_fresh_of_mem_names hn))

lemma OneEach.evolves (h : OneEach ip searches s) (hstep : Evolves ip search s s' record)
    (hsettles : Settles ip s search) : OneEach ip (searches ++ [(search, record)]) s' := by
  cases hstep with
  | kept hnames hfresh hrecord =>
      refine h.of_sublist hnames hfresh fun key mem addr hs hr => ?_
      rw [hrecord (by simp [hs])] at hr
      cases hr
  | @searched key' mem' hsearch hs =>
      cases hs with
      | @found addr' hnamed hnames hfresh =>
          refine h.of_sublist (hnames ▸ List.Sublist.refl _) hfresh fun key mem addr hs hr => ?_
          rw [hsearch] at hs
          cases hs
          cases hr
          obtain ⟨m, hm, hmaddr⟩ := Option.map_eq_some_iff.mp hnamed
          exact ⟨hmaddr ▸ Records.lt_fresh_of_mem_names (List.mem_of_find?_eq_some hm),
            fun n hn => Records.text_of_named hnamed hn⟩
      | @created field hmem hnamed hnames hfresh =>
          have hterm : Terminates (some field) key' :=
            hmem ▸ (hsettles key' mem' hsearch).resolve_left (not_not.mpr hnamed)
          rw [hterm.text_strncpy] at hnames
          exact h.of_created hsearch hnamed hnames hfresh
      | failed _ _ hnames hfresh =>
          refine h.of_sublist (hnames ▸ List.Sublist.refl _) hfresh fun key mem addr _ hr => ?_
          cases hr

end OneEach

end Searched

/-! ### The steps -/

/-- The search of a call in the list of limiters. -/
def RateCall.limiterSearch : RateCall → Search
  | .checkRequest ip mem _ _ => some (ip, mem)
  | _ => none

/-- The search of a call in the list of trackers. -/
def RateCall.trackerSearch : RateCall → Search
  | .checkBandwidth ip _ _ mem _ _ => some (ip, mem)
  | .updateBandwidth ip _ _ mem _ => some (ip, mem)
  | _ => none

lemma BandwidthTracker.ip_count (tracker : BandwidthTracker) (bytes : ℕ) (direction : ℤ) :
    (tracker.count bytes direction).ip = tracker.ip := by
  rw [count]
  split <;> rfl

lemma refillTokens_ip (now : ℤ) (limiter : RateLimiter) :
    (refillTokens now limiter).ip = limiter.ip := by
  rw [refillTokens]
  simp only
  split <;> rfl

lemma getRateLimiter_searched (config : RateConfig) (mem : Option IpField) (created : ℤ)
    (ip : ClientIp) (s : Records RateLimiter) :
    Searched RateLimiter.ip ip mem s (getRateLimiter config mem created ip s).2
        ((getRateLimiter config mem created ip s).1.map Prod.fst) ∧
      ∀ r, (getRateLimiter config mem created ip s).1 = some r →
        r ∈ (getRateLimiter config mem created ip s).2.nodes :=
  getOrCreate_searched (fun _ => rfl) (fun _ => rfl) mem ip s

lemma getBandwidthTracker_searched (mem : Option IpField) (now : ℤ) (ip : ClientIp)
    (s : Records BandwidthTracker) :
    Searched BandwidthTracker.ip ip mem s (getBandwidthTracker mem now ip s).2
        ((getBandwidthTracker mem now ip s).1.map Prod.fst) ∧
      ∀ r, (getBandwidthTracker mem now ip s).1 = some r →
        r ∈ (getBandwidthTracker mem now ip s).2.nodes := by
  refine getOrCreate_searched (fun tracker => ?_) (fun _ => rfl) mem ip s
  simp only
  split <;> rfl

/-- A list that a call does not search. -/
lemma Evolves.refl {α : Type*} {ip : α → IpField} (s : Records α) (record : Option ℕ) :
    Evolves ip none s s record := .kept (List.Sublist.refl _) rfl fun h => absurd rfl h

/-- A call that does not come to its search. -/
lemma Evolves.skip {α : Type*} {ip : α → IpField} (search : Search) (s : Records α) :
    Evolves ip search s s none := .kept (List.Sublist.refl _) rfl fun _ => rfl

lemma ratelimitCheckRequest_evolves (config : RateConfig) (mem : Option IpField)
    (created now : ℤ) (ip : ClientIp) (s : RateState) :
    Evolves RateLimiter.ip (some (ip, mem)) s.limiters
      (ratelimitCheckRequest config mem created now ip s).2.limiters
      (ratelimitCheckRequest config mem created now ip s).1.record := by
  obtain ⟨hs, hmem⟩ := getRateLimiter_searched config mem created ip s.limiters
  rw [ratelimitCheckRequest]
  split
  · exact .skip _ _
  split
  · rename_i limiters hget
    rw [hget] at hs
    exact .searched rfl hs
  · rename_i addr limiter limiters hget
    rw [hget] at hs hmem
    simp only
    split
    · exact .searched rfl (hs.store (hmem _ rfl) (refillTokens_ip now limiter))
    · exact .searched rfl (hs.store (hmem _ rfl) (refillTokens_ip now limiter))

lemma ratelimitCheckBandwidth_evolves (config : RateConfig) (mem : Option IpField)
    (found now : ℤ) (ip : ClientIp) (bytes : ℕ) (direction : ℤ) (s : RateState) :
    Evolves BandwidthTracker.ip (some (ip, mem)) s.trackers
      (ratelimitCheckBandwidth config mem found now ip bytes direction s).2.trackers
      (ratelimitCheckBandwidth config mem found now ip bytes direction s).1.record := by
  obtain ⟨hs, hmem⟩ := getBandwidthTracker_searched mem found ip s.trackers
  rw [ratelimitCheckBandwidth]
  split
  · exact .skip _ _
  split
  · rename_i trackers hget
    rw [hget] at hs
    exact .searched rfl hs
  · rename_i addr tracker trackers hget
    rw [hget] at hs hmem
    split
    · exact .searched rfl hs
    · exact .searched rfl (hs.store (hmem _ rfl) (tracker.ip_count bytes direction))

lemma ratelimitUpdateBandwidth_evolves (config : RateConfig) (mem : Option IpField)
    (now : ℤ) (ip : ClientIp) (bytes : ℕ) (direction : ℤ) (s : RateState) :
    Evolves BandwidthTracker.ip (some (ip, mem)) s.trackers
      (ratelimitUpdateBandwidth config mem now ip bytes direction s).2.trackers
      (ratelimitUpdateBandwidth config mem now ip bytes direction s).1.record := by
  obtain ⟨hs, hmem⟩ := getBandwidthTracker_searched mem now ip s.trackers
  rw [ratelimitUpdateBandwidth]
  split
  · exact .skip _ _
  split
  · rename_i trackers hget
    rw [hget] at hs
    exact .searched rfl hs
  · rename_i addr tracker trackers hget
    rw [hget] at hs hmem
    exact .searched rfl (hs.store (hmem _ rfl) (tracker.ip_count bytes direction))

/-- **What a step does to the limiters.** -/
lemma rateStep_limiters_evolve {config : RateConfig} {s s' : RateState} {call : RateCall}
    {answer : RateAnswer} (hstep : rateStep config s call = some (answer, s')) :
    Evolves RateLimiter.ip call.limiterSearch s.limiters s'.limiters answer.record := by
  cases call with
  | checkRequest ip mem created now =>
      rw [rateStep, Option.some.injEq] at hstep
      have h := ratelimitCheckRequest_evolves config mem created now ip s
      rwa [hstep] at h
  | checkBandwidth ip bytes direction mem found now =>
      rw [rateStep, Option.some.injEq] at hstep
      have h := ratelimitCheckBandwidth_limiters config mem found now ip bytes direction s
      rw [hstep] at h
      exact h ▸ .refl _ _
  | updateBandwidth ip bytes direction mem now =>
      rw [rateStep, Option.some.injEq] at hstep
      have h := ratelimitUpdateBandwidth_limiters config mem now ip bytes direction s
      rw [hstep] at h
      exact h ▸ .refl _ _
  | cleanupOldEntries now =>
      rw [rateStep, Option.some.injEq, Prod.mk.injEq] at hstep
      rw [← hstep.2]
      exact .refl _ _

/-- **What a step does to the trackers.** -/
lemma rateStep_trackers_evolve {config : RateConfig} {s s' : RateState} {call : RateCall}
    {answer : RateAnswer} (hstep : rateStep config s call = some (answer, s')) :
    Evolves BandwidthTracker.ip call.trackerSearch s.trackers s'.trackers answer.record := by
  cases call with
  | checkRequest ip mem created now =>
      rw [rateStep, Option.some.injEq] at hstep
      have h := ratelimitCheckRequest_trackers config mem created now ip s
      rw [hstep] at h
      exact h ▸ .refl _ _
  | checkBandwidth ip bytes direction mem found now =>
      rw [rateStep, Option.some.injEq] at hstep
      have h := ratelimitCheckBandwidth_evolves config mem found now ip bytes direction s
      rwa [hstep] at h
  | updateBandwidth ip bytes direction mem now =>
      rw [rateStep, Option.some.injEq] at hstep
      have h := ratelimitUpdateBandwidth_evolves config mem now ip bytes direction s
      rwa [hstep] at h
  | cleanupOldEntries now =>
      rw [rateStep, Option.some.injEq, Prod.mk.injEq] at hstep
      rw [← hstep.2]
      exact .kept (List.filter_sublist.map _) rfl fun h => absurd rfl h

/-! ### Runs -/

/-- In every run from here, as long as the limiter at the address exists, a search
for the client returns it. -/
def SharedLimiter (config : RateConfig) (ip : ClientIp) (addr : ℕ) (s : RateState) : Prop :=
  ∀ calls log s', exec (rateStep config) s calls = some (log, s') →
    addr ∈ s'.limiters.nodes.map Prod.fst → ∀ mem created,
      (getRateLimiter config mem created ip s'.limiters).1.map Prod.fst = some addr

/-- In every run from here, as long as the tracker at the address exists, a search
for the client returns it. -/
def SharedTracker (config : RateConfig) (ip : ClientIp) (addr : ℕ) (s : RateState) : Prop :=
  ∀ calls log s', exec (rateStep config) s calls = some (log, s') →
    addr ∈ s'.trackers.nodes.map Prod.fst → ∀ mem now,
      (getBandwidthTracker mem now ip s'.trackers).1.map Prod.fst = some addr

/-- One limiter and one tracker for each client after a run. -/
def OneRecord (log : List (RateCall × RateAnswer)) (s : RateState) : Prop :=
  OneEach RateLimiter.ip (log.map fun e => (e.1.limiterSearch, e.2.record)) s.limiters ∧
    OneEach BandwidthTracker.ip (log.map fun e => (e.1.trackerSearch, e.2.record)) s.trackers

/-- The condition on one call of a run: its search finds a record or terminates
the new one. -/
def CallSettles (s : RateState) (call : RateCall) : Prop :=
  Settles RateLimiter.ip s.limiters call.limiterSearch ∧
    Settles BandwidthTracker.ip s.trackers call.trackerSearch

lemma OneRecord.snoc {config : RateConfig} {log : List (RateCall × RateAnswer)} {s s' : RateState}
    {call : RateCall} {answer : RateAnswer} (h : OneRecord log s)
    (hstep : rateStep config s call = some (answer, s')) (hsettles : CallSettles s call) :
    OneRecord (log ++ [(call, answer)]) s' := by
  rw [OneRecord]
  simp only [List.map_append, List.map_singleton]
  exact ⟨h.1.evolves (rateStep_limiters_evolve hstep) hsettles.1,
    h.2.evolves (rateStep_trackers_evolve hstep) hsettles.2⟩

lemma oneRecord_run {config : RateConfig} {calls : List RateCall}
    {log : List (RateCall × RateAnswer)} {s : RateState}
    (hrun : exec (rateStep config) ratelimitInit calls = some (log, s))
    (hsettles : ∀ pre call, pre ++ [call] <+: calls →
      ∀ t, Reach (rateStep config) ratelimitInit pre t → CallSettles t call) :
    OneRecord log s := by
  have hempty : OneRecord [] ratelimitInit :=
    ⟨⟨List.nodup_nil, fun _ _ _ h => absurd h List.not_mem_nil⟩,
      ⟨List.nodup_nil, fun _ _ _ h => absurd h List.not_mem_nil⟩⟩
  obtain ⟨log', s', hex, hone, _⟩ := exec_invariant (rateStep config) ratelimitInit
    (P := fun log s => OneRecord log s ∧
      exec (rateStep config) ratelimitInit (log.map Prod.fst) = some (log, s))
    calls ⟨hempty, rfl⟩ fun log s call hpre ⟨hone, hex⟩ => by
      obtain ⟨⟨answer, s'⟩, hstep⟩ : ∃ r, rateStep config s call = some r := by
        cases call <;> exact ⟨_, rfl⟩
      refine ⟨answer, s', hstep, hone.snoc hstep (hsettles _ call hpre s ⟨log, hex⟩), ?_⟩
      rw [List.map_append, List.map_singleton, exec_snoc _ hex, hstep]
      rfl
  rw [hrun, Option.some.injEq, Prod.mk.injEq] at hex
  rw [hex.1, hex.2]
  exact hone

/-- **One record per client.** A search that returns a record settles it for every
later search of the client just when it finds the record, or the memory of a new
one leaves the field terminated; and a run in which every search does so has one
record for each client. -/
theorem one_record_iff (config : RateConfig) :
    (∀ (s : RateState) ip mem created addr l limiters,
      getRateLimiter config mem created ip s.limiters = (some (addr, l), limiters) →
        (SharedLimiter config ip addr { s with limiters } ↔
          s.limiters.named RateLimiter.ip ip ≠ none ∨ Terminates mem ip)) ∧
    (∀ (s : RateState) ip mem now addr l trackers,
      getBandwidthTracker mem now ip s.trackers = (some (addr, l), trackers) →
        (SharedTracker config ip addr { s with trackers } ↔
          s.trackers.named BandwidthTracker.ip ip ≠ none ∨ Terminates mem ip)) ∧
    ∀ calls log s, exec (rateStep config) ratelimitInit calls = some (log, s) →
      (∀ pre call, pre ++ [call] <+: calls →
        ∀ t, Reach (rateStep config) ratelimitInit pre t → CallSettles t call) →
      OneRecord log s := by
  refine ⟨fun s ip mem created addr l limiters hget => ?_,
    fun s ip mem now addr l trackers hget => ?_, fun calls log s hrun hsettles => ?_⟩
  -- the limiters
  · obtain ⟨hs, hmem⟩ := getRateLimiter_searched config mem created ip s.limiters
    rw [hget] at hs hmem
    have hin : (addr, l) ∈ limiters.nodes := hmem _ rfl
    rw [← hs.named_iff]
    constructor
    · intro hshared
      have hagain := hshared [] [] _ rfl (List.mem_map_of_mem hin) none 0
      have hsearch := (getRateLimiter_searched config none 0 ip limiters).1
      rw [hagain] at hsearch
      exact hsearch.named_of_no_mem
    · intro hnamed calls log s' hrun hpresent mem' created'
      have hsettled : Settled RateLimiter.ip ip addr s'.limiters :=
        exec_preserves (P := fun t => Settled RateLimiter.ip ip addr t.limiters) _
          (fun _ _ _ _ hstep h => h.evolves (rateStep_limiters_evolve hstep)) hrun
          ⟨limiters.lt_fresh _ hin, fun _ => hnamed⟩
      refine (getRateLimiter_searched config mem' created' ip s'.limiters).1.record_eq
        (hsettled.2 ?_)
      rwa [Records.names, List.map_map]
  -- the trackers, in the same way
  · obtain ⟨hs, hmem⟩ := getBandwidthTracker_searched mem now ip s.trackers
    rw [hget] at hs hmem
    have hin : (addr, l) ∈ trackers.nodes := hmem _ rfl
    rw [← hs.named_iff]
    constructor
    · intro hshared
      have hagain := hshared [] [] _ rfl (List.mem_map_of_mem hin) none 0
      have hsearch := (getBandwidthTracker_searched none 0 ip trackers).1
      rw [hagain] at hsearch
      exact hsearch.named_of_no_mem
    · intro hnamed calls log s' hrun hpresent mem' now'
      have hsettled : Settled BandwidthTracker.ip ip addr s'.trackers :=
        exec_preserves (P := fun t => Settled BandwidthTracker.ip ip addr t.trackers) _
          (fun _ _ _ _ hstep h => h.evolves (rateStep_trackers_evolve hstep)) hrun
          ⟨trackers.lt_fresh _ hin, fun _ => hnamed⟩
      refine (getBandwidthTracker_searched mem' now' ip s'.trackers).1.record_eq (hsettled.2 ?_)
      rwa [Records.names, List.map_map]
  · exact oneRecord_run hrun hsettles

/-- A client whose address has fifteen characters. -/
def longestIp : ClientIp := ⟨ascii "255.255.255.255", by decide +kernel, by decide +kernel⟩

/-- Two requests of this client, each with memory for a record that was used
before: each makes a record of its own. -/
theorem one_record_longestIp :
    (exec (rateStep ⟨1, 1, 0⟩) ratelimitInit
      [.checkRequest longestIp (some ⟨List.replicate 16 1, rfl⟩) 0 0,
        .checkRequest longestIp (some ⟨List.replicate 16 1, rfl⟩) 0 0]).map
      (fun r => r.1.map Prod.snd) = some [⟨0, some 0⟩, ⟨0, some 1⟩] := by
  decide +kernel

end ProxyMax
