import ProxyMax.Filter.Lists

/-!
`filter_check_ip` of `src/filter/filter.c` on the lists that `filter_init` makes, with and
without failed allocations.

* `IpPattern`, `filtersOf`: the configured patterns and the lists made of them.
* `KeptMatch`: a pattern that got its memory matches; `checkPatternList_listOf` and
  `listOf_ne_nil_iff` say what the lists amount to, `filterCheckIp_iff` the check.
* `Permitted`: the decision on the configured lists.
* `failsClosed_iff`: what is blocked on the whole lists is blocked on the ones that lack
  some patterns, unless the whole whitelist is lost.
-/

namespace ProxyMax

open CString

/-- A configured pattern: a string of at most 254 characters. -/
structure IpPattern where
  text : Bytes
  length_le : text.length ≤ 254
  ne_zero : ∀ c ∈ text, c ≠ 0

/-- The lists of `filter_init`; `mems` gives the memory for each call of `add_pattern`, by
its number. -/
def filtersOf (blacklist whitelist : List IpPattern) (mems : ℕ → Option Bytes) : Filters :=
  filterInit (blacklist.map IpPattern.text) (whitelist.map IpPattern.text)
    ((List.range (defaultUrlBlacklist.length + blacklist.length + whitelist.length)).map mems)

/-- Some pattern got the memory for its record; the calls for the list begin with the
`k`-th. -/
def AnyKept (patterns : List IpPattern) (mems : ℕ → Option Bytes) (k : ℕ) : Prop :=
  ∃ i < patterns.length, (mems (k + i)).isSome = true

/-- Some pattern that got its memory matches the address. -/
def KeptMatch (patterns : List IpPattern) (mems : ℕ → Option Bytes) (k : ℕ) (ip : Bytes) : Prop :=
  ∃ (i : ℕ) (p : IpPattern), patterns[i]? = some p ∧ (mems (k + i)).isSome = true ∧
    InLanguage p.text ip

/-- The decision on whole lists. -/
def Permitted (blacklist whitelist : List IpPattern) (ip : Bytes) : Prop :=
  (whitelist ≠ [] ∧ ∃ p ∈ whitelist, InLanguage p.text ip) ∨
    (whitelist = [] ∧ ∀ p ∈ blacklist, ¬ InLanguage p.text ip)

/-- **Filtering fails closed**, for an address: on the whole lists the decision is as
configured, and what it blocks is blocked on the lists that the memory allows. -/
def FailsClosed (blacklist whitelist : List IpPattern) (fill : ℕ → Bytes)
    (mems : ℕ → Option Bytes) (ip : Bytes) : Prop :=
  (filterCheckIp (filtersOf blacklist whitelist fun i => some (fill i)) ip = 0 ↔
      Permitted blacklist whitelist ip) ∧
    (filterCheckIp (filtersOf blacklist whitelist fun i => some (fill i)) ip ≠ 0 →
      filterCheckIp (filtersOf blacklist whitelist mems) ip ≠ 0)

/-! ### The lists -/

/-- The nodes of a list are those whose allocation succeeded. -/
lemma mem_addPatterns {list : List PatternNode} {patterns : List (Bytes × Option Bytes)}
    {node : PatternNode} :
    node ∈ addPatterns list patterns ↔ node ∈ list ∨
      ∃ text mem, (text, some mem) ∈ patterns ∧ node = ⟨strncpy text 255 ++ mem.drop 255⟩ := by
  induction patterns generalizing list with
  | nil => simp [addPatterns]
  | cons p patterns ih =>
      obtain ⟨text, mem⟩ := p
      have hcons : addPatterns list ((text, mem) :: patterns) =
          addPatterns (addPattern mem list text) patterns := rfl
      rw [hcons, ih]
      cases mem with
      | none => simp [addPattern]
      | some mem =>
          rw [addPattern, List.mem_cons]
          constructor
          · rintro ((rfl | h) | ⟨text', mem', hmem, hnode⟩)
            · exact .inr ⟨text, mem, List.mem_cons_self, rfl⟩
            · exact .inl h
            · exact .inr ⟨text', mem', List.mem_cons_of_mem _ hmem, hnode⟩
          · rintro (h | ⟨text', mem', hmem, hnode⟩)
            · exact .inl (.inr h)
            · rcases List.mem_cons.mp hmem with heq | hmem
              · obtain ⟨rfl, hm⟩ := Prod.mk.inj heq
                obtain rfl := Option.some.inj hm
                exact .inl (.inl hnode)
              · exact .inr ⟨text', mem', hmem, hnode⟩

/-- The list of some of the patterns: the calls for it are those from the `k`-th on, of `n`. -/
def listOf (patterns : List IpPattern) (mems : ℕ → Option Bytes) (n k : ℕ) : List PatternNode :=
  addPatterns [] ((patterns.map IpPattern.text).zip (((List.range n).map mems).drop k))

section Lists

variable {patterns : List IpPattern} {mems : ℕ → Option Bytes} {n k : ℕ}

/-- Which patterns got which memory. -/
lemma mem_zip_mems (hn : k + patterns.length ≤ n) {text mem : Bytes} :
    (text, some mem) ∈
        (patterns.map IpPattern.text).zip (((List.range n).map mems).drop k) ↔
      ∃ (i : ℕ) (p : IpPattern), patterns[i]? = some p ∧ p.text = text ∧
        mems (k + i) = some mem := by
  rw [List.mem_iff_getElem?]
  refine exists_congr fun i => ?_
  rw [List.getElem?_zip_eq_some, List.getElem?_map, Option.map_eq_some_iff, List.getElem?_drop,
    List.getElem?_map]
  constructor
  · rintro ⟨⟨p, hp, htext⟩, hmem⟩
    have hlt : k + i < n := by
      have := (List.getElem?_eq_some_iff.mp hp).1
      omega
    rw [List.getElem?_range hlt, Option.map_some, Option.some.injEq] at hmem
    exact ⟨p, hp, htext, hmem⟩
  · rintro ⟨p, hp, htext, hmem⟩
    have hlt : k + i < n := by
      have := (List.getElem?_eq_some_iff.mp hp).1
      omega
    rw [List.getElem?_range hlt, Option.map_some, hmem]
    exact ⟨⟨p, hp, htext⟩, rfl⟩

/-- A list matches by a pattern that it kept, which is stored as it is. -/
lemma checkPatternList_listOf (hn : k + patterns.length ≤ n) (ip : Bytes) :
    checkPatternList (listOf patterns mems n k) ip = true ↔ KeptMatch patterns mems k ip := by
  have hstored : ∀ (p : IpPattern) (mem : Bytes),
      cstr (strncpy p.text 255 ++ mem.drop 255) = p.text := fun p mem =>
    cstr_strncpy p.ne_zero (by have := p.length_le; omega) (mem.drop 255)
  rw [checkPatternList, List.any_eq_true]
  constructor
  · rintro ⟨node, hnode, hmatch⟩
    obtain ⟨text, mem, hzip, rfl⟩ := (mem_addPatterns.mp hnode).resolve_left List.not_mem_nil
    obtain ⟨i, p, hp, rfl, hmem⟩ := (mem_zip_mems hn).mp hzip
    rw [hstored, patternMatch_iff] at hmatch
    exact ⟨i, p, hp, by rw [hmem]; rfl, hmatch⟩
  · rintro ⟨i, p, hp, hsome, hmatch⟩
    obtain ⟨mem, hmem⟩ := Option.isSome_iff_exists.mp hsome
    refine ⟨_, mem_addPatterns.mpr (.inr ⟨p.text, mem, ?_, rfl⟩), ?_⟩
    · exact (mem_zip_mems hn).mpr ⟨i, p, hp, rfl, hmem⟩
    · rw [hstored, patternMatch_iff]
      exact hmatch

lemma listOf_ne_nil_iff (hn : k + patterns.length ≤ n) :
    listOf patterns mems n k ≠ [] ↔ AnyKept patterns mems k := by
  constructor
  · intro hne
    obtain ⟨node, hnode⟩ := List.exists_mem_of_ne_nil _ hne
    obtain ⟨text, mem, hzip, -⟩ := (mem_addPatterns.mp hnode).resolve_left List.not_mem_nil
    obtain ⟨i, p, hp, -, hmem⟩ := (mem_zip_mems hn).mp hzip
    exact ⟨i, (List.getElem?_eq_some_iff.mp hp).1, by rw [hmem]; rfl⟩
  · rintro ⟨i, hi, hsome⟩
    obtain ⟨mem, hmem⟩ := Option.isSome_iff_exists.mp hsome
    exact List.ne_nil_of_mem (mem_addPatterns.mpr (.inr ⟨patterns[i].text, mem,
      (mem_zip_mems hn).mpr ⟨i, _, List.getElem?_eq_getElem hi, rfl, hmem⟩, rfl⟩))

end Lists

section Check

variable {blacklist whitelist : List IpPattern} {mems : ℕ → Option Bytes} {ip : Bytes}

lemma filtersOf_ipBlacklist :
    (filtersOf blacklist whitelist mems).ipBlacklist = listOf blacklist mems
      (defaultUrlBlacklist.length + blacklist.length + whitelist.length)
      defaultUrlBlacklist.length := rfl

lemma filtersOf_ipWhitelist :
    (filtersOf blacklist whitelist mems).ipWhitelist = listOf whitelist mems
      (defaultUrlBlacklist.length + blacklist.length + whitelist.length)
      (defaultUrlBlacklist.length + blacklist.length) := by
  rw [filtersOf, filterInit, listOf]
  simp only [List.length_map, List.drop_drop]

/-- A list that matches is not empty. -/
lemma KeptMatch.anyKept {patterns : List IpPattern} {k : ℕ} (h : KeptMatch patterns mems k ip) :
    AnyKept patterns mems k := by
  obtain ⟨i, p, hp, hsome, -⟩ := h
  exact ⟨i, (List.getElem?_eq_some_iff.mp hp).1, hsome⟩

/-- **The check**, by what the lists kept. -/
lemma filterCheckIp_iff :
    filterCheckIp (filtersOf blacklist whitelist mems) ip = 0 ↔
      (AnyKept whitelist mems (defaultUrlBlacklist.length + blacklist.length) ∧
        KeptMatch whitelist mems (defaultUrlBlacklist.length + blacklist.length) ip) ∨
      (¬ AnyKept whitelist mems (defaultUrlBlacklist.length + blacklist.length) ∧
        ¬ KeptMatch blacklist mems defaultUrlBlacklist.length ip) := by
  have hwhite : defaultUrlBlacklist.length + blacklist.length + whitelist.length ≤
      defaultUrlBlacklist.length + blacklist.length + whitelist.length := le_rfl
  have hblack : defaultUrlBlacklist.length + blacklist.length ≤
      defaultUrlBlacklist.length + blacklist.length + whitelist.length := Nat.le_add_right _ _
  rw [filterCheckIp, filtersOf_ipWhitelist, filtersOf_ipBlacklist, ← listOf_ne_nil_iff hwhite,
    ← checkPatternList_listOf hwhite, ← checkPatternList_listOf hblack]
  by_cases hkept : listOf whitelist mems
      (defaultUrlBlacklist.length + blacklist.length + whitelist.length)
      (defaultUrlBlacklist.length + blacklist.length) = []
  · rw [if_neg (not_not.mpr hkept)]
    by_cases hmatch : checkPatternList (listOf blacklist mems
        (defaultUrlBlacklist.length + blacklist.length + whitelist.length)
        defaultUrlBlacklist.length) ip = true
    · have hne : listOf blacklist mems
          (defaultUrlBlacklist.length + blacklist.length + whitelist.length)
          defaultUrlBlacklist.length ≠ [] :=
        (listOf_ne_nil_iff hblack).mpr ((checkPatternList_listOf hblack ip).mp hmatch).anyKept
      simp [hkept, hmatch, hne]
    · simp [hkept, hmatch]
  · rw [if_pos hkept]
    by_cases hmatch : checkPatternList (listOf whitelist mems
        (defaultUrlBlacklist.length + blacklist.length + whitelist.length)
        (defaultUrlBlacklist.length + blacklist.length)) ip = true
    · simp [hkept, hmatch]
    · simp [hkept, hmatch]

/-- Where all allocations succeed the whole lists are kept. -/
lemma anyKept_all {patterns : List IpPattern} {fill : ℕ → Bytes} {k : ℕ} :
    AnyKept patterns (fun i => some (fill i)) k ↔ patterns ≠ [] := by
  rw [← List.length_pos_iff]
  exact ⟨fun ⟨i, hi, _⟩ => by omega, fun h => ⟨0, h, rfl⟩⟩

lemma keptMatch_all {patterns : List IpPattern} {fill : ℕ → Bytes} {k : ℕ} :
    KeptMatch patterns (fun i => some (fill i)) k ip ↔ ∃ p ∈ patterns, InLanguage p.text ip := by
  constructor
  · rintro ⟨i, p, hp, -, hmatch⟩
    exact ⟨p, List.mem_of_getElem? hp, hmatch⟩
  · rintro ⟨p, hp, hmatch⟩
    obtain ⟨i, hi⟩ := List.mem_iff_getElem?.mp hp
    exact ⟨i, p, hi, rfl, hmatch⟩

/-- What a pattern of the whitelist matches is allowed. -/
lemma KeptMatch.allowed {k : ℕ} (h : KeptMatch whitelist mems k ip) :
    Permitted blacklist whitelist ip := by
  obtain ⟨i, p, hp, -, hmatch⟩ := h
  have hmem := List.mem_of_getElem? hp
  exact .inl ⟨List.ne_nil_of_mem hmem, p, hmem, hmatch⟩

/-- On whole lists the decision is as configured. -/
lemma filterCheckIp_all (fill : ℕ → Bytes) :
    filterCheckIp (filtersOf blacklist whitelist fun i => some (fill i)) ip = 0 ↔
      Permitted blacklist whitelist ip := by
  rw [filterCheckIp_iff, anyKept_all, keptMatch_all, keptMatch_all, Permitted, not_not]
  simp only [not_exists, not_and]

end Check

/-- **Filtering fails closed** exactly where the address is allowed by the whole lists, or
some pattern of the whitelist gets its memory, or one of the blacklist that matches does:
a whitelist that is lost as a whole is no whitelist. -/
theorem failsClosed_iff (blacklist whitelist : List IpPattern) (fill : ℕ → Bytes)
    (mems : ℕ → Option Bytes) (ip : Bytes) :
    FailsClosed blacklist whitelist fill mems ip ↔
      Permitted blacklist whitelist ip ∨
        AnyKept whitelist mems (defaultUrlBlacklist.length + blacklist.length) ∨
        KeptMatch blacklist mems defaultUrlBlacklist.length ip := by
  rw [FailsClosed, and_iff_right (filterCheckIp_all fill), Ne, Ne, filterCheckIp_all,
    filterCheckIp_iff]
  constructor
  · intro h
    by_contra hcon
    obtain ⟨hblocked, hnone, hmatch⟩ : ¬ Permitted blacklist whitelist ip ∧
        ¬ AnyKept whitelist mems (defaultUrlBlacklist.length + blacklist.length) ∧
        ¬ KeptMatch blacklist mems defaultUrlBlacklist.length ip := by
      simpa only [not_or] using hcon
    exact h hblocked (.inr ⟨hnone, hmatch⟩)
  · rintro hcond hblocked (⟨-, hwhite⟩ | ⟨hnone, hmiss⟩)
    · exact hblocked hwhite.allowed
    · rcases hcond with hallowed | hkept | hmatch
      · exact hblocked hallowed
      · exact hnone hkept
      · exact hmiss hmatch

lemma onlyClient_length_le : (ascii "10.0.0.1").length ≤ 254 := by decide +kernel

lemma onlyClient_ne_zero : ∀ c ∈ ascii "10.0.0.1", c ≠ 0 := by decide +kernel

/-- A whitelist of one address. -/
def onlyClient : IpPattern := ⟨ascii "10.0.0.1", onlyClient_length_le, onlyClient_ne_zero⟩

/-- The memory of the records; the fifth one, of the whitelist, gets none. -/
def blankRecord : Bytes := List.replicate 256 0

def lostWhitelist (i : ℕ) : Option Bytes := if i = 4 then none else some blankRecord

/-- Another address is blocked by the whitelist, and allowed when it is lost. -/
theorem lost_whitelist_allows :
    filterCheckIp (filtersOf [] [onlyClient] fun _ => some blankRecord) (ascii "192.168.0.9") =
        -1 ∧
      filterCheckIp (filtersOf [] [onlyClient] lostWhitelist) (ascii "192.168.0.9") = 0 ∧
      ¬ FailsClosed [] [onlyClient] (fun _ => blankRecord) lostWhitelist
        (ascii "192.168.0.9") := by
  have hwhole : filterCheckIp (filtersOf [] [onlyClient] fun _ => some blankRecord)
      (ascii "192.168.0.9") = -1 := by
    decide +kernel
  have hlost : filterCheckIp (filtersOf [] [onlyClient] lostWhitelist) (ascii "192.168.0.9") =
      0 := by
    decide +kernel
  exact ⟨hwhole, hlost, fun h => h.2 (by rw [hwhole]; decide) hlost⟩

end ProxyMax
