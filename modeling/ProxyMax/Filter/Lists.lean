import ProxyMax.Filter.Pattern

/-!
The access lists of `src/filter/filter.c`.

* `PatternNode`, `addPattern`, `checkPatternList`: the lists of patterns.
* `Filters`, `filterInit`: the four lists and how they are filled.
* `filterCheckUrl`, `filterCheckIp`: the two checks.
* `Starred`: patterns that match a text when they match a part of it, as those of
  `filter_init` are.
-/

namespace ProxyMax

open CString

/-- `pattern_node_t`, without its link: the memory of the array `pattern`. -/
structure PatternNode where
  pattern : Bytes
deriving DecidableEq, Repr

/-- `add_pattern`; `mem` is what the allocated memory holds in the array, or
`none` when the allocation fails. -/
def addPattern (mem : Option Bytes) (list : List PatternNode) (pattern : Bytes) :
    List PatternNode :=
  match mem with
  | none => list
  | some mem => ⟨strncpy pattern 255 ++ mem.drop 255⟩ :: list

/-- `check_pattern_list`. -/
def checkPatternList (list : List PatternNode) (str : Bytes) : Bool :=
  list.any fun node => patternMatch (cstr node.pattern) str

/-- The lists of the filter. -/
structure Filters where
  urlBlacklist : List PatternNode
  urlWhitelist : List PatternNode
  ipBlacklist : List PatternNode
  ipWhitelist : List PatternNode

/-- The patterns that `filter_init` puts on the URL blacklist, in order. -/
def defaultUrlBlacklist : List Bytes :=
  [ascii "*malware*", ascii "*phishing*", ascii "*tracking*", ascii "*.ads.*"]

/-- The calls of `add_pattern` for a list of patterns, each with its memory. -/
def addPatterns (list : List PatternNode) (patterns : List (Bytes × Option Bytes)) :
    List PatternNode :=
  patterns.foldl (fun list p => addPattern p.2 list p.1) list

/-- `filter_init` on empty lists; `mems` gives the memory for each call of
`add_pattern`, in order. -/
def filterInit (blacklistIps whitelistIps : List Bytes) (mems : List (Option Bytes)) : Filters :=
  let urls := defaultUrlBlacklist.zip mems
  let mems := mems.drop defaultUrlBlacklist.length
  { urlBlacklist := addPatterns [] urls
    urlWhitelist := []
    ipBlacklist := addPatterns [] (blacklistIps.zip mems)
    ipWhitelist := addPatterns [] (whitelistIps.zip (mems.drop blacklistIps.length)) }

/-- `filter_check_url`. -/
def filterCheckUrl (filters : Filters) (url : Bytes) : ℤ :=
  if filters.urlWhitelist ≠ [] ∧ checkPatternList filters.urlWhitelist url then 0
  else if filters.urlBlacklist ≠ [] ∧ checkPatternList filters.urlBlacklist url then -1
  else 0

/-- `filter_check_ip`. -/
def filterCheckIp (filters : Filters) (ip : Bytes) : ℤ :=
  if filters.ipWhitelist ≠ [] then
    if checkPatternList filters.ipWhitelist ip then 0 else -1
  else if filters.ipBlacklist ≠ [] ∧ checkPatternList filters.ipBlacklist ip then -1
  else 0

/-! ### The checks -/

/-- An allowed URL matches no pattern of the blacklist, when there is no whitelist. -/
lemma patternMatch_of_filterCheckUrl {filters : Filters} (hwhite : filters.urlWhitelist = [])
    {url : Bytes} (h : filterCheckUrl filters url = 0) :
    ∀ node ∈ filters.urlBlacklist, patternMatch (cstr node.pattern) url = false := by
  intro node hnode
  by_contra hmatch
  rw [Bool.not_eq_false] at hmatch
  have hlist : checkPatternList filters.urlBlacklist url = true :=
    List.any_eq_true.mpr ⟨node, hnode, hmatch⟩
  rw [filterCheckUrl, if_neg fun hw => hw.1 hwhite,
    if_pos ⟨List.ne_nil_of_mem hnode, hlist⟩] at h
  omega

/-- The pattern begins and ends with a star. -/
def Starred (pattern : Bytes) : Prop := pattern.head? = some 42 ∧ pattern.getLast? = some 42

instance (pattern : Bytes) : Decidable (Starred pattern) :=
  inferInstanceAs (Decidable (_ ∧ _))

/-- Such a pattern matches every text around one that it matches. -/
lemma Starred.patternMatch_isInfix {pattern s t : Bytes} (h : Starred pattern) (hst : s <:+: t)
    (hmatch : patternMatch pattern s = true) : patternMatch pattern t = true := by
  rw [patternMatch_iff] at hmatch ⊢
  obtain ⟨q, hq⟩ : ∃ q, pattern = 42 :: q := by
    rcases pattern with _ | ⟨c, q⟩
    · simp [Starred] at h
    · exact ⟨q, by rw [Option.some.inj h.1]⟩
  obtain ⟨r, hr⟩ := List.getLast?_eq_some_iff.mp h.2
  refine Glob.Matches.isInfix (q := patternToks q) (r := patternToks r) ?_ ?_ hst hmatch
  · rw [hq]
    rfl
  · rw [hr, patternToks, List.map_append]
    rfl

/-- A pattern that fits its array is kept as it is. -/
lemma starred_addPattern {pattern : Bytes} (hstar : Starred pattern) (hlen : pattern.length < 255)
    (hne : ∀ c ∈ pattern, c ≠ 0) {mem : Option Bytes} {list : List PatternNode}
    (hlist : ∀ node ∈ list, Starred (cstr node.pattern)) :
    ∀ node ∈ addPattern mem list pattern, Starred (cstr node.pattern) := by
  intro node hnode
  cases mem with
  | none => exact hlist node hnode
  | some bytes =>
      rcases List.mem_cons.mp hnode with rfl | hnode
      · rw [cstr_strncpy hne hlen]
        exact hstar
      · exact hlist node hnode

/-- The patterns of `filter_init` do, whatever memory their nodes are made in. -/
lemma starred_filterInit (blacklistIps whitelistIps : List Bytes) (mems : List (Option Bytes)) :
    ∀ node ∈ (filterInit blacklistIps whitelistIps mems).urlBlacklist,
      Starred (cstr node.pattern) := by
  have hall : ∀ p ∈ defaultUrlBlacklist,
      Starred p ∧ p.length < 255 ∧ ∀ c ∈ p, c ≠ 0 := by
    decide +kernel
  have hfold : ∀ (ps : List (Bytes × Option Bytes)) (list : List PatternNode),
      (∀ p ∈ ps, p.1 ∈ defaultUrlBlacklist) → (∀ node ∈ list, Starred (cstr node.pattern)) →
      ∀ node ∈ addPatterns list ps, Starred (cstr node.pattern) := by
    intro ps
    induction ps with
    | nil => exact fun list _ hlist => hlist
    | cons p ps ih =>
        intro list hps hlist
        obtain ⟨hstar, hlen, hne⟩ := hall p.1 (hps p List.mem_cons_self)
        exact ih _ (fun q hq => hps q (List.mem_cons_of_mem p hq))
          (starred_addPattern hstar hlen hne hlist)
  exact hfold _ [] (fun p hp => (List.of_mem_zip hp).1) (by simp)

end ProxyMax
