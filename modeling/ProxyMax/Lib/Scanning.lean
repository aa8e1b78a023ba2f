import Mathlib.Data.List.Infix
import ProxyMax.Lib.CString

/-!
Searching and scanning a text that is put together from parts.

* `strFind_eq_none_iff`, `strFind_eq_some`: what a search says.
* `strFind_of_suffix`: the place that is found is the first one.
* `strcasestr_eq_none_iff`: a search without regard to case fails where there is no needle.
* `strFind_append_of_some`, `strcasestr_append_of_none`, `strstr_append_of_none`: a search
  through a text, from the search through its first part.
* `strstr_split`: a text is cut where the needle is found first.
* `tokens`: the words of a text; `tokens_append` is what white space does to them, and
  `headD_tokens`, `tail_tokens` are how `sscanf` reads them one by one.
-/

namespace CString

/-! ### Searching -/

/-- The search fails where it succeeds nowhere. -/
lemma strFind_eq_none_iff {p : Bytes → Bool} {s : Bytes} :
    strFind p s = none ↔ ∀ t, t <:+ s → p t = false := by
  induction s with
  | nil => simp [strFind]
  | cons c s ih =>
      rw [strFind]
      split
      · rename_i hp
        refine iff_of_false (by simp) fun hall => ?_
        rw [hall _ (List.suffix_refl _)] at hp
        cases hp
      · rename_i hp
        rw [ih]
        simp only [List.suffix_cons_iff, forall_eq_or_imp, Bool.not_eq_true] at hp ⊢
        exact ⟨fun hs => ⟨hp, hs⟩, fun hs => hs.2⟩

lemma strFind_eq_some {p : Bytes → Bool} {s t : Bytes} (h : strFind p s = some t) :
    t <:+ s ∧ p t = true := by
  induction s with
  | nil =>
      rw [strFind] at h
      split at h
      · rename_i hp
        cases h
        exact ⟨List.suffix_refl _, hp⟩
      · cases h
  | cons c s ih =>
      rw [strFind] at h
      split at h
      · rename_i hp
        cases h
        exact ⟨List.suffix_refl _, hp⟩
      · obtain ⟨hsuffix, hp⟩ := ih h
        exact ⟨hsuffix.trans (List.suffix_cons c s), hp⟩

/-- A search finds a place at or before any place where it succeeds. -/
lemma strFind_of_suffix {p : Bytes → Bool} {s u : Bytes} (hu : u <:+ s) (hp : p u = true) :
    ∃ t, strFind p s = some t ∧ u <:+ t := by
  induction s with
  | nil =>
      obtain rfl := List.suffix_nil.mp hu
      exact ⟨[], strFind_of_true hp, hu⟩
  | cons c s ih =>
      by_cases hc : p (c :: s) = true
      · exact ⟨c :: s, strFind_of_true hc, hu⟩
      · rcases List.suffix_cons_iff.mp hu with rfl | hu
        · exact absurd hp hc
        · rw [strFind, if_neg hc]
          exact ih hu

/-- What is found is the needle, up to the case of its letters. -/
lemma strcasestr_eq_some {s needle t : Bytes} (h : strcasestr s needle = some t) :
    t <:+ s ∧ (t.take needle.length).map tolower = needle.map tolower := by
  obtain ⟨hsuffix, hp⟩ := strFind_eq_some h
  exact ⟨hsuffix, of_decide_eq_true hp⟩

/-- There is room for the needle where it is found. -/
lemma length_le_of_match {t needle : Bytes}
    (h : (t.take needle.length).map tolower = needle.map tolower) :
    needle.length ≤ t.length := by
  have hlen := congrArg List.length h
  rw [List.length_map, List.length_map, List.length_take] at hlen
  omega

/-- A text holds no needle, in any case of its letters, just when the search for it fails. -/
lemma strcasestr_eq_none_iff {s needle : Bytes} :
    strcasestr s needle = none ↔ ¬needle.map tolower <:+: s.map tolower := by
  rw [strcasestr, strFind_eq_none_iff]
  constructor
  · rintro hnone ⟨a, b, heq⟩
    have hdrop : (s.drop a.length).map tolower = needle.map tolower ++ b := by
      rw [List.map_drop, ← heq, List.append_assoc, List.drop_left]
    have hp := hnone (s.drop a.length) (List.drop_suffix _ _)
    refine of_decide_eq_false hp ?_
    rw [List.map_take, hdrop, ← List.length_map (f := tolower), List.take_left]
  · intro hinfix t ht
    refine decide_eq_false fun hmatch => hinfix ?_
    rw [← hmatch, List.map_take]
    exact (List.take_prefix _ _).isInfix.trans (ht.map tolower).isInfix

/-- What is found in a part of a text is found in the text, where the test does not look
farther than what is found reaches. -/
lemma strFind_append_of_some {p : Bytes → Bool} {a t : Bytes} (h : strFind p a = some t)
    {s : Bytes} (hsame : ∀ u, t.length ≤ u.length → p (u ++ s) = p u) :
    strFind p (a ++ s) = some (t ++ s) := by
  induction a with
  | nil =>
      rw [strFind] at h
      split at h
      · rename_i hp
        cases h
        exact strFind_of_true ((hsame [] le_rfl).trans hp)
      · cases h
  | cons c a ih =>
      have hlen : t.length ≤ (c :: a).length := (strFind_eq_some h).1.length_le
      rw [strFind] at h
      rw [List.cons_append, strFind, ← List.cons_append, hsame _ hlen]
      split at h
      · rename_i hp
        cases h
        exact if_pos hp
      · rename_i hp
        rw [if_neg hp]
        exact ih h

lemma strcasestr_append_of_some {a needle t : Bytes} (h : strcasestr a needle = some t)
    (s : Bytes) : strcasestr (a ++ s) needle = some (t ++ s) := by
  have hroom := length_le_of_match (strcasestr_eq_some h).2
  refine strFind_append_of_some h fun u hu => ?_
  rw [List.take_append_of_le_length (hroom.trans hu)]

lemma strstr_append_of_some {a needle t : Bytes} (h : strstr a needle = some t) (s : Bytes) :
    strstr (a ++ s) needle = some (t ++ s) := by
  have hmatch : t.take needle.length = needle := of_decide_eq_true (strFind_eq_some h).2
  have hroom : needle.length ≤ t.length := by
    have hlen := congrArg List.length hmatch
    rw [List.length_take] at hlen
    omega
  refine strFind_append_of_some h fun u hu => ?_
  rw [List.take_append_of_le_length (hroom.trans hu)]

/-- A part of the text is skipped when the needle is not there, and cannot reach over
its last character. -/
lemma strcasestr_append_of_none {a needle : Bytes} {c : UInt8}
    (hc : tolower c ∉ needle.map tolower) (h : strcasestr (a ++ [c]) needle = none) (s : Bytes) :
    strcasestr (a ++ c :: s) needle = strcasestr s needle := by
  have hsplit : a ++ c :: s = (a ++ [c]) ++ s := by simp
  rw [hsplit, strcasestr, strcasestr]
  refine strFind_append s fun t ht hne => decide_eq_false fun hmatch => ?_
  by_cases hlen : needle.length ≤ t.length
  · have hnone := strFind_eq_none_iff.mp h t ht
    rw [List.take_append_of_le_length hlen] at hmatch
    exact absurd hmatch (of_decide_eq_false hnone)
  · -- the match would hold the last character of the part
    have hlast : c ∈ t := by
      obtain ⟨u, d, rfl⟩ := List.eq_nil_or_concat'.{0} t |>.resolve_left hne
      obtain ⟨b, hb⟩ := ht
      rw [← List.append_assoc] at hb
      have hd := (List.append_inj' hb rfl).2
      simp only [List.cons.injEq, and_true] at hd
      simp [hd]
    have hmem : c ∈ (t ++ s).take needle.length := by
      rw [List.take_append, List.take_of_length_le (by omega)]
      exact List.mem_append_left _ hlast
    exact hc (hmatch ▸ List.mem_map_of_mem hmem)

/-- A text holds no needle just when the search for it fails. -/
lemma strstr_eq_none_iff {s needle : Bytes} : strstr s needle = none ↔ ¬needle <:+: s := by
  rw [strstr, strFind_eq_none_iff]
  constructor
  · rintro hnone ⟨a, b, rfl⟩
    have hp := hnone (needle ++ b) ⟨a, by simp⟩
    simp at hp
  · intro hinfix t ht
    refine decide_eq_false fun hmatch => hinfix ?_
    rw [← hmatch]
    exact (List.take_prefix _ _).isInfix.trans ht.isInfix

/-- Two different characters are found at the end of a text in which they do not follow
each other. -/
lemma strstr_append_of_none {x y : UInt8} (hxy : x ≠ y) {a : Bytes}
    (h : strstr a [x, y] = none) (s : Bytes) :
    strstr (a ++ x :: y :: s) [x, y] = some (x :: y :: s) := by
  have hnone := strFind_eq_none_iff.mp h
  rw [strstr, strFind_append, strFind_of_true (by simp)]
  intro t ht hne
  obtain ⟨d, u, rfl⟩ := List.exists_cons_of_ne_nil hne
  cases u with
  | nil => simp [hxy]
  | cons e u => simpa using hnone _ ht

/-- The text before the first place where the needle is holds none. -/
lemma strstr_split {s needle t : Bytes} (h : strstr s needle = some t) (hne : needle ≠ []) :
    ∃ a, s = a ++ t ∧ strstr a needle = none := by
  obtain ⟨⟨a, rfl⟩, hmatch⟩ := strFind_eq_some h
  refine ⟨a, rfl, ?_⟩
  by_contra hsome
  obtain ⟨u, hu⟩ := Option.ne_none_iff_exists'.mp hsome
  have hfirst := strstr_append_of_some hu t
  rw [h, Option.some.injEq, List.self_eq_append_left] at hfirst
  obtain ⟨-, hnil⟩ := strFind_eq_some hu
  rw [hfirst, List.take_nil, decide_eq_true_eq] at hnil
  exact hne hnil.symm

/-- What is found in a line is in it, where the needle has no character of the line end. -/
lemma length_le_of_line {text needle a rest : Bytes} {c : UInt8}
    (h : strcasestr text needle = some (a ++ c :: rest)) (hc : tolower c ∉ needle.map tolower) :
    needle.length ≤ a.length := by
  by_contra hshort
  obtain ⟨-, hmatch⟩ := strcasestr_eq_some h
  obtain ⟨k, hk⟩ : ∃ k, needle.length - a.length = k + 1 :=
    Nat.exists_eq_succ_of_ne_zero (Nat.sub_ne_zero_of_lt (not_le.mp hshort))
  have hmem : c ∈ (a ++ c :: rest).take needle.length := by
    rw [List.take_append, hk]
    exact List.mem_append_right _ List.mem_cons_self
  exact hc (hmatch ▸ List.mem_map_of_mem hmem)

/-- A part of the text without the first character of the needle is skipped. -/
lemma strstr_append_of_not_mem {x : UInt8} {a : Bytes} (h : x ∉ a) (needle s : Bytes) :
    strstr (a ++ s) (x :: needle) = strstr s (x :: needle) := by
  refine strFind_append s fun t ht hne => decide_eq_false fun hmatch => ?_
  obtain ⟨d, u, rfl⟩ := List.exists_cons_of_ne_nil hne
  have hd : d = x := (List.cons.inj hmatch).1
  exact h (hd ▸ ht.subset List.mem_cons_self)

/-! ### Words -/

/-- The words of a text, which white space divides. -/
def tokens (s : Bytes) : List Bytes := (s.splitOnP isspace).filter (· ≠ [])

lemma tokens_nil : tokens [] = [] := rfl

/-- White space divides a text. -/
lemma tokens_append (a : Bytes) {c : UInt8} (hc : isspace c = true) (b : Bytes) :
    tokens (a ++ c :: b) = tokens a ++ tokens b := by
  rw [tokens, List.splitOnP_append_cons _ _ hc, List.filter_append, tokens, tokens]

lemma tokens_of_not_space {w : Bytes} (hne : w ≠ []) (hw : ∀ c ∈ w, isspace c = false) :
    tokens w = [w] := by
  rw [tokens, List.splitOnP_eq_singleton hw, List.filter_cons_of_pos (by simpa using hne),
    List.filter_nil]

/-- White space at the start is skipped. -/
lemma tokens_dropWhile (s : Bytes) : tokens (s.dropWhile isspace) = tokens s := by
  induction s with
  | nil => rfl
  | cons c s ih =>
      by_cases hc : isspace c = true
      · rw [List.dropWhile_cons_of_pos hc, ih]
        exact (tokens_append [] hc s).symm
      · rw [List.dropWhile_cons_of_neg hc]

/-- **The words, one by one.** -/
lemma tokens_eq (s : Bytes) :
    tokens s = if (scanToken s).1 = [] then [] else (scanToken s).1 :: tokens (scanToken s).2 := by
  obtain ⟨word, rest, hscan⟩ : ∃ word rest, scanToken s = (word, rest) := ⟨_, _, rfl⟩
  obtain ⟨hword, hrest⟩ := Prod.mk.inj hscan
  have hsplit : s.dropWhile isspace = word ++ rest := by
    rw [← hword, ← hrest, List.takeWhile_append_dropWhile]
  have hnot : ∀ c ∈ word, isspace c = false := by
    intro c hc
    rw [← hword] at hc
    simpa using List.mem_takeWhile_imp hc
  rw [hscan, ← tokens_dropWhile, hsplit]
  split
  · rename_i hnil
    rw [scanToken_eq_nil (by rw [hscan]; exact hnil), Prod.mk.injEq] at hscan
    rw [← hscan.1, ← hscan.2]
    rfl
  · rename_i hne
    cases rest with
    | nil => rw [List.append_nil, tokens_of_not_space hne hnot, tokens_nil]
    | cons c t =>
        have hc : isspace c = true := by
          have hhead := List.head?_dropWhile_not (fun c => !isspace c) (s.dropWhile isspace)
          rw [hrest] at hhead
          simpa using hhead
        rw [tokens_append word hc, tokens_of_not_space hne hnot]
        exact congrArg (word :: ·) (tokens_append [] hc t).symm

/-- The first word. -/
lemma headD_tokens (s : Bytes) : (tokens s).headD [] = (scanToken s).1 := by
  rw [tokens_eq]
  split
  · rename_i hnil
    exact hnil.symm
  · rfl

/-- The words after the first. -/
lemma tail_tokens (s : Bytes) : (tokens s).tail = tokens (scanToken s).2 := by
  rw [tokens_eq]
  split
  · rename_i hnil
    rw [scanToken_eq_nil hnil]
    rfl
  · rfl

lemma ne_nil_of_mem_tokens {s w : Bytes} (hw : w ∈ tokens s) : w ≠ [] :=
  of_decide_eq_true (List.mem_filter.mp hw).2

end CString
