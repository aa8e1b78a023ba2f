import ProxyMax.Lib.CString
import ProxyMax.Lib.Glob

/-!
`pattern_match` of `src/filter/filter.c`: the iterative wildcard matcher.

* `Scan`, `patternMatchLoop`: the variables of the loop and the loop itself.
* `patternToks`: the pattern as a wildcard pattern.
* `Scan.Aligned`, `Scan.Means`: the loop invariant; past a star, what lies
  between it and the two positions agrees letter by letter, and the question
  left is whether the pattern from that star on matches from there on.
* `Scan.cost`: the tests left, at most.
* `pattern_match_exact`: the matcher ends and decides the language.
-/

namespace ProxyMax

open CString Glob

/-- The variables of `pattern_match`; a pointer is the rest of its string, and
`star` holds the pattern after the last star that was met. -/
structure Scan where
  p : Bytes
  s : Bytes
  star : Option Bytes
  ss : Bytes

/-- The two loops of `pattern_match`, for at most `fuel` tests of the first
one's condition. At the end of the pattern `*p` is the terminating NUL, which is
no character of the string. -/
def patternMatchLoop : ℕ → Scan → Option Bool
  | 0, _ => none
  | _ + 1, ⟨p, [], _, _⟩ => some (p.dropWhile (· = 42)).isEmpty
  | fuel + 1, ⟨p, c :: s, star, ss⟩ =>
      if p.head? = some 42 then
        patternMatchLoop fuel ⟨p.tail, c :: s, some p.tail, c :: s⟩
      else if p.head? = some c ∨ p.head? = some 63 then
        patternMatchLoop fuel ⟨p.tail, s, star, ss⟩
      else
        match star with
        | some q => patternMatchLoop fuel ⟨q, ss.tail, some q, ss.tail⟩
        | none => some false

/-- One test of the first loop before the end of the string. -/
lemma patternMatchLoop_cons (fuel : ℕ) (p : Bytes) (c : UInt8) (s : Bytes) (star : Option Bytes)
    (ss : Bytes) : patternMatchLoop (fuel + 1) ⟨p, c :: s, star, ss⟩ =
      if p.head? = some 42 then patternMatchLoop fuel ⟨p.tail, c :: s, some p.tail, c :: s⟩
      else if p.head? = some c ∨ p.head? = some 63 then
        patternMatchLoop fuel ⟨p.tail, s, star, ss⟩
      else
        match star with
        | some q => patternMatchLoop fuel ⟨q, ss.tail, some q, ss.tail⟩
        | none => some false := rfl

/-- The variables at the start of `pattern_match`. -/
def Scan.start (pattern str : Bytes) : Scan := ⟨pattern, str, none, str⟩

/-- A number of tests that is enough. -/
def matchFuel (pattern str : Bytes) : ℕ :=
  ((pattern.length + 2) * (str.length + 1) + str.length) * (str.length + 1) + str.length + 1

/-- `pattern_match`. -/
def patternMatch (pattern str : Bytes) : Bool :=
  (patternMatchLoop (matchFuel pattern str) (.start pattern str)).getD false

/-! ### Patterns as wildcard patterns -/

/-- The character `*` stands for any sequence, `?` for any one character, and
every other one for itself. -/
def patternTok (c : UInt8) : Tok UInt8 :=
  if c = 42 then .star else if c = 63 then .any else .lit c

def patternToks (pattern : Bytes) : List (Tok UInt8) := pattern.map patternTok

/-- The language of a pattern. -/
def InLanguage (pattern str : Bytes) : Prop := Matches (patternToks pattern) str

@[simp] lemma patternToks_nil : patternToks [] = [] := rfl

@[simp] lemma patternToks_cons (c : UInt8) (p : Bytes) :
    patternToks (c :: p) = patternTok c :: patternToks p := rfl

lemma patternTok_star : patternTok 42 = .star := rfl

lemma patternTok_ne_star {c : UInt8} (h : c ≠ 42) : patternTok c ≠ .star := by
  rw [patternTok, if_neg h]
  split <;> simp

/-- What the loop compares, for a pattern character other than `*`. -/
lemma agrees_patternTok_iff {b c : UInt8} (hb : b ≠ 42) :
    Agrees (patternTok b) c ↔ b = c ∨ b = 63 := by
  rw [patternTok, if_neg hb]
  by_cases h63 : b = 63
  · rw [if_pos h63]
    exact iff_of_true (.any c) (Or.inr h63)
  · rw [if_neg h63, or_iff_left h63]
    constructor
    · rintro ⟨⟩
      rfl
    · rintro rfl
      exact .lit b

/-- The loop over trailing stars. -/
lemma matches_nil_iff_dropWhile (p : Bytes) :
    Matches (patternToks p) [] ↔ (p.dropWhile (· = 42)).isEmpty = true := by
  induction p with
  | nil => simp
  | cons c p ih =>
      by_cases hc : c = 42
      · rw [hc, patternToks_cons, patternTok_star, matches_star_nil_iff, ih]
        simp
      · rw [patternToks_cons, matches_cons_iff (patternTok_ne_star hc)]
        simp [hc]

/-! ### The loop invariant -/

/-- The question the variables stand for. -/
def Scan.Means (st : Scan) : Prop :=
  match st.star with
  | none => Matches (patternToks st.p) st.s
  | some q => Matches (.star :: patternToks q) st.ss

/-- Past a star, what was read of pattern and string since then agrees. -/
def Scan.Aligned (st : Scan) : Prop :=
  ∀ q, st.star = some q → ∃ m w, patternToks q = m ++ patternToks st.p ∧ st.ss = w ++ st.s ∧
    Agree m w

/-- The tests left, for a pattern shorter than `k` and a string of at most `n`
characters: the last star moves on, or else the position after it, or else the
position in the string. -/
def Scan.cost (k n : ℕ) (st : Scan) : ℕ :=
  match st.star with
  | none => (k * (n + 1) + n) * (n + 1) + st.s.length
  | some q => (q.length * (n + 1) + st.ss.length) * (n + 1) + st.s.length

/-- The variables fit the pattern and the string. -/
structure Scan.Fits (k n : ℕ) (st : Scan) : Prop where
  p_lt : st.p.length < k
  s_le : st.s.length ≤ n
  ss_le : st.ss.length ≤ n
  star_lt : ∀ q, st.star = some q → st.p.length ≤ q.length ∧ q.length < k ∧
    st.s.length ≤ st.ss.length

/-- Comparing two-digit numbers in base `n + 1`. -/
lemma digits_lt {n b b' c c' : ℕ} (hb : b' < b) (hc : c' ≤ n) :
    b' * (n + 1) + c' < b * (n + 1) + c := by
  have h : (b' + 1) * (n + 1) ≤ b * (n + 1) := Nat.mul_le_mul_right _ hb
  rw [Nat.succ_mul] at h
  omega

lemma Scan.aligned_some {p s q ss : Bytes} (ha : Scan.Aligned ⟨p, s, some q, ss⟩) :
    ∃ m w, patternToks q = m ++ patternToks p ∧ ss = w ++ s ∧ Agree m w := ha q rfl

/-- Meeting a star: it becomes the last one, and the earlier one is forgotten. -/
lemma Scan.means_star {p s : Bytes} {star : Option Bytes} {ss : Bytes}
    (ha : Scan.Aligned ⟨42 :: p, s, star, ss⟩) :
    Scan.Means ⟨42 :: p, s, star, ss⟩ ↔ Scan.Means ⟨p, s, some p, s⟩ := by
  cases star with
  | none => exact Iff.rfl
  | some q =>
      obtain ⟨m, w, hq, rfl, hm⟩ := Scan.aligned_some ha
      simp only [Scan.Means, hq]
      exact matches_star_forget hm

/-- A pattern character agrees with the character of the string. -/
lemma Scan.means_char {b c : UInt8} {p s : Bytes} {star : Option Bytes} {ss : Bytes}
    (h : Agrees (patternTok b) c) :
    Scan.Means ⟨b :: p, c :: s, star, ss⟩ ↔ Scan.Means ⟨p, s, star, ss⟩ := by
  cases star with
  | none =>
      simp only [Scan.Means, patternToks_cons, matches_cons_iff h.ne_star]
      constructor
      · rintro ⟨a, s', hs, -, hp⟩
        rw [List.cons.injEq] at hs
        rwa [hs.2]
      · intro hp
        exact ⟨c, s, rfl, h, hp⟩
  | some q => exact Iff.rfl

lemma Scan.aligned_char {b c : UInt8} {p s : Bytes} {star : Option Bytes} {ss : Bytes}
    (h : Agrees (patternTok b) c) (ha : Scan.Aligned ⟨b :: p, c :: s, star, ss⟩) :
    Scan.Aligned ⟨p, s, star, ss⟩ := by
  intro q hq
  obtain ⟨m, w, hqp, hss, hm⟩ := ha q hq
  refine ⟨m ++ [patternTok b], w ++ [c], by simpa using hqp, by simpa using hss, ?_⟩
  exact List.rel_append hm (.cons h .nil)

/-- At a mismatch the last star cannot stop before `ss`, so it absorbs a
character. -/
lemma Scan.means_back {p q : Bytes} {c : UInt8} {s ss : Bytes}
    (ha : Scan.Aligned ⟨p, c :: s, some q, ss⟩) (hno : ¬ Matches (patternToks p) (c :: s)) :
    Scan.Means ⟨p, c :: s, some q, ss⟩ ↔ Scan.Means ⟨q, ss.tail, some q, ss.tail⟩ := by
  obtain ⟨m, w, hq, rfl, hm⟩ := Scan.aligned_some ha
  have hstop : ¬ Matches (patternToks q) (w ++ c :: s) := by
    intro h
    rw [hq] at h
    obtain ⟨v, t, hvt, hv, ht⟩ := (matches_append_iff hm).mp h
    have hlen : w.length = v.length := by rw [← hm.length_eq, hv.length_eq]
    rw [(List.append_inj hvt hlen).2] at hno
    exact hno ht
  simp only [Scan.Means]
  cases hw : w ++ c :: s with
  | nil => simp at hw
  | cons a t =>
      rw [hw] at hstop
      exact matches_star_advance hstop

/-- The end of the string: the pattern matches when only stars are left. -/
lemma Scan.means_nil {p : Bytes} {star : Option Bytes} {ss : Bytes}
    (ha : Scan.Aligned ⟨p, [], star, ss⟩) :
    Scan.Means ⟨p, [], star, ss⟩ ↔ Matches (patternToks p) [] := by
  cases star with
  | none => exact Iff.rfl
  | some q =>
      obtain ⟨m, w, hq, rfl, hm⟩ := Scan.aligned_some ha
      simp only [Scan.Means, hq]
      cases p with
      | nil => exact iff_of_true (.star [] (matches_append_agree hm .nil)) .nil
      | cons c p =>
          rw [patternToks_cons]
          by_cases hc : c = 42
          · rw [hc, patternTok_star, matches_star_forget hm]
          · have ht := patternTok_ne_star hc
            rw [List.append_nil]
            refine iff_of_false (not_matches_star_short hm ht _) ?_
            intro h
            obtain ⟨a, s, hs, -⟩ := (matches_cons_iff ht).mp h
            simp at hs

lemma Scan.aligned_start (p s : Bytes) : Scan.Aligned ⟨p, s, some p, s⟩ := by
  rintro q ⟨⟩
  exact ⟨[], [], rfl, rfl, .nil⟩

/-- A mismatch: the pattern does not match from here without a star before it. -/
lemma not_matches_of_mismatch {p : Bytes} {c : UInt8} (h42 : p.head? ≠ some 42)
    (hc : ¬ (p.head? = some c ∨ p.head? = some 63)) (s : Bytes) :
    ¬ Matches (patternToks p) (c :: s) := by
  cases p with
  | nil => simp
  | cons b p =>
      simp only [List.head?_cons, ne_eq, Option.some.injEq] at h42 hc
      rw [patternToks_cons, matches_cons_iff (patternTok_ne_star h42)]
      rintro ⟨a, t, hs, hagree, -⟩
      rw [List.cons.injEq] at hs
      rw [← hs.1] at hagree
      exact hc ((agrees_patternTok_iff h42).mp hagree)

/-! ### The tests left -/

section Cost

variable {k n : ℕ} {p s q ss : Bytes} {star : Option Bytes} {b c : UInt8}

/-- At a star the pattern after the last star gets shorter. -/
lemma Scan.Fits.after_star (hf : Scan.Fits k n ⟨42 :: p, s, star, ss⟩) :
    Scan.Fits k n ⟨p, s, some p, s⟩ ∧
      Scan.cost k n ⟨p, s, some p, s⟩ < Scan.cost k n ⟨42 :: p, s, star, ss⟩ := by
  obtain ⟨hp, hs, hss, hstar⟩ := hf
  simp only [List.length_cons] at hp hs hstar
  have hpk : p.length < k := Nat.lt_of_succ_lt hp
  refine ⟨⟨hpk, hs, hs, ?_⟩, ?_⟩
  · rintro q ⟨⟩
    exact ⟨le_rfl, hpk, le_rfl⟩
  · cases star with
    | none => exact digits_lt (digits_lt hpk hs) hs
    | some q => exact digits_lt (digits_lt (hstar q rfl).1 hs) hs

/-- After a character the string gets shorter. -/
lemma Scan.Fits.after_char (hf : Scan.Fits k n ⟨b :: p, c :: s, star, ss⟩) :
    Scan.Fits k n ⟨p, s, star, ss⟩ ∧
      Scan.cost k n ⟨p, s, star, ss⟩ < Scan.cost k n ⟨b :: p, c :: s, star, ss⟩ := by
  obtain ⟨hp, hs, hss, hstar⟩ := hf
  simp only [List.length_cons] at hp hs hstar
  refine ⟨⟨Nat.lt_of_succ_lt hp, Nat.le_of_succ_le hs, hss, ?_⟩, ?_⟩
  · intro q hq
    obtain ⟨hpq, hqk, hsss⟩ := hstar q hq
    exact ⟨Nat.le_of_succ_le hpq, hqk, Nat.le_of_succ_le hsss⟩
  · cases star <;> simp only [Scan.cost, List.length_cons] <;> omega

/-- At a mismatch past a star, the star absorbs one more character. -/
lemma Scan.Fits.after_mismatch (hf : Scan.Fits k n ⟨p, c :: s, some q, ss⟩) :
    Scan.Fits k n ⟨q, ss.tail, some q, ss.tail⟩ ∧
      Scan.cost k n ⟨q, ss.tail, some q, ss.tail⟩ < Scan.cost k n ⟨p, c :: s, some q, ss⟩ := by
  obtain ⟨-, -, hss, hstar⟩ := hf
  obtain ⟨-, hq, hsss⟩ := hstar q rfl
  simp only [List.length_cons] at hss hsss
  have htail : ss.tail.length < ss.length := by
    rw [List.length_tail]
    omega
  have hn : ss.tail.length ≤ n := by omega
  refine ⟨⟨hq, hn, hn, ?_⟩, digits_lt (Nat.add_lt_add_left htail _) hn⟩
  rintro r ⟨⟩
  exact ⟨le_rfl, hq, le_rfl⟩

end Cost

/-- **The loop ends and answers the question.** -/
theorem patternMatchLoop_spec {k n fuel : ℕ} {st : Scan} (ha : st.Aligned) (hf : st.Fits k n)
    (hcost : st.cost k n < fuel) :
    ∃ b, patternMatchLoop fuel st = some b ∧ (b = true ↔ st.Means) := by
  induction fuel generalizing st with
  | zero => exact absurd hcost (Nat.not_lt_zero _)
  | succ fuel ih =>
      have hle := Nat.le_of_lt_succ hcost
      obtain ⟨p, s, star, ss⟩ := st
      cases s with
      | nil =>
          refine ⟨_, rfl, ?_⟩
          rw [Scan.means_nil ha, matches_nil_iff_dropWhile]
      | cons c s =>
          rw [patternMatchLoop_cons]
          by_cases h42 : p.head? = some 42
          · obtain ⟨p, rfl⟩ := List.head?_eq_some_iff.mp h42
            obtain ⟨hfits, hless⟩ := hf.after_star
            rw [if_pos h42, Scan.means_star ha, List.tail_cons]
            exact ih (Scan.aligned_start p (c :: s)) hfits (hless.trans_le hle)
          rw [if_neg h42]
          by_cases hc : p.head? = some c ∨ p.head? = some 63
          · rw [if_pos hc]
            cases p with
            | nil => simp at hc
            | cons b p =>
                simp only [List.head?_cons, Option.some.injEq] at h42 hc
                have hagree := (agrees_patternTok_iff h42).mpr hc
                obtain ⟨hfits, hless⟩ := hf.after_char
                rw [Scan.means_char hagree]
                exact ih (Scan.aligned_char hagree ha) hfits (hless.trans_le hle)
          · rw [if_neg hc]
            have hno := not_matches_of_mismatch h42 hc s
            cases star with
            | none => exact ⟨false, rfl, iff_of_false (by simp) hno⟩
            | some q =>
                obtain ⟨hfits, hless⟩ := hf.after_mismatch
                rw [Scan.means_back ha hno]
                exact ih (Scan.aligned_start q ss.tail) hfits (hless.trans_le hle)

/-! ### The matcher -/

/-- Every number of tests that is large enough gives the same answer. -/
lemma patternMatchLoop_start (pattern str : Bytes) {fuel : ℕ}
    (hfuel : matchFuel pattern str ≤ fuel) :
    ∃ b, patternMatchLoop fuel (.start pattern str) = some b ∧
      (b = true ↔ InLanguage pattern str) := by
  refine patternMatchLoop_spec (k := pattern.length + 1) (n := str.length) ?_ ?_ ?_
  · rintro q ⟨⟩
  · exact ⟨Nat.lt_succ_self _, le_rfl, le_rfl, by rintro q ⟨⟩⟩
  · refine lt_of_lt_of_le ?_ hfuel
    simp only [Scan.cost, Scan.start, matchFuel]
    have h : ((pattern.length + 1) * (str.length + 1) + str.length) * (str.length + 1) ≤
        ((pattern.length + 2) * (str.length + 1) + str.length) * (str.length + 1) :=
      Nat.mul_le_mul_right _ (Nat.add_le_add_right (Nat.mul_le_mul_right _ (by omega)) _)
    omega

lemma patternMatch_iff (pattern str : Bytes) :
    patternMatch pattern str = true ↔ InLanguage pattern str := by
  obtain ⟨b, hb, hiff⟩ := patternMatchLoop_start pattern str le_rfl
  rw [patternMatch, hb, Option.getD_some, hiff]

/-- **Wildcard matching is exact**: for every pattern and every string the loop
ends, and its answer decides the language of the pattern. -/
theorem pattern_match_exact (pattern str : Bytes) :
    (∃ n, ∀ fuel, n ≤ fuel →
      patternMatchLoop fuel (.start pattern str) = some (patternMatch pattern str)) ∧
      (patternMatch pattern str = true ↔ InLanguage pattern str) := by
  refine ⟨⟨matchFuel pattern str, fun fuel hfuel => ?_⟩, patternMatch_iff pattern str⟩
  obtain ⟨b, hb, hiff⟩ := patternMatchLoop_start pattern str hfuel
  rw [hb, Option.some.injEq, Bool.eq_iff_iff, hiff, patternMatch_iff]

end ProxyMax
