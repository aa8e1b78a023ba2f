import Mathlib.Data.List.TakeWhile
import Mathlib.Tactic

/-!
Text as C programs see it: bytes, NUL-terminated strings and the part of the
C library's string functions that works on them, in the C locale.

A pointer into a string is the rest of the string from there on, so the
functions that return a pointer into their argument return that rest, and
`none` for the null pointer.

* `sizeMod`, `addSize`, `subSize`, `atoi`: numbers.
* `cstr`, `strncpy`: strings in blocks of memory.
* `strFind`, `strstr`, `strcasestr`, `strchr`: searching; `strFind_append` skips
  a part of the text in which nothing is found.
* `scanToken`: what `sscanf` does for a `%s`; `scanToken_word` is what it does at a
  word, and `scanToken_eq_nil` where there is none.
-/

namespace CString

/-- A block of memory, or the text of a string without its terminating NUL. -/
abbrev Bytes := List UInt8

/-- What is said of the bytes of a text is checked for these, not for all 256 bytes. -/
instance (priority := 1100) decidableBytes {P : UInt8 → Prop} [DecidablePred P] (s : Bytes) :
    Decidable (∀ c ∈ s, P c) :=
  List.decidableBAll P s

/-- A statement about every byte is a check of 256 values. -/
lemma forall_byte {P : UInt8 → Prop} (h : ∀ n : Fin 256, P (UInt8.ofFin n)) (c : UInt8) : P c :=
  h c.toFin

/-- The bytes of a string literal. -/
def ascii (s : String) : Bytes := s.toList.map fun c => c.toNat.toUInt8

/-! ### Numbers -/

/-- Arithmetic of `size_t` is modulo `2^64`. -/
def sizeMod : ℕ := 2 ^ 64

def addSize (a b : ℕ) : ℕ := (a + b) % sizeMod

def subSize (a b : ℕ) : ℕ := (a + (sizeMod - b % sizeMod)) % sizeMod

/-! ### Strings in memory -/

/-- The string that starts at a block of memory: everything up to its first NUL. -/
def cstr (mem : Bytes) : Bytes := mem.takeWhile (· ≠ 0)

lemma cstr_of_not_nul {s : Bytes} (h : ∀ c ∈ s, c ≠ 0) : cstr s = s :=
  List.takeWhile_eq_self_iff.mpr fun c hc => decide_eq_true (h c hc)

lemma cstr_append {a : Bytes} (h : ∀ c ∈ a, c ≠ 0) (b : Bytes) : cstr (a ++ b) = a ++ cstr b :=
  List.takeWhile_append_of_pos fun c hc => by simpa using h c hc

lemma cstr_zero (b : Bytes) : cstr (0 :: b) = [] := by simp [cstr]

/-- `strncpy`: the first `n` bytes of the string, filled up with NULs. -/
def strncpy (src : Bytes) (n : ℕ) : Bytes := src.take n ++ List.replicate (n - src.length) 0

/-- A string that leaves room for a NUL is read back from the field. -/
lemma cstr_strncpy {src : Bytes} (h : ∀ c ∈ src, c ≠ 0) {n : ℕ} (hn : src.length < n)
    (mem : Bytes) : cstr (strncpy src n ++ mem) = src := by
  obtain ⟨k, hk⟩ : ∃ k, n - src.length = k + 1 := ⟨n - src.length - 1, by omega⟩
  rw [strncpy, List.take_of_length_le hn.le, hk, List.replicate_succ, List.append_assoc,
    cstr_append h, List.cons_append, cstr_zero, List.append_nil]

/-! ### Characters -/

/-- `isspace`. -/
def isspace (c : UInt8) : Bool := c = 32 ∨ (9 ≤ c ∧ c ≤ 13)

/-- `tolower`. -/
def tolower (c : UInt8) : UInt8 := if 65 ≤ c ∧ c ≤ 90 then c + 32 else c

/-- `isdigit`. -/
def isdigit (c : UInt8) : Bool := 48 ≤ c ∧ c ≤ 57

/-- The number that decimal digits name. -/
def ofDigits (digits : Bytes) : ℕ := digits.foldl (fun n c => n * 10 + (c.toNat - 48)) 0

/-- `atoi`: `strtol` clamps to `long`, and the result is converted to `int`. -/
def atoi (s : Bytes) : ℤ :=
  let s := s.dropWhile isspace
  let negative := s.head? = some 45
  let s := if s.head? = some 45 ∨ s.head? = some 43 then s.tail else s
  let n := ofDigits (s.takeWhile isdigit)
  let long : ℤ := if negative then max (-n) (-2 ^ 63) else min n (2 ^ 63 - 1)
  long.bmod (2 ^ 32)

/-- `sprintf` with `%d`, for a number that is not negative. -/
def decimal (n : ℕ) : Bytes := ascii (toString n)

/-! ### Searching -/

/-- The first place in the string from which on it satisfies `p`. -/
def strFind (p : Bytes → Bool) : Bytes → Option Bytes
  | [] => if p [] then some [] else none
  | c :: s => if p (c :: s) then some (c :: s) else strFind p s

/-- `strstr`. -/
def strstr (haystack needle : Bytes) : Option Bytes :=
  strFind (fun t => t.take needle.length = needle) haystack

/-- `strcasestr`. -/
def strcasestr (haystack needle : Bytes) : Option Bytes :=
  strFind (fun t => (t.take needle.length).map tolower = needle.map tolower) haystack

/-- `strchr`, for a character that is not NUL. -/
def strchr (s : Bytes) (c : UInt8) : Option Bytes := strFind (fun t => t.head? = some c) s

/-- One `%s` of `sscanf`: the next run of characters that are not white space,
empty at the end of the text, and the text after it. -/
def scanToken (s : Bytes) : Bytes × Bytes :=
  let s := s.dropWhile isspace
  (s.takeWhile fun c => !isspace c, s.dropWhile fun c => !isspace c)

/-- The part of a text before a character that it does not hold. -/
lemma takeWhile_append_cons {c : UInt8} {a : Bytes} (h : c ∉ a) (b : Bytes) :
    (a ++ c :: b).takeWhile (· ≠ c) = a := by
  have hne : ∀ d ∈ a, decide (d ≠ c) = true := fun d hd =>
    decide_eq_true fun he => h (he ▸ hd)
  rw [List.takeWhile_append_of_pos hne]
  simp

lemma strFind_of_true {p : Bytes → Bool} {s : Bytes} (h : p s = true) : strFind p s = some s := by
  cases s <;> simp [strFind, h]

/-- A part of the text in which the search succeeds nowhere is skipped. -/
lemma strFind_append {p : Bytes → Bool} {a : Bytes} (s : Bytes)
    (h : ∀ t, t <:+ a → t ≠ [] → p (t ++ s) = false) : strFind p (a ++ s) = strFind p s := by
  induction a with
  | nil => rfl
  | cons c a ih =>
      have hc : p (c :: a ++ s) = false := h (c :: a) (List.suffix_refl _) (by simp)
      have ha : strFind p (a ++ s) = strFind p s :=
        ih fun t ht => h t (ht.trans (List.suffix_cons c a))
      rw [List.cons_append] at hc ⊢
      rw [strFind, if_neg (by simp [hc]), ha]

/-- What is searched for follows a text such that it starts nowhere in that text. -/
lemma strcasestr_append {a needle : Bytes}
    (h : ∀ t ∈ a.tails, t ≠ [] →
      ((t ++ needle).take needle.length).map tolower ≠ needle.map tolower) (s : Bytes) :
    strcasestr (a ++ (needle ++ s)) needle = some (needle ++ s) := by
  rw [strcasestr, strFind_append, strFind_of_true]
  · simp
  · intro t ht hne
    have htake : (t ++ (needle ++ s)).take needle.length = (t ++ needle).take needle.length := by
      rw [← List.append_assoc, List.take_append_of_le_length]
      simp
    simpa [htake] using h t ((List.mem_tails t a).mpr ht) hne

lemma strchr_eq_none_iff {s : Bytes} {c : UInt8} : strchr s c = none ↔ c ∉ s := by
  rw [strchr]
  induction s with
  | nil => simp [strFind]
  | cons x s ih =>
      by_cases hx : x = c
      · simp [strFind, hx]
      · simp [strFind, hx, Ne.symm hx, ih]

lemma strchr_append {a : Bytes} {c : UInt8} (h : c ∉ a) (s : Bytes) :
    strchr (a ++ c :: s) c = some (c :: s) := by
  induction a with
  | nil => simp [strchr, strFind]
  | cons x a ih =>
      have hx : x ≠ c := fun hx => h (by simp [hx])
      have ha : c ∉ a := fun ha => h (by simp [ha])
      simpa [strchr, strFind, hx] using ih ha

/-- Nothing is found without a character of the needle. -/
lemma strstr_eq_none {needle : Bytes} {c : UInt8} (hc : c ∈ needle) {s : Bytes} (hs : c ∉ s) :
    strstr s needle = none := by
  have hne : ∀ t : Bytes, c ∉ t → t.take needle.length ≠ needle := fun t ht he =>
    ht (List.take_subset _ t (he ▸ hc))
  rw [strstr]
  induction s with
  | nil => simp [strFind, List.ne_nil_of_mem hc]
  | cons x s ih =>
      rw [strFind, if_neg (by simpa using hne _ hs)]
      exact ih fun hx => hs (List.mem_cons_of_mem x hx)

/-- A needle that is there is found. -/
lemma strstr_append_ne_none (a needle s : Bytes) : strstr (a ++ (needle ++ s)) needle ≠ none := by
  rw [strstr]
  induction a with
  | nil =>
      rw [List.nil_append, strFind_of_true (by simp)]
      simp
  | cons x a ih =>
      rw [List.cons_append, strFind]
      split
      · simp
      · exact ih

/-! ### Words -/

/-- A text that `%s` reads whole. -/
structure IsWord (w : Bytes) : Prop where
  ne_nil : w ≠ []
  not_space : ∀ c ∈ w, isspace c = false
  not_nul : ∀ c ∈ w, c ≠ 0

/-- Words can be checked. -/
lemma isWord_of_all {w : Bytes} (hne : w ≠ [])
    (h : (w.all fun c => !isspace c && c != 0) = true) : IsWord w := by
  simp only [List.all_eq_true, Bool.and_eq_true, Bool.not_eq_true', bne_iff_ne] at h
  exact ⟨hne, fun c hc => (h c hc).1, fun c hc => (h c hc).2⟩

/-- White space before a word is skipped, and the word ends at white space. -/
lemma scanToken_word {w : Bytes} (hw : IsWord w) {c : UInt8} (hc : isspace c = true)
    {pre : Bytes} (hpre : ∀ x ∈ pre, isspace x = true) (rest : Bytes) :
    scanToken (pre ++ (w ++ c :: rest)) = (w, c :: rest) := by
  have hskip : (pre ++ (w ++ c :: rest)).dropWhile isspace = w ++ c :: rest := by
    rw [List.dropWhile_append_of_pos hpre]
    obtain ⟨x, w, rfl⟩ := List.exists_cons_of_ne_nil hw.ne_nil
    rw [List.cons_append, List.dropWhile_cons_of_neg]
    simp [hw.not_space x (by simp)]
  have hword : ∀ x ∈ w, (!isspace x) = true := fun x hx => by simp [hw.not_space x hx]
  rw [scanToken, hskip, List.takeWhile_append_of_pos hword, List.dropWhile_append_of_pos hword,
    List.takeWhile_cons_of_neg (by simp [hc]), List.dropWhile_cons_of_neg (by simp [hc]),
    List.append_nil]

/-- Where no word is read, the end of the text is reached. -/
lemma scanToken_eq_nil {s : Bytes} (h : (scanToken s).1 = []) : scanToken s = ([], []) := by
  cases hs : s.dropWhile isspace with
  | nil => simp [scanToken, hs]
  | cons c t =>
      have hc : isspace c = false := by
        have hhead := List.head?_dropWhile_not isspace s
        rw [hs] at hhead
        simpa using hhead
      simp [scanToken, hs, hc] at h

end CString
