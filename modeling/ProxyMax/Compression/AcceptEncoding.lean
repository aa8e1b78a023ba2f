import ProxyMax.Compression.Headers

/-!
`compression_check_accept_encoding` of `src/protocols/compression.c`.

* `compressionCheckAcceptEncoding`: the code.
* `Names`: a value of `Accept-Encoding` names a coding; `verdict` is what should follow from
  the value.
* `OwnValue`: two blocks of header lines with the same field have the same result, which is that
  of the value.
* `ownValue_iff`: this holds just when no other text that is searched names a coding.
-/

namespace ProxyMax

open CString

/-- `compression_type_t`. -/
inductive CompressionType where
  | none
  | gzip
  | deflate
deriving DecidableEq, Repr

/-- The name of the field. -/
def acceptEncoding : Bytes := ascii "Accept-Encoding:"

/-- `compression_check_accept_encoding`. -/
def compressionCheckAcceptEncoding (headers : Bytes) : CompressionType :=
  match strcasestr headers acceptEncoding with
  | none => .none
  | some found =>
      if strcasestr found (ascii "gzip") ≠ none then .gzip
      else if strcasestr found (ascii "deflate") ≠ none then .deflate
      else .none

/-! ### What a value names -/

/-- An element of the value without its parameters and the white space around it. -/
def codingOf (element : Bytes) : Bytes :=
  ((element.takeWhile (· ≠ 59)).dropWhile isOws).rdropWhile isOws

/-- One of the elements of the value, which commas divide, is the coding. -/
def Names (value coding : Bytes) : Prop :=
  ∃ element ∈ value.splitOn 44, (codingOf element).map tolower = coding.map tolower

instance (value coding : Bytes) : Decidable (Names value coding) :=
  inferInstanceAs (Decidable (∃ element ∈ _, _))

/-- What follows from the value of the field. -/
def verdict : Option (FieldLine acceptEncoding) → CompressionType
  | none => .none
  | some field =>
      if Names field.value (ascii "gzip") then .gzip
      else if Names field.value (ascii "deflate") then .deflate
      else .none

lemma infix_intercalate {sep l : Bytes} {ls : List Bytes} (h : l ∈ ls) :
    l <:+: sep.intercalate ls := by
  induction ls with
  | nil => exact absurd h List.not_mem_nil
  | cons l' ls ih =>
      rcases eq_or_ne ls [] with rfl | hne
      · rw [List.mem_singleton.mp h, List.intercalate_singleton]
      · rw [List.intercalate_cons_of_ne_nil hne]
        rcases List.mem_cons.mp h with rfl | h
        · exact ⟨[], sep ++ sep.intercalate ls, by simp⟩
        · exact (ih h).trans (List.suffix_append _ _).isInfix

/-- A value that names a coding holds its name. -/
lemma Names.holds {value coding : Bytes} (h : Names value coding) : Holds coding value := by
  obtain ⟨element, hmem, hname⟩ := h
  have helement : element <:+: value := by
    have hinfix : element <:+: [44].intercalate (value.splitOn 44) := infix_intercalate hmem
    rwa [List.intercalate_splitOn] at hinfix
  have hcoding : codingOf element <:+: element :=
    (List.rdropWhile_prefix _ _).isInfix.trans
      ((List.dropWhile_suffix _).isInfix.trans (List.takeWhile_prefix _).isInfix)
  rw [Holds, ← hname]
  exact (hcoding.trans helement).map tolower

/-! ### The result -/

/-- The header lines as a text. -/
def headerBlock (field : Option (FieldLine acceptEncoding)) (others : OtherLines acceptEncoding) :
    Bytes :=
  fieldLines (others.lines field)

/-- With either of the other lines the result is that of the value. -/
def OwnValue (field : Option (FieldLine acceptEncoding)) (x y : OtherLines acceptEncoding) : Prop :=
  compressionCheckAcceptEncoding (headerBlock field x) =
      compressionCheckAcceptEncoding (headerBlock field y) ∧
    compressionCheckAcceptEncoding (headerBlock field x) = verdict field

/-- The field is there, and its value names the coding. -/
def FieldNames (field : Option (FieldLine acceptEncoding)) (coding : Bytes) : Prop :=
  ∃ f, field = some f ∧ Names f.value coding

/-- The text from the first `Accept-Encoding:` on, wherever that is, holds no `gzip` unless the
value names it, and no `deflate` unless the value names one of the two. -/
def NotMisled (field : Option (FieldLine acceptEncoding)) (others : OtherLines acceptEncoding) :
    Prop :=
  ∀ found, strcasestr (headerBlock field others) acceptEncoding = some found →
    FieldNames field (ascii "gzip") ∨
      ¬Holds (ascii "gzip") found ∧
        (FieldNames field (ascii "deflate") ∨ ¬Holds (ascii "deflate") found)

section Result

variable {field : Option (FieldLine acceptEncoding)} {others : OtherLines acceptEncoding}

/-- What follows from the value, by what it names. -/
lemma verdict_of_gzip (h : FieldNames field (ascii "gzip")) : verdict field = .gzip := by
  obtain ⟨f, rfl, hnames⟩ := h
  rw [verdict, if_pos hnames]

lemma verdict_of_deflate (hno : ¬FieldNames field (ascii "gzip"))
    (h : FieldNames field (ascii "deflate")) : verdict field = .deflate := by
  obtain ⟨f, rfl, hnames⟩ := h
  rw [verdict, if_neg fun hgzip => hno ⟨f, rfl, hgzip⟩, if_pos hnames]

lemma verdict_of_neither (hno : ¬FieldNames field (ascii "gzip"))
    (hno' : ¬FieldNames field (ascii "deflate")) : verdict field = .none := by
  cases field with
  | none => rfl
  | some f =>
      rw [verdict, if_neg fun hgzip => hno ⟨f, rfl, hgzip⟩,
        if_neg fun hdeflate => hno' ⟨f, rfl, hdeflate⟩]

/-- What the value names is in the text that is searched. -/
lemma FieldNames.holds {coding : Bytes} (h : FieldNames field coding)
    (others : OtherLines acceptEncoding) :
    ∃ found, strcasestr (headerBlock field others) acceptEncoding = some found ∧
      Holds coding found := by
  obtain ⟨f, rfl, hnames⟩ := h
  obtain ⟨found, hfound, hsuffix⟩ := strcasestr_fieldLine f (fieldLines others.before)
    (crlf ++ fieldLines others.after)
  refine ⟨found, ?_, hnames.holds.mono ?_⟩
  · rw [headerBlock, fieldLines_some, hfound]
  · have hvalue : f.value <:+: f.text := (List.drop_suffix _ _).isInfix
    calc f.value <:+: f.text := hvalue
      _ <:+: f.text ++ (crlf ++ fieldLines others.after) := (List.prefix_append _ _).isInfix
      _ <:+: found := hsuffix.isInfix

/-- The result, where something is found. -/
lemma compressionCheckAcceptEncoding_of_found {headers found : Bytes}
    (h : strcasestr headers acceptEncoding = some found) :
    compressionCheckAcceptEncoding headers =
      if strcasestr found (ascii "gzip") ≠ none then .gzip
      else if strcasestr found (ascii "deflate") ≠ none then .deflate
      else .none := by
  rw [compressionCheckAcceptEncoding, h]

/-- **The text that is searched** gives what follows from the value just when it holds no coding
that the value does not name. -/
lemma search_eq_verdict_iff {found : Bytes}
    (hholds : ∀ coding, FieldNames field coding → Holds coding found) :
    (if strcasestr found (ascii "gzip") ≠ none then CompressionType.gzip
      else if strcasestr found (ascii "deflate") ≠ none then .deflate
      else .none) = verdict field ↔
      FieldNames field (ascii "gzip") ∨ ¬Holds (ascii "gzip") found ∧
        (FieldNames field (ascii "deflate") ∨ ¬Holds (ascii "deflate") found) := by
  by_cases hgzip : FieldNames field (ascii "gzip")
  · rw [if_pos (strcasestr_ne_none_iff.mpr (hholds _ hgzip)), verdict_of_gzip hgzip]
    exact iff_of_true rfl (.inl hgzip)
  by_cases hseen : Holds (ascii "gzip") found
  · -- `gzip` is found elsewhere
    rw [if_pos (strcasestr_ne_none_iff.mpr hseen)]
    refine iff_of_false ?_ fun h => (h.resolve_left hgzip).1 hseen
    by_cases hdeflate : FieldNames field (ascii "deflate")
    · rw [verdict_of_deflate hgzip hdeflate]
      decide
    · rw [verdict_of_neither hgzip hdeflate]
      decide
  rw [if_neg fun h => hseen (strcasestr_ne_none_iff.mp h)]
  by_cases hdeflate : FieldNames field (ascii "deflate")
  · rw [if_pos (strcasestr_ne_none_iff.mpr (hholds _ hdeflate)),
      verdict_of_deflate hgzip hdeflate]
    exact iff_of_true rfl (.inr ⟨hseen, .inl hdeflate⟩)
  rw [verdict_of_neither hgzip hdeflate]
  by_cases hother : Holds (ascii "deflate") found
  · rw [if_pos (strcasestr_ne_none_iff.mpr hother)]
    refine iff_of_false (by decide) fun h => ?_
    exact ((h.resolve_left hgzip).2.resolve_left hdeflate) hother
  · rw [if_neg fun h => hother (strcasestr_ne_none_iff.mp h)]
    exact iff_of_true rfl (.inr ⟨hseen, .inr hother⟩)

/-- **One block**: its result is that of the value just when nothing else misleads the search. -/
lemma result_eq_verdict_iff :
    compressionCheckAcceptEncoding (headerBlock field others) = verdict field ↔
      NotMisled field others := by
  cases hfound : strcasestr (headerBlock field others) acceptEncoding with
  | none =>
      have hnames : ∀ coding, ¬FieldNames field coding := by
        intro coding h
        obtain ⟨found, hsome, -⟩ := h.holds others
        rw [hfound] at hsome
        cases hsome
      refine iff_of_true ?_ fun found hsome => ?_
      · rw [verdict_of_neither (hnames _) (hnames _), compressionCheckAcceptEncoding, hfound]
      · rw [hfound] at hsome
        cases hsome
  | some found =>
      have hholds : ∀ coding, FieldNames field coding → Holds coding found := by
        intro coding h
        obtain ⟨found', hsome, hin⟩ := h.holds others
        rw [hfound] at hsome
        rwa [Option.some.inj hsome]
      rw [compressionCheckAcceptEncoding_of_found hfound, search_eq_verdict_iff hholds]
      simp only [NotMisled, hfound, Option.some.injEq, forall_eq']

end Result

/-- **The value decides** for two blocks with the same field if and only if in neither of them
other text that is searched names a coding. -/
theorem ownValue_iff (field : Option (FieldLine acceptEncoding))
    (x y : OtherLines acceptEncoding) :
    OwnValue field x y ↔ NotMisled field x ∧ NotMisled field y := by
  rw [← result_eq_verdict_iff, ← result_eq_verdict_iff, OwnValue]
  constructor
  · rintro ⟨hsame, hvalue⟩
    exact ⟨hvalue, hsame.symm.trans hvalue⟩
  · rintro ⟨hx, hy⟩
    exact ⟨hx.trans hy.symm, hx⟩

/-- A client that accepts no coding. -/
def identityField : FieldLine acceptEncoding where
  text := ascii "Accept-Encoding: identity"
  is_line := ⟨by decide +kernel, by decide +kernel⟩
  has_name := by decide +kernel

/-- No other header line. -/
def noOthers : OtherLines acceptEncoding where
  before := []
  after := []
  before_other _ h := absurd h List.not_mem_nil
  after_other _ h := absurd h List.not_mem_nil

lemma otherLine_tool : OtherLine acceptEncoding (ascii "X-Tool: gzip") where
  is_line := ⟨by decide +kernel, by decide +kernel⟩
  ne_nil := by decide +kernel
  not_name := by decide +kernel

/-- A header line after the field that names a coding. -/
def toolLine : OtherLines acceptEncoding where
  before := []
  after := [ascii "X-Tool: gzip"]
  before_other _ h := absurd h List.not_mem_nil
  after_other _ h := List.mem_singleton.mp h ▸ otherLine_tool

/-- Another header decides. -/
theorem other_header_decides :
    compressionCheckAcceptEncoding (headerBlock (some identityField) noOthers) = .none ∧
      compressionCheckAcceptEncoding (headerBlock (some identityField) toolLine) = .gzip ∧
      ¬OwnValue (some identityField) noOthers toolLine := by
  have hnone : compressionCheckAcceptEncoding (headerBlock (some identityField) noOthers) =
      .none := by decide +kernel
  have hgzip : compressionCheckAcceptEncoding (headerBlock (some identityField) toolLine) =
      .gzip := by decide +kernel
  refine ⟨hnone, hgzip, fun hown => ?_⟩
  have hsame := hown.1
  rw [hnone, hgzip] at hsame
  cases hsame

end ProxyMax
