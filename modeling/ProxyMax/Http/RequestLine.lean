import ProxyMax.Http.Arrays
import ProxyMax.Lib.Scanning

/-!
The request line, and what `sscanf` takes for it.

* `requestWords_eq`: the words that are read are the first three of the whole text.
* `ParsesFirstLine`: a request is parsed only if its first line has three words, and
  these are the ones returned.
* `parsesFirstLine_iff`: the texts of which that is true; `borrowed_version` is one of
  which it is not.
-/

namespace ProxyMax

open CString

/-- The text before the first line end, the whole of it where there is none. -/
def firstLine (s : Bytes) : Bytes := s.take (s.length - ((strstr s crlf).getD []).length)

/-- Whenever the text is parsed, its first line has exactly three words, the method, the URL
and the version. -/
def ParsesFirstLine (s : Bytes) : Prop :=
  ∀ host port request, httpParseRequest s host port = .ok (some request) →
    tokens (firstLine s) = [request.method, request.url, request.version]

/-- **The words that are read**: the first three of the text, empty where there are fewer. -/
lemma requestWords_eq (s : Bytes) :
    requestWords s = ((tokens s).headD [], (tokens s).tail.headD [],
      (tokens s).tail.tail.headD []) := by
  simp only [headD_tokens, tail_tokens]
  rfl

/-- The text goes on at the line end. -/
lemma firstLine_append {s t : Bytes} (h : strstr s crlf = some t) :
    ∃ rest, s = firstLine s ++ crlf ++ rest := by
  obtain ⟨⟨a, rfl⟩, hp⟩ := strFind_eq_some h
  have hline : firstLine (a ++ t) = a := by
    rw [firstLine, h, Option.getD_some, List.length_append, Nat.add_sub_cancel, List.take_left]
  obtain ⟨rest, rfl⟩ : crlf <+: t := of_decide_eq_true hp ▸ List.take_prefix _ t
  exact ⟨rest, by rw [hline, List.append_assoc]⟩

/-- The words of the first line are the first ones of the text. -/
lemma tokens_firstLine {s : Bytes} (h : strstr s crlf ≠ none) :
    ∃ rest, tokens s = tokens (firstLine s) ++ tokens rest := by
  obtain ⟨t, ht⟩ := Option.ne_none_iff_exists'.mp h
  obtain ⟨rest, hs⟩ := firstLine_append ht
  refine ⟨10 :: rest, ?_⟩
  conv_lhs => rw [hs, List.append_assoc]
  exact tokens_append (firstLine s) (c := 13) rfl (10 :: rest)

/-- A text that is parsed has a line end. -/
lemma strstr_ne_none_of_parsed {s host : Bytes} {port : ℤ} {request : Request}
    (h : httpParseRequest s host port = .ok (some request)) : strstr s crlf ≠ none := by
  intro hnone
  rw [httpParseRequest, if_pos hnone] at h
  cases h

/-- The words of a text that is parsed fit. -/
lemma wordsFit_of_parsed {s host : Bytes} {port : ℤ} {request : Request}
    (h : httpParseRequest s host port = .ok (some request)) : WordsFit (requestWords s) := by
  by_contra hunfit
  have herror : httpParseRequest s host port = .error .overrun :=
    httpParseRequest_error_iff.mpr ⟨strstr_ne_none_of_parsed h, hunfit, rfl⟩
  rw [h] at herror
  cases herror

/-- There is a third word where there are three. -/
lemma third_word_eq_nil_iff (s : Bytes) : (requestWords s).2.2 = [] ↔ (tokens s).length < 3 := by
  rw [requestWords_eq]
  have hne : ∀ w ∈ tokens s, w ≠ [] := fun w => ne_nil_of_mem_tokens
  rcases htokens : tokens s with _ | ⟨method, _ | ⟨url, _ | ⟨version, rest⟩⟩⟩
  · simp
  · simp
  · simp
  · rw [htokens] at hne
    simp [hne version (by simp)]

/-- **The request line.** The law of the first line holds of a text if and only if its first
line has three words, or the text is not parsed: it has no line end, or less than three words
at all, or one that is too long. -/
theorem parsesFirstLine_iff (s : Bytes) :
    ParsesFirstLine s ↔
      (tokens (firstLine s)).length = 3 ∨ strstr s crlf = none ∨ (tokens s).length < 3 ∨
        ¬WordsFit (requestWords s) := by
  constructor
  · intro hlaw
    by_contra hcon
    simp only [not_or, not_not] at hcon
    obtain ⟨hthree, hline, hwords, hfit⟩ := hcon
    rw [← third_word_eq_nil_iff] at hwords
    obtain ⟨request, hparse⟩ := exists_parsed hline hfit hwords [] 80
    exact hthree (by rw [hlaw [] 80 request hparse]; rfl)
  · intro hcond host port request hparse
    obtain ⟨hwords, hversion⟩ := requestWords_of_parsed hparse
    have hline := strstr_ne_none_of_parsed hparse
    rcases hcond with hthree | hnone | hfew | hunfit
    · obtain ⟨rest, htokens⟩ := tokens_firstLine hline
      obtain ⟨method, url, version, hfirst⟩ := List.length_eq_three.mp hthree
      rw [requestWords_eq, htokens, hfirst] at hwords
      simp only [List.cons_append, List.headD_cons, List.tail_cons, Prod.mk.injEq] at hwords
      rw [hfirst, hwords.1, hwords.2.1, hwords.2.2]
    · exact absurd hnone hline
    · have hthird := (third_word_eq_nil_iff s).mpr hfew
      rw [hwords] at hthird
      exact absurd hthird hversion
    · exact absurd (wordsFit_of_parsed hparse) hunfit

/-- The version is missing, and the first word of the next line is taken for it. -/
theorem borrowed_version :
    (∃ request, httpParseRequest (ascii "GET /\r\nHost: a\r\n\r\n") [] 80 = .ok (some request) ∧
        request.version = ascii "Host:") ∧
      ¬ParsesFirstLine (ascii "GET /\r\nHost: a\r\n\r\n") := by
  have hparse : httpParseRequest (ascii "GET /\r\nHost: a\r\n\r\n") [] 80 =
      .ok (some ⟨ascii "GET", ascii "/", ascii "Host:", ascii "a", 80⟩) := by
    decide +kernel
  have hfirst : tokens (firstLine (ascii "GET /\r\nHost: a\r\n\r\n")) =
      [ascii "GET", ascii "/"] := by
    decide +kernel
  refine ⟨⟨_, hparse, rfl⟩, fun hlaw => ?_⟩
  have hthree := congrArg List.length (hlaw [] 80 _ hparse)
  rw [hfirst] at hthree
  cases hthree

end ProxyMax
