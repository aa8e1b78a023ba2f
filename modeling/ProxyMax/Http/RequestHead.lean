import ProxyMax.Http.Parse

/-!
The requests that clients send, and what `http_parse_request` makes of them.

* `RequestHead`: a request line and the lines after it.
* `RequestHead.Fits`: its words fit the arrays of the handler.
* `httpParseRequest_text`, `httpParseRequest_overrun`: the parse of a request.
* `httpParseRequest_part`: the parse of a part of it from its start.
-/

namespace ProxyMax

open CString

/-- The head of a request: the words of the request line, and everything after its line
end. -/
structure RequestHead where
  method : Bytes
  url : Bytes
  version : Bytes
  fields : Bytes
  method_word : IsWord method
  url_word : IsWord url
  version_word : IsWord version

namespace RequestHead

/-- The request line. -/
def line (head : RequestHead) : Bytes := head.method ++ 32 :: (head.url ++ 32 :: head.version)

/-- The bytes of the head. -/
def bytes (head : RequestHead) : Bytes := head.line ++ (crlf ++ head.fields)

/-- The words fit the arrays `method`, `url` and `version`. -/
def Fits (head : RequestHead) : Prop :=
  head.method.length < 16 ∧ head.url.length < maxPath ∧ head.version.length < 16

instance (head : RequestHead) : Decidable head.Fits := inferInstanceAs (Decidable (_ ∧ _ ∧ _))

variable (head : RequestHead)

lemma line_ne_nul : ∀ c ∈ head.line, c ≠ 0 := by
  intro c hc
  simp only [line, List.mem_append, List.mem_cons] at hc
  rcases hc with hc | rfl | hc | rfl | hc
  · exact head.method_word.not_nul c hc
  · exact ne_of_beq_false rfl
  · exact head.url_word.not_nul c hc
  · exact ne_of_beq_false rfl
  · exact head.version_word.not_nul c hc

/-- There is no line feed in the request line. -/
lemma line_ne_lf : ∀ c ∈ head.line, c ≠ 10 := by
  have hspace : ∀ {w : Bytes}, IsWord w → ∀ c ∈ w, c ≠ 10 := by
    rintro w hw c hc rfl
    exact absurd (hw.not_space 10 hc) (by decide)
  intro c hc
  simp only [line, List.mem_append, List.mem_cons] at hc
  rcases hc with hc | rfl | hc | rfl | hc
  · exact hspace head.method_word c hc
  · exact ne_of_beq_false rfl
  · exact hspace head.url_word c hc
  · exact ne_of_beq_false rfl
  · exact hspace head.version_word c hc

/-- The text that starts with the head. -/
lemma cstr_text (rest : Bytes) :
    cstr (head.line ++ (crlf ++ rest)) = head.line ++ (crlf ++ cstr rest) := by
  rw [cstr_append head.line_ne_nul, cstr_append (by simp [crlf])]

/-- The head and the bytes after it, as the parser sees them. -/
lemma bytes_append (extra : Bytes) :
    head.bytes ++ extra = head.line ++ (crlf ++ (head.fields ++ extra)) := by
  simp [bytes]

lemma length_pos (extra : Bytes) :
    0 < (head.bytes ++ extra).length := by
  simp [bytes, crlf]

end RequestHead

/-- A word is read into its array, if it fits. -/
lemma scanWord_word {w : Bytes} (hw : IsWord w) {c : UInt8} (hc : isspace c = true) {pre : Bytes}
    (hpre : ∀ x ∈ pre, isspace x = true) (size : ℕ) (rest : Bytes) :
    scanWord size (pre ++ (w ++ c :: rest)) =
      if w.length < size then .ok (some (w, c :: rest)) else .error .overrun := by
  rw [scanWord, scanToken_word hw hc hpre]
  simp only [if_neg hw.ne_nil, ← not_lt, ite_not]

/-- The request line is read, if its words fit. -/
lemma scanRequestLine_line (head : RequestHead) (rest : Bytes) :
    scanRequestLine (head.line ++ (crlf ++ rest)) =
      if head.Fits then .ok (some (head.method, head.url, head.version))
      else .error .overrun := by
  have hspace : ∀ x ∈ [(32 : UInt8)], isspace x = true := by simp [isspace]
  have hline : head.line ++ (crlf ++ rest) =
      [] ++ (head.method ++ 32 :: (head.url ++ 32 :: (head.version ++ 13 :: 10 :: rest))) := by
    simp [RequestHead.line, crlf]
  have hempty : ∀ x ∈ ([] : Bytes), isspace x = true := by simp
  have hmethod := scanWord_word head.method_word (c := 32) rfl hempty 16
    (head.url ++ 32 :: (head.version ++ 13 :: 10 :: rest))
  have hurl := scanWord_word head.url_word (c := 32) rfl hspace maxPath
    (head.version ++ 13 :: 10 :: rest)
  have hversion := scanWord_word head.version_word (c := 13) rfl hspace 16 (10 :: rest)
  rw [List.singleton_append] at hurl hversion
  rw [hline, scanRequestLine, hmethod]
  by_cases hm : head.method.length < 16
  · rw [if_pos hm]
    simp only [bind, Except.bind, hurl]
    by_cases hu : head.url.length < maxPath
    · rw [if_pos hu]
      simp only [hversion]
      by_cases hv : head.version.length < 16
      · rw [if_pos hv, if_pos ⟨hm, hu, hv⟩]
        rfl
      · rw [if_neg hv, if_neg fun h => hv h.2.2]
    · rw [if_neg hu, if_neg fun h => hu h.2.1]
  · rw [if_neg hm, if_neg fun h => hm h.1]
    rfl

/-- **The parse of a request** that fits. -/
lemma httpParseRequest_text (head : RequestHead) (hfits : head.Fits) (rest host : Bytes)
    (port : ℤ) :
    ∃ request, httpParseRequest (cstr (head.line ++ (crlf ++ rest))) host port =
      .ok (some request) ∧ request.method = head.method ∧ request.url = head.url := by
  rw [head.cstr_text, httpParseRequest, if_neg (strstr_append_ne_none _ _ _),
    scanRequestLine_line, if_pos hfits]
  exact ⟨_, rfl, rfl, rfl⟩

/-- The parse of a request that does not fit. -/
lemma httpParseRequest_overrun (head : RequestHead) (hfits : ¬head.Fits) (rest host : Bytes)
    (port : ℤ) :
    httpParseRequest (cstr (head.line ++ (crlf ++ rest))) host port = .error .overrun := by
  rw [head.cstr_text, httpParseRequest, if_neg (strstr_append_ne_none _ _ _),
    scanRequestLine_line, if_neg hfits]
  rfl

/-- **The parse of a part** of a request from its start: it is rejected before the end of
the request line, and a request line is parsed as it is. -/
lemma httpParseRequest_part (head : RequestHead) {rest part : Bytes}
    (hpart : part <+: head.line ++ (crlf ++ rest)) (host : Bytes) (port : ℤ) :
    httpParseRequest (cstr part) host port = .ok none ∨
      ∃ rest', part = head.line ++ (crlf ++ rest') := by
  by_cases hlen : (head.line ++ crlf).length ≤ part.length
  · right
    rw [← List.append_assoc] at hpart
    obtain ⟨rest', rfl⟩ := List.prefix_of_prefix_length_le (List.prefix_append _ rest) hpart hlen
    exact ⟨rest', List.append_assoc ..⟩
  · left
    have hshort : part <+: head.line ++ [13] := by
      refine List.prefix_of_prefix_length_le hpart ⟨10 :: rest, by simp [crlf]⟩ ?_
      simp only [List.length_append, crlf, List.length_cons, List.length_nil] at hlen ⊢
      omega
    have hlf : (10 : UInt8) ∉ cstr part := by
      intro hmem
      rcases List.mem_append.mp (hshort.subset ((List.takeWhile_prefix _).subset hmem)) with h | h
      · exact head.line_ne_lf 10 h rfl
      · exact absurd h (by decide)
    rw [httpParseRequest, if_pos (strstr_eq_none (by decide) hlf)]
    rfl

lemma isWord_version : IsWord (ascii "HTTP/1.1") := isWord_of_all (by decide) (by decide)

end ProxyMax
