import ProxyMax.Compression.Headers

/-!
`compression_add_encoding_header` of `src/protocols/compression.c`.

* `compressionAddEncodingHeader`: the code, with every access to the buffer checked.
* `EncodingCall`, `PureInsertion`: a response in its buffer and the name of an encoding, and
  what the function should do with them.
* `add_of_held`, `add_of_room`, `add_of_no_room`: what it does.
* `pureInsertion_iff`: it does what it should just when the response has the field, or does
  not hold its name anywhere.
-/

namespace ProxyMax

open CString

/-- The name of the field. -/
def contentEncoding : Bytes := ascii "Content-Encoding:"

/-- The line of the field. -/
def encodingLine (name : Bytes) : Bytes := ascii "Content-Encoding: " ++ (name ++ crlf)

section Code

variable {n : ℕ}

/-- `compression_add_encoding_header`, for a buffer of `n` bytes. -/
def compressionAddEncodingHeader (response : Block n) (encoding : Bytes) :
    Except OutOfBounds (ℤ × Block n) := do
  let text ← response.string
  match strstr text crlf with
  | none => pure (-1, response)
  | some found =>
      let headerStart := text.length - found.length + 2
      if strcasestr text contentEncoding ≠ none then pure (0, response)
      else
        let header := snprintf 128 (encodingLine encoding)
        if text.length + header.length ≥ n then pure (-1, response)
        else do
          let moved ← response.move (headerStart + header.length) headerStart
            (text.length - headerStart + 1)
          let response ← moved.patch headerStart header
          pure (0, response)

end Code

/-- A response, the name of an encoding, and what follows the NUL in the buffer. -/
structure EncodingCall where
  response : Response
  name : Bytes
  spare : Bytes
  name_not_nul : ∀ c ∈ name, c ≠ 0
  name_length : name.length ≤ 100

namespace EncodingCall

variable (call : EncodingCall)

/-- What the function does. -/
def result : Except OutOfBounds (ℤ × Block (call.response.text.length + (call.spare.length + 1))) :=
  compressionAddEncodingHeader (call.response.buffer call.spare) call.name

/-- The response with the line after its status line. -/
def inserted : Bytes :=
  call.response.status ++ (crlf ++ (encodingLine call.name ++ call.response.rest))

/-- **A pure insertion**: the field is in the header section afterwards, of the response as it
was or with the one line more; or the call fails and changes nothing. -/
def PureInsertion : Prop :=
  ∃ ret after, call.result = .ok (ret, after) ∧
    (ret = 0 → ∃ text, after.string = .ok text ∧
      (∃ line ∈ headerLines text, HasName contentEncoding line) ∧
      (text = call.response.text ∧ call.response.HasField contentEncoding ∨
        text = call.inserted)) ∧
    (ret = -1 → after = call.response.buffer call.spare)

/-! ### What the function does -/

lemma strstr_text : strstr call.response.text crlf = some (crlf ++ call.response.rest) :=
  strstr_append_of_none (by decide) call.response.status_line.no_end call.response.rest

lemma headerStart_eq :
    call.response.text.length - (crlf ++ call.response.rest).length + 2 =
      (call.response.status ++ crlf).length := by
  rw [Response.text, List.length_append, Nat.add_sub_cancel, List.length_append]
  rfl

/-- The line fits its array. -/
lemma snprintf_line : snprintf 128 (encodingLine call.name) = encodingLine call.name := by
  refine List.take_of_length_le ?_
  have hlen : (encodingLine call.name).length = 18 + (call.name.length + 2) := by
    rw [encodingLine, List.length_append, List.length_append]
    rfl
  have hname := call.name_length
  omega

/-- The result, after the search for the end of the status line. -/
lemma result_eq : call.result =
    if strcasestr call.response.text contentEncoding ≠ none then
      .ok (0, call.response.buffer call.spare)
    else if call.response.text.length + (encodingLine call.name).length ≥
        call.response.text.length + (call.spare.length + 1) then
      .ok (-1, call.response.buffer call.spare)
    else
      ((call.response.buffer call.spare).move
        ((call.response.status ++ crlf).length + (encodingLine call.name).length)
        (call.response.status ++ crlf).length
        (call.response.text.length - (call.response.status ++ crlf).length + 1)).bind fun moved =>
          (moved.patch (call.response.status ++ crlf).length (encodingLine call.name)).map fun b =>
            (0, b) := by
  rw [result, compressionAddEncodingHeader, Response.string_buffer]
  simp only [bind, Except.bind, call.strstr_text, call.headerStart_eq, call.snprintf_line]
  rfl

/-- The name of the field is somewhere in the response. -/
lemma result_of_holds (h : Holds contentEncoding call.response.text) :
    call.result = .ok (0, call.response.buffer call.spare) := by
  rw [result_eq, if_pos (strcasestr_ne_none_iff.mpr h)]

lemma result_of_no_room (h : ¬Holds contentEncoding call.response.text)
    (hroom : call.spare.length + 1 ≤ (encodingLine call.name).length) :
    call.result = .ok (-1, call.response.buffer call.spare) := by
  rw [result_eq, if_neg fun hne => h (strcasestr_ne_none_iff.mp hne), if_pos (by omega)]

/-- **The line is inserted** where it fits. -/
lemma result_of_room (h : ¬Holds contentEncoding call.response.text)
    (hroom : (encodingLine call.name).length ≤ call.spare.length) :
    ∃ after rest, call.result = .ok (0, after) ∧ after.val = call.inserted ++ 0 :: rest := by
  have hval : (call.response.buffer call.spare).val = (call.response.status ++ crlf) ++
      ([] ++ ((call.response.rest ++ [0]) ++ call.spare)) := by
    simp [Response.buffer, Response.text]
  have hcount : call.response.text.length - (call.response.status ++ crlf).length + 1 =
      (call.response.rest ++ [0]).length := by
    simp only [Response.text, List.length_append, List.length_singleton]
    omega
  have hfit : (call.response.status ++ crlf).length + (encodingLine call.name).length +
      (call.response.rest ++ [0]).length ≤ call.response.text.length + (call.spare.length + 1) := by
    simp only [Response.text, List.length_append, List.length_singleton] at *
    omega
  obtain ⟨moved, after, rest, hmove, hpatch, hafter⟩ :=
    Block.move_patch hval (Nat.zero_le _) hfit
  refine ⟨after, rest, ?_, ?_⟩
  · rw [result_eq, if_neg fun hne => h (strcasestr_ne_none_iff.mp hne), if_neg (by omega), hcount]
    simp only [List.length_nil, Nat.add_zero] at hmove
    rw [hmove, Except.bind, hpatch]
    rfl
  · rw [hafter, inserted]
    simp

/-! ### The header section -/

/-- A line that begins with a text without a carriage return. -/
lemma exists_sectionLines {a s : Bytes} (ha : (13 : UInt8) ∉ a) (hne : a ≠ [])
    (hs : strstr s crlf ≠ none) (fuel : ℕ) :
    ∃ l ls, sectionLines (fuel + 1) (a ++ s) = (a ++ l) :: ls := by
  obtain ⟨found, hfound⟩ := Option.ne_none_iff_exists'.mp hs
  have hsame : strstr (a ++ s) crlf = some found :=
    (strstr_append_of_not_mem ha [10] s).trans hfound
  have hle : found.length ≤ s.length := (strFind_eq_some hfound).1.length_le
  have htake : (a ++ s).take ((a ++ s).length - found.length) =
      a ++ s.take (s.length - found.length) := by
    have hcount : (a ++ s).length - found.length = a.length + (s.length - found.length) := by
      rw [List.length_append]
      omega
    rw [hcount, List.take_length_add_append]
  rw [sectionLines, hsame]
  simp only [htake, List.append_eq_nil_iff, hne, false_and, if_false]
  exact ⟨_, _, rfl⟩

/-- The inserted line is in the header section. -/
lemma exists_inserted_line :
    ∃ line ∈ headerLines call.inserted, HasName contentEncoding line := by
  obtain ⟨n, hn⟩ : ∃ n, call.inserted.length = n + 2 := by
    refine ⟨call.inserted.length - 2, ?_⟩
    have hlen : call.inserted.length = call.response.status.length + (2 +
        (encodingLine call.name ++ call.response.rest).length) := by
      simp only [inserted, crlf, List.length_append, List.length_cons, List.length_nil]
    omega
  have hline : encodingLine call.name ++ call.response.rest =
      ascii "Content-Encoding: " ++ (call.name ++ (crlf ++ call.response.rest)) := by
    simp [encodingLine]
  obtain ⟨l, ls, hlines⟩ := exists_sectionLines (a := ascii "Content-Encoding: ")
    (by decide +kernel) (by decide +kernel)
    (strstr_append_ne_none call.name crlf call.response.rest) n
  refine ⟨ascii "Content-Encoding: " ++ l, ?_, ?_⟩
  · rw [headerLines, hn, inserted, sectionLines_cons call.response.status_line
      call.response.status_ne, List.tail_cons, hline, hlines]
    exact List.mem_cons_self
  · have hname : (ascii "Content-Encoding: ").take contentEncoding.length = contentEncoding := by
      decide +kernel
    rw [HasName, List.take_append_of_le_length (by decide +kernel), hname]

lemma inserted_not_nul : ∀ c ∈ call.inserted, c ≠ 0 := by
  have hname : ∀ c ∈ ascii "Content-Encoding: ", c ≠ 0 := by decide +kernel
  intro c hc
  simp only [inserted, encodingLine, List.mem_append] at hc
  rcases hc with hc | hc | (hc | hc | hc) | hc
  · exact call.response.status_line.not_nul c hc
  · exact crlf_not_nul hc
  · exact hname c hc
  · exact call.name_not_nul c hc
  · exact crlf_not_nul hc
  · exact call.response.rest_not_nul c hc

end EncodingCall

/-- **The insertion is pure** if and only if the header section has the field already, or its
name is nowhere in the response. -/
theorem pureInsertion_iff (call : EncodingCall) :
    call.PureInsertion ↔ call.response.HasField contentEncoding ∨
      ¬Holds contentEncoding call.response.text := by
  by_cases hholds : Holds contentEncoding call.response.text
  · rw [EncodingCall.PureInsertion, call.result_of_holds hholds]
    constructor
    · rintro ⟨ret, after, hresult, hzero, -⟩
      obtain ⟨hret, hafter⟩ := Prod.mk.inj (Except.ok.inj hresult)
      obtain ⟨text, hstring, hline, -⟩ := hzero hret.symm
      rw [← hafter, Response.string_buffer] at hstring
      rw [← Except.ok.inj hstring, Response.headerLines_text] at hline
      exact .inl hline
    · intro hor
      have hfield := hor.resolve_right fun hno => hno hholds
      refine ⟨0, _, rfl, fun _ => ⟨call.response.text, call.response.string_buffer call.spare, ?_,
        .inl ⟨rfl, hfield⟩⟩, fun hret => absurd hret (by decide)⟩
      rw [Response.headerLines_text]
      exact hfield
  · refine iff_of_true ?_ (.inr hholds)
    rcases Nat.lt_or_ge call.spare.length (encodingLine call.name).length with hlong | hfits
    · exact ⟨-1, _, call.result_of_no_room hholds hlong, fun hret => absurd hret (by decide),
        fun _ => rfl⟩
    · obtain ⟨after, rest, hresult, hval⟩ := call.result_of_room hholds hfits
      have hstring : after.string = .ok call.inserted :=
        Block.string_of_not_nul hval call.inserted_not_nul
      exact ⟨0, after, hresult, fun _ => ⟨call.inserted, hstring, call.exists_inserted_line,
        .inr rfl⟩, fun hret => absurd hret (by decide)⟩

/-- A response whose body quotes the field. -/
def quotingResponse : Response where
  status := statusOk
  headers := [ascii "Content-Type: text/plain"]
  body := ascii "Content-Encoding: none"
  status_line := isLine_statusOk
  status_ne := statusOk_ne_nil
  header_lines l hl := by
    rw [List.mem_singleton.mp hl]
    exact ⟨⟨by decide +kernel, by decide +kernel⟩, by decide +kernel⟩
  body_not_nul := by decide +kernel

/-- The response in a large buffer, to be marked as compressed. -/
def quotingCall : EncodingCall where
  response := quotingResponse
  name := ascii "gzip"
  spare := List.replicate 100 0
  name_not_nul := by decide +kernel
  name_length := by decide +kernel

/-- The call succeeds, but the response is not marked. -/
theorem quoted_field_not_added :
    quotingCall.result = .ok (0, quotingResponse.buffer quotingCall.spare) ∧
      (∀ line ∈ headerLines quotingResponse.text, ¬HasName contentEncoding line) ∧
      ¬quotingCall.PureInsertion := by
  have hresult : quotingCall.result = .ok (0, quotingResponse.buffer quotingCall.spare) :=
    quotingCall.result_of_holds (strcasestr_ne_none_iff.mp (by decide +kernel))
  have hlines : ∀ line ∈ headerLines quotingResponse.text, ¬HasName contentEncoding line := by
    rw [quotingResponse.headerLines_text]
    decide +kernel
  refine ⟨hresult, hlines, ?_⟩
  rintro ⟨ret, after, hpure, hzero, -⟩
  obtain ⟨hret, hafter⟩ := Prod.mk.inj (Except.ok.inj (hresult.symm.trans hpure))
  obtain ⟨text, hstring, ⟨line, hline, hname⟩, -⟩ := hzero hret.symm
  rw [← hafter] at hstring
  have htext : quotingResponse.text = text :=
    Except.ok.inj ((quotingResponse.string_buffer quotingCall.spare).symm.trans hstring)
  rw [← htext] at hline
  exact hlines line hline hname

end ProxyMax
