import ProxyMax.Compression.Headers
import ProxyMax.Lib.Decimal

/-!
`compression_update_content_length` of `src/protocols/compression.c`.

* `compressionUpdateContentLength`: the code, with every access to the buffer checked.
* `update_of_found`: what it does to the text that it takes for the field.
* `LengthUpdate`, `LengthUpdate.Updated`: a response with at most one `Content-Length`, and what
  the function should do with it.
* `updated_iff`: when it does.
-/

namespace ProxyMax

open CString

/-- The name of the field. -/
def contentLength : Bytes := ascii "Content-Length:"

/-- The line of the field, without its end. -/
def lengthLine (newLength : UInt64) : Bytes :=
  ascii "Content-Length: " ++ decimal newLength.toNat

/-- `compression_update_content_length`, for a buffer of `n` bytes. -/
def compressionUpdateContentLength {n : ℕ} (response : Block n) (newLength : UInt64) :
    Except OutOfBounds (ℤ × Block n) := do
  let text ← response.string
  match strcasestr text contentLength with
  | none => pure (0, response)
  | some found =>
      match strstr found crlf with
      | none => pure (-1, response)
      | some lineEnd =>
          let start := text.length - found.length
          let stop := text.length - lineEnd.length
          let newHeader := snprintf 128 (lengthLine newLength)
          let oldHeaderLen := stop - start
          if newHeader.length ≤ oldHeaderLen then do
            let placed ← response.patch start newHeader
            -- the loop that pads with spaces
            let padded ← placed.patch (start + newHeader.length)
              (List.replicate (oldHeaderLen - newHeader.length) 32)
            pure (0, padded)
          else do
            let shift := newHeader.length - oldHeaderLen
            let moved ← response.move (stop + shift) stop (text.length - stop + 1)
            let placed ← moved.patch start newHeader
            pure (0, placed)

/-! ### The new line -/

section Line

variable (newLength : UInt64)

lemma lengthLine_length_le : (lengthLine newLength).length ≤ 36 := by
  have hlt : newLength.toNat < 10 ^ 20 := newLength.toNat_lt.trans (by norm_num)
  have hdigits := decimal_length_le (by norm_num) hlt
  rw [lengthLine, List.length_append]
  have hname : (ascii "Content-Length: ").length = 16 := by decide +kernel
  omega

lemma snprintf_lengthLine : snprintf 128 (lengthLine newLength) = lengthLine newLength :=
  List.take_of_length_le ((lengthLine_length_le newLength).trans (by decide))

/-- The new line in the place of one of the given length: it is padded with spaces. -/
def newLine (length : ℕ) : Bytes :=
  lengthLine newLength ++ List.replicate (length - (lengthLine newLength).length) 32

/-- The text in the place of which the line is written is the line already. -/
lemma newLine_eq_iff (seg : Bytes) :
    newLine newLength seg.length = seg ↔
      ∃ k, seg = lengthLine newLength ++ List.replicate k 32 := by
  constructor
  · intro h
    exact ⟨_, h.symm⟩
  · rintro ⟨k, rfl⟩
    rw [newLine, List.length_append, List.length_replicate, Nat.add_sub_cancel_left]

lemma newLine_bytes (length : ℕ) : ∀ c ∈ newLine newLength length, c ≠ 0 ∧ c ≠ 13 := by
  have hname : ∀ c ∈ ascii "Content-Length: ", c ≠ 0 ∧ c ≠ 13 := by decide +kernel
  have hdigit : ∀ c : UInt8, isdigit c = true → c ≠ 0 ∧ c ≠ 13 :=
    forall_byte (by decide +kernel)
  intro c hc
  simp only [newLine, lengthLine, List.mem_append] at hc
  rcases hc with (hc | hc) | hc
  · exact hname c hc
  · exact hdigit c (decimal_isdigit c hc)
  · rw [List.eq_of_mem_replicate hc]
    decide

lemma newLine_isLine (length : ℕ) : IsLine (newLine newLength length) where
  no_end := strstr_eq_none (c := 13) (by decide) fun hmem =>
    (newLine_bytes newLength length 13 hmem).2 rfl
  not_nul c hc := (newLine_bytes newLength length c hc).1

/-- The new line as a line of the field. -/
def newField (length : ℕ) : FieldLine contentLength where
  text := newLine newLength length
  is_line := newLine_isLine newLength length
  has_name := by
    have hname : (ascii "Content-Length: ").take contentLength.length = contentLength := by
      decide +kernel
    rw [HasName, newLine, lengthLine, List.append_assoc,
      List.take_append_of_le_length (by decide +kernel), hname]

end Line

/-- The value of a field, without the white space before it and the spaces after it. -/
def FieldLine.trimmed {name : Bytes} (field : FieldLine name) : Bytes :=
  (field.value.dropWhile isOws).rdropWhile (· = 32)

/-- **The value of the new line** is the number. -/
lemma trimmed_newField (newLength : UInt64) (length : ℕ) :
    (newField newLength length).trimmed = decimal newLength.toNat := by
  have hblank : ascii "Content-Length: " = contentLength ++ [32] := by decide +kernel
  have hvalue : (newField newLength length).value = 32 :: (decimal newLength.toNat ++
      List.replicate (length - (lengthLine newLength).length) 32) := by
    change (newLine newLength length).drop contentLength.length = _
    rw [newLine, lengthLine, hblank, List.append_assoc, List.append_assoc, List.drop_left]
    rfl
  have hdigit : ∀ c : UInt8, isdigit c = true → ¬isOws c ∧ c ≠ 32 :=
    forall_byte (by decide +kernel)
  obtain ⟨d, digits, hcons⟩ := List.exists_cons_of_ne_nil (decimal_ne_nil newLength.toNat)
  have hmem : d ∈ decimal newLength.toNat := by
    rw [hcons]
    exact List.mem_cons_self
  have hd : ¬isOws d := (hdigit d (decimal_isdigit d hmem)).1
  rw [FieldLine.trimmed, hvalue, List.dropWhile_cons_of_pos (by decide), hcons, List.cons_append,
    List.dropWhile_cons_of_neg hd, ← List.cons_append, ← hcons]
  -- the spaces at the end are cut off, up to the last digit
  rw [List.rdropWhile, List.reverse_append, List.reverse_replicate,
    List.dropWhile_append_of_pos (by simp)]
  have hlast : (decimal newLength.toNat).reverse.dropWhile (· = 32) =
      (decimal newLength.toNat).reverse := by
    refine List.dropWhile_eq_self_iff.mpr fun hlen => ?_
    have hmem := List.mem_reverse.mp (List.getElem_mem hlen)
    simpa using (hdigit _ (decimal_isdigit _ hmem)).2
  rw [hlast, List.reverse_reverse]

/-! ### What the function does -/

section Spec

variable {n : ℕ} {b : Block n} {x seg lineEnd spare : Bytes} {newLength : UInt64}

/-- **A line that is not longer** overwrites what was there, and the spaces the rest of it. -/
lemma patch_of_short {tail : Bytes} (hval : b.val = x ++ (seg ++ tail))
    (hshort : (lengthLine newLength).length ≤ seg.length) :
    ∃ placed padded, b.patch x.length (lengthLine newLength) = .ok placed ∧
      placed.patch (x.length + (lengthLine newLength).length)
        (List.replicate (seg.length - (lengthLine newLength).length) 32) = .ok padded ∧
      padded.val = x ++ (newLine newLength seg.length ++ tail) := by
  have hsplit : b.val = x ++ (seg.take (lengthLine newLength).length ++
      (seg.drop (lengthLine newLength).length ++ tail)) := by
    rw [hval, ← List.append_assoc (seg.take _), List.take_append_drop]
  have htake : (lengthLine newLength).length =
      (seg.take (lengthLine newLength).length).length := by
    rw [List.length_take, Nat.min_eq_left hshort]
  obtain ⟨placed, hplaced, hplacedVal⟩ := Block.patch_middle hsplit htake
  rw [← List.append_assoc] at hplacedVal
  have hspaces : (List.replicate (seg.length - (lengthLine newLength).length)
      (32 : UInt8)).length = (seg.drop (lengthLine newLength).length).length := by
    rw [List.length_replicate, List.length_drop]
  obtain ⟨padded, hpadded, hpaddedVal⟩ := Block.patch_middle hplacedVal hspaces
  rw [List.length_append] at hpadded
  refine ⟨placed, padded, hplaced, hpadded, ?_⟩
  rw [hpaddedVal, newLine]
  simp only [List.append_assoc]

/-- **A longer line** takes its place after what follows has moved. -/
lemma patch_of_long (hval : b.val = (x ++ (seg ++ lineEnd)) ++ 0 :: spare)
    (hlong : seg.length < (lengthLine newLength).length)
    (hroom : (lengthLine newLength).length ≤ seg.length + spare.length) :
    ∃ moved placed rest,
      b.move (x.length + (lengthLine newLength).length) (x.length + seg.length)
        (lineEnd ++ [0]).length = .ok moved ∧
      moved.patch x.length (lengthLine newLength) = .ok placed ∧
      placed.val = x ++ (newLine newLength seg.length ++ (lineEnd ++ 0 :: rest)) := by
  have hline : newLine newLength seg.length = lengthLine newLength := by
    rw [newLine, Nat.sub_eq_zero_of_le hlong.le, List.replicate_zero, List.append_nil]
  have hsplit : b.val = x ++ (seg ++ ((lineEnd ++ [0]) ++ spare)) := by
    rw [hval]
    simp
  have hn : n = x.length + (seg.length + lineEnd.length) + (spare.length + 1) := by
    rw [← b.property, hval]
    simp only [List.length_append, List.length_cons]
  have hfit : x.length + (lengthLine newLength).length + (lineEnd ++ [0]).length ≤ n := by
    rw [List.length_append, List.length_singleton]
    omega
  obtain ⟨moved, placed, rest, hmoved, hplaced, hplacedVal⟩ :=
    Block.move_patch hsplit hlong.le hfit
  refine ⟨moved, placed, rest, hmoved, hplaced, ?_⟩
  rw [hplacedVal, hline]
  simp

/-- The text with the new line in it is what the buffer holds. -/
lemma string_of_newLine {after : Block n} {rest : Bytes} (hnul : ∀ c ∈ x ++ (seg ++ lineEnd), c ≠ 0)
    (hval : after.val = x ++ (newLine newLength seg.length ++ (lineEnd ++ 0 :: rest))) :
    after.string = .ok (x ++ (newLine newLength seg.length ++ lineEnd)) := by
  have hsplit : after.val = (x ++ (newLine newLength seg.length ++ lineEnd)) ++ 0 :: rest := by
    rw [hval]
    simp
  refine Block.string_of_not_nul hsplit fun c hc => ?_
  simp only [List.mem_append] at hc
  rcases hc with hc | hc | hc
  · exact hnul c (by simp [hc])
  · exact (newLine_bytes newLength seg.length c hc).1
  · exact hnul c (by simp [hc])

/-- **The text that is found** is replaced by the new line, up to the line end. -/
lemma update_of_found (hval : b.val = (x ++ (seg ++ lineEnd)) ++ 0 :: spare)
    (hnul : ∀ c ∈ x ++ (seg ++ lineEnd), c ≠ 0)
    (hfound : strcasestr (x ++ (seg ++ lineEnd)) contentLength = some (seg ++ lineEnd))
    (hend : strstr (seg ++ lineEnd) crlf = some lineEnd) (hseg : 15 ≤ seg.length)
    (hroom : (lengthLine newLength).length ≤ 15 + spare.length) :
    ∃ after, compressionUpdateContentLength b newLength = .ok (0, after) ∧
      after.string = .ok (x ++ (newLine newLength seg.length ++ lineEnd)) := by
  have hstart : (x ++ (seg ++ lineEnd)).length - (seg ++ lineEnd).length = x.length := by
    rw [List.length_append, Nat.add_sub_cancel]
  have hstop : (x ++ (seg ++ lineEnd)).length - lineEnd.length = x.length + seg.length := by
    rw [List.length_append, List.length_append, ← Nat.add_assoc, Nat.add_sub_cancel]
  rw [compressionUpdateContentLength, Block.string_of_not_nul hval hnul]
  simp only [bind, Except.bind, hfound, hend, hstart, hstop, snprintf_lengthLine,
    Nat.add_sub_cancel_left]
  split
  · rename_i hshort
    have hsplit : b.val = x ++ (seg ++ (lineEnd ++ 0 :: spare)) := by
      rw [hval]
      simp only [List.append_assoc]
    obtain ⟨placed, padded, hplaced, hpadded, hpaddedVal⟩ := patch_of_short hsplit hshort
    refine ⟨padded, ?_, string_of_newLine hnul hpaddedVal⟩
    simp only [hplaced, hpadded]
    rfl
  · rename_i hlong
    obtain ⟨moved, placed, rest, hmoved, hplaced, hplacedVal⟩ :=
      patch_of_long hval (Nat.lt_of_not_le hlong) (by omega)
    have hdst : x.length + seg.length + ((lengthLine newLength).length - seg.length) =
        x.length + (lengthLine newLength).length := by omega
    have hcount : (x ++ (seg ++ lineEnd)).length - (x.length + seg.length) + 1 =
        (lineEnd ++ [0]).length := by
      simp only [List.length_append, List.length_singleton]
      omega
    refine ⟨placed, ?_, string_of_newLine hnul hplacedVal⟩
    simp only [hdst, hcount, hmoved, hplaced]
    rfl

end Spec

/-! ### Responses with at most one field -/

/-- A response with at most one `Content-Length`, the new length, and what follows the NUL in the
buffer: room for the new line even in the place of the shortest. -/
structure LengthUpdate where
  status : Bytes
  others : OtherLines contentLength
  field : Option (FieldLine contentLength)
  body : Bytes
  newLength : UInt64
  spare : Bytes
  status_line : IsLine status
  status_ne : status ≠ []
  body_not_nul : ∀ c ∈ body, c ≠ 0
  room : (lengthLine newLength).length ≤ 15 + spare.length

namespace LengthUpdate

variable (u : LengthUpdate)

/-- The status line and the header lines before the field. -/
def heading : Bytes := u.status ++ crlf ++ fieldLines u.others.before

/-- What follows the field. -/
def trailer : Bytes := fieldLines u.others.after ++ (crlf ++ u.body)

/-- The response with the given field, or without it. -/
def textWith (field : Option (FieldLine contentLength)) : Bytes :=
  u.status ++ (crlf ++ (fieldLines (u.others.lines field) ++ (crlf ++ u.body)))

/-- The response. -/
def text : Bytes := u.textWith u.field

/-- The buffer with the response. -/
def buffer : Block (u.text.length + (u.spare.length + 1)) :=
  ⟨u.text ++ 0 :: u.spare, by rw [List.length_append, List.length_cons]⟩

/-- What the function does. -/
def result : Except OutOfBounds (ℤ × Block (u.text.length + (u.spare.length + 1))) :=
  compressionUpdateContentLength u.buffer u.newLength

/-- **The update**: where the call returns 0, the value of the field is the new length, and all
else is as it was; a response without the field is not changed. -/
def Updated : Prop :=
  ∃ ret after, u.result = .ok (ret, after) ∧
    (∀ field, u.field = some field → ret = 0 →
      ∃ new : FieldLine contentLength, new.trimmed = decimal u.newLength.toNat ∧
        after.string = .ok (u.textWith (some new))) ∧
    (u.field = none → after.string = .ok u.text)

/-- The first `Content-Length:` of the text, wherever that is, begins the new line already, up to
spaces before the line end, if there is one. -/
def SaysAlready : Prop :=
  ∀ found lineEnd, strcasestr u.text contentLength = some found →
    strstr found crlf = some lineEnd →
      ∃ k, found = lengthLine u.newLength ++ (List.replicate k 32 ++ lineEnd)

/-! ### The text -/

lemma textWith_some (field : FieldLine contentLength) :
    u.textWith (some field) = u.heading ++ (field.text ++ (crlf ++ u.trailer)) := by
  rw [textWith, fieldLines_some, heading, trailer]
  simp

lemma textWith_not_nul (field : Option (FieldLine contentLength)) :
    ∀ c ∈ u.textWith field, c ≠ 0 := by
  have hlines : ∀ l ∈ u.others.lines field, IsLine l := by
    intro l hl
    simp only [OtherLines.lines, List.mem_append, List.mem_map] at hl
    rcases hl with (hl | ⟨f, -, rfl⟩) | hl
    · exact (u.others.before_other l hl).is_line
    · exact f.is_line
    · exact (u.others.after_other l hl).is_line
  intro c hc
  simp only [textWith, List.mem_append] at hc
  rcases hc with hc | hc | hc | hc | hc
  · exact u.status_line.not_nul c hc
  · exact crlf_not_nul hc
  · exact fieldLines_not_nul hlines c hc
  · exact crlf_not_nul hc
  · exact u.body_not_nul c hc

lemma string_buffer : u.buffer.string = .ok u.text :=
  Block.string_of_not_nul rfl (u.textWith_not_nul u.field)

/-- The heading ends with a line end. -/
lemma heading_eq : ∃ before, u.heading = before ++ crlf := fieldLines_end u.status u.others.before

/-- No character of the name ends a line. -/
lemma not_mem_contentLength : tolower 13 ∉ contentLength.map tolower ∧
    tolower 10 ∉ contentLength.map tolower := by decide +kernel

/-! ### The result -/

/-- Nothing is found, or no line end after it: the buffer is as it was. -/
lemma result_of_none (h : strcasestr u.text contentLength = none) :
    u.result = .ok (0, u.buffer) := by
  rw [result, compressionUpdateContentLength, string_buffer]
  simp only [bind, Except.bind, h]
  rfl

lemma result_of_no_end {found : Bytes} (h : strcasestr u.text contentLength = some found)
    (hend : strstr found crlf = none) : u.result = .ok (-1, u.buffer) := by
  rw [result, compressionUpdateContentLength, string_buffer]
  simp only [bind, Except.bind, h, hend]
  rfl

/-- A match with a line end after it, as parts of the text. -/
structure Found (x seg lineEnd : Bytes) : Prop where
  text_eq : u.text = x ++ (seg ++ (crlf ++ lineEnd))
  found : strcasestr u.text contentLength = some (seg ++ (crlf ++ lineEnd))
  no_end : strstr seg crlf = none

lemma exists_found {found lineEnd : Bytes} (h : strcasestr u.text contentLength = some found)
    (hend : strstr found crlf = some lineEnd) : ∃ x seg rest, u.Found x seg rest := by
  obtain ⟨seg, rest, -, rfl, hno⟩ := exists_line_end hend
  obtain ⟨⟨x, hx⟩, -⟩ := strFind_eq_some h
  exact ⟨x, seg, rest, hx.symm, h, hno⟩

namespace Found

variable {u : LengthUpdate} {x seg lineEnd : Bytes}

lemma strstr_eq (hf : u.Found x seg lineEnd) :
    strstr (seg ++ (crlf ++ lineEnd)) crlf = some (crlf ++ lineEnd) :=
  strstr_append_of_none (by decide) hf.no_end lineEnd

lemma result_eq (hf : u.Found x seg lineEnd) :
    ∃ after, u.result = .ok (0, after) ∧
      after.string = .ok (x ++ (newLine u.newLength seg.length ++ (crlf ++ lineEnd))) := by
  have hseg : 15 ≤ seg.length := length_le_of_line hf.found not_mem_contentLength.1
  have hnul : ∀ c ∈ x ++ (seg ++ (crlf ++ lineEnd)), c ≠ 0 := by
    rw [← hf.text_eq]
    exact u.textWith_not_nul u.field
  have hval : u.buffer.val = (x ++ (seg ++ (crlf ++ lineEnd))) ++ 0 :: u.spare := by
    rw [← hf.text_eq]
    rfl
  have hfound := hf.found
  rw [hf.text_eq] at hfound
  exact update_of_found hval hnul hfound hf.strstr_eq hseg u.room

/-- What is found says the new length already just when the new line is what it was. -/
lemma saysAlready_iff (hf : u.Found x seg lineEnd) :
    u.SaysAlready ↔ newLine u.newLength seg.length = seg := by
  rw [newLine_eq_iff]
  constructor
  · intro hsays
    obtain ⟨k, hk⟩ := hsays _ _ hf.found hf.strstr_eq
    have hsplit : seg ++ (crlf ++ lineEnd) =
        lengthLine u.newLength ++ List.replicate k 32 ++ (crlf ++ lineEnd) := by
      rw [hk, List.append_assoc]
    exact ⟨k, List.append_cancel_right hsplit⟩
  · rintro ⟨k, rfl⟩ found lineEnd' hfound hend
    rw [hf.found, Option.some.injEq] at hfound
    rw [← hfound, hf.strstr_eq, Option.some.injEq] at hend
    rw [← hfound, ← hend]
    exact ⟨k, List.append_assoc ..⟩

end Found

/-! ### Without the field -/

/-- A response without the field is unchanged just when nothing of it is taken for the field, or
what is taken for it is the new line. -/
lemma updated_iff_of_none (hfield : u.field = none) : u.Updated ↔ u.SaysAlready := by
  have hunchanged : ∀ {ret}, u.result = .ok (ret, u.buffer) → u.Updated := by
    intro ret hresult
    refine ⟨ret, u.buffer, hresult, fun field hsome => ?_, fun _ => u.string_buffer⟩
    rw [hfield] at hsome
    cases hsome
  cases hfound : strcasestr u.text contentLength with
  | none =>
      refine iff_of_true (hunchanged (u.result_of_none hfound)) fun found lineEnd hsome => ?_
      rw [hfound] at hsome
      cases hsome
  | some found =>
      cases hend : strstr found crlf with
      | none =>
          refine iff_of_true (hunchanged (u.result_of_no_end hfound hend)) ?_
          intro found' lineEnd hsome hsome'
          rw [hfound, Option.some.injEq] at hsome
          rw [← hsome, hend] at hsome'
          cases hsome'
      | some lineEnd =>
          obtain ⟨x, seg, rest, hf⟩ := u.exists_found hfound hend
          obtain ⟨after, hresult, hstring⟩ := hf.result_eq
          rw [hf.saysAlready_iff]
          constructor
          · rintro ⟨ret, after', hresult', -, hnone⟩
            rw [hresult] at hresult'
            obtain ⟨-, rfl⟩ := Prod.mk.inj (Except.ok.inj hresult')
            have htext := Except.ok.inj (hstring.symm.trans (hnone hfield))
            rw [hf.text_eq] at htext
            exact List.append_cancel_right (List.append_cancel_left htext)
          · intro hsame
            refine ⟨0, after, hresult, fun field hsome => ?_, fun _ => ?_⟩
            · rw [hfield] at hsome
              cases hsome
            · rw [hstring, hsame, hf.text_eq]

/-! ### With the field -/

section Field

variable {u} {field : FieldLine contentLength}

/-- Where the name is nowhere before, the field itself is found. -/
lemma found_field (hfield : u.field = some field) (hheading : ¬Holds contentLength u.heading) :
    u.Found u.heading field.text u.trailer := by
  have htext : u.text = u.heading ++ (field.text ++ (crlf ++ u.trailer)) := by
    rw [text, hfield, textWith_some]
  refine ⟨htext, ?_, field.is_line.no_end⟩
  obtain ⟨before, hbefore⟩ := u.heading_eq
  have hnone : strcasestr ((before ++ [13]) ++ [10]) contentLength = none := by
    have hsplit : (before ++ [13]) ++ [10] = u.heading := by rw [hbefore]; simp [crlf]
    rw [hsplit, strcasestr_eq_none_iff]
    exact hheading
  have hsplit : u.text = (before ++ [13]) ++ 10 :: (field.text ++ (crlf ++ u.trailer)) := by
    rw [htext, hbefore]
    simp [crlf]
  rw [hsplit, strcasestr_append_of_none not_mem_contentLength.2 hnone]
  exact strFind_of_true (decide_eq_true (field.has_name_append _))

/-- Where the name is before the field, what is found is there too. -/
lemma found_heading (hfield : u.field = some field) (hheading : Holds contentLength u.heading) :
    ∃ x seg rest, u.heading = x ++ (seg ++ (crlf ++ rest)) ∧
      u.Found x seg (rest ++ (field.text ++ (crlf ++ u.trailer))) := by
  have htext : u.text = u.heading ++ (field.text ++ (crlf ++ u.trailer)) := by
    rw [text, hfield, textWith_some]
  obtain ⟨found, hfound⟩ := Option.ne_none_iff_exists'.mp (strcasestr_ne_none_iff.mpr hheading)
  obtain ⟨hsuffix, hmatch⟩ := strcasestr_eq_some hfound
  -- the line end of the heading comes after what is found
  have hline : strstr found crlf ≠ none := by
    obtain ⟨before, hbefore⟩ := u.heading_eq
    rw [hbefore] at hsuffix
    have hlen : 15 ≤ found.length := length_le_of_match hmatch
    have hcrlf : crlf <:+ found := List.suffix_of_suffix_length_le (List.suffix_append _ _) hsuffix
      ((by decide : 2 ≤ 15).trans hlen)
    rw [ne_eq, strstr_eq_none_iff, not_not]
    exact hcrlf.isInfix
  obtain ⟨lineEnd, hend⟩ := Option.ne_none_iff_exists'.mp hline
  obtain ⟨seg, rest, -, rfl, hno⟩ := exists_line_end hend
  obtain ⟨x, hx⟩ := hsuffix
  refine ⟨x, seg, rest, hx.symm, ?_, ?_, hno⟩
  · rw [htext, ← hx]
    simp
  · rw [htext, strcasestr_append_of_some hfound]
    simp

/-- The text that is written before the field cannot make up for a change there. -/
lemma eq_of_textWith_eq {x seg seg' rest : Bytes} {new : FieldLine contentLength}
    (hheading : u.heading = x ++ (seg ++ (crlf ++ rest))) (hseg : strstr seg crlf = none)
    (hseg' : strstr seg' crlf = none)
    (heq : x ++ (seg' ++ (crlf ++ (rest ++ (field.text ++ (crlf ++ u.trailer))))) =
      u.textWith (some new)) : seg' = seg ∧ new.text = field.text := by
  rw [textWith_some, hheading] at heq
  simp only [List.append_assoc] at heq
  have hlines := List.append_cancel_left heq
  have hfirst := congrArg (strstr · crlf) hlines
  simp only [crlf, List.cons_append, List.nil_append] at hfirst hlines hseg hseg'
  rw [strstr_append_of_none (by decide) hseg', strstr_append_of_none (by decide) hseg,
    Option.some.injEq] at hfirst
  rw [hfirst] at hlines
  refine ⟨List.append_cancel_right hlines, ?_⟩
  have hrest := List.append_cancel_left (List.cons.inj (List.cons.inj hfirst).2).2
  exact (List.append_cancel_right hrest).symm

/-- A response with the field is updated just when the field is what is found, or there is
nothing to do. -/
lemma updated_iff_of_some (hfield : u.field = some field) :
    u.Updated ↔ ¬Holds contentLength u.heading ∨
      u.SaysAlready ∧ field.trimmed = decimal u.newLength.toNat := by
  by_cases hheading : Holds contentLength u.heading
  · obtain ⟨x, seg, rest, hsplit, hf⟩ := found_heading hfield hheading
    obtain ⟨after, hresult, hstring⟩ := hf.result_eq
    rw [hf.saysAlready_iff]
    constructor
    · rintro ⟨ret, after', hresult', hupdated, -⟩
      rw [hresult] at hresult'
      obtain ⟨rfl, rfl⟩ := Prod.mk.inj (Except.ok.inj hresult')
      obtain ⟨new, hnew, hstring'⟩ := hupdated field hfield rfl
      obtain ⟨hsame, htext⟩ := eq_of_textWith_eq hsplit hf.no_end
        (newLine_isLine u.newLength seg.length).no_end
        (Except.ok.inj (hstring.symm.trans hstring'))
      refine .inr ⟨hsame, ?_⟩
      rw [← hnew, FieldLine.trimmed, FieldLine.trimmed, FieldLine.value, FieldLine.value, htext]
    · intro hor
      obtain ⟨hsame, hvalue⟩ := hor.resolve_left (not_not_intro hheading)
      refine ⟨0, after, hresult, fun field' hsome _ => ?_, fun hnone => ?_⟩
      · rw [hfield, Option.some.injEq] at hsome
        refine ⟨field, hvalue, ?_⟩
        rw [hstring, hsame, ← hf.text_eq, text, hfield]
      · rw [hfield] at hnone
        cases hnone
  · refine iff_of_true ?_ (.inl hheading)
    obtain ⟨after, hresult, hstring⟩ := (found_field hfield hheading).result_eq
    refine ⟨0, after, hresult, fun _ _ _ => ⟨newField u.newLength field.text.length,
      trimmed_newField _ _, ?_⟩, fun hnone => ?_⟩
    · rw [hstring, textWith_some]
      rfl
    · rw [hfield] at hnone
      cases hnone

end Field

end LengthUpdate

/-- **The field alone is updated** if and only if the name of the field is nowhere before it, or
what is taken for the field is the new line and the field has the new length already; and a
response without the field is left as it is if and only if nothing in it is taken for the field,
or what is taken for it is the new line. -/
theorem updated_iff (u : LengthUpdate) :
    u.Updated ↔ (u.field = none → u.SaysAlready) ∧
      ∀ field, u.field = some field → ¬Holds contentLength u.heading ∨
        u.SaysAlready ∧ field.trimmed = decimal u.newLength.toNat := by
  cases hfield : u.field with
  | none =>
      rw [u.updated_iff_of_none hfield]
      constructor
      · intro hsays
        refine ⟨fun _ => hsays, ?_⟩
        intro field hsome
        cases hsome
      · intro hboth
        exact hboth.1 rfl
  | some field =>
      rw [LengthUpdate.updated_iff_of_some hfield]
      constructor
      · intro hor
        refine ⟨fun hnone => absurd hnone (Option.some_ne_none field), fun field' hsome => ?_⟩
        rwa [← Option.some.inj hsome]
      · intro hboth
        exact hboth.2 field rfl

/-- The field of a body of two bytes. -/
def lengthField : FieldLine contentLength where
  text := ascii "Content-Length: 2"
  is_line := ⟨by decide +kernel, by decide +kernel⟩
  has_name := by decide +kernel

lemma otherLine_hint : OtherLine contentLength (ascii "X-Content-Length: 5") where
  is_line := ⟨by decide +kernel, by decide +kernel⟩
  ne_nil := by decide +kernel
  not_name := by decide +kernel

/-- A response with another field before, whose name ends with the name. -/
def hintedUpdate : LengthUpdate where
  status := statusOk
  others := {
    before := [ascii "X-Content-Length: 5"]
    after := []
    before_other := fun _ h => List.mem_singleton.mp h ▸ otherLine_hint
    after_other := fun _ h => absurd h List.not_mem_nil }
  field := some lengthField
  body := ascii "ok"
  newLength := 7
  spare := List.replicate 30 0
  status_line := isLine_statusOk
  status_ne := statusOk_ne_nil
  body_not_nul := by decide +kernel
  room := by decide +kernel

/-- The line before is given the new length, and the field keeps the old one. -/
theorem hint_overwritten : ¬hintedUpdate.Updated := by
  have hheading : Holds contentLength hintedUpdate.heading :=
    strcasestr_ne_none_iff.mp (by decide +kernel)
  have hvalue : lengthField.trimmed ≠ decimal hintedUpdate.newLength.toNat := by decide +kernel
  rw [LengthUpdate.updated_iff_of_some rfl]
  rintro (hnot | ⟨-, hsame⟩)
  · exact hnot hheading
  · exact hvalue hsame

end ProxyMax
