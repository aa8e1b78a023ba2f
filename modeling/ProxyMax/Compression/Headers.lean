import Mathlib.Data.List.DropRight
import ProxyMax.Http.HostField
import ProxyMax.Lib.Blocks

/-!
Header lines, and text that is searched for in them.

* `Holds needle text`: the text holds the needle, in any case of its letters.
* `HasName name line`: the line is one of the field of that name.
* `FieldLine`, `OtherLines`: the line of a field, and lines of other fields before and after it.
* `Response`, `headerLines`: a response, and the header lines in a text.
* `strcasestr_fieldLine`: a search for the name finds the line of the field, or something
  before it.
-/

namespace ProxyMax

open CString

/-- Optional white space. -/
def isOws (c : UInt8) : Bool := c = 32 ∨ c = 9

/-- `snprintf` of a text to an array of `size` characters, as the string in it. -/
def snprintf (size : ℕ) (text : Bytes) : Bytes := text.take (size - 1)

/-- The text holds the needle, in any case of its letters. -/
def Holds (needle text : Bytes) : Prop := needle.map tolower <:+: text.map tolower

lemma strcasestr_ne_none_iff {text needle : Bytes} :
    strcasestr text needle ≠ none ↔ Holds needle text := by
  rw [ne_eq, strcasestr_eq_none_iff, not_not, Holds]

lemma Holds.mono {needle s t : Bytes} (h : Holds needle s) (hst : s <:+: t) : Holds needle t :=
  List.IsInfix.trans h (hst.map tolower)

/-- The line begins with the name, in any case of its letters. A name has its colon at the
end. -/
def HasName (name line : Bytes) : Prop :=
  (line.take name.length).map tolower = name.map tolower

instance (name line : Bytes) : Decidable (HasName name line) := instDecidableEqList ..

/-- The line of a field. -/
structure FieldLine (name : Bytes) where
  text : Bytes
  is_line : IsLine text
  has_name : HasName name text

namespace FieldLine

variable {name : Bytes} (field : FieldLine name)

/-- What follows the name. -/
def value : Bytes := field.text.drop name.length

lemma length_le : name.length ≤ field.text.length := length_le_of_match field.has_name

/-- The line with text behind it begins with the name. -/
lemma has_name_append (rest : Bytes) : HasName name (field.text ++ rest) := by
  rw [HasName, List.take_append_of_le_length field.length_le]
  exact field.has_name

end FieldLine

/-- A header line of another field. -/
structure OtherLine (name line : Bytes) : Prop where
  is_line : IsLine line
  ne_nil : line ≠ []
  not_name : ¬HasName name line

/-- Header lines of other fields, before and after a place where the field can be. -/
structure OtherLines (name : Bytes) where
  before : List Bytes
  after : List Bytes
  before_other : ∀ l ∈ before, OtherLine name l
  after_other : ∀ l ∈ after, OtherLine name l

/-- The header lines, with the field or without it. -/
def OtherLines.lines {name : Bytes} (others : OtherLines name) (field : Option (FieldLine name)) :
    List Bytes :=
  others.before ++ field.toList.map FieldLine.text ++ others.after

/-- Lines after lines. -/
lemma fieldLines_append (ls ls' : List Bytes) :
    fieldLines (ls ++ ls') = fieldLines ls ++ fieldLines ls' := List.flatMap_append

lemma fieldLines_cons (l : Bytes) (ls : List Bytes) :
    fieldLines (l :: ls) = l ++ (crlf ++ fieldLines ls) := by
  rw [fieldLines, List.flatMap_cons, List.append_assoc, fieldLines]

/-- The text of the lines with the field. -/
lemma fieldLines_some {name : Bytes} (others : OtherLines name) (field : FieldLine name) :
    fieldLines (others.lines (some field)) =
      fieldLines others.before ++ (field.text ++ (crlf ++ fieldLines others.after)) := by
  rw [OtherLines.lines, List.append_assoc, fieldLines_append]
  exact congrArg _ (fieldLines_cons field.text others.after)

/-- **The search for a name** comes to the line of its field, or stops before. -/
lemma strcasestr_fieldLine {name : Bytes} (field : FieldLine name) (pre rest : Bytes) :
    ∃ found, strcasestr (pre ++ (field.text ++ rest)) name = some found ∧
      field.text ++ rest <:+ found :=
  strFind_of_suffix (List.suffix_append _ _) (decide_eq_true (field.has_name_append rest))

/-- A text is cut at its first line end. -/
lemma exists_line_end {s t : Bytes} (h : strstr s crlf = some t) :
    ∃ seg rest, t = crlf ++ rest ∧ s = seg ++ (crlf ++ rest) ∧ strstr seg crlf = none := by
  obtain ⟨seg, rfl, hno⟩ := strstr_split h (by decide)
  have hmatch : t.take 2 = crlf := of_decide_eq_true (strFind_eq_some h).2
  have hsplit : t = crlf ++ t.drop 2 := by rw [← hmatch, List.take_append_drop]
  exact ⟨seg, t.drop 2, hsplit, congrArg (seg ++ ·) hsplit, hno⟩

/-! ### Responses -/

/-- A response: its status line, its header lines and its body. -/
structure Response where
  status : Bytes
  headers : List Bytes
  body : Bytes
  status_line : IsLine status
  status_ne : status ≠ []
  header_lines : ∀ l ∈ headers, IsLine l ∧ l ≠ []
  body_not_nul : ∀ c ∈ body, c ≠ 0

/-- The lines of a text up to its first blank line. -/
def sectionLines : ℕ → Bytes → List Bytes
  | 0, _ => []
  | fuel + 1, text =>
      match strstr text crlf with
      | none => []
      | some rest =>
          let line := text.take (text.length - rest.length)
          if line = [] then [] else line :: sectionLines fuel (rest.drop 2)

/-- The header lines of a text, after its status line. -/
def headerLines (text : Bytes) : List Bytes := (sectionLines text.length text).tail

lemma sectionLines_cons {l : Bytes} (hl : IsLine l) (hne : l ≠ []) (fuel : ℕ) (s : Bytes) :
    sectionLines (fuel + 1) (l ++ (crlf ++ s)) = l :: sectionLines fuel s := by
  have hend : strstr (l ++ (crlf ++ s)) crlf = some (crlf ++ s) :=
    strstr_append_of_none (by decide) hl.no_end s
  have htake : (l ++ (crlf ++ s)).take ((l ++ (crlf ++ s)).length - (crlf ++ s).length) = l := by
    rw [List.length_append, Nat.add_sub_cancel, List.take_left]
  rw [sectionLines, hend]
  simp only [htake, if_neg hne]
  rfl

lemma sectionLines_fieldLines {ls : List Bytes} (hls : ∀ l ∈ ls, IsLine l ∧ l ≠ []) {fuel : ℕ}
    (hfuel : ls.length ≤ fuel) (body : Bytes) :
    sectionLines fuel (fieldLines ls ++ (crlf ++ body)) = ls := by
  induction ls generalizing fuel with
  | nil =>
      cases fuel with
      | zero => rfl
      | succ fuel =>
          have hend : strstr (crlf ++ body) crlf = some (crlf ++ body) :=
            strstr_append_of_none (a := []) (by decide) rfl body
          rw [sectionLines]
          simp [fieldLines, hend]
  | cons l ls ih =>
      cases fuel with
      | zero => simp at hfuel
      | succ fuel =>
          rw [fieldLines_cons, List.append_assoc, List.append_assoc,
            sectionLines_cons (hls l List.mem_cons_self).1 (hls l List.mem_cons_self).2,
            ih (fun l hl => hls l (List.mem_cons_of_mem _ hl)) (Nat.le_of_succ_le_succ hfuel)]

/-- Each line is at least its line end. -/
lemma length_le_fieldLines (ls : List Bytes) : ls.length ≤ (fieldLines ls).length := by
  induction ls with
  | nil => exact le_rfl
  | cons l ls ih =>
      rw [fieldLines_cons, List.length_cons, List.length_append, List.length_append]
      have htwo : crlf.length = 2 := rfl
      omega

lemma crlf_not_nul {c : UInt8} (hc : c ∈ crlf) : c ≠ 0 := by
  rintro rfl
  exact absurd hc (by decide)

lemma fieldLines_not_nul {ls : List Bytes} (hls : ∀ l ∈ ls, IsLine l) :
    ∀ c ∈ fieldLines ls, c ≠ 0 := by
  intro c hc
  obtain ⟨l, hl, hc⟩ := List.mem_flatMap.mp hc
  rcases List.mem_append.mp hc with hc | hc
  · exact (hls l hl).not_nul c hc
  · exact crlf_not_nul hc

namespace Response

variable (r : Response)

/-- What follows the status line. -/
def rest : Bytes := fieldLines r.headers ++ (crlf ++ r.body)

/-- The response as a text. -/
def text : Bytes := r.status ++ (crlf ++ r.rest)

/-- One of the header lines is of the field. -/
def HasField (name : Bytes) : Prop := ∃ line ∈ r.headers, HasName name line

lemma rest_not_nul : ∀ c ∈ r.rest, c ≠ 0 := by
  intro c hc
  rcases List.mem_append.mp hc with hc | hc
  · exact fieldLines_not_nul (fun l hl => (r.header_lines l hl).1) c hc
  rcases List.mem_append.mp hc with hc | hc
  · exact crlf_not_nul hc
  · exact r.body_not_nul c hc

lemma text_not_nul : ∀ c ∈ r.text, c ≠ 0 := by
  intro c hc
  rcases List.mem_append.mp hc with hc | hc
  · exact r.status_line.not_nul c hc
  rcases List.mem_append.mp hc with hc | hc
  · exact crlf_not_nul hc
  · exact r.rest_not_nul c hc

/-- **The header lines** of the text. -/
lemma headerLines_text : headerLines r.text = r.headers := by
  obtain ⟨n, hn⟩ : ∃ n, r.text.length = n + 1 :=
    Nat.exists_eq_succ_of_ne_zero (by simp [text, r.status_ne])
  have hfuel : r.headers.length ≤ n := by
    have hlines := length_le_fieldLines r.headers
    have hlen : r.text.length =
        r.status.length + (2 + ((fieldLines r.headers).length + (2 + r.body.length))) := by
      simp [text, rest, crlf]
      omega
    omega
  rw [headerLines, hn, text, sectionLines_cons r.status_line r.status_ne, List.tail_cons]
  exact sectionLines_fieldLines r.header_lines hfuel r.body

/-- The buffer with the response, its NUL and some more bytes. -/
def buffer (spare : Bytes) : Block (r.text.length + (spare.length + 1)) :=
  ⟨r.text ++ 0 :: spare, by rw [List.length_append, List.length_cons]⟩

lemma string_buffer (spare : Bytes) : (r.buffer spare).string = .ok r.text :=
  Block.string_of_not_nul rfl r.text_not_nul

end Response

/-- The status line of a response that succeeds. -/
def statusOk : Bytes := ascii "HTTP/1.1 200 OK"

lemma isLine_statusOk : IsLine statusOk := ⟨by decide +kernel, by decide +kernel⟩

lemma statusOk_ne_nil : statusOk ≠ [] := by decide +kernel

end ProxyMax
