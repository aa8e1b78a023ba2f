import ProxyMax.Http.RequestLine

/-!
The destination of a request, and the `Host` field it should come from.

* `destinationOf_field`: the first `Host:` of the text gives the destination.
* `hostOfHeader_append`: what follows its line end does not matter.
* `HostContext`: a request around the value of its one `Host` field; `fromField_iff`
  says when the destination comes from that value alone, and `forwardedHost_dialled` is a
  request that has it from elsewhere.
* `DefinesDestination`: what is in the variables before the call does not matter;
  `definesDestination_iff` says when, and `undefined_destination` is a request where it
  does.
-/

namespace ProxyMax

open CString

/-! ### The first `Host:` -/

/-- No character of `Host:` is white space. -/
lemma not_mem_host_of_isspace : ∀ c : UInt8, isspace c = true →
    tolower c ∉ (ascii "Host:").map tolower := by
  refine forall_byte ?_
  decide +kernel

/-- Some text written as `Host:`, with small or capital letters. -/
lemma not_space_of_host {name : Bytes}
    (hname : name.map tolower = (ascii "Host:").map tolower) : ∀ c ∈ name, isspace c = false := by
  intro c hc
  by_contra hspace
  rw [Bool.not_eq_false] at hspace
  exact not_mem_host_of_isspace c hspace (hname ▸ List.mem_map_of_mem hc)

lemma length_of_host {name : Bytes} (hname : name.map tolower = (ascii "Host:").map tolower) :
    name.length = 5 := by
  have hlen := congrArg List.length hname
  rwa [List.length_map, List.length_map] at hlen

/-- The blanks before a value are skipped. -/
lemma dropWhile_blanks (blanks : ℕ) {s : Bytes} (hs : s.head? ≠ some 32) :
    (List.replicate blanks 32 ++ s).dropWhile (· = 32) = s := by
  rw [List.dropWhile_append_of_pos (by simp)]
  cases s with
  | nil => rfl
  | cons c s =>
      rw [List.head?_cons, Ne, Option.some.injEq] at hs
      exact List.dropWhile_cons_of_neg (by simpa using hs)

/-- **The value of a field.** It reaches to the line end, and is cut to the array. -/
lemma hostOfHeader_field {name value : Bytes} (hname : name.length = 5) (blanks : ℕ)
    (hline : strstr value crlf = none) (hhead : value.head? ≠ some 32) (rest : Bytes) :
    hostOfHeader (name ++ (List.replicate blanks 32 ++ (value ++ (crlf ++ rest)))) =
      some (splitHostPort (value.take (maxHostname - 1))) := by
  have hskip : (value ++ (crlf ++ rest)).head? ≠ some 32 := by
    cases value with
    | nil => simp [crlf]
    | cons c value => exact hhead
  have hend : strstr (value ++ (crlf ++ rest)) crlf = some (crlf ++ rest) :=
    strstr_append_of_none (by decide) hline rest
  have hlen : (value ++ (crlf ++ rest)).length - (crlf ++ rest).length = value.length := by
    rw [List.length_append, Nat.add_sub_cancel]
  have hcut : value.take (min value.length (maxHostname - 1)) = value.take (maxHostname - 1) :=
    List.take_eq_take_iff.mpr (by omega)
  rw [hostOfHeader, List.drop_left' hname, dropWhile_blanks blanks hskip, hend, Option.map_some,
    hlen, List.take_append_of_le_length (min_le_left _ _), hcut]

/-- **The destination** is in the first field of that name, where the text before it ends
its last line and does not hold the name. -/
lemma destinationOf_field {before name value : Bytes}
    (hbefore : strcasestr (before ++ crlf) (ascii "Host:") = none)
    (hname : name.map tolower = (ascii "Host:").map tolower) (blanks : ℕ)
    (hline : strstr value crlf = none) (hhead : value.head? ≠ some 32) (rest url : Bytes) :
    destinationOf (before ++ crlf ++
        (name ++ (List.replicate blanks 32 ++ (value ++ (crlf ++ rest))))) url =
      some (splitHostPort (value.take (maxHostname - 1))) := by
  have hlen := length_of_host hname
  have hfound : strcasestr (before ++ crlf ++
      (name ++ (List.replicate blanks 32 ++ (value ++ (crlf ++ rest))))) (ascii "Host:") =
        some (name ++ (List.replicate blanks 32 ++ (value ++ (crlf ++ rest)))) := by
    have hsplit : ∀ s, before ++ crlf ++ s = (before ++ [13]) ++ 10 :: s := by simp [crlf]
    rw [hsplit, strcasestr_append_of_none (not_mem_host_of_isspace 10 rfl) (by simpa [crlf])]
    refine strFind_of_true (decide_eq_true ?_)
    exact (congrArg (List.map tolower) (List.take_left' hlen)).trans hname
  rw [destinationOf, hfound]
  exact hostOfHeader_field hlen blanks hline hhead rest

/-- What follows the line end of the field does not matter. -/
lemma hostOfHeader_append {s : Bytes} (hlen : 5 ≤ s.length) (h : hostOfHeader s ≠ none)
    (rest : Bytes) : hostOfHeader (s ++ rest) = hostOfHeader s := by
  have hdrop : (s ++ rest).drop 5 = s.drop 5 ++ rest := List.drop_append_of_le_length hlen
  obtain ⟨value, hvalue⟩ : ∃ value, (s.drop 5).dropWhile (· = 32) = value := ⟨_, rfl⟩
  rw [hostOfHeader, hvalue, ne_eq, Option.map_eq_none_iff] at h
  obtain ⟨hostEnd, hend⟩ := Option.ne_none_iff_exists'.mp h
  have hne : value.isEmpty = false := by
    cases value with
    | nil => simp [strstr, strFind, crlf] at hend
    | cons c value => rfl
  have hsuffix := (strFind_eq_some hend).1.length_le
  have hcount : (value ++ rest).length - (hostEnd ++ rest).length =
      value.length - hostEnd.length := by
    rw [List.length_append, List.length_append]
    omega
  rw [hostOfHeader, hostOfHeader, hdrop, List.dropWhile_append, hvalue, hne,
    if_neg Bool.false_ne_true, strstr_append_of_some hend, hend, Option.map_some, Option.map_some,
    hcount, List.take_append_of_le_length]
  omega

/-! ### A request around its `Host` field -/

/-- A line of a request. -/
structure IsLine (l : Bytes) : Prop where
  no_end : strstr l crlf = none
  not_nul : ∀ c ∈ l, c ≠ 0

/-- A header line, of another field than `Host`. -/
structure OtherField (l : Bytes) : Prop where
  line : IsLine l
  ne_nil : l ≠ []
  not_host : (l.take 5).map tolower ≠ (ascii "Host:").map tolower

/-- The value of a `Host` field, after the blanks. -/
structure FieldValue (value : Bytes) : Prop where
  line : IsLine value
  ne_nil : value ≠ []
  head_ne : value.head? ≠ some 32
  length_lt : value.length < maxHostname

/-- Everything of a request but the value of its one `Host` field: the first line, the header
lines before the field, its name and the blanks after that, the header lines after the field,
and the body. -/
structure HostContext where
  first : Bytes
  before : List Bytes
  name : Bytes
  blanks : ℕ
  after : List Bytes
  body : Bytes
  first_line : IsLine first
  before_other : ∀ l ∈ before, OtherField l
  name_host : name.map tolower = (ascii "Host:").map tolower
  after_other : ∀ l ∈ after, OtherField l
  body_not_nul : ∀ c ∈ body, c ≠ 0

/-- Lines, each with its line end. -/
def fieldLines (lines : List Bytes) : Bytes := lines.flatMap (· ++ crlf)

/-- The text ends with a line end. -/
lemma fieldLines_end (first : Bytes) (lines : List Bytes) :
    ∃ before, first ++ crlf ++ fieldLines lines = before ++ crlf := by
  rw [fieldLines]
  rcases List.eq_nil_or_concat' lines with rfl | ⟨lines, l, rfl⟩
  · exact ⟨first, by simp⟩
  · exact ⟨first ++ crlf ++ (lines.flatMap (· ++ crlf) ++ l), by simp⟩

namespace HostContext

/-- The text before the field. -/
def heading (k : HostContext) : Bytes := k.first ++ crlf ++ fieldLines k.before

/-- The text after the value of the field. -/
def trailer (k : HostContext) : Bytes := crlf ++ (fieldLines k.after ++ (crlf ++ k.body))

/-- The request with a value of the field. -/
def text (k : HostContext) (value : Bytes) : Bytes :=
  k.heading ++ (k.name ++ (List.replicate k.blanks 32 ++ (value ++ k.trailer)))

/-- The destination is that of the value, whatever the value is. -/
def FromField (k : HostContext) : Prop :=
  ∀ value, FieldValue value → ∀ host port request,
    httpParseRequest (k.text value) host port = .ok (some request) →
      (request.host, request.port) = splitHostPort value

lemma heading_eq (k : HostContext) : ∃ before, k.heading = before ++ crlf :=
  fieldLines_end k.first k.before

/-- The words of the heading come first. -/
lemma tokens_heading_append (k : HostContext) (s : Bytes) :
    tokens (k.heading ++ s) = tokens k.heading ++ tokens s := by
  obtain ⟨before, hbefore⟩ := k.heading_eq
  have hsplit : ∀ s, before ++ crlf ++ s = (before ++ [13]) ++ 10 :: s := by simp [crlf]
  have hend : tokens (before ++ crlf) = tokens (before ++ [13]) := by
    rw [← List.append_nil (before ++ crlf), hsplit, tokens_append _ rfl, tokens_nil,
      List.append_nil]
  rw [hbefore, hsplit, tokens_append _ rfl, hend]

end HostContext

/-! ### Words of a request -/

/-- The words of a part fit where the words of the whole do. -/
lemma wordsFit_of_append {a s : Bytes} (happend : tokens (a ++ s) = tokens a ++ tokens s)
    (h : WordsFit (requestWords (a ++ s))) : WordsFit (requestWords a) := by
  have hnil : ∀ n, ([] : Bytes).length < n + 1 := Nat.succ_pos
  rw [requestWords_eq, happend] at h
  rw [requestWords_eq]
  generalize tokens a = words at h ⊢
  rcases words with _ | ⟨method, _ | ⟨url, _ | ⟨version, rest⟩⟩⟩
  · exact ⟨hnil _, hnil _, hnil _⟩
  · exact ⟨h.1, hnil _, hnil _⟩
  · exact ⟨h.1, h.2.1, hnil _⟩
  · exact h

/-- Three short words complete every request line that fits. -/
lemma wordsFit_append {a s : Bytes} (happend : tokens (a ++ s) = tokens a ++ tokens s)
    (h : WordsFit (requestWords a)) {x y z : Bytes} {rest : List Bytes}
    (hs : tokens s = x :: y :: z :: rest) (hx : x.length < 16) (hy : y.length < 16)
    (hz : z.length < 16) (hne : z ≠ []) :
    WordsFit (requestWords (a ++ s)) ∧ (requestWords (a ++ s)).2.2 ≠ [] := by
  have hwide : 16 ≤ maxPath := by decide
  have hall : ∀ w ∈ tokens (a ++ s), w ≠ [] := fun w => ne_nil_of_mem_tokens
  rw [requestWords_eq] at h
  rw [requestWords_eq, happend, hs]
  rw [happend, hs] at hall
  generalize tokens a = words at h hall ⊢
  rcases words with _ | ⟨method, _ | ⟨url, _ | ⟨version, more⟩⟩⟩
  · exact ⟨⟨hx, hy.trans_le hwide, hz⟩, hne⟩
  · exact ⟨⟨h.1, hx.trans_le hwide, hy⟩, hall y (by simp)⟩
  · exact ⟨⟨h.1, h.2.1, hx⟩, hall x (by simp)⟩
  · exact ⟨h, hall version (by simp)⟩

/-- A value that completes every request line. -/
def shortValue (c : UInt8) : Bytes := [c, 32, 98, 32, 98]

lemma fieldValue_short {c : UInt8} (hc : isspace c = false) (hne : c ≠ 0) :
    FieldValue (shortValue c) := by
  have h32 : c ≠ 32 := by
    rintro rfl
    cases hc
  have h13 : c ≠ 13 := by
    rintro rfl
    cases hc
  refine ⟨⟨strstr_eq_none (c := 13) (by decide) (by simp [shortValue, h13.symm]), ?_⟩,
    List.cons_ne_nil _ _, by simp [shortValue, h32], by simp [shortValue, maxHostname]⟩
  intro d hd
  simp only [shortValue, List.mem_cons, List.not_mem_nil, or_false] at hd
  rcases hd with rfl | rfl | rfl | rfl | rfl
  · exact hne
  all_goals decide

lemma tokens_blanks (n : ℕ) (s : Bytes) : tokens (List.replicate n 32 ++ s) = tokens s := by
  rw [← tokens_dropWhile, List.dropWhile_append_of_pos, tokens_dropWhile]
  intro c hc
  rw [List.eq_of_mem_replicate hc]
  rfl

/-- The words of a field with that value. -/
lemma tokens_short (k : HostContext) {c : UInt8} (hc : isspace c = false) :
    ∃ x rest, tokens (k.name ++ (List.replicate k.blanks 32 ++ (shortValue c ++ k.trailer))) =
      x :: rest ∧ x.length < 16 ∧ ∃ y z more, rest = y :: z :: more ∧ y.length < 16 ∧
        z.length < 16 ∧ z ≠ [] := by
  have hname := not_space_of_host k.name_host
  have hlen := length_of_host k.name_host
  have hne : k.name ≠ [] := List.ne_nil_of_length_pos (by omega)
  have hletter : ∀ d, isspace d = false → tokens [d] = [[d]] := fun d hd =>
    tokens_of_not_space (by simp) (by simpa using hd)
  obtain ⟨tail, htail⟩ : ∃ tail, k.trailer = 13 :: tail := ⟨_, rfl⟩
  -- the last two words of the value
  have hlast : tokens ([98] ++ 32 :: ([98] ++ 13 :: tail)) = [98] :: [98] :: tokens tail := by
    rw [tokens_append _ rfl, tokens_append _ rfl, hletter 98 rfl]
    rfl
  cases hblanks : k.blanks with
  | zero =>
      have hsplit : k.name ++ (List.replicate 0 32 ++ (shortValue c ++ 13 :: tail)) =
          (k.name ++ [c]) ++ 32 :: ([98] ++ 32 :: ([98] ++ 13 :: tail)) := by
        simp [shortValue]
      have hword : tokens (k.name ++ [c]) = [k.name ++ [c]] := by
        refine tokens_of_not_space (by simp) fun d hd => ?_
        rcases List.mem_append.mp hd with hd | hd
        · exact hname d hd
        · rwa [List.mem_singleton.mp hd]
      refine ⟨k.name ++ [c], [98] :: [98] :: tokens tail, ?_, by simp [hlen], [98], [98],
        tokens tail, rfl, by simp, by simp, by simp⟩
      rw [htail, hsplit, tokens_append _ rfl, hword, hlast]
      rfl
  | succ n =>
      have hsplit : k.name ++ (List.replicate (n + 1) 32 ++ (shortValue c ++ 13 :: tail)) =
          k.name ++ 32 :: (List.replicate n 32 ++
            ([c] ++ 32 :: ([98] ++ 32 :: ([98] ++ 13 :: tail)))) := by
        simp [shortValue, List.replicate_succ]
      refine ⟨k.name, [c] :: [98] :: [98] :: tokens tail, ?_, by omega, [c], [98],
        [98] :: tokens tail, rfl, by simp, by simp, by simp⟩
      rw [htail, hsplit, tokens_append _ rfl, tokens_of_not_space hne hname, tokens_blanks,
        tokens_append _ rfl, hletter c hc, hlast]
      rfl

/-! ### The destination comes from the field -/

namespace HostContext

/-- Where the name does not stand in the heading, the field gives the destination. -/
lemma destinationOf_text {k : HostContext} (hk : strcasestr k.heading (ascii "Host:") = none)
    {value : Bytes} (hv : FieldValue value) (url : Bytes) :
    destinationOf (k.text value) url = some (splitHostPort value) := by
  obtain ⟨before, hbefore⟩ := k.heading_eq
  have hfield := destinationOf_field (hbefore ▸ hk) k.name_host k.blanks hv.line.no_end hv.head_ne
    (fieldLines k.after ++ (crlf ++ k.body)) url
  rw [List.take_of_length_le (Nat.le_sub_one_of_lt hv.length_lt), ← hbefore] at hfield
  exact hfield

/-- Where it does, the destination has nothing to do with the field. -/
lemma exists_destinationOf_text {k : HostContext} {t : Bytes}
    (hk : strcasestr k.heading (ascii "Host:") = some t) :
    ∃ destination, ∀ value url, destinationOf (k.text value) url = some destination := by
  obtain ⟨before, hbefore⟩ := k.heading_eq
  obtain ⟨hsuffix, hmatch⟩ := strcasestr_eq_some hk
  have hlen : 5 ≤ t.length := length_le_of_match hmatch
  -- the line end of the heading comes after the name
  obtain ⟨u, rfl⟩ : crlf <:+ t := by
    rw [hbefore] at hsuffix
    exact List.suffix_of_suffix_length_le (List.suffix_append _ _) hsuffix
      ((by decide : 2 ≤ 5).trans hlen)
  have hname : 5 ≤ u.length := by
    by_contra hshort
    have hmem : (13 : UInt8) ∈ (u ++ crlf).take (ascii "Host:").length := by
      obtain ⟨n, hn⟩ : ∃ n, (ascii "Host:").length - u.length = n + 1 :=
        Nat.exists_eq_succ_of_ne_zero (Nat.sub_ne_zero_of_lt (not_le.mp hshort))
      rw [List.take_append, hn]
      exact List.mem_append_right _ List.mem_cons_self
    exact not_mem_host_of_isspace 13 rfl (hmatch ▸ List.mem_map_of_mem hmem)
  have hwritten : hostOfHeader (u ++ crlf) ≠ none := by
    have hline : crlf <:+: ((u ++ crlf).drop 5).dropWhile (· = 32) := by
      rw [List.drop_append_of_le_length hname, List.dropWhile_append]
      split
      · exact List.infix_refl _
      · exact (List.suffix_append _ _).isInfix
    rw [hostOfHeader, ne_eq, Option.map_eq_none_iff, strstr_eq_none_iff]
    exact not_not_intro hline
  obtain ⟨destination, hdestination⟩ := Option.ne_none_iff_exists'.mp hwritten
  refine ⟨destination, fun value url => ?_⟩
  rw [destinationOf, text, strcasestr_append_of_some hk, ← hdestination]
  exact hostOfHeader_append hlen hwritten _

end HostContext

/-- **The `Host` field.** The destination of a request is that of the value of its `Host`
field, for every value, if and only if the name of the field stands nowhere before it, or a
word of the request line does not fit its array. -/
theorem fromField_iff (k : HostContext) :
    k.FromField ↔ strcasestr k.heading (ascii "Host:") = none ∨
      ¬WordsFit (requestWords k.heading) := by
  constructor
  · intro hlaw
    by_contra hcon
    obtain ⟨hfound, hfit⟩ := not_or.mp hcon
    obtain ⟨t, ht⟩ := Option.ne_none_iff_exists'.mp hfound
    obtain ⟨destination, hdestination⟩ := HostContext.exists_destinationOf_text ht
    -- two values, of which one is not that destination
    have hsame : ∀ c, isspace c = false → c ≠ 0 → destination = splitHostPort (shortValue c) := by
      intro c hc hne
      obtain ⟨x, _, hwords, hx, y, z, more, rfl, hy, hz, hz'⟩ := tokens_short k hc
      obtain ⟨hfits, hthird⟩ := wordsFit_append (k.tokens_heading_append _) (not_not.mp hfit)
        hwords hx hy hz hz'
      have hline : strstr (k.text (shortValue c)) crlf ≠ none := by
        rw [Ne, strstr_eq_none_iff, not_not]
        exact ⟨k.first, _, (List.append_assoc ..).symm⟩
      obtain ⟨request, hparse⟩ := exists_parsed hline hfits hthird [] 80
      have hfield := hlaw _ (fieldValue_short hc hne) [] 80 request hparse
      rw [(httpParseRequest_eq_some hparse).2, hdestination] at hfield
      exact hfield
    have htwo := (hsame 97 rfl (by decide)).symm.trans (hsame 98 rfl (by decide))
    exact absurd htwo (by decide)
  · rintro (hnone | hunfit) value hv host port request hparse
    · rw [(httpParseRequest_eq_some hparse).2, HostContext.destinationOf_text hnone hv]
      rfl
    · exact absurd (wordsFit_of_append (k.tokens_heading_append _) (wordsFit_of_parsed hparse))
        hunfit

lemma isLine_get : IsLine (ascii "GET / HTTP/1.1") := ⟨by decide +kernel, by decide +kernel⟩

lemma forwarded_other : ∀ l ∈ [ascii "X-Forwarded-Host: evil"], OtherField l := by
  intro l hl
  rw [List.mem_singleton.mp hl]
  exact ⟨⟨by decide +kernel, by decide +kernel⟩, by decide +kernel, by decide +kernel⟩

/-- A request with a `Host` field, and fields before it. -/
def hostAfter (before : List Bytes) (hbefore : ∀ l ∈ before, OtherField l) : HostContext where
  first := ascii "GET / HTTP/1.1"
  before := before
  name := ascii "Host:"
  blanks := 1
  after := []
  body := []
  first_line := isLine_get
  before_other := hbefore
  name_host := rfl
  after_other := List.forall_mem_nil _
  body_not_nul := List.forall_mem_nil _

/-- **Another field decides.** Two requests with the same `Host` field, of which one has a field
`X-Forwarded-Host` before it, have different destinations. -/
theorem forwardedHost_dialled : ∃ request request',
    FieldValue (ascii "good") ∧
      httpParseRequest ((hostAfter [ascii "X-Forwarded-Host: evil"] forwarded_other).text
        (ascii "good")) [] 80 = .ok (some request) ∧
      httpParseRequest ((hostAfter [] (List.forall_mem_nil _)).text (ascii "good")) [] 80 =
        .ok (some request') ∧
      request.host = ascii "evil" ∧ request'.host = ascii "good" ∧
      ¬(hostAfter [ascii "X-Forwarded-Host: evil"] forwarded_other).FromField := by
  have hgood : FieldValue (ascii "good") :=
    ⟨⟨by decide +kernel, by decide +kernel⟩, by decide +kernel, by decide +kernel,
      by decide +kernel⟩
  have hparse : httpParseRequest ((hostAfter [ascii "X-Forwarded-Host: evil"]
      forwarded_other).text (ascii "good")) [] 80 =
        .ok (some ⟨ascii "GET", ascii "/", ascii "HTTP/1.1", ascii "evil", 80⟩) := by
    decide +kernel
  have hplain : httpParseRequest ((hostAfter [] (List.forall_mem_nil _)).text (ascii "good"))
      [] 80 = .ok (some ⟨ascii "GET", ascii "/", ascii "HTTP/1.1", ascii "good", 80⟩) := by
    decide +kernel
  refine ⟨_, _, hgood, hparse, hplain, rfl, rfl, fun hlaw => ?_⟩
  have hvalue := hlaw _ hgood _ _ _ hparse
  exact absurd hvalue (by decide +kernel)

/-! ### The destination is defined -/

/-- Whenever the text is parsed, the host is a part of it, and host and port do not depend on
what the variables held before. -/
def DefinesDestination (s : Bytes) : Prop :=
  ∀ host port request, httpParseRequest s host port = .ok (some request) →
    request.host <:+: s ∧ ∀ host' port' request',
      httpParseRequest s host' port' = .ok (some request') →
        request'.host = request.host ∧ request'.port = request.port

/-- A line end follows the first `Host:` of the text; or there is none, and the URL is absolute
and has a path. -/
def NamesDestination (s : Bytes) : Prop :=
  match strcasestr s (ascii "Host:") with
  | some hostHeader => strstr hostHeader crlf ≠ none
  | none =>
      ascii "http://" = (requestWords s).2.1.take 7 ∧ (47 : UInt8) ∈ (requestWords s).2.1.drop 7

lemma hostOfHeader_eq_none_iff {hostHeader : Bytes}
    (h : (hostHeader.take 5).map tolower = (ascii "Host:").map tolower) :
    hostOfHeader hostHeader = none ↔ strstr hostHeader crlf = none := by
  have hname : (13 : UInt8) ∉ hostHeader.take 5 := fun hmem =>
    not_mem_host_of_isspace 13 rfl (h ▸ List.mem_map_of_mem hmem)
  have hblanks : (13 : UInt8) ∉ (hostHeader.drop 5).takeWhile (· = 32) := fun hmem => by
    have hblank := List.mem_takeWhile_imp hmem
    simp at hblank
  have hskip : strstr hostHeader crlf =
      strstr ((hostHeader.drop 5).dropWhile (· = 32)) crlf := by
    conv_lhs => rw [← List.take_append_drop 5 hostHeader]
    rw [crlf, strstr_append_of_not_mem hname]
    conv_lhs => rw [← List.takeWhile_append_dropWhile (p := (· = 32)) (l := hostHeader.drop 5)]
    rw [strstr_append_of_not_mem hblanks]
  rw [hskip, hostOfHeader, Option.map_eq_none_iff]

lemma hostOfUrl_eq_none_iff (url : Bytes) :
    hostOfUrl url = none ↔ ¬(ascii "http://" = url.take 7 ∧ (47 : UInt8) ∈ url.drop 7) := by
  rw [hostOfUrl, eq_comm (a := ascii "http://")]
  split
  · rename_i hscheme
    rw [Option.map_eq_none_iff, strchr_eq_none_iff]
    simp [hscheme]
  · rename_i hscheme
    simp [hscheme]

/-- The destination is written where it is named. -/
lemma destinationOf_eq_none_iff (s : Bytes) :
    destinationOf s (requestWords s).2.1 = none ↔ ¬NamesDestination s := by
  rw [destinationOf, NamesDestination]
  cases hfound : strcasestr s (ascii "Host:") with
  | none => exact hostOfUrl_eq_none_iff _
  | some hostHeader =>
      rw [hostOfHeader_eq_none_iff (strcasestr_eq_some hfound).2]
      exact not_not.symm

/-- The second word is a part of the text. -/
lemma url_isInfix (s : Bytes) : (requestWords s).2.1 <:+: s := by
  have hrest : ∀ s, (scanToken s).2 <:+ s := fun s =>
    (List.dropWhile_suffix _).trans (List.dropWhile_suffix _)
  have hword : ∀ s, (scanToken s).1 <:+: s := fun s =>
    (List.takeWhile_prefix _).isInfix.trans (List.dropWhile_suffix _).isInfix
  exact (hword _).trans (hrest s).isInfix

/-- The host that is written is a part of the text. -/
lemma host_isInfix {s url host : Bytes} {port : ℤ} (hurl : url <:+: s)
    (h : destinationOf s url = some (host, port)) : host <:+: s := by
  rw [destinationOf] at h
  split at h
  · rename_i hostHeader hfound
    obtain ⟨hostEnd, -, hsplit⟩ := Option.map_eq_some_iff.mp h
    have hpre := splitHostPort_prefix (((hostHeader.drop 5).dropWhile (· = 32)).take
      (min (((hostHeader.drop 5).dropWhile (· = 32)).length - hostEnd.length) (maxHostname - 1)))
    rw [hsplit] at hpre
    calc host <:+: (hostHeader.drop 5).dropWhile (· = 32) :=
          (hpre.trans (List.take_prefix _ _)).isInfix
      _ <:+: hostHeader := ((List.dropWhile_suffix _).trans (List.drop_suffix _ _)).isInfix
      _ <:+: s := (strcasestr_eq_some hfound).1.isInfix
  · exact (hostOfUrl_isInfix h).trans hurl

/-- **The destination** is defined by every parse of a text if and only if the text names one,
or it is not parsed. -/
theorem definesDestination_iff (s : Bytes) :
    DefinesDestination s ↔
      NamesDestination s ∨ strstr s crlf = none ∨ (tokens s).length < 3 ∨
        ¬WordsFit (requestWords s) := by
  constructor
  · intro hlaw
    by_contra hcon
    simp only [not_or, not_not] at hcon
    obtain ⟨hnamed, hline, hwords, hfit⟩ := hcon
    rw [← third_word_eq_nil_iff] at hwords
    -- the variables keep what they held
    have hkept : ∀ host, ∃ request,
        httpParseRequest s host 80 = .ok (some request) ∧ request.host = host := by
      intro host
      obtain ⟨request, hparse⟩ := exists_parsed hline hfit hwords host 80
      obtain ⟨hrequest, -⟩ := requestWords_of_parsed hparse
      have hdestination := (httpParseRequest_eq_some hparse).2
      have hurl : request.url = (requestWords s).2.1 := by rw [hrequest]
      rw [hurl, (destinationOf_eq_none_iff s).mpr hnamed, Option.getD_none] at hdestination
      exact ⟨request, hparse, congrArg Prod.fst hdestination⟩
    obtain ⟨request, hparse, hhost⟩ := hkept []
    obtain ⟨request', hparse', hhost'⟩ := hkept [97]
    have hsame := ((hlaw _ _ _ hparse).2 _ _ _ hparse').1
    rw [hhost, hhost'] at hsame
    cases hsame
  · intro hcond host port request hparse
    obtain ⟨hrequest, hversion⟩ := requestWords_of_parsed hparse
    have hnamed : NamesDestination s := by
      rcases hcond with hnamed | hnone | hfew | hunfit
      · exact hnamed
      · exact absurd hnone (strstr_ne_none_of_parsed hparse)
      · have hthird := (third_word_eq_nil_iff s).mpr hfew
        rw [hrequest] at hthird
        exact absurd hthird hversion
      · exact absurd (wordsFit_of_parsed hparse) hunfit
    obtain ⟨⟨host₀, port₀⟩, hdestination⟩ := Option.ne_none_iff_exists'.mp fun hnone =>
      (destinationOf_eq_none_iff s).mp hnone hnamed
    have hwritten : ∀ host port request, httpParseRequest s host port = .ok (some request) →
        request.host = host₀ ∧ request.port = port₀ := by
      intro host port request hparse
      have hpair := (httpParseRequest_eq_some hparse).2
      have hurl : request.url = (requestWords s).2.1 := by rw [(requestWords_of_parsed hparse).1]
      rw [hurl, hdestination, Option.getD_some] at hpair
      exact Prod.mk.inj hpair
    obtain ⟨hhost, hport⟩ := hwritten _ _ _ hparse
    refine ⟨?_, fun host' port' request' hparse' => ?_⟩
    · rw [hhost]
      exact host_isInfix (url_isInfix s) hdestination
    · obtain ⟨hhost', hport'⟩ := hwritten _ _ _ hparse'
      exact ⟨hhost'.trans hhost.symm, hport'.trans hport.symm⟩

/-- **No destination.** The host is what the variable held before. -/
theorem undefined_destination : ∃ request request',
    httpParseRequest (ascii "GET / HTTP/1.0\r\n\r\n") (ascii "a") 80 = .ok (some request) ∧
      httpParseRequest (ascii "GET / HTTP/1.0\r\n\r\n") (ascii "b") 80 = .ok (some request') ∧
      request.host = ascii "a" ∧ request'.host = ascii "b" ∧
      ¬DefinesDestination (ascii "GET / HTTP/1.0\r\n\r\n") := by
  have hparse : ∀ host, httpParseRequest (ascii "GET / HTTP/1.0\r\n\r\n") host 80 =
      .ok (some ⟨ascii "GET", ascii "/", ascii "HTTP/1.0", host, 80⟩) := fun _ => rfl
  refine ⟨_, _, hparse _, hparse _, rfl, rfl, fun hlaw => ?_⟩
  have hsame := ((hlaw _ _ _ (hparse (ascii "a"))).2 _ _ _ (hparse (ascii "b"))).1
  exact absurd hsame (by decide)

end ProxyMax
