import ProxyMax.Auth.Basic
import ProxyMax.Auth.RoundTrip

/-!
The strings that `auth_parse_basic` of `src/auth/auth.c` copies, against the arrays that
`http_handle_request` gives it.

* `CredentialsFit`: both strings have at most 127 bytes.
* `encodedText`: what the letters after `Basic ` stand for, up to a NUL;
  `authParseBasic_eq_some_iff` finds the strings in it.
* `credentialsFit_iff`: the strings fit exactly when the two parts of this text do, or it is
  not decoded.
-/

namespace ProxyMax

open CString Base64

/-- `char username[128], password[128]` have room for the strings copied to them. -/
def CredentialsFit (authHeader : Bytes) : Prop :=
  ∀ username password, authParseBasic authHeader = some (username, password) →
    username.length ≤ 127 ∧ password.length ≤ 127

/-- What the letters after `Basic ` stand for, up to a NUL. -/
def encodedText (basic : Bytes) : Bytes := cstr (ofSextets (digitValues (basic.drop 6)))

/-- White space before the letters is no different from white space among them. -/
lemma digitValues_dropWhile (s : Bytes) : digitValues (s.dropWhile isspace) = digitValues s := by
  have hall : ∀ c : UInt8, isspace c = true → c ≠ 61 ∧ base64DecodeTable c = 64 :=
    forall_byte (by decide +kernel)
  induction s with
  | nil => rfl
  | cons c s ih =>
      cases hc : isspace c with
      | true =>
          obtain ⟨hpad, hskip⟩ := hall c hc
          rw [List.dropWhile_cons_of_pos hc, ih, digitValues_skip hpad hskip]
      | false => rw [List.dropWhile_cons_of_neg (by simp [hc])]

/-- The NUL after the bytes written ends them. -/
lemma cstr_snoc_zero (s : Bytes) : cstr (s ++ [0]) = cstr s := by
  induction s with
  | nil => rfl
  | cons c s ih =>
      rw [List.cons_append, cstr, List.takeWhile_cons, cstr, List.takeWhile_cons]
      split_ifs
      · exact congrArg _ ih
      · rfl

/-- The split at the first colon. -/
lemma credentialsOf_eq_some_iff {output username password : Bytes} {ret : ℤ} (hret : 0 ≤ ret) :
    credentialsOf ⟨output, ret⟩ = some (username, password) ↔
      cstr output = username ++ 58 :: password ∧ 58 ∉ username := by
  constructor
  · intro h
    by_cases hcolon : (58 : UInt8) ∈ cstr output
    · obtain ⟨u, p, heq, hu⟩ := List.eq_append_cons_of_mem hcolon
      rw [credentialsOf_colon hu hret heq, Option.some.injEq, Prod.mk.injEq] at h
      obtain ⟨rfl, rfl⟩ := h
      exact ⟨heq, hu⟩
    · simp only [credentialsOf, if_neg (not_lt.mpr hret), strchr_eq_none_iff.mpr hcolon] at h
      cases h
  · rintro ⟨heq, hu⟩
    exact credentialsOf_colon hu hret heq

/-- **What is copied**: the two parts of the text, if there is a text and it is decoded. -/
lemma authParseBasic_eq_some_iff {authHeader username password : Bytes} :
    authParseBasic authHeader = some (username, password) ↔
      ∃ basic, strcasestr authHeader (ascii "Basic ") = some basic ∧
        bytesAsked (digitValues (basic.drop 6)) < 512 ∧
        encodedText basic = username ++ 58 :: password ∧ 58 ∉ username := by
  rw [authParseBasic]
  cases strcasestr authHeader (ascii "Basic ") with
  | none => simp
  | some basic =>
      simp only [Option.some.injEq, exists_eq_left']
      by_cases hfit : bytesAsked (digitValues (basic.drop 6)) < 512
      · have hlen := lt_of_le_of_lt (length_ofSextets_le (digitValues (basic.drop 6))) hfit
        rw [base64Decode_of_fits (by rwa [digitValues_dropWhile]), digitValues_dropWhile,
          Int.bmod_eq_of_le (by omega) (by omega), credentialsOf_eq_some_iff (by omega),
          cstr_snoc_zero]
        exact ⟨fun h => ⟨hfit, h⟩, And.right⟩
      · have hlarge : 512 ≤ bytesAsked (digitValues ((basic.drop 6).dropWhile isspace)) := by
          rw [digitValues_dropWhile]
          exact not_lt.mp hfit
        obtain ⟨output, hfail, -⟩ := base64Decode_of_not_fits (by omega : 0 < 512) hlarge
        rw [hfail]
        exact ⟨fun h => by simp [credentialsOf] at h, fun h => absurd h.1 hfit⟩

/-- The decoded text has a part, before or after its first colon, of more than 127 bytes. -/
def OverlongPart (authHeader : Bytes) : Prop :=
  ∃ basic u p, strcasestr authHeader (ascii "Basic ") = some basic ∧
    bytesAsked (digitValues (basic.drop 6)) < 512 ∧
    encodedText basic = u ++ 58 :: p ∧ 58 ∉ u ∧ (127 < u.length ∨ 127 < p.length)

/-- **Credentials fit their arrays** exactly when no part of a text that is decoded is
overlong: nothing between the decoder, which stops at 512 bytes, and the arrays of 128
bytes counts them. -/
theorem credentialsFit_iff (authHeader : Bytes) :
    CredentialsFit authHeader ↔ ¬ OverlongPart authHeader := by
  constructor
  · rintro hfit ⟨basic, u, p, hbasic, hasked, htext, hu, hlong⟩
    have hparts := hfit u p (authParseBasic_eq_some_iff.mpr ⟨basic, hbasic, hasked, htext, hu⟩)
    omega
  · intro hnot username password h
    obtain ⟨basic, hbasic, hasked, htext, hu⟩ := authParseBasic_eq_some_iff.mp h
    by_contra hlong
    exact hnot ⟨basic, username, password, hbasic, hasked, htext, hu, by omega⟩

/-- The header for a user name of 128 bytes. -/
def longUsername : Bytes :=
  ascii "Proxy-Authorization: Basic " ++ (encode (List.replicate 128 97 ++ 58 :: ascii "p") ++
    ascii "\r\n\r\n")

/-- All its bytes are copied, and the NUL is written past the array. -/
theorem longUsername_overflows :
    authParseBasic longUsername = some (List.replicate 128 97, ascii "p") ∧
      ¬ CredentialsFit longUsername := by
  have hparse : authParseBasic longUsername = some (List.replicate 128 97, ascii "p") := by
    have hvalues : digitValues (encode (List.replicate 128 97 ++ 58 :: ascii "p") ++
        ascii "\r\n\r\n") = toSextets (List.replicate 128 97 ++ 58 :: ascii "p") :=
      digitValues_encode_padded (by decide +kernel) _
    rw [longUsername, authParseBasic_encode, credentialsOf_decode (u := List.replicate 128 97)
      (q := ascii "p") ?_ (by rw [hvalues]; decide +kernel) (by rw [hvalues, ofSextets_toSextets])]
    · decide +kernel
    · intro c hc
      obtain rfl := List.eq_of_mem_replicate hc
      decide
  refine ⟨hparse, fun h => ?_⟩
  have hlen := (h _ _ hparse).1
  rw [List.length_replicate] at hlen
  omega

end ProxyMax
