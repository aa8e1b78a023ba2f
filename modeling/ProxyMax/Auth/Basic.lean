import ProxyMax.Auth.Base64

/-!
The users and the credentials of `src/auth/auth.c`.

* `AuthCredentials`, `authVerify`: the list of users and the check against it.
* `authParseBasic`: the credentials in a request.
* `proxyAuthorization`: the text of a request from a credentials header on, and
  `auth_parse_basic_iff`: for which credentials and which continuations of the
  request they are read back.
-/

namespace ProxyMax

open CString Base64

/-! ### The code -/

/-- `struct auth_credentials` as it lies in memory: two arrays of 128 bytes and
the pointer after them. -/
structure AuthCredentials where
  username : Bytes
  password : Bytes
  next : Bytes
deriving DecidableEq, Repr

/-- `auth_verify`, for two strings. Each field is read up to its NUL, past its
array when there is none in it. -/
def authVerify (users : List AuthCredentials) (username password : Bytes) : ℤ :=
  if users.any fun user => cstr (user.username ++ user.password ++ user.next) = username ∧
      cstr (user.password ++ user.next) = password then 0
  else -1

/-- The part of `auth_parse_basic` after the decoding. -/
def credentialsOf (decoded : Decoded) : Option (Bytes × Bytes) :=
  if decoded.ret < 0 then none
  else
    match strchr (cstr decoded.output) 58 with
    | none => none
    | some colon => some ((cstr decoded.output).takeWhile (· ≠ 58), colon.tail)

/-- `auth_parse_basic`: the strings copied to `username` and `password`, or
`none` when it fails. -/
def authParseBasic (authHeader : Bytes) : Option (Bytes × Bytes) :=
  match strcasestr authHeader (ascii "Basic ") with
  | none => none
  | some basic => credentialsOf (base64Decode ((basic.drop 6).dropWhile isspace) 512)

/-! ### Reading back an encoded pair -/

/-- The text of a request from a credentials header on: the header with the
encoding of `u:p`, its line end and the rest of the request. -/
def proxyAuthorization (u p rest : Bytes) : Bytes :=
  cstr (ascii "Proxy-Authorization: Basic " ++ encode (u ++ 58 :: p) ++ ascii "\r\n" ++ rest)

lemma strcasestr_basic (rest : Bytes) :
    strcasestr (ascii "Proxy-Authorization: Basic " ++ rest) (ascii "Basic ")
      = some (ascii "Basic " ++ rest) := by
  have hsplit : ascii "Proxy-Authorization: Basic "
      = ascii "Proxy-Authorization: " ++ ascii "Basic " := by decide +kernel
  rw [hsplit, List.append_assoc]
  exact strcasestr_append (by decide +kernel) rest

/-- The encoding starts right after the header's name and scheme. -/
lemma authParseBasic_encode (u p t : Bytes) :
    authParseBasic (ascii "Proxy-Authorization: Basic " ++ (encode (u ++ 58 :: p) ++ t))
      = credentialsOf (base64Decode (encode (u ++ 58 :: p) ++ t) 512) := by
  have hhead : ∃ v b, v < 64 ∧ encode (u ++ 58 :: p) = digit v :: b := by
    have hlen := length_toSextets (u ++ 58 :: p)
    rcases hvs : toSextets (u ++ 58 :: p) with _ | ⟨v, vs⟩
    · rw [hvs] at hlen
      simp only [List.length_nil, List.length_append, List.length_cons] at hlen
      split at hlen <;> omega
    · exact ⟨v, vs.map digit ++ pad (u ++ 58 :: p), sextet_lt (u ++ 58 :: p) v (by simp [hvs]),
        by simp [encode, hvs]⟩
  obtain ⟨v, b, hv, henc⟩ := hhead
  have hspace : isspace (digit v) = false := by
    have hall : ∀ v : UInt8, v < 64 → isspace (digit v) = false := forall_byte (by decide +kernel)
    exact hall v hv
  have hdrop : (ascii "Basic " ++ (encode (u ++ 58 :: p) ++ t)).drop 6
      = encode (u ++ 58 :: p) ++ t := List.drop_left' (by decide +kernel)
  have hskip : (encode (u ++ 58 :: p) ++ t).dropWhile isspace = encode (u ++ 58 :: p) ++ t := by
    rw [henc, List.cons_append, List.dropWhile_cons_of_neg (by simp [hspace])]
  rw [authParseBasic, strcasestr_basic]
  simp only [hdrop, hskip]

/-- The header and its encoding hold no NUL, so the text goes on to the first
NUL of the rest of the request. -/
lemma proxyAuthorization_eq (u p rest : Bytes) :
    proxyAuthorization u p rest = ascii "Proxy-Authorization: Basic " ++
      (encode (u ++ 58 :: p) ++ (ascii "\r\n" ++ cstr rest)) := by
  have henc : ∀ c ∈ encode (u ++ 58 :: p), c ≠ 0 := fun c hc => ne_zero_of_mem_encode hc
  rw [proxyAuthorization, List.append_assoc, List.append_assoc, cstr_append (by decide +kernel),
    cstr_append henc, cstr_append (by decide +kernel)]

/-- Splitting at the colon. -/
lemma credentialsOf_colon {u q output : Bytes} {ret : ℤ} (hcolon : 58 ∉ u) (hret : 0 ≤ ret)
    (hout : cstr output = u ++ 58 :: q) : credentialsOf ⟨output, ret⟩ = some (u, q) := by
  simp only [credentialsOf, if_neg (not_lt.mpr hret), hout, strchr_append hcolon,
    takeWhile_append_cons hcolon, List.tail_cons]

/-- Decoding the values into 512 bytes, when they fit, and splitting at the colon. -/
lemma credentialsOf_decode {u q input : Bytes} (hu : ∀ c ∈ u, c ≠ 0 ∧ c ≠ 58)
    (hfit : bytesAsked (digitValues input) < 512)
    (hval : ofSextets (digitValues input) = u ++ 58 :: q) :
    credentialsOf (base64Decode input 512) = some (u, cstr (q ++ [0])) := by
  have hlen : (ofSextets (digitValues input)).length < 512 :=
    lt_of_le_of_lt (length_ofSextets_le _) hfit
  rw [base64Decode_of_fits hfit]
  apply credentialsOf_colon fun h => (hu 58 h).2 rfl
  · rw [Int.bmod_eq_of_le (by omega) (by omega)]
    omega
  · rw [hval, List.append_assoc, cstr_append fun c hc => (hu c hc).1]
    simp [cstr]

/-- **The values after the encoding.** The credentials are read back from an
encoding that ends with padding, and from one that does not when the values
that follow fit and their first byte is a NUL. -/
def ReadsBack (u p rest : Bytes) : Prop :=
  (u.length + 1 + p.length) % 3 ≠ 0 ∨
    (u.length + 1 + p.length + bytesAsked (digitValues rest) < 512 ∧
      ∀ a b vs, digitValues rest = a :: b :: vs → a = 0 ∧ b < 16)

/-- Two values or more start with the NUL just when their first byte is zero. -/
lemma cstr_ofSextets_eq_nil {vs : List UInt8} (hvs : ∀ v ∈ vs, v < 64) :
    cstr (ofSextets vs ++ [0]) = [] ↔ ∀ a b ws, vs = a :: b :: ws → a = 0 ∧ b < 16 := by
  have hhigh : ∀ a : UInt8, a < 64 → (a <<< 2 = 0 ↔ a = 0) := forall_byte (by decide +kernel)
  have hlow : ∀ b : UInt8, b >>> 4 = 0 ↔ b < 16 := forall_byte (by decide +kernel)
  rcases vs with _ | ⟨a, _ | ⟨b, ws⟩⟩
  · simp [ofSextets, cstr]
  · simp [ofSextets, cstr]
  · have hhead : ∃ t, ofSextets (a :: b :: ws) = ((a <<< 2) ||| (b >>> 4)) :: t := by
      rcases ws with _ | ⟨c, _ | ⟨d, ws⟩⟩
      · exact ⟨_, rfl⟩
      · exact ⟨_, rfl⟩
      · exact ⟨_, rfl⟩
    obtain ⟨t, ht⟩ := hhead
    have hbyte : (a <<< 2) ||| (b >>> 4) = 0 ↔ a = 0 ∧ b < 16 := by
      rw [UInt8.or_eq_zero_iff, hhigh a (hvs a (by simp)), hlow b]
    have hall : (∀ a' b' ws', a :: b :: ws = a' :: b' :: ws' → a' = 0 ∧ b' < 16)
        ↔ (a <<< 2) ||| (b >>> 4) = 0 := by
      rw [hbyte]
      exact ⟨fun h => h a b ws rfl, fun h _ _ _ he => by cases he; exact h⟩
    rw [ht, hall]
    by_cases h0 : (a <<< 2) ||| (b >>> 4) = 0
    · simp [cstr, h0]
    · simp [cstr, h0]

/-- **Credentials are read back** just when their encoding is padded or the
values of the rest of the request start with a NUL. -/
theorem auth_parse_basic_iff {u p : Bytes} (hu : ∀ c ∈ u, c ≠ 0 ∧ c ≠ 58) (hp : ∀ c ∈ p, c ≠ 0)
    (hulen : u.length < 128) (hplen : p.length < 128) (rest : Bytes) :
    authParseBasic (proxyAuthorization u p rest) = some (u, p) ↔ ReadsBack u p (cstr rest) := by
  have hb : (u ++ 58 :: p).length = u.length + 1 + p.length := by
    simp only [List.length_append, List.length_cons]
    omega
  have hsix := length_toSextets (u ++ 58 :: p)
  have hpnul : cstr (p ++ [0]) = p := by
    rw [cstr_append hp]
    simp [cstr]
  rw [proxyAuthorization_eq, authParseBasic_encode, ReadsBack]
  -- without padding the decoder goes on into the lines after the header; padding ends it
  by_cases hpad : (u.length + 1 + p.length) % 3 = 0
  · have hvals : digitValues (encode (u ++ 58 :: p) ++ (ascii "\r\n" ++ cstr rest))
        = toSextets (u ++ 58 :: p) ++ digitValues (cstr rest) := by
      rw [digitValues_encode_whole (by rw [hb]; exact hpad)]
      rfl
    have hasked : bytesAsked (toSextets (u ++ 58 :: p) ++ digitValues (cstr rest))
        = u.length + 1 + p.length + bytesAsked (digitValues (cstr rest)) := by
      rw [hb, if_pos hpad] at hsix
      rw [bytesAsked_append (by omega)]
      omega
    by_cases hfit : u.length + 1 + p.length + bytesAsked (digitValues (cstr rest)) < 512
    · have hread : credentialsOf (base64Decode _ 512)
          = some (u, cstr (p ++ ofSextets (digitValues (cstr rest)) ++ [0])) :=
        credentialsOf_decode hu (by rw [hvals, hasked]; exact hfit)
        (by rw [hvals, ofSextets_append (by rw [hb]; exact hpad)]; simp)
      rw [hread, List.append_assoc, cstr_append hp]
      simp [hpad, hfit, cstr_ofSextets_eq_nil digitValues_lt]
    · obtain ⟨output, hfail, _⟩ := base64Decode_of_not_fits (by omega : 0 < 512)
        (by rw [hvals, hasked]; exact not_lt.mp hfit)
      rw [hfail]
      simp [credentialsOf, hpad, hfit]
  · have hvals : digitValues (encode (u ++ 58 :: p) ++ (ascii "\r\n" ++ cstr rest))
        = toSextets (u ++ 58 :: p) := digitValues_encode_padded (by rw [hb]; exact hpad) _
    have hfit : bytesAsked (toSextets (u ++ 58 :: p)) < 512 := by
      rw [bytesAsked]
      rw [hb, if_neg hpad] at hsix
      omega
    have hread := credentialsOf_decode hu (by rw [hvals]; exact hfit)
      (by rw [hvals, ofSextets_toSextets])
    rw [hread, hpnul]
    simp [hpad]

/-- The padded encoding of `admin:admin` is read back from any request. -/
theorem auth_parse_basic_admin :
    authParseBasic (proxyAuthorization (ascii "admin") (ascii "admin")
      (ascii "Host: example.com\r\n\r\n")) = some (ascii "admin", ascii "admin") :=
  (auth_parse_basic_iff (by decide +kernel) (by decide +kernel) (by decide +kernel)
    (by decide +kernel) _).mpr (.inl (by decide +kernel))

/-- The encoding of `user:pass` has no padding, and the decoder takes the next
header for more of it. -/
theorem auth_parse_basic_user :
    authParseBasic (proxyAuthorization (ascii "user") (ascii "pass")
      (ascii "Host: example.com\r\n\r\n")) ≠ some (ascii "user", ascii "pass") := by
  decide +kernel

end ProxyMax
