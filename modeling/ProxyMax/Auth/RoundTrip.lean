import ProxyMax.Auth.Base64

/-!
`base64_decode` of `src/auth/auth.c` undoes the standard encoding.

* `Interspersed`: a text that is the encoding of a byte string, with other characters
  between its own.
* `digitValues_filter`: the decoder reads what the encoding alone says.
* `base64Decode_encode`: the bytes are written, and their number is returned as an `int`.
-/

namespace ProxyMax

open CString Base64

/-- A character that an encoding may hold. -/
def isCode (c : UInt8) : Bool := inAlphabet c || c = 61

/-- A string that is the encoding of `b` but for characters that are neither of the
alphabet nor `=`. -/
structure Interspersed (b : Bytes) where
  text : Bytes
  not_nul : ∀ c ∈ text, c ≠ 0
  code : text.filter isCode = encode b

/-- The encoding itself. -/
def plainEncoding (b : Bytes) : Interspersed b where
  text := encode b
  not_nul := fun _ hc => ne_zero_of_mem_encode hc
  code := List.filter_eq_self.mpr fun c hc => by
    rcases mem_encode hc with h | rfl
    · rw [isCode, h, Bool.true_or]
    · rfl

/-- The table knows the characters of the alphabet and no other. -/
lemma base64DecodeTable_eq_iff (c : UInt8) : base64DecodeTable c = 64 ↔ inAlphabet c = false := by
  have hall : ∀ c : UInt8, base64DecodeTable c = 64 ↔ inAlphabet c = false :=
    forall_byte (by decide +kernel)
  exact hall c

/-- The decoder reads past all other characters, wherever they stand. -/
lemma digitValues_filter (text : Bytes) : digitValues (text.filter isCode) = digitValues text := by
  induction text with
  | nil => rfl
  | cons c text ih =>
      by_cases hpad : c = 61
      · subst hpad
        rw [List.filter_cons_of_pos rfl, digitValues_stop, digitValues_stop]
      · cases hin : inAlphabet c with
        | false =>
            rw [List.filter_cons_of_neg (by simp [isCode, hin, hpad]), ih,
              digitValues_skip hpad ((base64DecodeTable_eq_iff c).mpr hin)]
        | true =>
            have hvalue : base64DecodeTable c ≠ 64 := fun h => by
              rw [(base64DecodeTable_eq_iff c).mp h] at hin
              cases hin
            rw [List.filter_cons_of_pos (by simp [isCode, hin]), digitValues_cons hpad hvalue, ih,
              digitValues_cons hpad hvalue]

/-- What the decoder reads of an encoding. -/
lemma digitValues_encode (b : Bytes) : digitValues (encode b) = toSextets b := by
  rw [← List.append_nil (encode b)]
  by_cases h : b.length % 3 = 0
  · rw [digitValues_encode_whole h, digitValues_nil, List.append_nil]
  · exact digitValues_encode_padded h []

/-- The decoder asks for one byte more where the encoding is padded. -/
lemma bytesAsked_toSextets_le (b : Bytes) : bytesAsked (toSextets b) ≤ b.length + 1 := by
  rw [bytesAsked, length_toSextets]
  split_ifs <;> omega

/-- **The decoding of an encoding.** -/
lemma base64Decode_interspersed {b : Bytes} (encoding : Interspersed b) {outputSize : ℕ}
    (hroom : b.length + 2 ≤ outputSize) :
    base64Decode encoding.text outputSize = ⟨b ++ [0], (b.length : ℤ).bmod (2 ^ 32)⟩ := by
  have hvalues : digitValues encoding.text = toSextets b := by
    rw [← digitValues_filter, encoding.code, digitValues_encode]
  have hasked := bytesAsked_toSextets_le b
  rw [base64Decode_of_fits (by rw [hvalues]; omega), hvalues, ofSextets_toSextets]

/-- **Base64 decoding undoes encoding.** Where there is room for the bytes, the NUL and one
byte more, the bytes and the NUL are written, and the number of the bytes is returned as an
`int` of 32 bits: as it is, if it is below `2 ^ 31`. -/
theorem base64Decode_encode (b : Bytes) (encoding : Interspersed b) (outputSize : ℕ)
    (hroom : b.length + 2 ≤ outputSize) :
    base64Decode encoding.text outputSize = ⟨b ++ [0], (b.length : ℤ).bmod (2 ^ 32)⟩ ∧
      (b.length < 2 ^ 31 → (base64Decode encoding.text outputSize).ret = b.length) := by
  have hdecode := base64Decode_interspersed encoding hroom
  refine ⟨hdecode, fun hlt => ?_⟩
  rw [hdecode]
  dsimp only
  rw [Int.bmod_eq_of_le (by omega) (by omega)]

/-- The encoding of `user`, broken by a blank and a line end, into six bytes. -/
theorem base64Decode_encode_user :
    (base64Decode (ascii "dX Nl\r\ncg=\t=") 6).output = ascii "user" ++ [0] ∧
      (base64Decode (ascii "dX Nl\r\ncg=\t=") 6).ret = 4 := by
  have h := base64Decode_encode (ascii "user")
    ⟨ascii "dX Nl\r\ncg=\t=", by decide +kernel, by decide +kernel⟩ 6 (by decide +kernel)
  exact ⟨congrArg Decoded.output h.1, h.2 (by decide +kernel)⟩

/-- The length `2 ^ 31` is no `int`. -/
theorem long_encoding_negative :
    ∃ (b : Bytes) (outputSize : ℕ), b.length + 2 ≤ outputSize ∧
      (base64Decode (plainEncoding b).text outputSize).ret = -2 ^ 31 ∧
      (base64Decode (plainEncoding b).text outputSize).ret ≠ b.length := by
  obtain ⟨b, hb⟩ : ∃ b : Bytes, b.length = 2 ^ 31 := ⟨_, List.length_replicate (a := 0)⟩
  have hdecode := base64Decode_interspersed (plainEncoding b) le_rfl
  refine ⟨b, b.length + 2, le_rfl, ?_, ?_⟩
  · rw [hdecode, hb]
    show (((2 ^ 31 : ℕ) : ℤ).bmod (2 ^ 32)) = -2 ^ 31
    decide
  · rw [hdecode, hb]
    show (((2 ^ 31 : ℕ) : ℤ).bmod (2 ^ 32)) ≠ (2 ^ 31 : ℕ)
    decide

end ProxyMax
