import ProxyMax.Auth.Base64

/-!
The limit on the output of `base64_decode`.

* `valueCount`: the number of characters of the alphabet in the text up to its first `=`;
  `length_decoded` is the number of bytes that they stand for.
* `LimitExact`: nothing is written beyond the output, and the call fails exactly when the
  bytes and their NUL do not fit.
* `base64Decode_limit_iff`: this holds unless the last group is not whole and the output has
  just enough room for it, or the length returned as an `int` is read as `-1`.
-/

namespace ProxyMax

open CString Base64

/-- The number of values that the text holds. -/
def valueCount (input : Bytes) : ℕ := (digitValues input).length

/-- Three bytes for each group of four values; a last group stands for one byte less than
it has values. -/
lemma length_ofSextets (vs : List UInt8) : (ofSextets vs).length = 3 * vs.length / 4 := by
  induction vs using ofSextets.induct with
  | case1 a b c d vs ih =>
      simp only [ofSextets, List.length_cons, ih]
      omega
  | case2 a b c => simp [ofSextets]
  | case3 a b => simp [ofSextets]
  | case4 vs h4 h3 h2 =>
      have hlen : vs.length ≤ 1 := by
        rcases vs with _ | ⟨a, _ | ⟨b, _ | ⟨c, _ | ⟨d, vs⟩⟩⟩⟩
        · exact Nat.zero_le 1
        · exact le_rfl
        · exact absurd rfl (h2 a b)
        · exact absurd rfl (h3 a b c)
        · exact absurd rfl (h4 a b c d vs)
      rw [ofSextets]
      · rw [List.length_nil]
        omega
      all_goals assumption

/-- The bytes that the text decodes to. -/
def decodedBytes (input : Bytes) : Bytes := ofSextets (digitValues input)

lemma length_decoded (input : Bytes) : (decodedBytes input).length = 3 * valueCount input / 4 :=
  length_ofSextets (digitValues input)

/-- The call stays within the output, and fails exactly when the bytes with their NUL do not
fit. -/
def LimitExact (input : Bytes) (outputSize : ℕ) : Prop :=
  (base64Decode input outputSize).output.length ≤ outputSize ∧
    ((base64Decode input outputSize).ret = -1 ↔ outputSize < (decodedBytes input).length + 1)

/-- A length that is read as `-1` when it is returned as an `int`. -/
lemma bmod_eq_neg_one_iff (n : ℕ) : (n : ℤ).bmod (2 ^ 32) = -1 ↔ n % 2 ^ 32 = 2 ^ 32 - 1 := by
  rw [Int.bmod_def]
  constructor
  · intro h
    split_ifs at h <;> omega
  · intro h
    split_ifs <;> omega

/-- **The limit** is exact if and only if the output does not have just the room for a last
group that is not whole and for the NUL, and what fits has no length that is read as `-1`. -/
theorem base64Decode_limit_iff (input : Bytes) (outputSize : ℕ) (hpos : 1 ≤ outputSize) :
    LimitExact input outputSize ↔
      (valueCount input % 4 ≠ 0 → outputSize ≠ 3 * valueCount input / 4 + 1) ∧
        (3 * valueCount input / 4 < outputSize →
          3 * valueCount input / 4 % 2 ^ 32 ≠ 2 ^ 32 - 1) := by
  have hasked : bytesAsked (digitValues input) =
      3 * (valueCount input / 4) + valueCount input % 4 := rfl
  rw [LimitExact, length_decoded]
  rcases Nat.lt_or_ge (bytesAsked (digitValues input)) outputSize with hfits | hlong
  · -- the bytes are written, and only their number can be mistaken
    have hret : ((ofSextets (digitValues input)).length : ℤ).bmod (2 ^ 32) = -1 ↔
        3 * valueCount input / 4 % 2 ^ 32 = 2 ^ 32 - 1 := by
      rw [bmod_eq_neg_one_iff, ← length_decoded, decodedBytes]
    have hwritten : (ofSextets (digitValues input) ++ [0]).length =
        3 * valueCount input / 4 + 1 := by
      rw [List.length_append, ← length_decoded, decodedBytes]
      rfl
    rw [base64Decode_of_fits hfits, hret, hwritten]
    omega
  · obtain ⟨output, hdecode, hout⟩ := base64Decode_of_not_fits hpos hlong
    rw [hdecode]
    simp only [true_iff]
    omega

/-- A byte that is encoded without padding, in an output with one byte more than needed. -/
theorem base64Decode_limit_iff_short : LimitExact (ascii "YQ") 3 :=
  (base64Decode_limit_iff (ascii "YQ") 3 (by decide)).mpr (by decide +kernel)

/-- One byte and its NUL are refused in an output of two bytes. -/
theorem base64Decode_refuses_fitting :
    decodedBytes (ascii "YQ==") = ascii "a" ∧
      base64Decode (ascii "YQ==") 2 = ⟨[], -1⟩ ∧ ¬LimitExact (ascii "YQ==") 2 := by
  have hbytes : decodedBytes (ascii "YQ==") = ascii "a" := by decide +kernel
  have hdecode : base64Decode (ascii "YQ==") 2 = ⟨[], -1⟩ := by decide +kernel
  refine ⟨hbytes, hdecode, fun hexact => ?_⟩
  have hlt := hexact.2.mp (by rw [hdecode])
  rw [hbytes] at hlt
  exact absurd hlt (by decide)

end ProxyMax
