import ProxyMax.Lib.Base64

/-!
`base64_decode` of `src/auth/auth.c`.

* `base64DecodeTable`, `base64DecodeLoop`, `base64Decode`: the table, the loop
  over the input and the function.
* `digitValues`: what the loop reads of its input, the values of the characters
  of the alphabet up to the first `=`.
* `base64Decode_of_fits`, `base64Decode_of_not_fits`: the result, by the number
  of these values.
-/

namespace ProxyMax

open CString Base64

/-- `base64_decode_table`. -/
def base64DecodeTable (c : UInt8) : UInt8 :=
  [64, 64, 64, 64, 64, 64, 64, 64, 64, 64, 64, 64, 64, 64, 64, 64,
   64, 64, 64, 64, 64, 64, 64, 64, 64, 64, 64, 64, 64, 64, 64, 64,
   64, 64, 64, 64, 64, 64, 64, 64, 64, 64, 64, 62, 64, 64, 64, 63,
   52, 53, 54, 55, 56, 57, 58, 59, 60, 61, 64, 64, 64, 64, 64, 64,
   64,  0,  1,  2,  3,  4,  5,  6,  7,  8,  9, 10, 11, 12, 13, 14,
   15, 16, 17, 18, 19, 20, 21, 22, 23, 24, 25, 64, 64, 64, 64, 64,
   64, 26, 27, 28, 29, 30, 31, 32, 33, 34, 35, 36, 37, 38, 39, 40,
   41, 42, 43, 44, 45, 46, 47, 48, 49, 50, 51, 64, 64, 64, 64, 64,
   64, 64, 64, 64, 64, 64, 64, 64, 64, 64, 64, 64, 64, 64, 64, 64,
   64, 64, 64, 64, 64, 64, 64, 64, 64, 64, 64, 64, 64, 64, 64, 64,
   64, 64, 64, 64, 64, 64, 64, 64, 64, 64, 64, 64, 64, 64, 64, 64,
   64, 64, 64, 64, 64, 64, 64, 64, 64, 64, 64, 64, 64, 64, 64, 64,
   64, 64, 64, 64, 64, 64, 64, 64, 64, 64, 64, 64, 64, 64, 64, 64,
   64, 64, 64, 64, 64, 64, 64, 64, 64, 64, 64, 64, 64, 64, 64, 64,
   64, 64, 64, 64, 64, 64, 64, 64, 64, 64, 64, 64, 64, 64, 64, 64,
   64, 64, 64, 64, 64, 64, 64, 64, 64, 64, 64, 64, 64, 64, 64, 64].getD c.toNat 64

/-- The loop of `base64_decode` over its input: `buf` holds the values read of
an unfinished group of four, `output` the bytes written so far. It fails when a
group of four is complete and its bytes do not fit. -/
def base64DecodeLoop (outputSize : ℕ) :
    Bytes → List UInt8 → Bytes → Except Bytes (List UInt8 × Bytes)
  | [], buf, output => .ok (buf, output)
  | x :: input, buf, output =>
      if x = 61 then .ok (buf, output)
      else if base64DecodeTable x = 64 then base64DecodeLoop outputSize input buf output
      else
        match buf with
        | [b₀, b₁, b₂] =>
            if output.length + 3 ≥ outputSize then .error output
            else
              base64DecodeLoop outputSize input []
                (output ++ [(b₀ <<< 2) ||| (b₁ >>> 4), (b₁ <<< 4) ||| (b₂ >>> 2),
                  (b₂ <<< 6) ||| base64DecodeTable x])
        | buf => base64DecodeLoop outputSize input (buf ++ [base64DecodeTable x]) output

/-- What `base64_decode` leaves: the bytes written, from the start of the output
on, and the value returned. -/
structure Decoded where
  output : Bytes
  ret : ℤ
deriving DecidableEq, Repr

/-- The part of `base64_decode` after its loop. -/
def base64DecodeRest (outputSize : ℕ) (buf : List UInt8) (output : Bytes) : Decoded :=
  if 0 < buf.length ∧ output.length + buf.length ≥ outputSize then ⟨output, -1⟩
  else
    let output :=
      match buf with
      | [b₀, b₁] => output ++ [(b₀ <<< 2) ||| (b₁ >>> 4)]
      | [b₀, b₁, b₂] => output ++ [(b₀ <<< 2) ||| (b₁ >>> 4), (b₁ <<< 4) ||| (b₂ >>> 2)]
      | _ => output
    -- `output_len` is a `size_t` and is returned as an `int`
    ⟨output ++ [0], (output.length : ℤ).bmod (2 ^ 32)⟩

/-- `base64_decode`. -/
def base64Decode (input : Bytes) (outputSize : ℕ) : Decoded :=
  match base64DecodeLoop outputSize input [] [] with
  | .error output => ⟨output, -1⟩
  | .ok (buf, output) => base64DecodeRest outputSize buf output

/-! ### What the decoder reads -/

/-- The values of the characters of the alphabet in the text up to its first
`=`; every other character is skipped. -/
def digitValues (input : Bytes) : List UInt8 :=
  (input.takeWhile (· ≠ 61)).filterMap fun x =>
    if base64DecodeTable x = 64 then none else some (base64DecodeTable x)

@[simp] lemma digitValues_nil : digitValues [] = [] := rfl

@[simp] lemma digitValues_stop (input : Bytes) : digitValues (61 :: input) = [] := rfl

lemma digitValues_skip {x : UInt8} (h61 : x ≠ 61) (h : base64DecodeTable x = 64) (input : Bytes) :
    digitValues (x :: input) = digitValues input := by
  simp [digitValues, h61, h]

lemma digitValues_cons {x : UInt8} (h61 : x ≠ 61) (h : base64DecodeTable x ≠ 64) (input : Bytes) :
    digitValues (x :: input) = base64DecodeTable x :: digitValues input := by
  simp [digitValues, h61, h]

lemma digitValues_lt {input : Bytes} : ∀ v ∈ digitValues input, v < 64 := by
  have hall : ∀ c : UInt8, base64DecodeTable c ≠ 64 → base64DecodeTable c < 64 :=
    forall_byte (by decide +kernel)
  intro v hv
  obtain ⟨c, _, hc⟩ := List.mem_filterMap.mp hv
  split at hc
  · simp at hc
  · rename_i h64
    rw [← Option.some.inj hc]
    exact hall c h64

/-- The table undoes the alphabet. -/
lemma base64DecodeTable_digit {v : UInt8} (h : v < 64) : base64DecodeTable (digit v) = v := by
  have hall : ∀ v : UInt8, v < 64 → base64DecodeTable (digit v) = v :=
    forall_byte (by decide +kernel)
  exact hall v h

lemma digit_ne_pad {v : UInt8} (h : v < 64) : digit v ≠ 61 := by
  have hall : ∀ v : UInt8, v < 64 → digit v ≠ 61 := forall_byte (by decide +kernel)
  exact hall v h

lemma digitValues_map_digit {vs : List UInt8} (h : ∀ v ∈ vs, v < 64) (t : Bytes) :
    digitValues (vs.map digit ++ t) = vs ++ digitValues t := by
  induction vs with
  | nil => rfl
  | cons v vs ih =>
      have hv : v < 64 := h v (by simp)
      have hne : base64DecodeTable (digit v) ≠ 64 := by
        rw [base64DecodeTable_digit hv]
        exact UInt8.ne_of_lt hv
      rw [List.map_cons, List.cons_append, digitValues_cons (digit_ne_pad hv) hne,
        base64DecodeTable_digit hv, ih fun w hw => h w (by simp [hw]), List.cons_append]

/-- An encoding with padding ends the input. -/
lemma digitValues_encode_padded {b : Bytes} (h : b.length % 3 ≠ 0) (t : Bytes) :
    digitValues (encode b ++ t) = toSextets b := by
  have hpad : ∃ s, pad b = 61 :: s := by
    have h3 : b.length % 3 = 1 ∨ b.length % 3 = 2 := by omega
    rcases h3 with h3 | h3 <;> simp [pad, h3]
  obtain ⟨s, hs⟩ := hpad
  rw [encode, List.append_assoc, digitValues_map_digit (sextet_lt b), hs, List.cons_append,
    digitValues_stop, List.append_nil]

/-- After an encoding without padding the decoder reads on. -/
lemma digitValues_encode_whole {b : Bytes} (h : b.length % 3 = 0) (t : Bytes) :
    digitValues (encode b ++ t) = toSextets b ++ digitValues t := by
  have hpad : pad b = [] := by simp [pad, h]
  rw [encode, hpad, List.append_nil, digitValues_map_digit (sextet_lt b)]

/-! ### The result -/

/-- The number of bytes the decoder asks for: three for each group of four
values and one for each value of the last group. -/
def bytesAsked (vs : List UInt8) : ℕ := 3 * (vs.length / 4) + vs.length % 4

lemma bytesAsked_of_length_lt {vs : List UInt8} (h : vs.length < 4) :
    bytesAsked vs = vs.length := by
  rw [bytesAsked]
  omega

lemma bytesAsked_cons (a b c d : UInt8) (vs : List UInt8) :
    bytesAsked (a :: b :: c :: d :: vs) = 3 + bytesAsked vs := by
  simp only [bytesAsked, List.length_cons]
  omega

lemma bytesAsked_append {vs : List UInt8} (h : vs.length % 4 = 0) (ws : List UInt8) :
    bytesAsked (vs ++ ws) = 3 * (vs.length / 4) + bytesAsked ws := by
  rw [bytesAsked, bytesAsked, List.length_append]
  omega

lemma length_ofSextets_le (vs : List UInt8) : (ofSextets vs).length ≤ bytesAsked vs := by
  induction vs using ofSextets.induct with
  | case1 a b c d vs ih =>
      rw [bytesAsked_cons]
      simp only [ofSextets, List.length_cons]
      omega
  | case2 a b c => simp [ofSextets, bytesAsked]
  | case3 a b => simp [ofSextets, bytesAsked]
  | case4 vs h4 h3 h2 =>
      rw [ofSextets]
      · simp
      all_goals assumption

/-- **The loop**, from an unfinished group and the bytes written so far on. -/
lemma base64DecodeLoop_spec (outputSize : ℕ) (input : Bytes) (buf : List UInt8) (output : Bytes)
    (hbuf : buf.length < 4) (hout : output.length < outputSize) :
    match base64DecodeLoop outputSize input buf output with
    | .error out => out.length < outputSize ∧
        outputSize ≤ output.length + bytesAsked (buf ++ digitValues input)
    | .ok (buf', out) => out.length < outputSize ∧ buf'.length < 4 ∧
        out.length + buf'.length = output.length + bytesAsked (buf ++ digitValues input) ∧
        out ++ ofSextets buf' = output ++ ofSextets (buf ++ digitValues input) := by
  fun_induction base64DecodeLoop outputSize input buf output with
  | case1 buf output => simp [hout, hbuf, bytesAsked_of_length_lt hbuf]
  | case2 input buf output =>
      simp [hout, hbuf, bytesAsked_of_length_lt hbuf]
  | case3 buf output x input h61 h64 ih =>
      rw [digitValues_skip h61 h64]
      exact ih hbuf hout
  | case4 output x input h61 h64 b₀ b₁ b₂ hfull =>
      rw [digitValues_cons h61 h64]
      simp only [List.cons_append, List.nil_append, bytesAsked_cons]
      omega
  | case5 output x input h61 h64 b₀ b₁ b₂ hroom ih =>
      rw [digitValues_cons h61 h64]
      have h := ih (by simp) (by simp; omega)
      simp only [List.cons_append, List.nil_append, bytesAsked_cons, ofSextets]
      split at h
      · simpa [Nat.add_assoc] using h
      · simpa [Nat.add_assoc] using h
  | case6 x input output h61 h64 buf hshort ih =>
      rw [digitValues_cons h61 h64]
      have hlen : buf.length ≠ 3 := by
        intro h3
        obtain ⟨b₀, b₁, b₂, rfl⟩ := List.length_eq_three.mp h3
        exact hshort b₀ b₁ b₂ rfl
      have h := ih (by simp; omega) hout
      simpa using h

lemma base64DecodeRest_of_fits {outputSize : ℕ} {buf : List UInt8} {out : Bytes}
    (hbuf : buf.length < 4) (h : out.length + buf.length < outputSize) :
    base64DecodeRest outputSize buf out
      = ⟨out ++ ofSextets buf ++ [0], ((out ++ ofSextets buf).length : ℤ).bmod (2 ^ 32)⟩ := by
  rcases buf with _ | ⟨b₀, _ | ⟨b₁, _ | ⟨b₂, _ | ⟨b₃, t⟩⟩⟩⟩
  · simp [base64DecodeRest, ofSextets]
  · simpa [base64DecodeRest, ofSextets] using h
  · simpa [base64DecodeRest, ofSextets] using h
  · simpa [base64DecodeRest, ofSextets] using h
  · simp only [List.length_cons] at hbuf
    omega

/-- **Decoding that fits**: the bytes of the values and a NUL are written. -/
theorem base64Decode_of_fits {input : Bytes} {outputSize : ℕ}
    (h : bytesAsked (digitValues input) < outputSize) :
    base64Decode input outputSize =
      ⟨ofSextets (digitValues input) ++ [0],
        ((ofSextets (digitValues input)).length : ℤ).bmod (2 ^ 32)⟩ := by
  have hspec := base64DecodeLoop_spec outputSize input [] [] (by simp) (by simp; omega)
  rw [List.nil_append] at hspec
  rw [base64Decode]
  split at hspec
  · rename_i out hloop
    simp only [List.length_nil] at hspec
    omega
  · rename_i buf out hloop
    obtain ⟨_, hbuf, hlen, hval⟩ := hspec
    simp only [List.length_nil, Nat.zero_add, List.nil_append] at hlen hval
    rw [base64DecodeRest_of_fits hbuf (by omega), hval]

/-- **Decoding that does not fit** fails, and writes within the output. -/
theorem base64Decode_of_not_fits {input : Bytes} {outputSize : ℕ} (hpos : 0 < outputSize)
    (h : outputSize ≤ bytesAsked (digitValues input)) :
    ∃ output, base64Decode input outputSize = ⟨output, -1⟩ ∧ output.length < outputSize := by
  have hspec := base64DecodeLoop_spec outputSize input [] [] (by simp) (by simpa using hpos)
  rw [List.nil_append] at hspec
  rw [base64Decode]
  split at hspec
  · rename_i out hloop
    exact ⟨out, rfl, hspec.1⟩
  · rename_i buf out hloop
    obtain ⟨hout, hbuf, hlen, _⟩ := hspec
    simp only [List.length_nil, Nat.zero_add] at hlen
    exact ⟨out, if_pos (by omega), hout⟩

end ProxyMax
