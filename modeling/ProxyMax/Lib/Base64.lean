import ProxyMax.Lib.CString

/-!
The standard base64 encoding: three bytes are four groups of six bits, a group
is written as a character of the alphabet, and a last incomplete triple is
padded with `=`.

* `toSextets`, `ofSextets`: bytes as groups of six bits and back;
  `ofSextets_toSextets` is the round trip and `ofSextets_append` reads on after
  whole triples.
* `digit`, `inAlphabet`, `pad`, `encode`: the alphabet, the padding and the encoding.
-/

namespace Base64

open CString

/-! ### Groups of six bits -/

/-- The groups of six bits of a byte string, the last one filled up with zeros. -/
def toSextets : List UInt8 → List UInt8
  | [] => []
  | [x] => [x >>> 2, (x &&& 3) <<< 4]
  | [x, y] => [x >>> 2, ((x &&& 3) <<< 4) ||| (y >>> 4), (y &&& 15) <<< 2]
  | x :: y :: z :: b =>
      (x >>> 2) :: (((x &&& 3) <<< 4) ||| (y >>> 4)) :: (((y &&& 15) <<< 2) ||| (z >>> 6)) ::
        (z &&& 63) :: toSextets b

/-- The whole bytes that groups of six bits hold. -/
def ofSextets : List UInt8 → List UInt8
  | a :: b :: c :: d :: t =>
      ((a <<< 2) ||| (b >>> 4)) :: ((b <<< 4) ||| (c >>> 2)) :: ((c <<< 6) ||| d) :: ofSextets t
  | [a, b, c] => [(a <<< 2) ||| (b >>> 4), (b <<< 4) ||| (c >>> 2)]
  | [a, b] => [(a <<< 2) ||| (b >>> 4)]
  | _ => []

lemma first_byte (x y : UInt8) :
    ((x >>> 2) <<< 2) ||| ((((x &&& 3) <<< 4) ||| (y >>> 4)) >>> 4) = x := by
  apply UInt8.toBitVec_inj.mp
  ext i hi
  interval_cases i <;> simp

lemma second_byte (x y z : UInt8) :
    ((((x &&& 3) <<< 4) ||| (y >>> 4)) <<< 4) ||| ((((y &&& 15) <<< 2) ||| (z >>> 6)) >>> 2)
      = y := by
  apply UInt8.toBitVec_inj.mp
  ext i hi
  interval_cases i <;> simp

lemma third_byte (y z : UInt8) :
    ((((y &&& 15) <<< 2) ||| (z >>> 6)) <<< 6) ||| (z &&& 63) = z := by
  apply UInt8.toBitVec_inj.mp
  ext i hi
  interval_cases i <;> simp

lemma last_first_byte (x : UInt8) : ((x >>> 2) <<< 2) ||| (((x &&& 3) <<< 4) >>> 4) = x := by
  apply UInt8.toBitVec_inj.mp
  ext i hi
  interval_cases i <;> simp

lemma last_second_byte (x y : UInt8) :
    ((((x &&& 3) <<< 4) ||| (y >>> 4)) <<< 4) ||| (((y &&& 15) <<< 2) >>> 2) = y := by
  apply UInt8.toBitVec_inj.mp
  ext i hi
  interval_cases i <;> simp

/-- **Round trip.** -/
theorem ofSextets_toSextets (b : List UInt8) : ofSextets (toSextets b) = b := by
  induction b using toSextets.induct with
  | case1 => rfl
  | case2 x => simp only [toSextets, ofSextets, last_first_byte]
  | case3 x y => simp only [toSextets, ofSextets, first_byte, last_second_byte]
  | case4 x y z b ih =>
      simp only [toSextets, ofSextets, first_byte, second_byte, third_byte, ih]

/-- After whole triples the groups read on with what follows. -/
theorem ofSextets_append {b : List UInt8} (h : b.length % 3 = 0) (t : List UInt8) :
    ofSextets (toSextets b ++ t) = b ++ ofSextets t := by
  induction b using toSextets.induct with
  | case1 => rfl
  | case2 x => simp at h
  | case3 x y => simp at h
  | case4 x y z b ih =>
      have hb : b.length % 3 = 0 := by simp only [List.length_cons] at h; omega
      simp only [toSextets, List.cons_append, ofSextets, first_byte, second_byte, third_byte,
        ih hb]

/-- Four groups for three bytes, and one group more than the bytes left over. -/
lemma length_toSextets (b : List UInt8) :
    (toSextets b).length
      = 4 * (b.length / 3) + (if b.length % 3 = 0 then 0 else b.length % 3 + 1) := by
  induction b using toSextets.induct with
  | case1 => rfl
  | case2 x => simp [toSextets]
  | case3 x y => simp [toSextets]
  | case4 x y z b ih =>
      have hdiv : (b.length + 1 + 1 + 1) / 3 = b.length / 3 + 1 := by omega
      have hmod : (b.length + 1 + 1 + 1) % 3 = b.length % 3 := by omega
      simp only [toSextets, List.length_cons, ih, hdiv, hmod]
      omega

lemma sextet_lt (b : List UInt8) : ∀ v ∈ toSextets b, v < 64 := by
  have hfirst : ∀ x : UInt8, x >>> 2 < 64 := forall_byte (by decide +kernel)
  have hlast : ∀ x : UInt8, x &&& 63 < 64 := forall_byte (by decide +kernel)
  have hlow : ∀ x : UInt8, (x &&& 3) <<< 4 < 64 := forall_byte (by decide +kernel)
  have hmid : ∀ x : UInt8, (x &&& 15) <<< 2 < 64 := forall_byte (by decide +kernel)
  have hup : ∀ x : UInt8, x >>> 4 < 64 := forall_byte (by decide +kernel)
  have htop : ∀ x : UInt8, x >>> 6 < 64 := forall_byte (by decide +kernel)
  have hor : ∀ x y : UInt8, x < 64 → y < 64 → x ||| y < 64 := by
    intro x y hx hy
    rw [UInt8.lt_iff_toNat_lt] at hx hy ⊢
    rw [UInt8.toNat_or]
    exact Nat.or_lt_two_pow (n := 6) hx hy
  induction b using toSextets.induct with
  | case1 => simp [toSextets]
  | case2 x => simp [toSextets, hfirst, hlow]
  | case3 x y => simp [toSextets, hfirst, hmid, hor _ _ (hlow x) (hup y)]
  | case4 x y z b ih =>
      simpa [toSextets, hfirst, hlast, hor _ _ (hlow x) (hup y), hor _ _ (hmid y) (htop z)]
        using ih

/-! ### The alphabet -/

/-- The character of a group of six bits: `A` to `Z`, `a` to `z`, `0` to `9`, `+`, `/`. -/
def digit (v : UInt8) : UInt8 :=
  if v < 26 then v + 65
  else if v < 52 then v + 71
  else if v < 62 then v - 4
  else if v = 62 then 43
  else 47

/-- A character of the alphabet. -/
def inAlphabet (c : UInt8) : Bool :=
  (65 ≤ c ∧ c ≤ 90) ∨ (97 ≤ c ∧ c ≤ 122) ∨ (48 ≤ c ∧ c ≤ 57) ∨ c = 43 ∨ c = 47

lemma inAlphabet_digit {v : UInt8} (h : v < 64) : inAlphabet (digit v) = true := by
  have hall : ∀ v : UInt8, v < 64 → inAlphabet (digit v) = true := forall_byte (by decide +kernel)
  exact hall v h

/-- The padding after the last group. -/
def pad (b : List UInt8) : List UInt8 :=
  match b.length % 3 with
  | 1 => [61, 61]
  | 2 => [61]
  | _ => []

/-- The standard padded encoding. -/
def encode (b : List UInt8) : List UInt8 := (toSextets b).map digit ++ pad b

/-- An encoding is of characters of the alphabet and the padding. -/
lemma mem_encode {b : List UInt8} {c : UInt8} (h : c ∈ encode b) :
    inAlphabet c = true ∨ c = 61 := by
  rcases List.mem_append.mp h with h | h
  · obtain ⟨v, hv, rfl⟩ := List.mem_map.mp h
    exact .inl (inAlphabet_digit (sextet_lt b v hv))
  · rw [pad] at h
    split at h <;> simp_all

/-- An encoding holds no NUL. -/
lemma ne_zero_of_mem_encode {b : List UInt8} {c : UInt8} (h : c ∈ encode b) : c ≠ 0 := by
  rcases mem_encode h with hin | rfl
  · rintro rfl
    cases hin
  · decide

end Base64
