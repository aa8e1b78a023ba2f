import ProxyMax.Lib.CString

/-!
Decimal numbers, printed and read back.

* `decimal_isdigit`, `decimal_length_le`, `ofDigits_decimal`: the digits of a number.
* `decimalInt`: `sprintf` with `%d`; `atoi_decimalInt` reads it back.
* `Numeral`: a number as it may be written; `Numeral.atoi_text_append` reads it, and
  `Numeral.exists_atoi_take` is what a part of it is read as.
-/

namespace CString

lemma decimal_eq (n : ℕ) : decimal n = (Nat.toDigits 10 n).map fun c => c.toNat.toUInt8 := by
  rw [decimal, ascii, Nat.toString_eq_repr, Nat.toList_repr]

/-- A digit as a byte. -/
lemma toNat_digit {n : ℕ} {c : Char} (hc : c ∈ Nat.toDigits 10 n) :
    48 ≤ c.toNat ∧ c.toNat ≤ 57 := by
  have hdigit := Nat.isDigit_of_mem_toDigits (by decide) (by decide) hc
  simp only [Char.isDigit, Bool.and_eq_true, decide_eq_true_eq] at hdigit
  exact ⟨hdigit.1, hdigit.2⟩

lemma decimal_isdigit {n : ℕ} : ∀ c ∈ decimal n, isdigit c = true := by
  intro b hb
  rw [decimal_eq] at hb
  obtain ⟨c, hc, rfl⟩ := List.mem_map.mp hb
  obtain ⟨hlow, hhigh⟩ := toNat_digit hc
  have h48 : (48 : UInt8).toNat = 48 := rfl
  have h57 : (57 : UInt8).toNat = 57 := rfl
  simp only [isdigit, decide_eq_true_eq, UInt8.le_iff_toNat_le, Nat.toUInt8_eq,
    UInt8.toNat_ofNat', h48, h57]
  omega

lemma decimal_ne_nil (n : ℕ) : decimal n ≠ [] := by
  rw [decimal_eq]
  simp [Nat.toDigits_ne_nil]

lemma decimal_length_le {n k : ℕ} (hk : 0 < k) (hn : n < 10 ^ k) : (decimal n).length ≤ k := by
  rw [decimal_eq, List.length_map, ← Nat.toList_repr, String.length_toList]
  exact (Nat.length_repr_le_iff hk).mpr hn

lemma ofDigits_decimal (n : ℕ) : ofDigits (decimal n) = n := by
  have hfold : ∀ (l : List Char) (acc : ℕ), (∀ c ∈ l, 48 ≤ c.toNat ∧ c.toNat ≤ 57) →
      (l.map fun c => c.toNat.toUInt8).foldl (fun n c => n * 10 + (c.toNat - 48)) acc =
        Nat.ofDigitChars 10 l acc := by
    intro l
    induction l with
    | nil => exact fun _ _ => rfl
    | cons c l ih =>
        intro acc hl
        have hc := (hl c List.mem_cons_self).2
        have hbyte : c.toNat.toUInt8.toNat = c.toNat := by
          rw [Nat.toUInt8_eq, UInt8.toNat_ofNat']
          omega
        rw [List.map_cons, List.foldl_cons, ih _ fun d hd => hl d (List.mem_cons_of_mem _ hd),
          Nat.ofDigitChars_cons, hbyte, Nat.mul_comm acc 10]
        rfl
  rw [ofDigits, decimal_eq, hfold _ 0 fun c hc => toNat_digit hc, Nat.ofDigitChars_ten_toDigits]

/-- `sprintf` with `%d`. -/
def decimalInt (n : ℤ) : Bytes := if n < 0 then 45 :: decimal n.natAbs else decimal n.natAbs

/-- A digit is no white space and no sign. -/
lemma isspace_of_isdigit : ∀ c : UInt8, isdigit c = true →
    isspace c = false ∧ c ≠ 45 ∧ c ≠ 43 ∧ c ≠ 0 ∧ c ≠ 10 ∧ c ≠ 32 ∧ c ≠ 9 := by
  refine forall_byte ?_
  decide +kernel

/-- Digits are read up to the first other character. -/
lemma takeWhile_digits {digits rest : Bytes} (hdigits : ∀ c ∈ digits, isdigit c = true)
    (hrest : ∀ c ∈ rest.head?, isdigit c = false) :
    (digits ++ rest).takeWhile isdigit = digits := by
  rw [List.takeWhile_append_of_pos hdigits]
  cases rest with
  | nil => exact List.append_nil _
  | cons c rest => rw [List.takeWhile_cons_of_neg (by simp [hrest c rfl]), List.append_nil]

/-- **Digits** are read as a `long`, and that as an `int`. -/
lemma atoi_digits {digits rest : Bytes} (hne : digits ≠ [])
    (hdigits : ∀ c ∈ digits, isdigit c = true) (hrest : ∀ c ∈ rest.head?, isdigit c = false) :
    atoi (digits ++ rest) = (min (ofDigits digits : ℤ) (2 ^ 63 - 1)).bmod (2 ^ 32) := by
  obtain ⟨c, s, hs⟩ := List.exists_cons_of_ne_nil hne
  obtain ⟨hspace, hminus, hplus, -⟩ :=
    isspace_of_isdigit c (hdigits c (hs ▸ List.mem_cons_self))
  have hskip : (digits ++ rest).dropWhile isspace = digits ++ rest := by
    rw [hs, List.cons_append, List.dropWhile_cons_of_neg (by simp [hspace])]
  have hhead : (digits ++ rest).head? = some c := by
    rw [hs]
    rfl
  simp only [atoi, hskip, hhead, Option.some.injEq, hminus, hplus, or_self, if_false,
    takeWhile_digits hdigits hrest]

/-- Digits after a minus sign. -/
lemma atoi_minus_digits {digits rest : Bytes} (hdigits : ∀ c ∈ digits, isdigit c = true)
    (hrest : ∀ c ∈ rest.head?, isdigit c = false) :
    atoi (45 :: (digits ++ rest)) = (max (-(ofDigits digits : ℤ)) (-2 ^ 63)).bmod (2 ^ 32) := by
  have hskip : (45 :: (digits ++ rest)).dropWhile isspace = 45 :: (digits ++ rest) :=
    List.dropWhile_cons_of_neg (by decide)
  simp only [atoi, hskip, List.head?_cons, true_or, if_true, List.tail_cons,
    takeWhile_digits hdigits hrest]

lemma atoi_decimal (n : ℕ) :
    atoi (decimal n) = (min (n : ℤ) (2 ^ 63 - 1)).bmod (2 ^ 32) := by
  have hrest : ∀ c ∈ ([] : Bytes).head?, isdigit c = false := by simp
  have hread := atoi_digits (decimal_ne_nil n) decimal_isdigit hrest
  rwa [List.append_nil, ofDigits_decimal] at hread

lemma atoi_minus_decimal (n : ℕ) :
    atoi (45 :: decimal n) = (max (-(n : ℤ)) (-2 ^ 63)).bmod (2 ^ 32) := by
  have hrest : ∀ c ∈ ([] : Bytes).head?, isdigit c = false := by simp
  have hread := atoi_minus_digits (@decimal_isdigit n) hrest
  rwa [List.append_nil, ofDigits_decimal] at hread

lemma decimalInt_natCast (n : ℕ) : decimalInt n = decimal n := by
  rw [decimalInt, if_neg (by omega), Int.natAbs_natCast]

/-- **A printed number** is read back. -/
lemma atoi_decimalInt {n : ℤ} (hlow : -2 ^ 31 ≤ n) (hhigh : n < 2 ^ 31) :
    atoi (decimalInt n) = n := by
  have hself : n.bmod (2 ^ 32) = n := Int.bmod_eq_of_le (by omega) (by omega)
  rw [decimalInt]
  split_ifs with hneg
  · rw [atoi_minus_decimal]
    have habs : max (-(n.natAbs : ℤ)) (-2 ^ 63) = n := by omega
    rw [habs, hself]
  · rw [atoi_decimal]
    have habs : min (n.natAbs : ℤ) (2 ^ 63 - 1) = n := by omega
    rw [habs, hself]

/-- What a printed number is made of. -/
lemma decimalInt_bytes (n : ℤ) : ∀ c ∈ decimalInt n, c ≠ 0 ∧ c ≠ 10 ∧ c ≠ 32 ∧ c ≠ 9 := by
  have hdigits : ∀ c ∈ decimal n.natAbs, c ≠ 0 ∧ c ≠ 10 ∧ c ≠ 32 ∧ c ≠ 9 := fun c hc =>
    (isspace_of_isdigit c (decimal_isdigit c hc)).2.2.2
  rw [decimalInt]
  split_ifs
  · intro c hc
    rcases List.mem_cons.mp hc with rfl | hc
    · decide
    · exact hdigits c hc
  · exact hdigits

/-! ### Numerals -/

/-- A number as it may be written: digits, after a minus sign or none. -/
structure Numeral where
  negative : Bool
  digits : Bytes
  ne_nil : digits ≠ []
  all_digits : ∀ c ∈ digits, isdigit c = true

namespace Numeral

variable (n : Numeral)

/-- The characters of the numeral. -/
def text : Bytes := if n.negative then 45 :: n.digits else n.digits

/-- Its number. -/
def value : ℤ := if n.negative then -(ofDigits n.digits : ℤ) else ofDigits n.digits

/-- The numeral fits the type `int`. -/
def FitsInt : Prop := -2 ^ 31 ≤ n.value ∧ n.value < 2 ^ 31

/-- **A numeral** is read, whatever comes after it. -/
lemma atoi_text_append {n : Numeral} (hfits : n.FitsInt) {rest : Bytes}
    (hrest : ∀ c ∈ rest.head?, isdigit c = false) : atoi (n.text ++ rest) = n.value := by
  obtain ⟨hlow, hhigh⟩ := hfits
  have hself : n.value.bmod (2 ^ 32) = n.value := Int.bmod_eq_of_le (by omega) (by omega)
  rw [text]
  rw [value] at hlow hhigh hself ⊢
  split_ifs at hlow hhigh hself ⊢
  · rw [List.cons_append, atoi_minus_digits n.all_digits hrest, max_eq_left (by omega), hself]
  · rw [atoi_digits n.ne_nil n.all_digits hrest, min_eq_left (by omega), hself]

end Numeral

lemma ofDigits_append (a b : Bytes) :
    ofDigits (a ++ b) = ofDigits a * 10 ^ b.length + ofDigits b := by
  have hfold : ∀ (s : Bytes) (m : ℕ), s.foldl (fun n c => n * 10 + (c.toNat - 48)) m =
      m * 10 ^ s.length + ofDigits s := by
    intro s
    induction s with
    | nil => simp [ofDigits]
    | cons c s ih =>
        intro m
        have hcons : ofDigits (c :: s) =
            (0 * 10 + (c.toNat - 48)) * 10 ^ s.length + ofDigits s := ih _
        rw [List.foldl_cons, ih, hcons, List.length_cons, pow_succ]
        ring
  rw [ofDigits, List.foldl_append, hfold]
  rfl

/-- Digits that are left out make the number less by a factor of ten at least. -/
lemma ofDigits_take_le {digits : Bytes} {k : ℕ} (hk : k < digits.length) :
    10 * ofDigits (digits.take k) ≤ ofDigits digits := by
  have hlen : 1 ≤ (digits.drop k).length := by
    rw [List.length_drop]
    omega
  have hpow : 10 ^ 1 ≤ 10 ^ (digits.drop k).length := Nat.pow_le_pow_right (by omega) hlen
  calc 10 * ofDigits (digits.take k)
      = ofDigits (digits.take k) * 10 ^ 1 := by ring
    _ ≤ ofDigits (digits.take k) * 10 ^ (digits.drop k).length := Nat.mul_le_mul_left _ hpow
    _ ≤ ofDigits (digits.take k) * 10 ^ (digits.drop k).length + ofDigits (digits.drop k) :=
        Nat.le_add_right _ _
    _ = ofDigits digits := by rw [← ofDigits_append, List.take_append_drop]

/-- **A part of a numeral** from its start is read as a number of the same sign that is less
by a factor of ten at least. -/
lemma Numeral.exists_atoi_take {n : Numeral} (hfits : n.FitsInt) {k : ℕ}
    (hk : k < n.text.length) :
    ∃ m : ℕ, 10 * m ≤ ofDigits n.digits ∧
      atoi (n.text.take k) = if n.negative then -(m : ℤ) else m := by
  obtain ⟨hlow, hhigh⟩ := hfits
  rw [value] at hlow hhigh
  have hrest : ∀ c ∈ ([] : Bytes).head?, isdigit c = false := by simp
  have hall : ∀ j, ∀ c ∈ n.digits.take j, isdigit c = true := fun j c hc =>
    n.all_digits c (List.mem_of_mem_take hc)
  rw [text] at hk ⊢
  cases k with
  | zero => exact ⟨0, Nat.zero_le _, by rw [List.take_zero]; split_ifs <;> rfl⟩
  | succ k =>
      split_ifs at hlow hhigh hk ⊢
      · have hle := ofDigits_take_le (Nat.lt_of_succ_lt_succ hk)
        refine ⟨ofDigits (n.digits.take k), hle, ?_⟩
        have hread := atoi_minus_digits (hall k) hrest
        rw [List.append_nil] at hread
        rw [List.take_succ_cons, hread, max_eq_left (by omega)]
        exact Int.bmod_eq_of_le (by omega) (by omega)
      · have hle := ofDigits_take_le hk
        refine ⟨ofDigits (n.digits.take (k + 1)), hle, ?_⟩
        have hne : n.digits.take (k + 1) ≠ [] := by simp [n.ne_nil]
        have hread := atoi_digits hne (hall (k + 1)) hrest
        rw [List.append_nil] at hread
        rw [hread, min_eq_left (by omega)]
        exact Int.bmod_eq_of_le (by omega) (by omega)

end CString
