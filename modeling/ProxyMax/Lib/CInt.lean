import Mathlib.Tactic

/-!
The C type `int` of 32 bits, on the integers.

* `intMax`, `incr`: the greatest value, and `++`, read as two's complement;
  `incr_iterate` and `incr_iterate_of_le` are what repeated increments come to.
* `Fault`, `add`, `rem`: the sums and remainders that C leaves undefined are
  faults, the other ones as C has them; `%` truncates (`tmod_nonneg_iff`).
-/

namespace CInt

/-- `INT_MAX`. -/
def intMax : ℤ := 2147483647

/-- `INT_MIN`. -/
def intMin : ℤ := -2147483648

/-- `x++`, which wraps around. -/
def incr (x : ℤ) : ℤ := (x + 1).bmod (2 ^ 32)

lemma incr_of_lt {x : ℤ} (h : intMin ≤ x + 1) (hx : x < intMax) : incr x = x + 1 := by
  rw [intMin] at h
  rw [intMax] at hx
  exact Int.bmod_eq_of_le (by omega) (by omega)

/-- Increments add up, in two's complement. -/
lemma incr_iterate (k : ℕ) (x : ℤ) :
    incr^[k] (x.bmod (2 ^ 32)) = (x + k).bmod (2 ^ 32) := by
  induction k with
  | zero => simp
  | succ k ih =>
      rw [Function.iterate_succ_apply', ih, incr, Int.bmod_add_bmod]
      push_cast
      rw [Int.add_assoc]

/-- Increments below `INT_MAX` do not wrap around. -/
lemma incr_iterate_of_le {x : ℤ} {k : ℕ} (hmin : intMin ≤ x) (hmax : x + k ≤ intMax) :
    incr^[k] x = x + k := by
  induction k with
  | zero => simp
  | succ k ih =>
      push_cast at hmax
      rw [Function.iterate_succ_apply', ih (by omega), incr_of_lt (by omega) (by omega)]
      push_cast
      rw [Int.add_assoc]

/-- What C does not define. -/
inductive Fault where
  | overflow
  | divisionByZero
  deriving DecidableEq

/-- `a + b`. -/
def add (a b : ℤ) : Except Fault ℤ :=
  if intMin ≤ a + b ∧ a + b ≤ intMax then .ok (a + b) else .error .overflow

/-- `a % b`. -/
def rem (a b : ℤ) : Except Fault ℤ :=
  if b = 0 then .error .divisionByZero
  else if a = intMin ∧ b = -1 then .error .overflow
  else .ok (a.tmod b)

/-- A computation that succeeds has succeeded at its first part. -/
lemma bind_eq_ok {α β : Type} {x : Except Fault α} {f : α → Except Fault β} {b : β} :
    (x >>= f) = .ok b ↔ ∃ a, x = .ok a ∧ f a = .ok b := by
  cases x <;> simp [bind, Except.bind]

lemma ok_ne_error {α : Type} (a : α) (e : Fault) : Except.ok a ≠ Except.error e := by simp

/-- A computation does not have a fault that none of its parts has. -/
lemma bind_ne_error {α β : Type} {x : Except Fault α} {f : α → Except Fault β} {e : Fault}
    (hx : x ≠ .error e) (hf : ∀ a, f a ≠ .error e) : (x >>= f) ≠ .error e := by
  cases x with
  | error e' => exact fun h => hx (congrArg Except.error (Except.error.inj h))
  | ok a => exact hf a

lemma add_ne_divisionByZero (a b : ℤ) : add a b ≠ .error .divisionByZero := by
  rw [add]
  split_ifs <;> simp

lemma rem_ne_divisionByZero (a : ℤ) {b : ℤ} (hb : b ≠ 0) : rem a b ≠ .error .divisionByZero := by
  rw [rem, if_neg hb]
  split_ifs <;> simp

lemma add_of_le {a b : ℤ} (hmin : intMin ≤ a + b) (hmax : a + b ≤ intMax) :
    add a b = .ok (a + b) :=
  if_pos ⟨hmin, hmax⟩

lemma rem_of_pos (a : ℤ) {b : ℤ} (hb : 0 < b) : rem a b = .ok (a.tmod b) := by
  rw [rem, if_neg hb.ne', if_neg (by omega)]

lemma tmod_lt (a : ℤ) {b : ℤ} (hb : 0 < b) : a.tmod b < b := Int.tmod_lt_of_pos a hb

lemma tmod_nonpos {a : ℤ} (b : ℤ) (ha : a ≤ 0) : a.tmod b ≤ 0 := by
  have hopp : 0 ≤ (-a).tmod b := Int.tmod_nonneg _ (by omega)
  rw [Int.neg_tmod] at hopp
  omega

/-- `a % b` is negative where `a` is, except at the multiples of `b`. -/
lemma tmod_nonneg_iff (a b : ℤ) : 0 ≤ a.tmod b ↔ 0 ≤ a ∨ b ∣ a := by
  constructor
  · intro h
    by_contra hcon
    obtain ⟨hneg, hdvd⟩ := not_or.mp hcon
    exact hdvd (Int.dvd_of_tmod_eq_zero (le_antisymm (tmod_nonpos b (by omega)) h))
  · rintro (h | h)
    · exact Int.tmod_nonneg _ h
    · rw [Int.tmod_eq_zero_of_dvd h]

/-- A count that wraps around is not negative while its bit 31 is zero. -/
lemma bmod_nonneg_iff (steps : ℕ) :
    0 ≤ (steps : ℤ).bmod (2 ^ 32) ↔ steps % 2 ^ 32 < 2 ^ 31 := by
  rw [Int.bmod_def]
  split_ifs <;> omega

end CInt
