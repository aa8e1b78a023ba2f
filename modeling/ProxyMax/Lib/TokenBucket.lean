import Mathlib.Tactic

/-!
Token buckets: tokens flow in at a fixed rate up to a capacity, and a request
is admitted when there is a whole token to take.

* `refill`, `take`, `ask`: what happens to a bucket; `answers` and `after` are
  the answers to requests at given times and the bucket they leave.
* `Within`, `Topped`: the tokens are between none and the capacity, and the
  bucket was refilled at a given time or later.
* `admitted_le` accounts for requests made of a topped bucket, and
  `window_bound` bounds them in any window, whatever is in the bucket at first.
* `refill_refill`: refilling in two steps is refilling once; so requests that are
  refused leave no trace (`ask_after_refused`).
-/

namespace TokenBucket

/-- The tokens in a bucket and the time up to which they have flowed in. -/
structure Bucket (K : Type*) where
  tokens : K
  last : K

section Definitions

variable {K : Type*} [Field K] [LinearOrder K] (capacity rate : K)

/-- What flows in by the time `now`, up to the capacity. A clock that shows no
later time changes nothing. -/
def refill (now : K) (b : Bucket K) : Bucket K :=
  if b.last < now then ⟨min (b.tokens + (now - b.last) * rate) capacity, now⟩ else b

/-- One token is taken if there is one. -/
def take (b : Bucket K) : Bool × Bucket K :=
  if 1 ≤ b.tokens then (true, { b with tokens := b.tokens - 1 }) else (false, b)

/-- A request at the time `now`: its answer and the bucket after it. -/
def ask (now : K) (b : Bucket K) : Bool × Bucket K := take (refill capacity rate now b)

/-- The answers to requests at the given times. -/
def answers : List K → Bucket K → List Bool
  | [], _ => []
  | t :: ts, b => (ask capacity rate t b).1 :: answers ts (ask capacity rate t b).2

/-- The bucket after requests at the given times. -/
def after : List K → Bucket K → Bucket K
  | [], b => b
  | t :: ts, b => after ts (ask capacity rate t b).2

lemma answers_append (ts us : List K) (b : Bucket K) :
    answers capacity rate (ts ++ us) b
      = answers capacity rate ts b ++ answers capacity rate us (after capacity rate ts b) := by
  induction ts generalizing b with
  | nil => rfl
  | cons t ts ih => simp only [List.cons_append, answers, after, ih]

lemma length_answers (ts : List K) (b : Bucket K) :
    (answers capacity rate ts b).length = ts.length := by
  induction ts generalizing b with
  | nil => rfl
  | cons t ts ih => simp only [answers, List.length_cons, ih]

/-- The tokens are between none and the capacity. -/
def Within (b : Bucket K) : Prop := 0 ≤ b.tokens ∧ b.tokens ≤ capacity

/-- The bucket was last refilled at the time `t` or later. -/
def Topped (t : K) (b : Bucket K) : Prop := t ≤ b.last

lemma topped_refill (now : K) (b : Bucket K) : Topped now (refill capacity rate now b) := by
  rw [refill]
  split
  · exact le_rfl
  · rename_i hge
    exact not_lt.mp hge

/-- A request moves a token from the bucket to its answer. -/
lemma count_add_tokens_take (b : Bucket K) :
    (([(take b).1].count true : ℕ) : K) + (take b).2.tokens = b.tokens := by
  rw [take]
  split
  · simp
  · simp

lemma count_add_tokens_ask (now : K) (b : Bucket K) :
    (([(ask capacity rate now b).1].count true : ℕ) : K) + (ask capacity rate now b).2.tokens
      = (refill capacity rate now b).tokens := count_add_tokens_take _

/-- The first answer and the others. -/
lemma count_answers_cons (t : K) (ts : List K) (b : Bucket K) :
    ((answers capacity rate (t :: ts) b).count true : K)
      = (([(ask capacity rate t b).1].count true : ℕ) : K)
        + ((answers capacity rate ts (ask capacity rate t b).2).count true : K) := by
  rw [answers, ← List.singleton_append, List.count_append, Nat.cast_add]

lemma last_take (b : Bucket K) : (take b).2.last = b.last := by
  rw [take]
  split <;> rfl

lemma topped_ask (now : K) (b : Bucket K) : Topped now (ask capacity rate now b).2 := by
  rw [Topped, ask, last_take]
  exact topped_refill capacity rate now b

end Definitions

section Bound

variable {K : Type*} [Field K] [LinearOrder K] [IsStrictOrderedRing K] {capacity rate : K}

lemma Within.refill {b : Bucket K} (h : Within capacity b) (hrate : 0 ≤ rate) (now : K) :
    Within capacity (refill capacity rate now b) := by
  rw [TokenBucket.refill]
  split
  · rename_i hlt
    have hflow : 0 ≤ (now - b.last) * rate := mul_nonneg (by linarith) hrate
    exact ⟨le_min (by linarith [h.1]) (h.1.trans h.2), min_le_right _ _⟩
  · exact h

lemma Within.take {b : Bucket K} (h : Within capacity b) : Within capacity (take b).2 := by
  rw [TokenBucket.take]
  split
  · rename_i hone
    exact ⟨sub_nonneg.mpr hone, (sub_le_self _ zero_le_one).trans h.2⟩
  · exact h

lemma Within.ask {b : Bucket K} (h : Within capacity b) (hrate : 0 ≤ rate) (now : K) :
    Within capacity (ask capacity rate now b).2 := (h.refill hrate now).take

lemma Within.after {b : Bucket K} (h : Within capacity b) (hrate : 0 ≤ rate) (ts : List K) :
    Within capacity (after capacity rate ts b) := by
  induction ts generalizing b with
  | nil => exact h
  | cons t ts ih => exact ih (h.ask hrate t)

variable (capacity) in
/-- What flows in since a time at which the bucket was topped. -/
lemma tokens_refill_le {b : Bucket K} {t now : K} (htop : Topped t b) (hrate : 0 ≤ rate)
    (hle : t ≤ now) : (refill capacity rate now b).tokens ≤ b.tokens + (now - t) * rate := by
  rw [refill]
  split
  · have hflow : (now - b.last) * rate ≤ (now - t) * rate :=
      mul_le_mul_of_nonneg_right (sub_le_sub_left htop now) hrate
    exact (min_le_left _ _).trans (by linarith)
  · have hflow : 0 ≤ (now - t) * rate := mul_nonneg (sub_nonneg.mpr hle) hrate
    linarith

variable (capacity) in
/-- **The account of a run**: what is admitted and what is left came from the
bucket or flowed in since it was topped. -/
theorem admitted_le {ts : List K} {b : Bucket K} {t : K} (htop : Topped t b) (hrate : 0 ≤ rate)
    (hts : (t :: ts).Pairwise (· ≤ ·)) :
    ((answers capacity rate ts b).count true : K) + (after capacity rate ts b).tokens
      ≤ b.tokens + (ts.getLastD t - t) * rate := by
  induction ts generalizing b t with
  | nil => simp [answers, after]
  | cons u ts ih =>
      have hu : t ≤ u := (List.pairwise_cons.mp hts).1 u (by simp)
      have hrest := ih (topped_ask capacity rate u b) (List.pairwise_cons.mp hts).2
      have hask := count_add_tokens_ask capacity rate u b
      rw [count_answers_cons, after, List.getLastD_cons]
      calc (([(ask capacity rate u b).1].count true : ℕ) : K)
            + ((answers capacity rate ts (ask capacity rate u b).2).count true : K)
            + (after capacity rate ts (ask capacity rate u b).2).tokens
          ≤ (([(ask capacity rate u b).1].count true : ℕ) : K)
            + ((ask capacity rate u b).2.tokens + (ts.getLastD u - u) * rate) := by
            rw [add_assoc]
            exact add_le_add_right hrest _
        _ = (refill capacity rate u b).tokens + (ts.getLastD u - u) * rate := by
            rw [← add_assoc, hask]
        _ ≤ b.tokens + (u - t) * rate + (ts.getLastD u - u) * rate :=
            add_le_add_left (tokens_refill_le capacity htop hrate hu) _
        _ = b.tokens + (ts.getLastD u - t) * rate := by ring

/-- **The window bound.** From the first request of a window to its last, at
most the capacity and what flows in between are admitted. -/
theorem window_bound {ts : List K} {b : Bucket K} {t : K} (hb : Within capacity b)
    (hrate : 0 ≤ rate) (hts : (t :: ts).Pairwise (· ≤ ·)) :
    ((answers capacity rate (t :: ts) b).count true : K)
      ≤ capacity + (ts.getLastD t - t) * rate := by
  have hask := count_add_tokens_ask capacity rate t b
  have hrun := admitted_le capacity (topped_ask capacity rate t b) hrate hts
  have hleft := ((hb.ask hrate t).after hrate ts).1
  have hfull := (hb.refill hrate t).2
  rw [count_answers_cons]
  calc (([(ask capacity rate t b).1].count true : ℕ) : K)
        + ((answers capacity rate ts (ask capacity rate t b).2).count true : K)
      ≤ (([(ask capacity rate t b).1].count true : ℕ) : K)
        + ((ask capacity rate t b).2.tokens + (ts.getLastD t - t) * rate) :=
        add_le_add_right ((le_add_of_nonneg_right hleft).trans hrun) _
    _ = (refill capacity rate t b).tokens + (ts.getLastD t - t) * rate := by
        rw [← add_assoc, hask]
    _ ≤ capacity + (ts.getLastD t - t) * rate := add_le_add_left hfull _

end Bound

section Refused

variable {K : Type*} [Field K] [LinearOrder K] {capacity rate : K} {b : Bucket K} {t u : K}

lemma tokens_refill_le_capacity (hcap : b.tokens ≤ capacity) (now : K) :
    (refill capacity rate now b).tokens ≤ capacity := by
  rw [refill]
  split
  · exact min_le_right _ _
  · exact hcap

lemma last_refill (h : b.last ≤ t) : (refill capacity rate t b).last = t := by
  rw [refill]
  split
  · rfl
  · rename_i hge
    exact le_antisymm h (not_lt.mp hge)

/-- A request that is refused has refilled the bucket. -/
lemma ask_refused (h : (ask capacity rate t b).1 = false) :
    (ask capacity rate t b).2 = refill capacity rate t b := by
  rw [ask, take] at h ⊢
  split_ifs at h ⊢
  rfl

variable [IsStrictOrderedRing K]

/-- **Two refills are one**: where the first one is cut off at the capacity, so is the
whole; and where tokens flow out neither is. -/
lemma refill_refill (hcap : b.tokens ≤ capacity) (h : b.last ≤ t) (h' : t ≤ u) :
    refill capacity rate u (refill capacity rate t b) = refill capacity rate u b := by
  rcases h.lt_or_eq with hlt | rfl
  · rcases h'.lt_or_eq with hlt' | rfl
    · have hflow : b.tokens + (t - b.last) * rate + (u - t) * rate =
          b.tokens + (u - b.last) * rate := by ring
      have htokens : min (min (b.tokens + (t - b.last) * rate) capacity + (u - t) * rate) capacity =
          min (b.tokens + (u - b.last) * rate) capacity := by
        rcases le_total (b.tokens + (t - b.last) * rate) capacity with hle | hge
        · rw [min_eq_left hle, hflow]
        · -- more than the capacity has flowed in, so the rate is not negative
          have hin : 0 ≤ (t - b.last) * rate := by linarith
          have hrate : 0 ≤ rate := nonneg_of_mul_nonneg_right hin (sub_pos.mpr hlt)
          have hmore : 0 ≤ (u - t) * rate := mul_nonneg (sub_nonneg.mpr h') hrate
          rw [min_eq_right hge, min_eq_right (by linarith), min_eq_right (by linarith)]
      rw [refill, refill, if_pos hlt, if_pos hlt', refill, if_pos (hlt.trans hlt'), htokens]
    · rw [refill, if_neg]
      rw [last_refill h]
      exact lt_irrefl t
  · congr 1
    rw [refill, if_neg (lt_irrefl _)]

/-- **Requests that are refused leave no trace**: the next one is answered as if they had
not been made. -/
theorem ask_after_refused {ts : List K} (hcap : b.tokens ≤ capacity)
    (hts : (b.last :: (ts ++ [u])).Pairwise (· ≤ ·))
    (hrefused : ∀ a ∈ answers capacity rate ts b, a = false) :
    ask capacity rate u (after capacity rate ts b) = ask capacity rate u b := by
  induction ts generalizing b with
  | nil => rfl
  | cons t ts ih =>
      rw [answers, List.forall_mem_cons] at hrefused
      rw [List.cons_append, List.pairwise_cons] at hts
      have ht : b.last ≤ t := hts.1 t (by simp)
      have hu : t ≤ u := (List.pairwise_cons.mp hts.2).1 u (by simp)
      have hleft := ask_refused hrefused.1
      rw [hleft] at hrefused
      rw [after, hleft, ih (tokens_refill_le_capacity hcap t) (by rw [last_refill ht]; exact hts.2)
        hrefused.2, ask, refill_refill hcap ht hu, ask]

end Refused

end TokenBucket
