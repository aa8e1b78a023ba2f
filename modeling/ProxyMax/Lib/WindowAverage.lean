import Mathlib.Tactic

/-!
Limits on an average: what arrives is counted in a window that is opened on demand,
and is admitted while the average over the window, with the arrival added, stays within
the limit.

* `opened`, `Admits`, `visit`: the window that a visit finds, and whether it admits it;
  `answers` are those of visits one after the other.
* `Kept`: a window holds no more than the limit for each unit of time since it opened;
  `Kept.visit` is its step.
* `Spent`: how what was admitted in a span of the width of a window can be divided
  between the windows that meet the span; `SpentBy.opened` and `SpentBy.visit` are its steps.
* `admitted_le`: the bound on any such span, which is less than two windows.
-/

namespace WindowAverage

/-- When a window was opened, and what was admitted in it. -/
structure Window where
  start : ℤ
  total : ℕ

/-- A visit reads the clock when it looks for the window and again when it asks. -/
structure Visit where
  found : ℤ
  now : ℤ
  amount : ℕ

/-- The window for a visit: a new one where there is none, or the old one is over. -/
def opened (width found : ℤ) : Option Window → Window
  | none => ⟨found, 0⟩
  | some w => if width ≤ found - w.start then ⟨found, 0⟩ else w

/-- The time since the window was opened, at least one unit. -/
def Window.duration (w : Window) (now : ℤ) : ℕ := max (now - w.start).toNat 1

/-- The average, rounded down, and the amount are within the limit. -/
def Admits (limit : ℕ) (w : Window) (v : Visit) : Prop :=
  w.total / w.duration v.now + v.amount ≤ limit

instance (limit : ℕ) (w : Window) (v : Visit) : Decidable (Admits limit w v) :=
  inferInstanceAs (Decidable (_ ≤ _))

/-- The answer to a visit, and the window it leaves. -/
def visit (width : ℤ) (limit : ℕ) (w : Option Window) (v : Visit) : Bool × Window :=
  let w := opened width v.found w
  if Admits limit w v then (true, ⟨w.start, w.total + v.amount⟩) else (false, w)

/-- The answers to visits one after the other. -/
def answers (width : ℤ) (limit : ℕ) : Option Window → List Visit → List (Visit × Bool)
  | _, [] => []
  | w, v :: vs =>
      (v, (visit width limit w v).1) :: answers width limit (visit width limit w v).2 vs

/-- The clock readings of a visit are in order, after `t`. -/
def Visit.After (t : ℤ) (v : Visit) : Prop := t ≤ v.found ∧ v.found ≤ v.now

/-- The clock readings of visits are in order, after `t`. -/
def Ordered : ℤ → List Visit → Prop
  | _, [] => True
  | t, v :: vs => v.After t ∧ Ordered v.now vs

/-- The amount of an answered visit, if it was admitted in the span after `s`. -/
def spentIn (s width : ℤ) (e : Visit × Bool) : ℕ :=
  if e.2 = true ∧ s < e.1.now ∧ e.1.now ≤ s + width then e.1.amount else 0

/-- What was admitted in the span after `s`. -/
def admittedIn (s width : ℤ) (log : List (Visit × Bool)) : ℕ := (log.map (spentIn s width)).sum

section Window

variable {limit : ℕ} {w : Window} {t now : ℤ}

lemma Window.duration_pos (w : Window) (now : ℤ) : 0 < w.duration now :=
  lt_max_of_lt_right one_pos

lemma Window.duration_mono (w : Window) (h : t ≤ now) : w.duration t ≤ w.duration now :=
  max_le_max_right _ (Int.toNat_le_toNat (by omega))

/-- At the time `t` the window holds no more than the limit for each unit of time. -/
structure Kept (limit : ℕ) (t : ℤ) (w : Window) : Prop where
  start_le : w.start ≤ t
  total_le : w.total ≤ limit * w.duration t

lemma Kept.mono (h : Kept limit t w) (hle : t ≤ now) : Kept limit now w :=
  ⟨h.start_le.trans hle,
    h.total_le.trans (Nat.mul_le_mul_left _ (w.duration_mono hle))⟩

lemma kept_new (limit : ℕ) (t : ℤ) : Kept limit t ⟨t, 0⟩ := ⟨le_rfl, Nat.zero_le _⟩

/-- An amount that is admitted leaves the whole within the limit for each unit of time:
what the average leaves out by rounding, one unit more of the amount makes up. -/
lemma add_le_of_average {total d amount : ℕ} (hd : 0 < d) (hamount : 0 < amount)
    (h : total / d + amount ≤ limit) : total + amount ≤ limit * d := by
  have hround : total < (total / d + 1) * d := by
    rw [Nat.add_mul, Nat.one_mul]
    exact Nat.lt_div_mul_add hd
  obtain ⟨d, rfl⟩ := Nat.exists_eq_add_of_lt hd
  obtain ⟨amount, rfl⟩ := Nat.exists_eq_add_of_lt hamount
  calc total + (0 + amount + 1) ≤ (total / (0 + d + 1) + 1) * (0 + d + 1) + amount := by omega
    _ ≤ (total / (0 + d + 1) + (0 + amount + 1)) * (0 + d + 1) := by nlinarith
    _ ≤ limit * (0 + d + 1) := Nat.mul_le_mul_right _ h

/-- What an admitted visit leaves is kept. -/
lemma Kept.admitted {v : Visit} (h : Kept limit v.found w) (hle : v.found ≤ v.now)
    (hamount : 0 < v.amount) (hadmits : Admits limit w v) :
    Kept limit v.now ⟨w.start, w.total + v.amount⟩ :=
  ⟨h.start_le.trans hle, add_le_of_average (w.duration_pos _) hamount hadmits⟩

/-- The window that a visit finds is kept. -/
lemma Kept.opened {width : ℤ} {w : Option Window} (h : ∀ x, w = some x → Kept limit t x)
    (hle : t ≤ now) : Kept limit now (opened width now w) := by
  cases w with
  | none => exact kept_new ..
  | some w =>
      rw [WindowAverage.opened]
      split_ifs
      · exact kept_new ..
      · exact (h w rfl).mono hle

/-- **The step**: the window that a visit leaves is kept. -/
lemma Kept.visit {width : ℤ} {w : Option Window} {v : Visit}
    (h : ∀ x, w = some x → Kept limit t x) (hv : v.After t) :
    Kept limit v.now (visit width limit w v).2 := by
  have hkept : Kept limit v.found (WindowAverage.opened width v.found w) := opened h hv.1
  rw [WindowAverage.visit]
  split_ifs with hadmits
  · rcases Nat.eq_zero_or_pos v.amount with hzero | hpos
    · rw [hzero]
      exact hkept.mono hv.2
    · exact hkept.admitted hv.2 hpos hadmits
  · exact hkept.mono hv.2

end Window

/-! ### A span of the width of a window -/

section Span

variable {width s t now : ℤ} {limit bound A : ℕ} {w : Window}

/-- **How the span is spent.** Up to the time `t`, the amount `A` was admitted in the
span of the width of a window after `s`, and the last window is `w`. The amount was
admitted in that window, or in that window the last time when it was over, or in the one
before it and in it, or before a window that is opened after the span. -/
inductive Spent (width : ℤ) (limit bound : ℕ) (s t : ℤ) (w : Window) (A : ℕ) : Prop
  | nothing (h : A = 0)
  | current (d : ℕ) (htotal : A ≤ w.total) (h : A ≤ limit * max d 1) (hd : (d : ℤ) < width)
      (hs : s < w.start + d)
  | late (c d : ℕ) (h : A ≤ limit * c) (hc : c + max (d - 1) 1 ≤ bound) (hd : (d : ℤ) ≤ width)
      (hover : w.start + width ≤ t) (hs : s + width < t + d)
  | older (c d : ℕ) (htotal : A ≤ limit * c + w.total) (h : A ≤ limit * bound)
      (hc : c + max (d - 1) 1 ≤ bound) (hd : (d : ℤ) ≤ width) (hs : s + width < w.start + d)
  | past (h : A ≤ limit * bound) (hs : s + width < w.start)

lemma Spent.le (h : Spent width limit bound s t w A) (hbound : 2 * width - 3 ≤ bound)
    (hwidth : 3 ≤ width) : A ≤ limit * bound := by
  cases h with
  | nothing h => omega
  | current d _ h hd _ => exact h.trans (Nat.mul_le_mul_left _ (by omega))
  | late c d h hc _ _ _ => exact h.trans (Nat.mul_le_mul_left _ (by omega))
  | older _ _ _ h _ _ _ => exact h
  | past h _ => exact h

/-- A later reading of the clock. -/
lemma Spent.mono (h : Spent width limit bound s t w A) (hle : t ≤ now) :
    Spent width limit bound s now w A := by
  cases h with
  | nothing h => exact .nothing h
  | current d htotal h hd hs => exact .current d htotal h hd hs
  | late c d h hc hd hover hs => exact .late c d h hc hd (by omega) (by omega)
  | older c d htotal h hc hd hs => exact .older c d htotal h hc hd hs
  | past h hs => exact .past h hs

/-- **A window is opened** when the old one is over: the old one becomes the one before,
and what was the one before is out of the span. -/
lemma Spent.reset (h : Spent width limit bound s t w A) (hle : t ≤ now)
    (hover : width ≤ now - w.start) (hwidth : 3 ≤ width) (hbound : 2 * width - 3 ≤ bound) :
    Spent width limit bound s now ⟨now, 0⟩ A := by
  cases h with
  | nothing h => exact .nothing h
  | current d _ h hd hs =>
      have hc : max d 1 + max (d - 1) 1 ≤ bound := by omega
      exact .older (max d 1) d h (h.trans (Nat.mul_le_mul_left _ (by omega))) hc hd.le
        (by show s + width < now + d; omega)
  | late c d h hc hd _ hs =>
      exact .older c d h (h.trans (Nat.mul_le_mul_left _ (by omega))) hc hd
        (by show s + width < now + d; omega)
  | older c d _ h _ hd hs => exact .past h (by show s + width < now; omega)
  | past h hs => exact .past h (by show s + width < now; omega)

/-- What an open window gets outside the span is not spent in it. -/
lemma Spent.outside (h : Spent width limit bound s t w A) (hin : t - w.start < width)
    {amount : ℕ} : Spent width limit bound s now ⟨w.start, w.total + amount⟩ A := by
  cases h with
  | nothing h => exact .nothing h
  | current d htotal h hd hs => exact .current d (htotal.trans (Nat.le_add_right ..)) h hd hs
  | late _ _ _ _ _ hover _ => omega
  | older c d htotal h hc hd hs =>
      exact .older c d (by show A ≤ _ + (_ + _); omega) h hc hd hs
  | past h hs => exact .past h hs

/-- **An amount is admitted.** Only a visit that takes time finds a window that is over
when it asks; it needs the greater of the two bounds. -/
lemma Spent.admitted {v : Visit} (h : Spent width limit bound s v.found w A)
    (hkept : Kept limit v.found w) (hle : v.found ≤ v.now) (hin : v.found - w.start < width)
    (hamount : 0 < v.amount) (hadmits : Admits limit w v) (hwidth : 3 ≤ width)
    (hbound : v.found = v.now ∨ 2 * width - 2 ≤ bound) :
    Spent width limit bound s v.now ⟨w.start, w.total + v.amount⟩
      (A + spentIn s width (v, true)) := by
  have htotal := (hkept.admitted hle hamount hadmits).total_le
  have hstart := hkept.start_le
  have hamount : v.amount ≤ limit := le_of_add_le_right hadmits
  obtain ⟨e, he⟩ : ∃ e : ℕ, v.now = w.start + e := ⟨(v.now - w.start).toNat, by omega⟩
  have hduration : Window.duration ⟨w.start, w.total + v.amount⟩ v.now = max e 1 := by
    rw [Window.duration, he]
    simp
  rw [hduration] at htotal
  change w.total + v.amount ≤ limit * max e 1 at htotal
  rw [spentIn]
  -- only an amount that is admitted in the span counts, and then by where the span began
  by_cases hspan : s < v.now ∧ v.now ≤ s + width
  · rw [if_pos ⟨rfl, hspan⟩]
    cases h with
    | nothing h =>
        rw [h, Nat.zero_add]
        by_cases hlate : (e : ℤ) < width
        · exact .current e (Nat.le_add_left ..) ((Nat.le_add_left ..).trans htotal) hlate
            (by show s < w.start + e; omega)
        · refine .late 1 width.toNat (by rwa [Nat.mul_one]) ?_ (by omega) ?_ (by omega)
          · omega
          · show w.start + width ≤ v.now
            omega
    -- the span began in this window, which it may be about to leave
    | current d hA h hd hs =>
        by_cases hlate : (e : ℤ) < width
        · have hA' : A + v.amount ≤ w.total + v.amount := Nat.add_le_add_right hA _
          exact .current e hA' (hA'.trans htotal) hlate (by show s < w.start + e; omega)
        · refine .late (max d 1 + 1) d ?_ (by omega) hd.le ?_ (by omega)
          · rw [Nat.mul_add, Nat.mul_one]
            exact Nat.add_le_add h hamount
          · show w.start + width ≤ v.now
            omega
    | late _ _ _ _ _ hover _ => omega
    -- it began in a window before, and the shares of both are within the bound
    | older c d hA h hc hd hs =>
        have hA' : A + v.amount ≤ limit * c + (w.total + v.amount) := by omega
        have hshare : limit * c + limit * max e 1 ≤ limit * bound := by
          rw [← Nat.mul_add]
          exact Nat.mul_le_mul_left _ (by omega)
        have hA : A + v.amount ≤ limit * bound := by omega
        exact .older c d hA' hA hc hd hs
    | past _ hs => omega
  · rw [if_neg fun h => hspan h.2, Nat.add_zero]
    exact h.outside hin

/-- The state of the span, when there may be no window yet. -/
def SpentBy (width : ℤ) (limit bound : ℕ) (s t : ℤ) (w : Option Window) (A : ℕ) : Prop :=
  match w with
  | none => A = 0
  | some w => Kept limit t w ∧ Spent width limit bound s t w A

/-- The window that a visit finds. -/
lemma SpentBy.opened {w : Option Window} (h : SpentBy width limit bound s t w A) (hle : t ≤ now)
    (hwidth : 3 ≤ width) (hbound : 2 * width - 3 ≤ bound) :
    Kept limit now (opened width now w) ∧
      Spent width limit bound s now (opened width now w) A ∧
      now - (opened width now w).start < width := by
  cases w with
  | none => exact ⟨kept_new .., .nothing h, by show now - now < width; omega⟩
  | some w =>
      obtain ⟨hkept, hspent⟩ := h
      refine ⟨Kept.opened (fun x hx => Option.some.inj hx ▸ hkept) hle, ?_⟩
      rw [WindowAverage.opened]
      split_ifs with hover
      · exact ⟨hspent.reset hle hover hwidth hbound, by show now - now < width; omega⟩
      · exact ⟨hspent.mono hle, not_le.mp hover⟩

/-- **The step**: a visit. -/
lemma SpentBy.visit {w : Option Window} {v : Visit} (h : SpentBy width limit bound s t w A)
    (hv : v.After t) (hwidth : 3 ≤ width) (hbound : 2 * width - 3 ≤ bound)
    (htwo : v.found = v.now ∨ 2 * width - 2 ≤ bound) :
    SpentBy width limit bound s v.now (some (visit width limit w v).2)
      (A + spentIn s width (v, (visit width limit w v).1)) := by
  obtain ⟨hkept, hspent, hin⟩ := h.opened hv.1 hwidth hbound
  have hsame : Spent width limit bound s v.now (WindowAverage.opened width v.found w) A :=
    hspent.mono hv.2
  rw [WindowAverage.visit]
  split_ifs with hadmits
  · rcases Nat.eq_zero_or_pos v.amount with hzero | hpos
    · have hnothing : spentIn s width (v, true) = 0 := by rw [spentIn, hzero, ite_self]
      rw [hzero, hnothing]
      exact ⟨hkept.mono hv.2, hsame⟩
    · exact ⟨hkept.admitted hv.2 hpos hadmits,
        hspent.admitted hkept hv.2 hin hpos hadmits hwidth htwo⟩
  · exact ⟨hkept.mono hv.2, hsame⟩

/-- **The run**: visits one after the other. -/
lemma SpentBy.answers {w : Option Window} {vs : List Visit}
    (h : SpentBy width limit bound s t w A) (hvs : Ordered t vs) (hwidth : 3 ≤ width)
    (hbound : 2 * width - 3 ≤ bound)
    (htwo : ∀ v ∈ vs, v.found = v.now ∨ 2 * width - 2 ≤ bound) :
    A + admittedIn s width (answers width limit w vs) ≤ limit * bound := by
  induction vs generalizing w t A with
  | nil =>
      rw [WindowAverage.answers, admittedIn, List.map_nil, List.sum_nil, Nat.add_zero]
      cases w with
      | none =>
          have hzero : A = 0 := h
          omega
      | some w => exact h.2.le hbound hwidth
  | cons v vs ih =>
      have hnext := h.visit hvs.1 hwidth hbound (htwo v List.mem_cons_self)
      rw [WindowAverage.answers, admittedIn, List.map_cons, List.sum_cons, ← Nat.add_assoc]
      exact ih hnext hvs.2 fun v hv => htwo v (List.mem_cons_of_mem _ hv)

end Span

/-- **The bound on a span** of the width of a window: the limit, for less than two
windows; for one unit less if every visit reads one time. -/
theorem admitted_le {width : ℤ} {limit : ℕ} {t : ℤ} {vs : List Visit} (hwidth : 3 ≤ width)
    (hvs : Ordered t vs) (s : ℤ) :
    (admittedIn s width (answers width limit none vs) : ℤ) ≤ (2 * width - 2) * limit ∧
      ((∀ v ∈ vs, v.found = v.now) →
        (admittedIn s width (answers width limit none vs) : ℤ) ≤ (2 * width - 3) * limit) := by
  have hrun : ∀ bound : ℕ, 2 * width - 3 ≤ bound →
      (∀ v ∈ vs, v.found = v.now ∨ 2 * width - 2 ≤ bound) →
      (admittedIn s width (answers width limit none vs) : ℤ) ≤ bound * limit := by
    intro bound hbound htwo
    have hnone : SpentBy width limit bound s t none 0 := rfl
    have h := hnone.answers hvs hwidth hbound htwo
    rw [Nat.zero_add, Nat.mul_comm] at h
    exact_mod_cast h
  constructor
  · have h := hrun (2 * width - 2).toNat (by omega) fun v _ => .inr (by omega)
    rwa [Int.toNat_of_nonneg (by omega)] at h
  · intro hone
    have h := hrun (2 * width - 3).toNat (by omega) fun v hv => .inl (hone v hv)
    rwa [Int.toNat_of_nonneg (by omega)] at h

end WindowAverage
