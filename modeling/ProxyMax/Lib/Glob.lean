import Mathlib.Tactic

/-!
Wildcard patterns over an arbitrary alphabet, and the facts a greedy matcher
rests on.

* `Tok`, `Matches`: the language of a pattern; a star stands for any sequence,
  `any` for any one letter, and a letter for itself.
* `Matches.isInfix`: a pattern with a star at either end does not mind what
  surrounds a word.
* `Agree`: a star-free piece of a pattern against a word of the same length.
* `matches_star_forget`: once a piece after a star has been found, the earlier
  star may be forgotten, the next one absorbs all it could.
* `matches_star_advance`: a star that cannot stop here absorbs a letter.
* `not_matches_star_short`: a word too short for the letters of a pattern.
-/

namespace Glob

variable {α : Type*}

/-- The tokens of a pattern. -/
inductive Tok (α : Type*) where
  | star
  | any
  | lit (a : α)

/-- The language of a pattern. -/
inductive Matches : List (Tok α) → List α → Prop
  | nil : Matches [] []
  | star {p : List (Tok α)} {s : List α} (w : List α) (h : Matches p s) :
      Matches (.star :: p) (w ++ s)
  | any {p : List (Tok α)} {s : List α} (a : α) (h : Matches p s) : Matches (.any :: p) (a :: s)
  | lit {p : List (Tok α)} {s : List α} (a : α) (h : Matches p s) : Matches (.lit a :: p) (a :: s)

/-- The token stands for the single letter. -/
inductive Agrees : Tok α → α → Prop
  | any (a : α) : Agrees .any a
  | lit (a : α) : Agrees (.lit a) a

/-- A star-free piece of a pattern stands for the word letter by letter. -/
abbrev Agree (m : List (Tok α)) (w : List α) : Prop := List.Forall₂ Agrees m w

/-! ### The language, token by token -/

@[simp] lemma matches_nil_iff {s : List α} : Matches [] s ↔ s = [] :=
  ⟨fun h => by cases h; rfl, fun h => h ▸ .nil⟩

lemma matches_star_iff {p : List (Tok α)} {s : List α} :
    Matches (.star :: p) s ↔ ∃ w t, s = w ++ t ∧ Matches p t := by
  constructor
  · rintro ⟨⟩
    exact ⟨_, _, rfl, ‹_›⟩
  · rintro ⟨w, t, rfl, h⟩
    exact .star w h

/-- A token other than a star takes exactly one letter. -/
lemma matches_cons_iff {t : Tok α} (ht : t ≠ .star) {p : List (Tok α)} {s : List α} :
    Matches (t :: p) s ↔ ∃ a s', s = a :: s' ∧ Agrees t a ∧ Matches p s' := by
  constructor
  · intro h
    cases h with
    | star w h => exact absurd rfl ht
    | any a h => exact ⟨a, _, rfl, .any a, h⟩
    | lit a h => exact ⟨a, _, rfl, .lit a, h⟩
  · rintro ⟨a, s', rfl, hta, h⟩
    cases hta with
    | any => exact .any a h
    | lit => exact .lit a h

lemma Agrees.ne_star {t : Tok α} {a : α} (h : Agrees t a) : t ≠ .star := by cases h <;> simp

lemma matches_append_agree {m : List (Tok α)} {w : List α} (hm : Agree m w) {p : List (Tok α)}
    {s : List α} (h : Matches p s) : Matches (m ++ p) (w ++ s) := by
  induction hm with
  | nil => exact h
  | cons hta _ ih => exact (matches_cons_iff hta.ne_star).mpr ⟨_, _, rfl, hta, ih⟩

/-- What a pattern matches after a star-free piece starts after as many letters. -/
lemma matches_append_iff {m : List (Tok α)} {w : List α} (hm : Agree m w) {p : List (Tok α)}
    {s : List α} :
    Matches (m ++ p) s ↔ ∃ v t, s = v ++ t ∧ Agree m v ∧ Matches p t := by
  constructor
  · intro h
    induction hm generalizing s with
    | nil => exact ⟨[], s, rfl, .nil, h⟩
    | cons hta _ ih =>
        obtain ⟨a, s', rfl, hta', h'⟩ := (matches_cons_iff hta.ne_star).mp h
        obtain ⟨v, t, rfl, hv, ht⟩ := ih h'
        exact ⟨a :: v, t, rfl, .cons hta' hv, ht⟩
  · rintro ⟨v, t, rfl, hv, ht⟩
    exact matches_append_agree hv ht

/-- The parts of a pattern take parts of the word. -/
lemma matches_append_split {p q : List (Tok α)} {s : List α} :
    Matches (p ++ q) s ↔ ∃ v t, s = v ++ t ∧ Matches p v ∧ Matches q t := by
  constructor
  · intro h
    induction p generalizing s with
    | nil => exact ⟨[], s, rfl, .nil, h⟩
    | cons tok p ih =>
        cases h with
        | star w h =>
            obtain ⟨v, t, rfl, hv, ht⟩ := ih h
            exact ⟨w ++ v, t, (List.append_assoc w v t).symm, .star w hv, ht⟩
        | any a h =>
            obtain ⟨v, t, rfl, hv, ht⟩ := ih h
            exact ⟨a :: v, t, rfl, .any a hv, ht⟩
        | lit a h =>
            obtain ⟨v, t, rfl, hv, ht⟩ := ih h
            exact ⟨a :: v, t, rfl, .lit a hv, ht⟩
  · rintro ⟨v, t, rfl, hv, ht⟩
    induction hv with
    | nil => exact ht
    | star w _ ih =>
        rw [List.append_assoc]
        exact .star w ih
    | any a _ ih => exact .any a ih
    | lit a _ ih => exact .lit a ih

/-- A pattern that begins and ends with a star matches every word around one that
it matches. -/
lemma Matches.isInfix {p q r : List (Tok α)} (hq : p = .star :: q) (hr : p = r ++ [.star])
    {s t : List α} (hst : s <:+: t) (h : Matches p s) : Matches p t := by
  obtain ⟨a, b, rfl⟩ := hst
  have hright : Matches p (s ++ b) := by
    rw [hr] at h ⊢
    obtain ⟨v, u, rfl, hv, -⟩ := matches_append_split.mp h
    refine matches_append_split.mpr ⟨v, u ++ b, List.append_assoc v u b, hv, ?_⟩
    simpa using Matches.star (u ++ b) .nil
  rw [hq] at hright ⊢
  obtain ⟨w, u, hwu, hu⟩ := matches_star_iff.mp hright
  rw [List.append_assoc, hwu, ← List.append_assoc]
  exact .star (a ++ w) hu

/-! ### What a greedy matcher rests on -/

/-- **Earlier stars may be forgotten**: when the piece `m` after a star stands
for the word `w` and another star follows, the rest has to match from there. -/
theorem matches_star_forget {m : List (Tok α)} {w : List α} (hm : Agree m w)
    {p : List (Tok α)} {s : List α} :
    Matches (.star :: (m ++ .star :: p)) (w ++ s) ↔ Matches (.star :: p) s := by
  constructor
  · intro h
    obtain ⟨x, y, hxy, hy⟩ := matches_star_iff.mp h
    obtain ⟨v, t, rfl, hv, ht⟩ := (matches_append_iff hm).mp hy
    obtain ⟨z, u, rfl, hu⟩ := matches_star_iff.mp ht
    have hlen : w.length ≤ (x ++ v ++ z).length := by
      have := hm.length_eq
      have := hv.length_eq
      simp only [List.length_append]
      omega
    have hdrop : s = (x ++ v ++ z).drop w.length ++ u := by
      have h' := congrArg (List.drop w.length) hxy
      rw [List.drop_left, ← List.append_assoc, ← List.append_assoc,
        List.drop_append_of_le_length hlen] at h'
      exact h'
    rw [hdrop]
    exact .star _ hu
  · intro h
    exact .star [] (matches_append_agree hm h)

/-- A star that cannot stop before a letter absorbs it. -/
theorem matches_star_advance {q : List (Tok α)} {a : α} {s : List α}
    (h : ¬ Matches q (a :: s)) : Matches (.star :: q) (a :: s) ↔ Matches (.star :: q) s := by
  rw [matches_star_iff, matches_star_iff]
  constructor
  · rintro ⟨w, t, hw, ht⟩
    cases w with
    | nil => exact absurd (by rw [hw]; exact ht) h
    | cons b w =>
        rw [List.cons_append, List.cons.injEq] at hw
        exact ⟨w, t, hw.2, ht⟩
  · rintro ⟨w, t, rfl, ht⟩
    exact ⟨a :: w, t, rfl, ht⟩

/-- A piece that stands for a whole word leaves no letter for a further token. -/
theorem not_matches_star_short {m : List (Tok α)} {w : List α} (hm : Agree m w) {t : Tok α}
    (ht : t ≠ .star) (p : List (Tok α)) : ¬ Matches (.star :: (m ++ t :: p)) w := by
  intro h
  obtain ⟨x, y, hxy, hy⟩ := matches_star_iff.mp h
  obtain ⟨v, u, rfl, hv, hu⟩ := (matches_append_iff hm).mp hy
  obtain ⟨a, s, rfl, -, -⟩ := (matches_cons_iff ht).mp hu
  have hmw := hm.length_eq
  have hmv := hv.length_eq
  have hlen := congrArg List.length hxy
  simp only [List.length_append, List.length_cons] at hlen
  omega

/-- Skipping stars before the end of the word. -/
lemma matches_star_nil_iff {p : List (Tok α)} : Matches (.star :: p) [] ↔ Matches p [] := by
  rw [matches_star_iff]
  constructor
  · rintro ⟨w, t, hw, ht⟩
    rw [(List.append_eq_nil_iff.mp hw.symm).2] at ht
    exact ht
  · intro h
    exact ⟨[], [], rfl, h⟩

end Glob
