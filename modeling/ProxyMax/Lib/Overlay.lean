import Mathlib.Data.List.Basic
import Mathlib.Data.Option.Basic

/-!
Settings that are written one after another, the last write winning.

* `Record S V T`: a type of records `S` with the fields `V k`, and a part `T` that is
  never written.
* `Record.assign`: the record after a list of assignments; `lastValue` is what the list
  gives to a field, and `get_assign` what the record holds then.
* `assign_eq_iff`, `assign_before_iff`: when two lists of assignments leave the same
  record, and when assignments may be made before others that they should override.
* `assign_between_iff`: when assignments between others make no difference.
* `lastValue_of_forall`: a list that gives a field one value only.
-/

namespace Overlay

variable {K : Type} {V : K → Type} {S T : Type}

/-- Records with fields that can be read and written, which with the rest of the record
determine it. -/
structure Record (S : Type) (V : K → Type) (T : Type) where
  get : S → (k : K) → V k
  set : (k : K) → V k → S → S
  rest : S → T
  get_set_self : ∀ k v s, get (set k v s) k = v
  get_set_ne : ∀ k v s k', k' ≠ k → get (set k v s) k' = get s k'
  rest_set : ∀ k v s, rest (set k v s) = rest s
  ext : ∀ s s', rest s = rest s' → (∀ k, get s k = get s' k) → s = s'

/-- A field with a value for it. -/
abbrev Assignment (V : K → Type) := Σ k, V k

namespace Record

variable (rec : Record S V T)

/-- The record after the assignments. -/
def assign (as : List (Assignment V)) (s : S) : S := as.foldl (fun s a => rec.set a.1 a.2 s) s

@[simp] lemma assign_nil (s : S) : rec.assign [] s = s := rfl

@[simp] lemma assign_cons (a : Assignment V) (as : List (Assignment V)) (s : S) :
    rec.assign (a :: as) s = rec.assign as (rec.set a.1 a.2 s) := rfl

@[simp] lemma assign_append (as bs : List (Assignment V)) (s : S) :
    rec.assign (as ++ bs) s = rec.assign bs (rec.assign as s) := List.foldl_append ..

lemma rest_assign (as : List (Assignment V)) (s : S) : rec.rest (rec.assign as s) = rec.rest s := by
  induction as generalizing s with
  | nil => rfl
  | cons a as ih => rw [assign_cons, ih, rec.rest_set]

end Record

section LastValue

variable [DecidableEq K]

/-- The value in an assignment, if it is one of the field. -/
def valueFor (k : K) (a : Assignment V) : Option (V k) :=
  if h : a.1 = k then some (h ▸ a.2) else none

/-- The value that the last of the assignments to a field gives it, if there is one. -/
def lastValue (k : K) : List (Assignment V) → Option (V k)
  | [] => none
  | a :: as => (lastValue k as).or (valueFor k a)

lemma valueFor_self (k : K) (v : V k) : valueFor k ⟨k, v⟩ = some v := by simp [valueFor]

lemma valueFor_ne {k k' : K} (h : k' ≠ k) (v : V k') : valueFor k ⟨k', v⟩ = none := by
  simp [valueFor, h]

@[simp] lemma lastValue_append (k : K) (as bs : List (Assignment V)) :
    lastValue k (as ++ bs) = (lastValue k bs).or (lastValue k as) := by
  induction as with
  | nil => simp [lastValue]
  | cons a as ih => rw [List.cons_append, lastValue, ih, lastValue, Option.or_assoc]

/-- **What a field holds** after the assignments. -/
lemma get_assign (rec : Record S V T) (as : List (Assignment V)) (s : S) (k : K) :
    rec.get (rec.assign as s) k = (lastValue k as).getD (rec.get s k) := by
  induction as generalizing s with
  | nil => rfl
  | cons a as ih =>
      obtain ⟨k', v⟩ := a
      rw [Record.assign_cons, ih, lastValue, Option.getD_or]
      by_cases hk : k = k'
      · subst hk
        rw [rec.get_set_self, valueFor_self, Option.getD_some]
      · rw [rec.get_set_ne _ _ _ _ hk, valueFor_ne (Ne.symm hk), Option.getD_none]

/-- Two lists of assignments leave the same record when they leave the same fields. -/
lemma assign_eq_iff (rec : Record S V T) (as bs : List (Assignment V)) (s : S) :
    rec.assign as s = rec.assign bs s ↔
      ∀ k, (lastValue k as).getD (rec.get s k) = (lastValue k bs).getD (rec.get s k) := by
  simp only [← get_assign rec]
  constructor
  · intro h k
    rw [h]
  · intro h
    exact rec.ext _ _ (by rw [rec.rest_assign, rec.rest_assign]) h

/-- **Assignments that come too early.** Some of the assignments that should follow `file`
are made before it, the others are not made: this does not matter exactly when each field
that they give a value holds it nevertheless. -/
theorem assign_before_iff (rec : Record S V T) (before file after : List (Assignment V)) (s : S) :
    rec.assign (before ++ file) s = rec.assign (file ++ (before ++ after)) s ↔
      ∀ k v, lastValue k (before ++ after) = some v →
        v = (lastValue k file).getD ((lastValue k before).getD (rec.get s k)) := by
  rw [assign_eq_iff]
  refine forall_congr' fun k => ?_
  rw [lastValue_append, lastValue_append k file, Option.getD_or, Option.getD_or]
  cases hlast : lastValue k (before ++ after) with
  | some v => simp [eq_comm]
  | none =>
      rw [lastValue_append, Option.or_eq_none_iff] at hlast
      simp [hlast.2]

lemma valueFor_eq_some {k : K} {v : V k} {a : Assignment V} :
    valueFor k a = some v ↔ a = ⟨k, v⟩ := by
  obtain ⟨k', w⟩ := a
  by_cases hk : k' = k
  · subst hk
    simp [valueFor_self]
  · rw [valueFor_ne hk]
    refine iff_of_false (by simp) fun h => hk ?_
    rw [Sigma.mk.injEq] at h
    exact h.1

/-- A value that is given last is given. -/
lemma mem_of_lastValue {as : List (Assignment V)} {k : K} {v : V k}
    (h : lastValue k as = some v) : ⟨k, v⟩ ∈ as := by
  induction as with
  | nil => cases h
  | cons a as ih =>
      rw [lastValue, Option.or_eq_some_iff] at h
      rcases h with h | ⟨-, h⟩
      · exact List.mem_cons_of_mem _ (ih h)
      · rw [valueFor_eq_some.mp h]
        exact List.mem_cons_self

lemma lastValue_eq_none_iff {as : List (Assignment V)} {k : K} :
    lastValue k as = none ↔ ∀ v, ⟨k, v⟩ ∉ as := by
  constructor
  · intro h v hmem
    obtain ⟨as₁, as₂, rfl⟩ := List.append_of_mem hmem
    rw [lastValue_append, lastValue, valueFor_self] at h
    simp at h
  · intro h
    cases hlast : lastValue k as with
    | none => rfl
    | some v => exact absurd (mem_of_lastValue hlast) (h v)

/-- **Assignments in between.** They make no difference, whatever the record was, exactly
when each field that they give a value is given one after them, or had this one before. -/
theorem assign_between_iff [Nonempty S] (rec : Record S V T)
    (hother : ∀ k (v : V k), ∃ w, w ≠ v) (before between after : List (Assignment V)) :
    (∀ s, rec.assign (before ++ between ++ after) s = rec.assign (before ++ after) s) ↔
      ∀ k v, lastValue k between = some v →
        lastValue k after ≠ none ∨ lastValue k before = some v := by
  simp only [assign_eq_iff, lastValue_append]
  constructor
  · intro h k v hbetween
    by_contra! hno
    obtain ⟨hafter, hbefore⟩ := hno
    obtain ⟨s⟩ := ‹Nonempty S›
    cases hlast : lastValue k before with
    | some u =>
        have hget := h s k
        rw [hafter, hbetween, hlast] at hget
        rw [hlast] at hbefore
        exact hbefore (congrArg some hget.symm)
    | none =>
        obtain ⟨w, hw⟩ := hother k v
        have hget := h (rec.set k w s) k
        rw [hafter, hbetween, hlast, rec.get_set_self] at hget
        exact hw hget.symm
  · intro h s k
    cases hbetween : lastValue k between with
    | none => rfl
    | some v =>
        rcases h k v hbetween with hafter | hbefore
        · obtain ⟨u, hu⟩ := Option.ne_none_iff_exists'.mp hafter
          rw [hu]
          rfl
        · rw [hbefore]
          rfl

/-- A list that gives a field one value only. -/
lemma lastValue_of_forall {as : List (Assignment V)} {k : K} {v : V k} (hmem : ⟨k, v⟩ ∈ as)
    (hall : ∀ w, ⟨k, w⟩ ∈ as → w = v) : lastValue k as = some v := by
  cases hlast : lastValue k as with
  | none => exact absurd hmem (lastValue_eq_none_iff.mp hlast v)
  | some w => rw [hall w (mem_of_lastValue hlast)]

end LastValue

end Overlay
