import ProxyMax.Lib.Machine

/-!
Noninterference of a machine: what one party sees of its own inputs does not depend on the
inputs of the others.

* `Unwinding`: a view of the state that the inputs of others leave alone, and that determines
  what an own input answers and what becomes of the view.
* `Unwinding.purge`: a run, and the run of the own inputs alone, answer these the same.
-/

namespace Machine

variable {σ ι ο V O : Type*} (step : σ → ι → Option (ο × σ))

/-- The inputs that satisfy `own` are answered from the view alone, as far as `seen` shows, and
the others leave the view. -/
structure Unwinding (own : ι → Bool) (view : σ → V) (seen : ο → O) : Prop where
  /-- The input of another party. -/
  other : ∀ {s s' i o}, step s i = some (o, s') → own i = false → view s' = view s
  /-- An own input, in two states that look the same. -/
  same : ∀ {s t s' i o}, step s i = some (o, s') → own i = true → view s = view t →
    ∃ o' t', step t i = some (o', t') ∧ seen o = seen o' ∧ view s' = view t'

/-- What is seen of a log. -/
def observed (own : ι → Bool) (seen : ο → O) (log : List (ι × ο)) : List (ι × O) :=
  (log.filter fun e => own e.1).map fun e => (e.1, seen e.2)

section Observed

variable (own : ι → Bool) (seen : ο → O) (log : List (ι × ο)) (i : ι) (o : ο)

lemma observed_cons_own (h : own i = true) :
    observed own seen ((i, o) :: log) = (i, seen o) :: observed own seen log := by
  simp [observed, h]

lemma observed_cons_other (h : own i = false) :
    observed own seen ((i, o) :: log) = observed own seen log := by
  simp [observed, h]

end Observed

/-- **Unwinding.** The own inputs of a run, made alone, are answered as they are in the run. -/
theorem Unwinding.purge {own : ι → Bool} {view : σ → V} {seen : ο → O}
    (h : Unwinding step own view seen) {s s' t : σ} {is : List ι} {log : List (ι × ο)}
    (hex : exec step s is = some (log, s')) (hview : view s = view t) :
    ∃ log' t', exec step t (is.filter own) = some (log', t') ∧
      observed own seen log = (log'.map fun e => (e.1, seen e.2)) ∧ view s' = view t' := by
  induction is generalizing s t log with
  | nil =>
      rw [exec_nil, Option.some.injEq, Prod.mk.injEq] at hex
      obtain ⟨rfl, rfl⟩ := hex
      exact ⟨[], t, rfl, rfl, hview⟩
  | cons i is ih =>
      obtain ⟨o, s₁, log₁, hs, hrest, rfl⟩ := exec_cons step hex
      cases hown : own i with
      | false =>
          obtain ⟨log', t', ht, hlog, hlast⟩ := ih hrest ((h.other hs hown).trans hview)
          refine ⟨log', t', ?_, ?_, hlast⟩
          · rwa [List.filter_cons_of_neg (by simp [hown])]
          · rwa [observed_cons_other _ _ _ _ _ hown]
      | true =>
          obtain ⟨o', t₁, ht₁, hseen, hview₁⟩ := h.same hs hown hview
          obtain ⟨log', t', ht, hlog, hlast⟩ := ih hrest hview₁
          refine ⟨(i, o') :: log', t', ?_, ?_, hlast⟩
          · rw [List.filter_cons_of_pos hown, exec, ht₁, Option.bind_some, ht, Option.map_some]
          · rw [observed_cons_own _ _ _ _ _ hown, hseen, hlog, List.map_cons]

end Machine
