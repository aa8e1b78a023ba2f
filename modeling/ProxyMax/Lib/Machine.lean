import Mathlib.Tactic

/-!
Machines that answer calls: a state, a step that may fail to return, and the
runs it makes on lists of inputs.

* `exec step s is` plays the inputs `is` from `s` and returns the log of
  answered inputs with the last state, or `none` once a step does not return.
* `exec_cons`, `exec_append`, `exec_snoc`, `exec_split`: a run is cut at any point.
* `exec_preserves` carries an invariant of the state along a run, and `exec_keeps`
  one of log and state; `Along` says that all steps of a run meet a condition.
* `exec_invariant` is the induction rule: a property of log and state that
  holds at the start and is kept by every step along the inputs holds at the
  end, and every step returns.
* `Reach` is reachability along a given list of inputs.
* `Matches` compares the results of two machines, and `exec_simulates` carries a simulation from
  steps to runs.
* `forall₂_split` is for logs of the same run that two parties keep.
-/

namespace Machine

variable {σ ι ο : Type*} (step : σ → ι → Option (ο × σ))

/-- The run of a machine: the answered inputs in order and the last state. -/
def exec : σ → List ι → Option (List (ι × ο) × σ)
  | s, [] => some ([], s)
  | s, i :: is =>
      (step s i).bind fun r =>
        (exec r.2 is).map fun q => ((i, r.1) :: q.1, q.2)

@[simp] lemma exec_nil (s : σ) : exec step s [] = some ([], s) := rfl

/-- The first step of a run. -/
lemma exec_cons {s s' : σ} {i : ι} {is : List ι} {log : List (ι × ο)}
    (h : exec step s (i :: is) = some (log, s')) :
    ∃ o s₁ log', step s i = some (o, s₁) ∧ exec step s₁ is = some (log', s') ∧
      log = (i, o) :: log' := by
  simp only [exec, Option.bind_eq_some_iff, Option.map_eq_some_iff] at h
  obtain ⟨⟨o, s₁⟩, hs, ⟨log', s''⟩, hq, he⟩ := h
  simp only [Prod.mk.injEq] at he
  exact ⟨o, s₁, log', hs, he.2 ▸ hq, he.1.symm⟩

/-- A run is cut at any point. -/
lemma exec_append (s : σ) (is js : List ι) :
    exec step s (is ++ js) =
      (exec step s is).bind fun r =>
        (exec step r.2 js).map fun q => (r.1 ++ q.1, q.2) := by
  induction is generalizing s with
  | nil => simp
  | cons i is ih =>
      simp only [List.cons_append, exec]
      cases hs : step s i with
      | none => simp
      | some r =>
          simp only [Option.bind_some, ih]
          cases exec step r.2 is <;> simp [Function.comp_def]

/-- The last step of a run. -/
lemma exec_snoc {s s' : σ} {is : List ι} {log : List (ι × ο)}
    (h : exec step s is = some (log, s')) (i : ι) :
    exec step s (is ++ [i]) = (step s' i).map fun r => (log ++ [(i, r.1)], r.2) := by
  rw [exec_append, h]
  cases hs : step s' i <;> simp [exec, hs]

/-- The last step of a run that comes to its end. -/
lemma exec_snoc_eq_some {s s' : σ} {is : List ι} {i : ι} {log : List (ι × ο)}
    (h : exec step s (is ++ [i]) = some (log, s')) :
    ∃ log' s₁ o, exec step s is = some (log', s₁) ∧ step s₁ i = some (o, s') ∧
      log = log' ++ [(i, o)] := by
  cases hex : exec step s is with
  | none => simp [exec_append, hex] at h
  | some r =>
      rw [exec_snoc step hex, Option.map_eq_some_iff] at h
      obtain ⟨⟨o, s₂⟩, hs, he⟩ := h
      simp only [Prod.mk.injEq] at he
      exact ⟨r.1, r.2, o, rfl, he.2 ▸ hs, he.1.symm⟩

/-- The log lists the inputs in order. -/
lemma exec_inputs {s s' : σ} {is : List ι} {log : List (ι × ο)}
    (h : exec step s is = some (log, s')) : log.map Prod.fst = is := by
  induction is generalizing s s' log with
  | nil =>
      simp only [exec_nil, Option.some.injEq, Prod.mk.injEq] at h
      simp [← h.1]
  | cons i is ih =>
      obtain ⟨o, s₁, log', -, hq, rfl⟩ := exec_cons step h
      rw [List.map_cons, ih hq]

/-- A run is taken apart at an entry of its log. -/
lemma exec_split {s s' : σ} {is : List ι} {pre post : List (ι × ο)} {i : ι} {o : ο}
    (h : exec step s is = some (pre ++ (i, o) :: post, s')) :
    ∃ s₁ s₂, exec step s (pre.map Prod.fst) = some (pre, s₁) ∧ step s₁ i = some (o, s₂) ∧
      exec step s₂ (post.map Prod.fst) = some (post, s') := by
  have hin := exec_inputs step h
  rw [← hin, List.map_append, List.map_cons] at h
  induction pre generalizing s is with
  | nil =>
      simp only [List.map_nil, List.nil_append, exec, Option.bind_eq_some_iff,
        Option.map_eq_some_iff] at h
      obtain ⟨⟨o', s₂⟩, hs, ⟨q, s''⟩, hq, he⟩ := h
      simp only [Prod.mk.injEq, List.cons.injEq, true_and] at he
      obtain ⟨⟨rfl, rfl⟩, rfl⟩ := he
      exact ⟨s, s₂, rfl, hs, hq⟩
  | cons x pre ih =>
      simp only [List.map_cons, List.cons_append, exec, Option.bind_eq_some_iff,
        Option.map_eq_some_iff] at h
      obtain ⟨⟨o', t⟩, hs, ⟨q, s''⟩, hq, he⟩ := h
      simp only [Prod.mk.injEq, List.cons.injEq] at he
      obtain ⟨⟨hx, rfl⟩, rfl⟩ := he
      obtain ⟨s₁, s₂, h₁, h₂, h₃⟩ := ih hq (exec_inputs step hq)
      refine ⟨s₁, s₂, ?_, h₂, h₃⟩
      rw [← hx] at hs ⊢
      simp [exec, hs, h₁]

/-- **The induction rule of runs.** A property of log and state that holds at
the start and that every step along the inputs keeps, returning as it does,
holds at the end of the run. -/
theorem exec_invariant (s₀ : σ) {P : List (ι × ο) → σ → Prop} (is : List ι)
    (h₀ : P [] s₀)
    (hstep : ∀ log s i, log.map Prod.fst ++ [i] <+: is → P log s →
      ∃ o s', step s i = some (o, s') ∧ P (log ++ [(i, o)]) s') :
    ∃ log s, exec step s₀ is = some (log, s) ∧ P log s := by
  induction is using List.reverseRecOn with
  | nil => exact ⟨[], s₀, rfl, h₀⟩
  | append_singleton is i ih =>
      obtain ⟨log, s, hex, hP⟩ := ih fun log s j hpre hP =>
        hstep log s j (hpre.trans (List.prefix_append _ _)) hP
      have hin := exec_inputs step hex
      obtain ⟨o, s', hs, hP'⟩ := hstep log s i (by rw [hin]) hP
      exact ⟨_, s', by rw [exec_snoc step hex, hs]; rfl, hP'⟩

/-- A property of the state that every step keeps is kept by a run. -/
lemma exec_preserves {P : σ → Prop} (hstep : ∀ s i o s', step s i = some (o, s') → P s → P s')
    {s s' : σ} {is : List ι} {log : List (ι × ο)} (h : exec step s is = some (log, s'))
    (h₀ : P s) : P s' := by
  induction is generalizing s log with
  | nil =>
      rw [exec_nil, Option.some.injEq, Prod.mk.injEq] at h
      exact h.2 ▸ h₀
  | cons i is ih =>
      obtain ⟨o, s₁, log', hs, hq, -⟩ := exec_cons step h
      exact ih hq (hstep s i o s₁ hs h₀)

/-- A property of log and state that holds at the start and that every step of a
run keeps holds at its end. -/
theorem exec_keeps {P : List (ι × ο) → σ → Prop} {s₀ s : σ} {is : List ι}
    {log : List (ι × ο)}
    (hstep : ∀ log s i o s', exec step s₀ (log.map Prod.fst) = some (log, s) → P log s →
      step s i = some (o, s') → P (log ++ [(i, o)]) s')
    (h₀ : P [] s₀) (h : exec step s₀ is = some (log, s)) : P log s := by
  induction is using List.reverseRecOn generalizing log s with
  | nil =>
      rw [exec_nil, Option.some.injEq, Prod.mk.injEq] at h
      obtain ⟨rfl, rfl⟩ := h
      exact h₀
  | append_singleton is i ih =>
      obtain ⟨log', s₁, o, hex, hs, rfl⟩ := exec_snoc_eq_some step h
      have hin := exec_inputs step hex
      exact hstep log' s₁ i o s (hin.symm ▸ hex) (ih hex) hs

/-- Every step of the run on `is` from `s` is made in a state and on an input that
meet `K`. -/
def Along (K : σ → ι → Prop) : σ → List ι → Prop
  | _, [] => True
  | s, i :: is => K s i ∧ ∀ o s', step s i = some (o, s') → Along K s' is

instance Along.decidable (K : σ → ι → Prop) [∀ s i, Decidable (K s i)] :
    ∀ s is, Decidable (Along step K s is)
  | _, [] => isTrue trivial
  | s, i :: is =>
      match h : step s i with
      | none => decidable_of_iff (K s i) (by simp [Along, h])
      | some (_, s') =>
          have := Along.decidable K s' is
          decidable_of_iff (K s i ∧ Along step K s' is) (by simp [Along, h])

lemma along_append (K : σ → ι → Prop) {s s' : σ} {is : List ι} {log : List (ι × ο)}
    (h : exec step s is = some (log, s')) (js : List ι) :
    Along step K s (is ++ js) ↔ Along step K s is ∧ Along step K s' js := by
  induction is generalizing s log with
  | nil =>
      rw [exec_nil, Option.some.injEq, Prod.mk.injEq] at h
      simp [Along, h.2]
  | cons i is ih =>
      obtain ⟨o, s₁, log', hs, hq, -⟩ := exec_cons step h
      simp only [List.cons_append, Along, hs, Option.some.injEq, Prod.mk.injEq]
      constructor
      · rintro ⟨hi, hrest⟩
        have hrest := (ih hq).mp (hrest o s₁ ⟨rfl, rfl⟩)
        refine ⟨⟨hi, ?_⟩, hrest.2⟩
        rintro _ _ ⟨rfl, rfl⟩
        exact hrest.1
      · rintro ⟨⟨hi, his⟩, hjs⟩
        refine ⟨hi, ?_⟩
        rintro _ _ ⟨rfl, rfl⟩
        exact (ih hq).mpr ⟨his o s₁ ⟨rfl, rfl⟩, hjs⟩

lemma along_snoc (K : σ → ι → Prop) {s s' : σ} {is : List ι} {log : List (ι × ο)}
    (h : exec step s is = some (log, s')) (i : ι) :
    Along step K s (is ++ [i]) ↔ Along step K s is ∧ K s' i := by
  rw [along_append step K h]
  simp [Along]

/-- The state `s` is reached from `s₀` by the inputs `is`. -/
def Reach (s₀ : σ) (is : List ι) (s : σ) : Prop :=
  ∃ log, exec step s₀ is = some (log, s)

/-! ### Simulation -/

section Simulation

variable {σ₁ σ₂ ι₁ ι₂ ο₁ ο₂ : Type*}

/-- The results of two machines match: neither returns, or both do, with the answer of the first
carried over and their states related. -/
inductive Matches (answer : ο₁ → ο₂) (R : σ₁ → σ₂ → Prop) :
    Option (ο₁ × σ₁) → Option (ο₂ × σ₂) → Prop
  | fails : Matches answer R none none
  | returns {o : ο₁} {o' : ο₂} {s : σ₁} {t : σ₂} (ho : answer o = o') (h : R s t) :
      Matches answer R (some (o, s)) (some (o', t))

/-- **The simulation rule.** Where each step of the first machine has a matching one of the second,
each run has. -/
theorem exec_simulates {step₁ : σ₁ → ι₁ → Option (ο₁ × σ₁)} {step₂ : σ₂ → ι₂ → Option (ο₂ × σ₂)}
    {input : ι₁ → ι₂} {answer : ο₁ → ο₂} {R : σ₁ → σ₂ → Prop}
    (hstep : ∀ s t i, R s t → Matches answer R (step₁ s i) (step₂ t (input i)))
    {s : σ₁} {t : σ₂} (h : R s t) (is : List ι₁) :
    Matches (List.map (Prod.map input answer)) R (exec step₁ s is)
      (exec step₂ t (is.map input)) := by
  induction is generalizing s t with
  | nil => exact .returns rfl h
  | cons i is ih =>
      rw [List.map_cons, exec, exec]
      have hi := hstep s t i h
      generalize step₁ s i = r₁ at hi ⊢
      generalize step₂ t (input i) = r₂ at hi ⊢
      cases hi with
      | fails => exact .fails
      | @returns o o' s' t' ho h' =>
          have hrest := ih h'
          rw [Option.bind_some, Option.bind_some]
          generalize exec step₁ s' is = q₁ at hrest ⊢
          generalize exec step₂ t' (is.map input) = q₂ at hrest ⊢
          cases hrest with
          | fails => exact .fails
          | returns hlog h'' =>
              subst ho hlog
              exact .returns rfl h''

end Simulation

/-! ### Two logs of one run -/

/-- Logs that agree entry by entry are taken apart at the same place. -/
lemma forall₂_split {α β : Type*} {R : α → β → Prop} {pre post : List α} {a : α} {bs : List β}
    (h : List.Forall₂ R (pre ++ a :: post) bs) :
    ∃ pre' b post', bs = pre' ++ b :: post' ∧ List.Forall₂ R pre pre' ∧ R a b := by
  induction pre generalizing bs with
  | nil =>
      obtain ⟨b, post', hab, -, rfl⟩ := List.forall₂_cons_left_iff.mp h
      exact ⟨[], b, post', rfl, .nil, hab⟩
  | cons x pre ih =>
      obtain ⟨y, bs', hxy, hrest, rfl⟩ := List.forall₂_cons_left_iff.mp h
      obtain ⟨pre', b, post', rfl, hpre, hab⟩ := ih hrest
      exact ⟨y :: pre', b, post', rfl, .cons hxy hpre, hab⟩

end Machine
