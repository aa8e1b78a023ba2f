import ProxyMax.Lib.Interaction

/-!
Loops of programs: where their rounds begin, and when they come to an end.

* `Heads env body s₀ h₀ s h`: the loop, begun in `s₀` after the events `h₀`, comes
  to the beginning of a round in `s` after the events `h`.
* `heads_invariant`: what every round keeps holds whenever a round begins.
* `Ends env F p Q h`: after the events `h`, the failures of the program `p` are among
  `F`, and its results satisfy `Q`; `ends_loop` is the rule of loops, with a bound on
  the rounds that are left.
* `exists_run`: in an environment that always answers, a program has a run.
* `Until env K W p Q h`: after the events `h`, the program `p` comes to a call of the
  class `K` with `W`, or to a result with `Q` without such a call.
* `Fails F p h`: after the events `h`, every failure of the program `p` is, with the
  events before it, one of `F`.
-/

namespace Interaction

variable {C : Type} {R : C → Type} {E α β σ : Type}

/-! ### The rounds of a loop -/

section Rounds

variable (env : List (Event R) → (c : C) → R c → Prop)

/-- The state and the events at the beginning of a round. -/
inductive Heads (body : σ → Prog C R E (σ ⊕ α)) (s₀ : σ) (h₀ : List (Event R)) :
    σ → List (Event R) → Prop
  | start : Heads body s₀ h₀ s₀ h₀
  | round {s h s' tr} (hs : Heads body s₀ h₀ s h)
      (hrun : Runs env h (body s) tr (.returned (.inl s'))) : Heads body s₀ h₀ s' (h ++ tr)

variable {env}

/-- **An invariant of the rounds** holds at the beginning of each. -/
lemma heads_invariant {G : List (Event R) → C → Prop} {body : σ → Prog C R E (σ ⊕ α)}
    {I : σ → List (Event R) → Prop} {Q : α → List (Event R) → Prop}
    (hbody : ∀ s h, I s h → wp env G (body s) (fun x h' => x.elim (I · h') (Q · h')) h)
    {s₀ s : σ} {h₀ h : List (Event R)} (hI : I s₀ h₀) (hs : Heads env body s₀ h₀ s h) : I s h := by
  induction hs with
  | start => exact hI
  | round _ hrun ih => exact (wp_sound (hbody _ _ ih) hrun).2 _ rfl

end Rounds

/-! ### Programs that end -/

section Ending

variable (env : List (Event R) → (c : C) → R c → Prop) (F : E → Prop)

/-- Every failure is one of `F`, and every result satisfies `Q`. -/
def Ends : Prog C R E α → (α → List (Event R) → Prop) → List (Event R) → Prop
  | .ret a, Q, h => Q a h
  | .raise e, _, _ => F e
  | .call c k, Q, h => ∀ r, env h c r → Ends (k r) Q (h ++ [⟨c, r⟩])

@[simp] lemma ends_ret (a : α) (Q : α → List (Event R) → Prop) (h : List (Event R)) :
    Ends env F (.ret a : Prog C R E α) Q h ↔ Q a h := Iff.rfl

@[simp] lemma ends_ask (c : C) (Q : R c → List (Event R) → Prop) (h : List (Event R)) :
    Ends env F (ask c : Prog C R E (R c)) Q h ↔ ∀ r, env h c r → Q r (h ++ [⟨c, r⟩]) := Iff.rfl

/-- **Sequence.** -/
@[simp] lemma ends_bind (p : Prog C R E α) (f : α → Prog C R E β)
    (Q : β → List (Event R) → Prop) (h : List (Event R)) :
    Ends env F (p.bind f) Q h ↔ Ends env F p (fun a => Ends env F (f a) Q) h := by
  induction p generalizing h with
  | ret a => rfl
  | raise e => rfl
  | call c k ih => simp only [Prog.bind, Ends, ih]

variable {env F}

/-- **Consequence.** -/
lemma ends_mono {p : Prog C R E α} {Q Q' : α → List (Event R) → Prop} {h : List (Event R)}
    (hp : Ends env F p Q h) (hQ : ∀ a h', Q a h' → Q' a h') : Ends env F p Q' h := by
  induction p generalizing h with
  | ret a => exact hQ a h hp
  | raise e => exact hp
  | call c k ih => exact fun r hr => ih r (hp r hr)

/-- What every event keeps holds of the results. -/
lemma ends_of_stable {I : List (Event R) → Prop} (hstep : ∀ h c r, I h → I (h ++ [⟨c, r⟩]))
    (p : Prog C R E α) {h : List (Event R)} (hI : I h) :
    Ends env (fun _ => True) p (fun _ => I) h := by
  induction p generalizing h with
  | ret a => exact hI
  | raise e => trivial
  | call c k ih => exact fun r _ => ih r (hstep h c r hI)

/-- **Loops.** An invariant that every round keeps, while the number of rounds that
can follow decreases. -/
lemma ends_loop {e : E} {body : σ → Prog C R E (σ ⊕ α)} {I : ℕ → σ → List (Event R) → Prop}
    {Q : α → List (Event R) → Prop}
    (hbody : ∀ n s h, I n s h → Ends env F (body s)
      (fun x h' => x.elim (fun s' => ∃ m, m < n ∧ I m s' h') (Q · h')) h)
    {fuel n : ℕ} (hn : n < fuel) {s : σ} {h : List (Event R)} (hI : I n s h) :
    Ends env F (Prog.loop e body fuel s) Q h := by
  induction fuel generalizing n s h with
  | zero => omega
  | succ fuel ih =>
      rw [Prog.loop, ends_bind]
      refine ends_mono (hbody n s h hI) ?_
      intro x h' hx
      cases x with
      | inl s' =>
          obtain ⟨m, hm, hI'⟩ := hx
          exact ih (by omega) hI'
      | inr a => exact hx

/-- **Loops that may go on.** An invariant that every round keeps is enough when the
failure of a loop is one of `F`. -/
lemma ends_loop_of_fails {e : E} (hF : F e) {body : σ → Prog C R E (σ ⊕ α)}
    {I : σ → List (Event R) → Prop} {Q : α → List (Event R) → Prop}
    (hbody : ∀ s h, I s h → Ends env F (body s) (fun x h' => x.elim (I · h') (Q · h')) h)
    (fuel : ℕ) {s : σ} {h : List (Event R)} (hI : I s h) :
    Ends env F (Prog.loop e body fuel s) Q h := by
  induction fuel generalizing s h with
  | zero => exact hF
  | succ fuel ih =>
      rw [Prog.loop, ends_bind]
      refine ends_mono (hbody s h hI) ?_
      intro x h' hx
      cases x with
      | inl s' => exact ih hx
      | inr a => exact hx

/-- **Soundness.** -/
theorem ends_sound {p : Prog C R E α} {Q : α → List (Event R) → Prop} {h tr : List (Event R)}
    {out : Outcome E α} (hp : Ends env F p Q h) (hrun : Runs env h p tr out) :
    (∀ e, out = .raised e → F e) ∧ ∀ a, out = .returned a → Q a (h ++ tr) := by
  induction hrun with
  | ret h a =>
      refine ⟨fun e he => by simp at he, fun b hb => ?_⟩
      cases hb
      rwa [List.append_nil]
  | raise h e =>
      refine ⟨fun e' he => ?_, fun b hb => by simp at hb⟩
      cases he
      exact hp
  | wait h c k => exact ⟨fun e he => by simp at he, fun b hb => by simp at hb⟩
  | @call h c k r tr out hr hk ih =>
      obtain ⟨hraise, hres⟩ := ih (hp r hr)
      refine ⟨hraise, fun a ha => ?_⟩
      have hq := hres a ha
      rwa [List.append_assoc] at hq

/-- In an environment that always has an answer a program comes to an end. -/
lemma exists_run (henv : ∀ h c, ∃ r, env h c r) (p : Prog C R E α) (h : List (Event R)) :
    ∃ tr out, Runs env h p tr out ∧ out ≠ .waiting := by
  induction p generalizing h with
  | ret a => exact ⟨[], _, .ret h a, by simp⟩
  | raise e => exact ⟨[], _, .raise h e, by simp⟩
  | call c k ih =>
      obtain ⟨r, hr⟩ := henv h c
      obtain ⟨tr, out, hrun, hout⟩ := ih r (h ++ [⟨c, r⟩])
      exact ⟨_, out, .call hr hrun, hout⟩

/-- A program that does not fail has a run that returns. -/
lemma exists_returned (henv : ∀ h c, ∃ r, env h c r) {p : Prog C R E α}
    {Q : α → List (Event R) → Prop} {h : List (Event R)}
    (hp : Ends env (fun _ => False) p Q h) :
    ∃ tr a, Runs env h p tr (.returned a) ∧ Q a (h ++ tr) := by
  obtain ⟨tr, out, hrun, hout⟩ := exists_run henv p h
  obtain ⟨hraise, hres⟩ := ends_sound hp hrun
  cases out with
  | returned a => exact ⟨tr, a, hrun, hres a rfl⟩
  | raised e => exact (hraise e rfl).elim
  | waiting => exact absurd rfl hout

end Ending

/-! ### Programs up to a call -/

section Until

variable (env : List (Event R) → (c : C) → R c → Prop) (K : C → Prop) (W : List (Event R) → Prop)

/-- Up to its first call of the class `K` the program does not fail, and it makes that call
after events with `W`; if it makes none, the result satisfies `Q`. -/
def Until : Prog C R E α → (α → List (Event R) → Prop) → List (Event R) → Prop
  | .ret a, Q, h => Q a h
  | .raise _, _, _ => False
  | .call c k, Q, h => (K c → W h) ∧ (¬ K c → ∀ r, env h c r → Until (k r) Q (h ++ [⟨c, r⟩]))

variable {env K W}

/-- **A call of the class** comes first. -/
lemma until_call_of {c : C} (hc : K c) (k : R c → Prog C R E α)
    {Q : α → List (Event R) → Prop} {h : List (Event R)} (hW : W h) :
    Until env K W (.call c k) Q h := ⟨fun _ => hW, fun hnot => absurd hc hnot⟩

/-- A call outside the class. -/
lemma until_ask {c : C} (hc : ¬ K c) {Q : R c → List (Event R) → Prop} {h : List (Event R)}
    (hQ : ∀ r, env h c r → Q r (h ++ [⟨c, r⟩])) :
    Until env K W (ask c : Prog C R E (R c)) Q h := ⟨fun hin => absurd hin hc, fun _ => hQ⟩

/-- **Consequence.** -/
lemma until_mono {p : Prog C R E α} {Q Q' : α → List (Event R) → Prop} {h : List (Event R)}
    (hp : Until env K W p Q h) (hQ : ∀ a h', Q a h' → Q' a h') : Until env K W p Q' h := by
  induction p generalizing h with
  | ret a => exact hQ a h hp
  | raise e => exact hp
  | call c k ih => exact ⟨hp.1, fun hc r hr => ih r (hp.2 hc r hr)⟩

/-- **Sequence.** -/
lemma until_bind {p : Prog C R E α} {f : α → Prog C R E β} {Q : β → List (Event R) → Prop}
    {h : List (Event R)} (hp : Until env K W p (fun a => Until env K W (f a) Q) h) :
    Until env K W (p.bind f) Q h := by
  induction p generalizing h with
  | ret a => exact hp
  | raise e => exact hp
  | call c k ih => exact ⟨hp.1, fun hc r hr => ih r (hp.2 hc r hr)⟩

/-- A program without failures that makes no call of the class. -/
lemma until_of_ends {p : Prog C R E α} {Q : α → List (Event R) → Prop} {h : List (Event R)}
    (hp : Ends env (fun _ => False) p Q h) (honly : Only (fun c => ¬ K c) p) :
    Until env K W p Q h := by
  induction p generalizing h with
  | ret a => exact hp
  | raise e => exact hp
  | call c k ih =>
      exact ⟨fun hc => absurd hc honly.1, fun _ r hr => ih r (hp r hr) (honly.2 r)⟩

/-- **Soundness.** A run that comes to a call of the class does so after events with `W`; any
other run does not fail, and its result satisfies `Q`. -/
theorem until_sound {p : Prog C R E α} {Q : α → List (Event R) → Prop} {h tr : List (Event R)}
    {out : Outcome E α} (hp : Until env K W p Q h) (hrun : Runs env h p tr out) :
    (∃ pre c r post, tr = pre ++ ⟨c, r⟩ :: post ∧ (∀ e ∈ pre, ¬ K e.1) ∧ K c ∧ W (h ++ pre)) ∨
      (∀ e ∈ tr, ¬ K e.1) ∧ (∀ e, out ≠ .raised e) ∧ ∀ a, out = .returned a → Q a (h ++ tr) := by
  induction hrun with
  | ret h a =>
      refine .inr ⟨by simp, by simp, fun b hb => ?_⟩
      cases hb
      rwa [List.append_nil]
  | raise h e => exact hp.elim
  | wait h c k => exact .inr ⟨by simp, by simp, by simp⟩
  | @call h c k r tr out hr hk ih =>
      by_cases hc : K c
      · exact .inl ⟨[], c, r, tr, rfl, by simp, hc, by simpa using hp.1 hc⟩
      · rcases ih (hp.2 hc r hr) with ⟨pre, c', r', post, rfl, hpre, hc', hW⟩ | ⟨htr, hraise, hres⟩
        · refine .inl ⟨⟨c, r⟩ :: pre, c', r', post, rfl, ?_, hc', ?_⟩
          · exact List.forall_mem_cons.mpr ⟨hc, hpre⟩
          · rwa [List.append_assoc] at hW
        · refine .inr ⟨List.forall_mem_cons.mpr ⟨hc, htr⟩, hraise, fun a ha => ?_⟩
          have hq := hres a ha
          rwa [List.append_assoc] at hq

end Until

/-! ### Failures and the events before them -/

section Failing

variable {F : E → List (Event R) → Prop}

/-- Every failure is, with the events before it, one of `F`. -/
def Fails (F : E → List (Event R) → Prop) : Prog C R E α → List (Event R) → Prop
  | .ret _, _ => True
  | .raise e, h => F e h
  | .call c k, h => ∀ r, Fails F (k r) (h ++ [⟨c, r⟩])

lemma fails_bind {p : Prog C R E α} {f : α → Prog C R E β} {h : List (Event R)}
    (hp : Fails F p h) (hf : ∀ a tr, Fails F (f a) (h ++ tr)) : Fails F (p.bind f) h := by
  induction p generalizing h with
  | ret a => simpa [Prog.bind] using hf a []
  | raise e => exact hp
  | call c k ih =>
      intro r
      refine ih r (hp r) fun a tr => ?_
      rw [List.append_assoc]
      exact hf a _

/-- A loop that may go on for too long. -/
lemma fails_loop {e : E} (he : ∀ h, F e h) {body : σ → Prog C R E (σ ⊕ α)}
    (hbody : ∀ s h, Fails F (body s) h) (fuel : ℕ) (s : σ) (h : List (Event R)) :
    Fails F (Prog.loop e body fuel s) h := by
  induction fuel generalizing s h with
  | zero => exact he h
  | succ fuel ih =>
      refine fails_bind (hbody s h) fun x tr => ?_
      cases x with
      | inl s' => exact ih s' _
      | inr a => trivial

/-- Where the events so far allow every failure, and more events do not change
that, there is nothing to show of the program. -/
lemma fails_of_stable {I : List (Event R) → Prop} (hF : ∀ e h, I h → F e h)
    (hstep : ∀ h c r, I h → I (h ++ [⟨c, r⟩])) (p : Prog C R E α) {h : List (Event R)} (hI : I h) :
    Fails F p h := by
  induction p generalizing h with
  | ret a => trivial
  | raise e => exact hF e h hI
  | call c k ih => exact fun r => ih r (hstep h c r hI)

theorem fails_sound {env : List (Event R) → (c : C) → R c → Prop} {p : Prog C R E α}
    {h tr : List (Event R)} {e : E} (hp : Fails F p h) (hrun : Runs env h p tr (.raised e)) :
    F e (h ++ tr) := by
  induction tr generalizing p h with
  | nil =>
      cases hrun with
      | raise => rwa [List.append_nil]
  | cons event tr ih =>
      cases hrun with
      | @call _ c k r _ _ _ hk =>
          rw [List.append_cons]
          exact ih (hp r) hk

/-- What is known of the results and of the failures, together. -/
lemma ends_of_wp {env : List (Event R) → (c : C) → R c → Prop} {G : List (Event R) → C → Prop}
    {F : E → Prop} {p : Prog C R E α} {Q : α → List (Event R) → Prop} {h : List (Event R)}
    (hp : wp env G p Q h) (hfail : Fails (fun e _ => F e) p h) : Ends env F p Q h := by
  induction p generalizing h with
  | ret a => exact hp
  | raise e => exact hfail
  | call c k ih => exact fun r hr => ih r (hp.2 r hr) (hfail r)

lemma wp_of_ends {env : List (Event R) → (c : C) → R c → Prop} {F : E → Prop}
    {p : Prog C R E α} {Q : α → List (Event R) → Prop} {h : List (Event R)}
    (hp : Ends env F p Q h) : wp env (fun _ _ => True) p Q h := by
  induction p generalizing h with
  | ret a => exact hp
  | raise e => trivial
  | call c k ih => exact ⟨trivial, fun r hr => ih r (hp r hr)⟩

end Failing

end Interaction
