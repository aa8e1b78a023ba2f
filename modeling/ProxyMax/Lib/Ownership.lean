import ProxyMax.Lib.Interaction

/-!
Resources that a program gets from its environment and gives back.

* `Discipline`: what an event gains, what it gives back, and what a call needs.
* `held`: what the events so far leave in hand; `Discipline.Sound` is the guard that a
  call needs nothing else, and so gives nothing back that is not in hand.
* `Discipline.Extends`: more is gained, which no call of the program takes up; `held_extends`:
  it stays in hand.
* `Owns D env p P Q`: with `P` in hand besides anything else, every call of `p` is sound,
  and its results leave `Q` in hand besides the same; `owns_acquire`, `owns_use`,
  `owns_release`, `owns_bind`, `owns_frame` and `owns_loop` are the rules.
* `owns_sound`: in every run everything gained is given back, once, or still in hand;
  `owns_sound_extends` is the same where more is gained.
* `Prog.expand`: the calls of a program carried out by programs; `wp_expand` and `owns_expand`
  are the rules.
-/

namespace Ownership

open Interaction

variable {C : Type} {R : C → Type} {E α β σ H : Type}

/-- What an event gains and gives back, and what a call needs. -/
structure Discipline (R : C → Type) (H : Type) where
  gains : (c : C) → R c → Multiset H
  gives : (c : C) → R c → Multiset H
  needs : C → Multiset H
  gives_le : ∀ c r, gives c r ≤ needs c

section Accounts

variable [DecidableEq H] (D : Discipline R H)

/-- What is in hand after one event more. -/
def Discipline.after (m : Multiset H) (e : Event R) : Multiset H :=
  m - D.gives e.1 e.2 + D.gains e.1 e.2

/-- What is in hand after the events, from what was there at first. -/
def Discipline.held (start : Multiset H) (h : List (Event R)) : Multiset H := h.foldl D.after start

/-- The call needs nothing that is not in hand. -/
def Discipline.Sound (start : Multiset H) (h : List (Event R)) (c : C) : Prop :=
  D.needs c ≤ D.held start h

/-- Everything that was gained. -/
def Discipline.gained (h : List (Event R)) : Multiset H := (h.map fun e => D.gains e.1 e.2).sum

/-- Everything that was given back. -/
def Discipline.given (h : List (Event R)) : Multiset H := (h.map fun e => D.gives e.1 e.2).sum

variable (start : Multiset H)

lemma held_snoc (h : List (Event R)) (e : Event R) :
    D.held start (h ++ [e]) = D.held start h - D.gives e.1 e.2 + D.gains e.1 e.2 := by
  rw [Discipline.held, List.foldl_append]
  rfl

/-- **The balance.** Where every call was sound, what was there at first or gained was given
back or is in hand. -/
lemma balance {h : List (Event R)}
    (hsound : ∀ pre c r post, h = pre ++ ⟨c, r⟩ :: post → D.Sound start pre c) :
    start + D.gained h = D.given h + D.held start h := by
  induction h using List.reverseRecOn with
  | nil => simp [Discipline.gained, Discipline.given, Discipline.held]
  | append_singleton h e ih =>
      obtain ⟨c, r⟩ := e
      have hold := ih fun pre c' r' post hh =>
        hsound pre c' r' (post ++ [⟨c, r⟩]) (by simp [hh])
      have hle : D.gives c r ≤ D.held start h := (D.gives_le c r).trans (hsound h c r [] rfl)
      have hgained : D.gained (h ++ [⟨c, r⟩]) = D.gained h + D.gains c r := by
        simp [Discipline.gained]
      have hgiven : D.given (h ++ [⟨c, r⟩]) = D.given h + D.gives c r := by
        simp [Discipline.given]
      calc start + D.gained (h ++ [⟨c, r⟩])
          = D.given h + D.held start h + D.gains c r := by rw [hgained, ← add_assoc, hold]
        _ = D.given h + (D.gives c r + (D.held start h - D.gives c r)) + D.gains c r := by
            rw [add_tsub_cancel_of_le hle]
        _ = D.given (h ++ [⟨c, r⟩]) + D.held start (h ++ [⟨c, r⟩]) := by
            rw [hgiven, held_snoc]
            simp only [add_assoc]

/-- The discipline `D'` is `D` with `extra` gained besides. -/
structure Discipline.Extends (D' D : Discipline R H) (extra : (c : C) → R c → Multiset H) :
    Prop where
  gains : ∀ c r, D'.gains c r = D.gains c r + extra c r
  gives : ∀ c r, D'.gives c r = D.gives c r
  needs : ∀ c, D'.needs c = D.needs c

/-- Everything that was gained besides. -/
def besides (extra : (c : C) → R c → Multiset H) (h : List (Event R)) : Multiset H :=
  (h.map fun e => extra e.1 e.2).sum

variable {D} {D' : Discipline R H} {extra : (c : C) → R c → Multiset H} {start}

/-- **The step.** A call that is sound without what was gained besides leaves that in hand. -/
lemma held_extends_snoc (hD : D'.Extends D extra) {h : List (Event R)} {c : C}
    (hheld : D'.held start h = D.held start h + besides extra h) (hc : D.Sound start h c)
    (r : R c) :
    D'.held start (h ++ [⟨c, r⟩]) =
      D.held start (h ++ [⟨c, r⟩]) + besides extra (h ++ [⟨c, r⟩]) := by
  have hle : D.gives c r ≤ D.held start h := (D.gives_le c r).trans hc
  have hbesides : besides extra (h ++ [⟨c, r⟩]) = besides extra h + extra c r := by
    simp [besides]
  rw [held_snoc, held_snoc, hD.gains, hD.gives, hheld, hbesides]
  calc D.held start h + besides extra h - D.gives c r + (D.gains c r + extra c r)
      = D.held start h - D.gives c r + besides extra h + (D.gains c r + extra c r) := by
        rw [tsub_add_eq_add_tsub hle]
    _ = D.held start h - D.gives c r + D.gains c r + (besides extra h + extra c r) :=
        add_add_add_comm ..

/-- **What is gained besides stays in hand**, where every call is sound without it. -/
lemma held_extends (hD : D'.Extends D extra) {h : List (Event R)}
    (hsound : ∀ pre c r post, h = pre ++ ⟨c, r⟩ :: post → D.Sound start pre c) :
    D'.held start h = D.held start h + besides extra h := by
  induction h using List.reverseRecOn with
  | nil => exact (add_zero start).symm
  | append_singleton h e ih =>
      refine held_extends_snoc hD (ih fun pre c r post hh => ?_) (hsound h e.1 e.2 [] rfl) e.2
      exact hsound pre c r (post ++ [e]) (by simp [hh])

end Accounts

/-! ### Programs and what they own -/

section Rules

variable [DecidableEq H] {D : Discipline R H} {env : List (Event R) → (c : C) → R c → Prop}

/-- With `P` in hand besides anything else, every call of the program is sound, and its
results leave `Q` in hand besides the same. -/
def Owns (D : Discipline R H) (env : List (Event R) → (c : C) → R c → Prop) (p : Prog C R E α)
    (P : Multiset H) (Q : α → Multiset H) : Prop :=
  ∀ start h base, D.held start h = base + P →
    wp env (D.Sound start) p (fun a h' => D.held start h' = base + Q a) h

lemma owns_ret {a : α} {P : Multiset H} {Q : α → Multiset H} (h : P = Q a) :
    Owns D env (.ret a : Prog C R E α) P Q := by
  intro start h' base hheld
  rw [wp_ret, ← h]
  exact hheld

lemma owns_raise {e : E} {P : Multiset H} {Q : α → Multiset H} :
    Owns D env (.raise e : Prog C R E α) P Q :=
  fun _ _ _ _ => trivial

/-- **Sequence.** -/
lemma owns_bind {p : Prog C R E α} {f : α → Prog C R E β} {P : Multiset H} {Q : α → Multiset H}
    {Q' : β → Multiset H} (hp : Owns D env p P Q) (hf : ∀ a, Owns D env (f a) (Q a) Q') :
    Owns D env (p.bind f) P Q' := by
  intro start h base hheld
  rw [wp_bind]
  exact wp_mono (hp start h base hheld) fun a h' ha => hf a start h' base ha

/-- Every result is of the kind `K`. -/
def Returns (K : α → Prop) : Prog C R E α → Prop
  | .ret a => K a
  | .raise _ => True
  | .call _ k => ∀ r, Returns K (k r)

lemma returns_bind {K : β → Prop} {p : Prog C R E α} {f : α → Prog C R E β}
    (hf : ∀ a, Returns K (f a)) : Returns K (p.bind f) := by
  induction p with
  | ret a => exact hf a
  | raise e => trivial
  | call c k ih => exact fun r => ih r

lemma wp_returns {G : List (Event R) → C → Prop} {K : α → Prop} {p : Prog C R E α}
    {Q : α → List (Event R) → Prop} {h : List (Event R)} (hp : wp env G p Q h)
    (hK : Returns K p) : wp env G p (fun a h' => Q a h' ∧ K a) h := by
  induction p generalizing h with
  | ret a => exact ⟨hp, hK⟩
  | raise e => trivial
  | call c k ih => exact ⟨hp.1, fun r hr => ih r (hp.2 r hr) (hK r)⟩

/-- **Sequence**, where the kind of the first result matters. -/
lemma owns_bind_returns {K : α → Prop} {p : Prog C R E α} {f : α → Prog C R E β}
    {P : Multiset H} {Q : α → Multiset H} {Q' : β → Multiset H} (hp : Owns D env p P Q)
    (hK : Returns K p) (hf : ∀ a, K a → Owns D env (f a) (Q a) Q') :
    Owns D env (p.bind f) P Q' := by
  intro start h base hheld
  rw [wp_bind]
  refine wp_mono (wp_returns (hp start h base hheld) hK) ?_
  rintro a h' ⟨ha, hKa⟩
  exact hf a hKa start h' base ha

/-- **Frame.** What is not touched is in hand before and after. -/
lemma owns_frame {p : Prog C R E α} {P : Multiset H} {Q : α → Multiset H}
    (hp : Owns D env p P Q) (F : Multiset H) :
    Owns D env p (F + P) fun a => F + Q a := by
  intro start h base hheld
  rw [← add_assoc] at hheld
  exact wp_mono (hp start h (base + F) hheld) fun a h' ha => by rw [ha, add_assoc]

/-- What a program spends is gone, and nothing else. -/
lemma owns_spend {p : Prog C R E α} {P : Multiset H} (F : Multiset H)
    (hp : Owns D env p P fun _ => 0) : Owns D env p (F + P) fun _ => F := by
  intro start h base hheld
  refine wp_mono (owns_frame hp F start h base hheld) fun a h' ha => ?_
  rw [ha, add_zero]

/-- **A call.** What it needs is in hand, and what it gives back is taken from there. -/
lemma owns_call {c : C} {f : R c → Prog C R E α} {P : Multiset H} {Q : α → Multiset H}
    (hneeds : D.needs c ≤ P)
    (hf : ∀ h r, env h c r → Owns D env (f r) (P - D.gives c r + D.gains c r) Q) :
    Owns D env ((ask c).bind f) P Q := by
  intro start h base hheld
  refine ⟨?_, fun r hr => hf h r hr start _ base ?_⟩
  · rw [Discipline.Sound, hheld]
    exact hneeds.trans (Multiset.le_add_left ..)
  · have hle : D.gives c r ≤ P := (D.gives_le c r).trans hneeds
    rw [held_snoc, hheld]
    calc base + P - D.gives c r + D.gains c r
        = base + (P - D.gives c r) + D.gains c r := by rw [add_tsub_assoc_of_le hle]
      _ = base + (P - D.gives c r + D.gains c r) := add_assoc ..

/-- A call that gives nothing back. -/
lemma owns_acquire {c : C} {f : R c → Prog C R E α} {P : Multiset H} {Q : α → Multiset H}
    (hneeds : D.needs c ≤ P) (hgives : ∀ r, D.gives c r = 0)
    (hf : ∀ h r, env h c r → Owns D env (f r) (P + D.gains c r) Q) :
    Owns D env ((ask c).bind f) P Q := by
  refine owns_call hneeds fun h r hr => ?_
  rw [hgives, tsub_zero]
  exact hf h r hr

/-- A call that gains nothing and gives nothing back. -/
lemma owns_use {c : C} {f : R c → Prog C R E α} {P : Multiset H} {Q : α → Multiset H}
    (hneeds : D.needs c ≤ P) (hgives : ∀ r, D.gives c r = 0) (hgains : ∀ r, D.gains c r = 0)
    (hf : ∀ h r, env h c r → Owns D env (f r) P Q) :
    Owns D env ((ask c).bind f) P Q := by
  refine owns_acquire hneeds hgives fun h r hr => ?_
  rw [hgains, add_zero]
  exact hf h r hr

/-- A call that gives back what it needs. -/
lemma owns_release {c : C} {f : R c → Prog C R E α} {P : Multiset H} {Q : α → Multiset H}
    (hgives : ∀ r, D.gives c r = D.needs c) (hgains : ∀ r, D.gains c r = 0)
    (hf : ∀ h r, env h c r → Owns D env (f r) P Q) :
    Owns D env ((ask c).bind f) (P + D.needs c) Q := by
  refine owns_call (Multiset.le_add_left ..) fun h r hr => ?_
  rw [hgives, hgains, add_tsub_cancel_right, add_zero]
  exact hf h r hr

/-- **Loops.** -/
lemma owns_loop {e : E} {body : σ → Prog C R E (σ ⊕ α)} {I : σ → Multiset H} {Q : α → Multiset H}
    (hbody : ∀ s, Owns D env (body s) (I s) (Sum.elim I Q)) (fuel : ℕ) (s : σ) :
    Owns D env (Prog.loop e body fuel s) (I s) Q := by
  intro start h base hheld
  refine wp_loop (I := fun s h' => D.held start h' = base + I s) ?_ fuel hheld
  intro s' h' hs'
  refine wp_mono (hbody s' start h' base hs') fun x h'' hx => ?_
  cases x with
  | inl s'' => exact hx
  | inr a => exact hx

/-- **Soundness.** In every run that starts with `P` in hand each call needs only what is in
hand, and a result leaves in hand what was there or gained and was not given back. -/
theorem owns_sound {p : Prog C R E α} {P : Multiset H} {Q : α → Multiset H}
    (hp : Owns D env p P Q) {tr : List (Event R)} {out : Outcome E α}
    (hrun : Runs env [] p tr out) :
    (∀ pre c r post, tr = pre ++ ⟨c, r⟩ :: post → D.Sound P pre c) ∧
      P + D.gained tr = D.given tr + D.held P tr ∧
      ∀ a, out = .returned a → D.held P tr = Q a := by
  obtain ⟨hguard, hres⟩ := wp_sound (hp P [] 0 (by simp [Discipline.held])) hrun
  have hsound : ∀ pre c r post, tr = pre ++ ⟨c, r⟩ :: post → D.Sound P pre c := by
    simpa using hguard
  refine ⟨hsound, balance D P hsound, fun a ha => ?_⟩
  simpa using hres a ha

/-- **Soundness**, where more is gained than the program takes up: that is in hand at the end. -/
theorem owns_sound_extends {D' : Discipline R H} {extra : (c : C) → R c → Multiset H}
    (hD : D'.Extends D extra) {p : Prog C R E α} {P : Multiset H} {Q : α → Multiset H}
    (hp : Owns D env p P Q) {tr : List (Event R)} {out : Outcome E α}
    (hrun : Runs env [] p tr out) :
    (∀ pre c r post, tr = pre ++ ⟨c, r⟩ :: post → D'.Sound P pre c) ∧
      P + D'.gained tr = D'.given tr + D'.held P tr ∧
      ∀ a, out = .returned a → D'.held P tr = Q a + besides extra tr := by
  obtain ⟨hsound, -, hres⟩ := owns_sound hp hrun
  have hsound' : ∀ pre c r post, tr = pre ++ ⟨c, r⟩ :: post → D'.Sound P pre c := by
    intro pre c r post htr
    have hpre : D'.held P pre = D.held P pre + besides extra pre :=
      held_extends hD fun pre' c' r' post' hpre' =>
        hsound pre' c' r' (post' ++ ⟨c, r⟩ :: post) (by simp [htr, hpre'])
    rw [Discipline.Sound, hD.needs, hpre]
    exact (hsound pre c r post htr).trans (Multiset.le_add_right ..)
  refine ⟨hsound', balance D' P hsound', fun a ha => ?_⟩
  rw [held_extends hD hsound, hres a ha]

end Rules

/-! ### Calls that are carried out by programs -/

section Expansion

variable {C' : Type} {R' : C' → Type}

/-- Each call is carried out by a program, which may look at a state that the calls change. -/
def Prog.expand (f : σ → (c : C) → Prog C' R' E (R c)) (next : σ → Event R → σ) :
    Prog C R E α → σ → Prog C' R' E α
  | .ret a, _ => .ret a
  | .raise e, _ => .raise e
  | .call c k, s => (f s c).bind fun r => Prog.expand f next (k r) (next s ⟨c, r⟩)

variable {f : σ → (c : C) → Prog C' R' E (R c)} {next : σ → Event R → σ}

/-- **Expansion.** Where the programs that carry out the calls keep a relation between the
events of both levels, what holds of a program holds of it when it is carried out. -/
lemma wp_expand {env : List (Event R) → (c : C) → R c → Prop} {G : List (Event R) → C → Prop}
    {env' : List (Event R') → (c : C') → R' c → Prop} {G' : List (Event R') → C' → Prop}
    {J : List (Event R') → σ → List (Event R) → Prop}
    (hf : ∀ c h' s h, J h' s h → G h c →
      wp env' G' (f s c)
        (fun r h'' => env h c r ∧ J h'' (next s ⟨c, r⟩) (h ++ [⟨c, r⟩])) h')
    {p : Prog C R E α} {Q : α → List (Event R) → Prop} {h : List (Event R)}
    {h' : List (Event R')} {s : σ} (hp : wp env G p Q h) (hrel : J h' s h) :
    wp env' G' (Prog.expand f next p s) (fun a h'' => ∃ s₁ h₁, J h'' s₁ h₁ ∧ Q a h₁) h' := by
  induction p generalizing h h' s with
  | ret a => exact ⟨s, h, hrel, hp⟩
  | raise e => trivial
  | call c k ih =>
      rw [Prog.expand, wp_bind]
      refine wp_mono (hf c h' s h hrel hp.1) ?_
      rintro r h'' ⟨henv, hrel'⟩
      exact ih r (hp.2 r henv) hrel'

/-- What is in hand follows the state, when each call keeps to that. -/
lemma owns_expand [DecidableEq H] {D : Discipline R' H}
    {env' : List (Event R') → (c : C') → R' c → Prop} {G : List (Event R) → C → Prop}
    {T : List (Event R) → σ} {S : σ → Multiset H}
    (hstate : ∀ h e, T (h ++ [e]) = next (T h) e)
    (hf : ∀ h c, G h c →
      Owns D env' (f (T h) c) (S (T h)) fun r => S (next (T h) ⟨c, r⟩))
    {p : Prog C R E α} {Q : α → Multiset H}
    (hp : wp (fun _ _ _ => True) G p (fun a h => S (T h) = Q a) []) :
    Owns D env' (Prog.expand f next p (T [])) (S (T [])) Q := by
  intro start h' base hheld
  refine wp_mono (wp_expand
    (J := fun h' s h => s = T h ∧ D.held start h' = base + S s) ?_ hp ⟨rfl, hheld⟩) ?_
  · rintro c h' s h ⟨rfl, hs⟩ hG
    refine wp_mono (hf h c hG start h' base hs) fun r h'' hr => ?_
    exact ⟨trivial, (hstate h _).symm, hr⟩
  · rintro a h'' ⟨s, h, ⟨rfl, hs⟩, hQ⟩
    rw [hs, hQ]

end Expansion

end Ownership
