import Mathlib.Tactic

/-!
Programs that talk to an environment, and reasoning about what they say.

* `Prog` is a program: it returns, fails, or makes a call and goes on with the
  answer. `Prog.loop` repeats a program, up to a bound.
* `Runs env h p tr out`: the program `p`, after the events `h`, makes the calls
  and gets the answers of the trace `tr`. A run may stop short of its end.
* `play` runs a program against an environment that is a function.
* `wp env G p Q h`: after the events `h`, every call of `p` is one that the guard
  `G` allows at that point, and every result satisfies `Q`; `wp_sound` brings
  this to the runs, and `wp_waits` to a run that waits.
* `wp_bind`, `wp_mono`, `wp_loop`, `wp_of_stable`, `wp_of_only`: the rules.
* `threadTrace`: what one of several programs does in a common log of their
  events; `wp_sound_interleaved` brings `wp` to such logs.
-/

namespace Interaction

/-- A program that makes calls `c : C` with answers in `R c`. -/
inductive Prog (C : Type) (R : C → Type) (E α : Type) where
  | ret (a : α)
  | raise (e : E)
  | call (c : C) (k : R c → Prog C R E α)

/-- A call with its answer. -/
abbrev Event {C : Type} (R : C → Type) := Σ c, R c

/-- How far a run came: it returned, failed, or waits for an answer. -/
inductive Outcome (E α : Type) where
  | returned (a : α)
  | raised (e : E)
  | waiting
deriving DecidableEq

section Programs

variable {C : Type} {R : C → Type} {E α β : Type}

/-- One program after another. -/
def Prog.bind : Prog C R E α → (α → Prog C R E β) → Prog C R E β
  | .ret a, f => f a
  | .raise e, _ => .raise e
  | .call c k, f => .call c fun r => (k r).bind f

instance : Monad (Prog C R E) where
  pure := .ret
  bind := .bind

/-- The call `c` alone. -/
def ask (c : C) : Prog C R E (R c) := .call c .ret

/-- The `body` is repeated as long as it gives a next state, at most `fuel` times;
the failure `e` stands for a loop that goes on. -/
def Prog.loop {σ : Type} (e : E) (body : σ → Prog C R E (σ ⊕ α)) : ℕ → σ → Prog C R E α
  | 0, _ => .raise e
  | fuel + 1, s => (body s).bind fun
      | .inl s' => Prog.loop e body fuel s'
      | .inr a => .ret a

@[simp] lemma bind_eq (p : Prog C R E α) (f : α → Prog C R E β) : p >>= f = p.bind f := rfl

@[simp] lemma pure_eq (a : α) : (pure a : Prog C R E α) = .ret a := rfl

end Programs

section Runs

variable {C : Type} {R : C → Type} {E α β : Type} (env : List (Event R) → (c : C) → R c → Prop)

/-- The runs of a program after the events `h`, in an environment that answers
`c` by `r` when `env h c r`. -/
inductive Runs : List (Event R) → Prog C R E α → List (Event R) → Outcome E α → Prop
  | ret (h a) : Runs h (.ret a) [] (.returned a)
  | raise (h e) : Runs h (.raise e) [] (.raised e)
  | wait (h c k) : Runs h (.call c k) [] .waiting
  | call {h c k r tr out} (hr : env h c r) (hk : Runs (h ++ [⟨c, r⟩]) (k r) tr out) :
      Runs h (.call c k) (⟨c, r⟩ :: tr) out

/-- The run of a program against an environment that is a function. -/
def play (answer : List (Event R) → (c : C) → R c) :
    List (Event R) → Prog C R E α → List (Event R) × Outcome E α
  | _, .ret a => ([], .returned a)
  | _, .raise e => ([], .raised e)
  | h, .call c k =>
      let r := answer h c
      let rest := play answer (h ++ [⟨c, r⟩]) (k r)
      (⟨c, r⟩ :: rest.1, rest.2)

variable {env}

/-- The runs in an environment are runs in a more permissive one. -/
lemma Runs.mono {env' : List (Event R) → (c : C) → R c → Prop}
    (henv : ∀ h c r, env h c r → env' h c r) {h : List (Event R)} {p : Prog C R E α}
    {tr : List (Event R)} {out : Outcome E α} (hrun : Runs env h p tr out) :
    Runs env' h p tr out := by
  induction hrun with
  | ret h a => exact .ret h a
  | raise h e => exact .raise h e
  | wait h c k => exact .wait h c k
  | call hr _ ih => exact .call (henv _ _ _ hr) ih

lemma play_runs {answer : List (Event R) → (c : C) → R c} (hanswer : ∀ h c, env h c (answer h c))
    (h : List (Event R)) (p : Prog C R E α) :
    Runs env h p (play answer h p).1 (play answer h p).2 := by
  induction p generalizing h with
  | ret a => exact .ret h a
  | raise e => exact .raise h e
  | call c k ih => exact .call (hanswer h c) (ih _ _)

end Runs

section Reasoning

variable {C : Type} {R : C → Type} {E α β : Type} (env : List (Event R) → (c : C) → R c → Prop)
  (G : List (Event R) → C → Prop)

/-- Every call is allowed by the guard, and every result satisfies `Q`. -/
def wp : Prog C R E α → (α → List (Event R) → Prop) → List (Event R) → Prop
  | .ret a, Q, h => Q a h
  | .raise _, _, _ => True
  | .call c k, Q, h => G h c ∧ ∀ r, env h c r → wp (k r) Q (h ++ [⟨c, r⟩])

@[simp] lemma wp_ret (a : α) (Q : α → List (Event R) → Prop) (h : List (Event R)) :
    wp env G (.ret a : Prog C R E α) Q h ↔ Q a h := Iff.rfl

@[simp] lemma wp_raise (e : E) (Q : α → List (Event R) → Prop) (h : List (Event R)) :
    wp env G (.raise e : Prog C R E α) Q h := trivial

@[simp] lemma wp_call (c : C) (k : R c → Prog C R E α) (Q : α → List (Event R) → Prop)
    (h : List (Event R)) :
    wp env G (.call c k) Q h ↔ G h c ∧ ∀ r, env h c r → wp env G (k r) Q (h ++ [⟨c, r⟩]) := Iff.rfl

@[simp] lemma wp_ask (c : C) (Q : R c → List (Event R) → Prop) (h : List (Event R)) :
    wp env G (ask c : Prog C R E (R c)) Q h ↔ G h c ∧ ∀ r, env h c r → Q r (h ++ [⟨c, r⟩]) :=
  Iff.rfl

/-- **Sequence.** -/
@[simp] lemma wp_bind (p : Prog C R E α) (f : α → Prog C R E β) (Q : β → List (Event R) → Prop)
    (h : List (Event R)) :
    wp env G (p.bind f) Q h ↔ wp env G p (fun a => wp env G (f a) Q) h := by
  induction p generalizing h with
  | ret a => rfl
  | raise e => rfl
  | call c k ih => simp only [Prog.bind, wp_call, ih]

variable {env G}

/-- **Consequence.** -/
lemma wp_mono {p : Prog C R E α} {Q Q' : α → List (Event R) → Prop} {h : List (Event R)}
    (hp : wp env G p Q h) (hQ : ∀ a h', Q a h' → Q' a h') : wp env G p Q' h := by
  induction p generalizing h with
  | ret a => exact hQ a h hp
  | raise e => trivial
  | call c k ih => exact ⟨hp.1, fun r hr => ih r (hp.2 r hr)⟩

/-- **Loops.** An invariant of the state that every round keeps, and gives the
result when the round is the last. -/
lemma wp_loop {σ : Type} {e : E} {body : σ → Prog C R E (σ ⊕ α)} {I : σ → List (Event R) → Prop}
    {Q : α → List (Event R) → Prop}
    (hbody : ∀ s h, I s h → wp env G (body s) (fun x h' => x.elim (I · h') (Q · h')) h)
    (fuel : ℕ) {s : σ} {h : List (Event R)} (hI : I s h) :
    wp env G (Prog.loop e body fuel s) Q h := by
  induction fuel generalizing s h with
  | zero => trivial
  | succ fuel ih =>
      rw [Prog.loop, wp_bind]
      refine wp_mono (hbody s h hI) ?_
      intro x h' hx
      cases x with
      | inl s' => exact ih hx
      | inr a => exact hx

/-- **Stable guards.** Where the events so far allow every call, and more events
do not change that, there is nothing to show of the program. -/
lemma wp_of_stable {I : List (Event R) → Prop} (hG : ∀ h c, I h → G h c)
    (hstep : ∀ h c r, I h → I (h ++ [⟨c, r⟩])) (p : Prog C R E α) {h : List (Event R)} (hI : I h) :
    wp env G p (fun _ => I) h := by
  induction p generalizing h with
  | ret a => exact hI
  | raise e => trivial
  | call c k ih => exact ⟨hG h c hI, fun r _ => ih r (hstep h c r hI)⟩

/-- The program makes calls of the class `K` only. -/
def Only (K : C → Prop) : Prog C R E α → Prop
  | .ret _ => True
  | .raise _ => True
  | .call c k => K c ∧ ∀ r, Only K (k r)

lemma only_ask {K : C → Prop} {c : C} (hc : K c) : Only K (ask c : Prog C R E (R c)) :=
  ⟨hc, fun _ => trivial⟩

lemma only_bind {K : C → Prop} {p : Prog C R E α} {f : α → Prog C R E β} (hp : Only K p)
    (hf : ∀ a, Only K (f a)) : Only K (p.bind f) := by
  induction p with
  | ret a => exact hf a
  | raise e => trivial
  | call c k ih => exact ⟨hp.1, fun r => ih r (hp.2 r)⟩

lemma only_loop {K : C → Prop} {σ : Type} {e : E} {body : σ → Prog C R E (σ ⊕ α)}
    (hbody : ∀ s, Only K (body s)) (fuel : ℕ) (s : σ) : Only K (Prog.loop e body fuel s) := by
  induction fuel generalizing s with
  | zero => trivial
  | succ fuel ih =>
      refine only_bind (hbody s) ?_
      intro x
      cases x with
      | inl s' => exact ih s'
      | inr a => trivial

lemma only_mono {K K' : C → Prop} {p : Prog C R E α} (hp : Only K p) (h : ∀ c, K c → K' c) :
    Only K' p := by
  induction p with
  | ret a => trivial
  | raise e => trivial
  | call c k ih => exact ⟨h c hp.1, fun r => ih r (hp.2 r)⟩

/-- **Classes of calls.** A program that makes calls of one class only, all of
them allowed, keeps what these calls keep. -/
lemma wp_of_only {K : C → Prop} {I : List (Event R) → Prop}
    (hG : ∀ h c, K c → I h → G h c) (hstep : ∀ h c r, K c → I h → I (h ++ [⟨c, r⟩]))
    {p : Prog C R E α} (hp : Only K p) {h : List (Event R)} (hI : I h) :
    wp env G p (fun _ => I) h := by
  induction p generalizing h with
  | ret a => exact hI
  | raise e => trivial
  | call c k ih => exact ⟨hG h c hp.1 hI, fun r _ => ih r (hp.2 r) (hstep h c r hp.1 hI)⟩

/-- **Soundness.** In every run each call is one that the guard allows after the
events before it, and a result satisfies the postcondition. -/
theorem wp_sound {p : Prog C R E α} {Q : α → List (Event R) → Prop} {h tr : List (Event R)}
    {out : Outcome E α} (hp : wp env G p Q h) (hrun : Runs env h p tr out) :
    (∀ pre c r post, tr = pre ++ ⟨c, r⟩ :: post → G (h ++ pre) c) ∧
      ∀ a, out = .returned a → Q a (h ++ tr) := by
  induction hrun with
  | ret h a =>
      refine ⟨fun pre c r post htr => by simp at htr, ?_⟩
      intro b hb
      cases hb
      rwa [List.append_nil]
  | raise h e => exact ⟨fun pre c r post htr => by simp at htr, fun b hb => by simp at hb⟩
  | wait h c k => exact ⟨fun pre c r post htr => by simp at htr, fun b hb => by simp at hb⟩
  | @call h c k r tr out hr hk ih =>
      obtain ⟨hguard, hres⟩ := ih (hp.2 r hr)
      refine ⟨fun pre c' r' post htr => ?_, fun a ha => ?_⟩
      · cases pre with
        | nil =>
            rw [List.nil_append, List.cons.injEq] at htr
            cases htr.1
            rw [List.append_nil]
            exact hp.1
        | cons e pre =>
            rw [List.cons_append, List.cons.injEq] at htr
            rw [← htr.1, List.append_cons]
            exact hguard pre c' r' post htr.2
      · have hq := hres a ha
        rwa [List.append_assoc] at hq

/-- A run that waits for an answer waits after a call that the guard allows. -/
lemma wp_waits {p : Prog C R E α} {Q : α → List (Event R) → Prop} {h tr : List (Event R)}
    (hp : wp env G p Q h) (hrun : Runs env h p tr .waiting) : ∃ c, G (h ++ tr) c := by
  generalize hout : (Outcome.waiting : Outcome E α) = out at hrun
  induction hrun with
  | ret h a => cases hout
  | raise h e => cases hout
  | wait h c k =>
      rw [List.append_nil]
      exact ⟨c, hp.1⟩
  | @call h c k r tr out hr _ ih =>
      obtain ⟨c', hc'⟩ := ih (hp.2 r hr) hout
      rw [List.append_assoc] at hc'
      exact ⟨c', hc'⟩

/-! ### Interleavings -/

variable {ι : Type} [DecidableEq ι]

/-- What the program `i` does in a log of the events of several programs. -/
def threadTrace (i : ι) (log : List (ι × Event R)) : List (Event R) :=
  (log.filter fun x => x.1 = i).map Prod.snd

@[simp] lemma threadTrace_append (i : ι) (log log' : List (ι × Event R)) :
    threadTrace i (log ++ log') = threadTrace i log ++ threadTrace i log' := by
  simp [threadTrace]

@[simp] lemma threadTrace_cons_self (i : ι) (e : Event R) (log : List (ι × Event R)) :
    threadTrace i ((i, e) :: log) = e :: threadTrace i log := by
  simp [threadTrace]

lemma threadTrace_tag_self (i : ι) (tr : List (Event R)) :
    threadTrace i (tr.map (Prod.mk i)) = tr := by
  simp [threadTrace, List.filter_map, Function.comp_def]

lemma threadTrace_tag_other {i j : ι} (hij : j ≠ i) (tr : List (Event R)) :
    threadTrace i (tr.map (Prod.mk j)) = [] := by
  rw [threadTrace, List.map_eq_nil_iff, List.filter_eq_nil_iff]
  intro x hx
  obtain ⟨e, _, rfl⟩ := List.mem_map.mp hx
  simpa using hij

/-- **Soundness for interleavings.** Where a program makes a run of its own among
others, each of its calls is one that the guard allows after what it did before. -/
theorem wp_sound_interleaved {p : Prog C R E α} {Q : α → List (Event R) → Prop}
    (hp : wp env G p Q []) {pre post : List (ι × Event R)} {i : ι} {c : C} {r : R c}
    {out : Outcome E α} (hrun : Runs env [] p (threadTrace i (pre ++ (i, ⟨c, r⟩) :: post)) out) :
    G (threadTrace i pre) c := by
  rw [threadTrace_append, threadTrace_cons_self] at hrun
  exact (wp_sound hp hrun).1 _ c r _ rfl

end Reasoning

end Interaction
