import ProxyMax.Lib.Rounds

/-!
Programs on their way, one event at a time.

* `Prog.next`: the call that a program waits in after some events; `next_bind` is the rule
  of sequences, and `Runs.next` what it says of the runs.
* `Thread`: what a program did so far, and what is left of it; `Thread.advance` is
  an event more.
* `Thread.Meets env G Q t`: what is left of the thread meets `Q`; `Meets.advance`
  keeps it along the events.
* `Thread.Yields env K t a`: the thread returns `a` when all further events are
  of the kind `K`.
* `wp_frame`: what every event keeps holds of the results too.
* `sum_map_set`: a list of threads in which one is replaced.
-/

namespace Interaction

variable {C : Type} {R : C → Type} {E α : Type}

/-- A program on its way. -/
structure Thread (R : C → Type) (E α : Type) where
  trace : List (Event R)
  rest : Prog C R E α

/-- The program before its first call. -/
def Thread.start (p : Prog C R E α) : Thread R E α := ⟨[], p⟩

/-- The call that the thread waits in is answered; there is no step where it waits in
another one. -/
def Thread.advance [DecidableEq C] (t : Thread R E α) (e : Event R) : Option (Thread R E α) :=
  match t.rest with
  | .ret _ => none
  | .raise _ => none
  | .call c k => if h : e.1 = c then some ⟨t.trace ++ [e], k (h ▸ e.2)⟩ else none

/-! ### The next call -/

/-- The call that the program waits in after the events, if these are events of its own. -/
def Prog.next [DecidableEq C] : Prog C R E α → List (Event R) → Option C
  | .ret _, _ => none
  | .raise _, _ => none
  | .call c _, [] => some c
  | .call c k, e :: tr => if h : e.1 = c then (k (h ▸ e.2)).next tr else none

section Next

variable {β : Type} [DecidableEq C]

@[simp] lemma next_ret (a : α) (tr : List (Event R)) : (.ret a : Prog C R E α).next tr = none := by
  cases tr <;> rfl

@[simp] lemma next_call_nil (c : C) (k : R c → Prog C R E α) :
    (Prog.call c k).next [] = some c := rfl

@[simp] lemma next_call_cons (c : C) (k : R c → Prog C R E α) (r : R c) (tr : List (Event R)) :
    (Prog.call c k).next (⟨c, r⟩ :: tr) = (k r).next tr := by
  rw [Prog.next, dif_pos rfl]

/-- After a program that has returned, the next call is one of the program that follows. -/
lemma next_bind {env : List (Event R) → (c : C) → R c → Prop} {p : Prog C R E α}
    {h tr : List (Event R)} {a : α} (hrun : Runs env h p tr (.returned a))
    (f : α → Prog C R E β) (tr' : List (Event R)) :
    (p.bind f).next (tr ++ tr') = (f a).next tr' := by
  generalize hout : Outcome.returned a = out at hrun
  induction hrun with
  | ret h b =>
      cases hout
      rfl
  | raise h e => cases hout
  | wait h c k => cases hout
  | call hr hk ih =>
      rw [Prog.bind, List.cons_append, next_call_cons]
      exact ih hout

/-- **The next call in the runs**: a run that has made the events goes on with that call, or
it is one that waits in it. -/
lemma Runs.next {env : List (Event R) → (c : C) → R c → Prop} {p : Prog C R E α}
    {h tr tr' : List (Event R)} {c : C} {out : Outcome E α} (hnext : p.next tr = some c)
    (hrun : Runs env h p (tr ++ tr') out) :
    tr' = [] ∧ out = .waiting ∨ ∃ r post, tr' = ⟨c, r⟩ :: post := by
  induction p generalizing h tr with
  | ret a => simp at hnext
  | raise e => cases tr <;> cases hnext
  | call d k ih =>
      cases tr with
      | nil =>
          cases hnext
          cases hrun with
          | wait => exact .inl ⟨rfl, rfl⟩
          | call hr hk => exact .inr ⟨_, _, rfl⟩
      | cons e tr =>
          cases hrun with
          | call hr hk =>
              rw [next_call_cons] at hnext
              exact ih _ hnext hk

omit [DecidableEq C] in
/-- A run that makes no events yet. -/
lemma exists_runs_nil (env : List (Event R) → (c : C) → R c → Prop) (h : List (Event R))
    (p : Prog C R E α) : ∃ out, Runs env h p [] out := by
  cases p with
  | ret a => exact ⟨_, .ret h a⟩
  | raise e => exact ⟨_, .raise h e⟩
  | call c k => exact ⟨_, .wait h c k⟩

/-- There is such a run, with any answer to that call. -/
lemma exists_runs_of_next {p : Prog C R E α} {h tr : List (Event R)} {c : C}
    (hnext : p.next tr = some c) (r : R c) :
    ∃ out, Runs (fun _ _ _ => True) h p (tr ++ [⟨c, r⟩]) out := by
  induction p generalizing h tr with
  | ret a => simp at hnext
  | raise e => cases tr <;> cases hnext
  | call d k ih =>
      cases tr with
      | nil =>
          cases hnext
          obtain ⟨out, hrun⟩ := exists_runs_nil (fun _ _ _ => True) (h ++ [⟨c, r⟩]) (k r)
          exact ⟨out, .call trivial hrun⟩
      | cons e tr =>
          rw [Prog.next] at hnext
          split at hnext
          · rename_i he
            obtain ⟨c', r'⟩ := e
            cases he
            obtain ⟨out, hrun⟩ := ih _ hnext
            exact ⟨out, .call trivial hrun⟩
          · cases hnext

end Next

section Reasoning

variable {env : List (Event R) → (c : C) → R c → Prop} {G : List (Event R) → C → Prop}

/-- **Frame.** What every event keeps holds of the results too. -/
lemma wp_frame {I : List (Event R) → Prop} (hstep : ∀ h c r, I h → I (h ++ [⟨c, r⟩]))
    {p : Prog C R E α} {Q : α → List (Event R) → Prop} {h : List (Event R)}
    (hp : wp env G p Q h) (hI : I h) : wp env G p (fun a h' => Q a h' ∧ I h') h := by
  induction p generalizing h with
  | ret a => exact ⟨hp, hI⟩
  | raise e => trivial
  | call c k ih => exact ⟨hp.1, fun r hr => ih r (hp.2 r hr) (hstep h c r hI)⟩

namespace Thread

/-- An event is the answer to the call that the thread waits in. -/
lemma advance_eq_some [DecidableEq C] {t t' : Thread R E α} {e : Event R}
    (h : t.advance e = some t') :
    ∃ k, t.rest = .call e.1 k ∧ t' = ⟨t.trace ++ [e], k e.2⟩ := by
  obtain ⟨trace, rest⟩ := t
  obtain ⟨c, r⟩ := e
  cases rest with
  | ret a => simp [advance] at h
  | raise e => simp [advance] at h
  | call c' k =>
      simp only [advance] at h
      split at h
      · rename_i hc
        cases hc
        exact ⟨k, rfl, (Option.some.inj h).symm⟩
      · simp at h

variable (env G) in
/-- What is left of the thread meets the postcondition. -/
def Meets (Q : α → List (Event R) → Prop) (t : Thread R E α) : Prop := wp env G t.rest Q t.trace

/-- **The step lemma.** -/
lemma Meets.advance [DecidableEq C] {Q : α → List (Event R) → Prop} {t t' : Thread R E α}
    {e : Event R} (ht : t.Meets env G Q) (he : env t.trace e.1 e.2) (h : t.advance e = some t') :
    t'.Meets env G Q := by
  obtain ⟨k, hk, rfl⟩ := advance_eq_some h
  rw [Meets, hk] at ht
  exact ht.2 e.2 he

variable (env) in
/-- The thread returns `a` when all further events are of the kind `K`. -/
def Yields (K : Event R → Prop) (t : Thread R E α) (a : α) : Prop :=
  ∃ tr, (∀ e ∈ tr, K e) ∧ Runs env t.trace t.rest tr (.returned a)

/-- What the thread would return meets the postcondition, after the further events. -/
lemma Meets.yields {Q : α → List (Event R) → Prop} {K : Event R → Prop} {t : Thread R E α} {a : α}
    (ht : t.Meets env G Q) (ha : t.Yields env K a) :
    ∃ tr, (∀ e ∈ tr, K e) ∧ Q a (t.trace ++ tr) := by
  obtain ⟨tr, htr, hrun⟩ := ha
  exact ⟨tr, htr, (wp_sound ht hrun).2 a rfl⟩

end Thread

end Reasoning

/-! ### Lists of threads -/

/-- A sum over a list in which one entry is replaced. -/
lemma sum_map_set {β : Type*} (f : β → ℕ) {l : List β} {i : ℕ} {a : β} (h : l[i]? = some a)
    (b : β) : ((l.set i b).map f).sum + f a = (l.map f).sum + f b := by
  induction l generalizing i with
  | nil => simp at h
  | cons x l ih =>
      cases i with
      | zero =>
          rw [List.getElem?_cons_zero, Option.some.injEq] at h
          subst h
          simp only [List.set_cons_zero, List.map_cons, List.sum_cons]
          omega
      | succ i =>
          rw [List.getElem?_cons_succ] at h
          have hrest := ih h
          simp only [List.set_cons_succ, List.map_cons, List.sum_cons]
          omega

end Interaction
