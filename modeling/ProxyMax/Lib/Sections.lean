import ProxyMax.Lib.Machine
import ProxyMax.Lib.Threads

/-!
Critical sections: threads that work on a shared memory under one mutex, one access
at a time.

* `Performs access p s tr q s'`: alone on the memory `s`, the program `p` makes the
  accesses `tr` and comes to `s'`, where `q` is left of it.
* `restrict`, `Once`: the accesses with given answers, and programs that make certain
  calls at most once; `exists_answers` finds answers that agree with what they met.
* `System`, `Move`, `sectionStep`: the threads call operations, wait for the mutex,
  make their accesses and let the mutex go, in any order.
* `completed`, `performed`: the operations that a log completes, with their results and
  the accesses of their threads in between.
* `Performed`, `Serial`: operations that are performed one after the other, each as a
  whole.
* `performed_serial`, `serializable`: in every run, the operations completed so far were
  performed one after the other, in the order of their sections.
-/

namespace Sections

open Interaction Machine

variable {C : Type} {R : C → Type} {E σ T ι ρ : Type}

/-! ### A program alone -/

section Alone

variable (access : σ → Event R → Option σ)

/-- Alone on the memory `s`, the program `p` makes the accesses `tr` and comes to the
memory `s'` with `q` left. An access is an event that the memory can answer so. -/
inductive Performs : Prog C R E ρ → σ → List (Event R) → Prog C R E ρ → σ → Prop
  | refl (p s) : Performs p s [] p s
  | access {c k r s s₁ tr q s'} (ha : access s ⟨c, r⟩ = some s₁)
      (h : Performs (k r) s₁ tr q s') : Performs (.call c k) s (⟨c, r⟩ :: tr) q s'

variable {access}

/-- One access more. -/
lemma Performs.snoc {p : Prog C R E ρ} {s s₁ s₂ : σ} {tr : List (Event R)} {c : C} {r : R c}
    {k : R c → Prog C R E ρ} (h : Performs access p s tr (.call c k) s₁)
    (ha : access s₁ ⟨c, r⟩ = some s₂) : Performs access p s (tr ++ [⟨c, r⟩]) (k r) s₂ := by
  generalize hq : Prog.call c k = q at h
  induction h with
  | refl p s =>
      subst hq
      exact .access ha (.refl _ _)
  | access ha' _ ih => exact .access ha' (ih ha hq)

@[simp] lemma performs_ret {a : ρ} {s s' : σ} {tr : List (Event R)} {q : Prog C R E ρ} :
    Performs access (.ret a) s tr q s' ↔ tr = [] ∧ q = .ret a ∧ s' = s := by
  constructor
  · rintro ⟨⟩
    exact ⟨rfl, rfl, rfl⟩
  · rintro ⟨rfl, rfl, rfl⟩
    exact .refl _ _

/-- The first access, if there is one. -/
lemma performs_call {c : C} {k : R c → Prog C R E ρ} {s s' : σ} {tr : List (Event R)}
    {q : Prog C R E ρ} :
    Performs access (.call c k) s tr q s' ↔
      (tr = [] ∧ q = .call c k ∧ s' = s) ∨
        ∃ r s₁ tr', access s ⟨c, r⟩ = some s₁ ∧ tr = ⟨c, r⟩ :: tr' ∧
          Performs access (k r) s₁ tr' q s' := by
  constructor
  · intro h
    cases h with
    | refl => exact .inl ⟨rfl, rfl, rfl⟩
    | access ha h => exact .inr ⟨_, _, _, ha, rfl, h⟩
  · rintro (⟨rfl, rfl, rfl⟩ | ⟨r, s₁, tr', ha, rfl, h⟩)
    · exact .refl _ _
    · exact .access ha h

/-- The program returns `a`, alone on `s`, and leaves `s'`. -/
def Does (access : σ → Event R → Option σ) (p : Prog C R E ρ) (s : σ) (a : ρ) (s' : σ) : Prop :=
  ∃ tr, Performs access p s tr (.ret a) s'

@[simp] lemma does_ret {a b : ρ} {s s' : σ} :
    Does access (.ret b : Prog C R E ρ) s a s' ↔ a = b ∧ s' = s := by
  simp [Does]

/-- A program that returns, its first access first. -/
@[simp] lemma does_call {c : C} {k : R c → Prog C R E ρ} {a : ρ} {s s' : σ} :
    Does access (.call c k) s a s' ↔ ∃ r s₁, access s ⟨c, r⟩ = some s₁ ∧
      Does access (k r) s₁ a s' := by
  constructor
  · rintro ⟨tr, h⟩
    rcases performs_call.mp h with ⟨-, hq, -⟩ | ⟨r, s₁, tr', ha, -, h⟩
    · cases hq
    · exact ⟨r, s₁, ha, tr', h⟩
  · rintro ⟨r, s₁, ha, tr, h⟩
    exact ⟨_, .access ha h⟩

/-- A program that fails does not return. -/
@[simp] lemma not_does_raise {e : E} {a : ρ} {s s' : σ} :
    ¬Does access (.raise e : Prog C R E ρ) s a s' := by
  rintro ⟨tr, h⟩
  cases h

/-- Two programs, one after the other. -/
lemma does_bind {α : Type} {p : Prog C R E α} {f : α → Prog C R E ρ} {b : ρ} {s s' : σ} :
    Does access (p.bind f) s b s' ↔
      ∃ a s₁, Does access p s a s₁ ∧ Does access (f a) s₁ b s' := by
  induction p generalizing s with
  | ret a => simp [Prog.bind]
  | raise e => simp [Prog.bind]
  | call c k ih =>
      simp only [Prog.bind, does_call, ih]
      constructor
      · rintro ⟨r, s₁, ha, a, s₂, hp, hf⟩
        exact ⟨a, s₂, ⟨r, s₁, ha, hp⟩, hf⟩
      · rintro ⟨a, s₂, ⟨r, s₁, ha, hp⟩, hf⟩
        exact ⟨r, s₁, ha, a, s₂, hp, hf⟩

end Alone

/-! ### Answers that are given -/

section Answers

variable {access : σ → Event R → Option σ}

/-- The accesses that are allowed. -/
def restrict (access : σ → Event R → Option σ) (allows : Event R → Bool) (s : σ) (e : Event R) :
    Option σ :=
  if allows e then access s e else none

lemma Performs.restrict {allows : Event R → Bool} {p q : Prog C R E ρ} {s s' : σ}
    {tr : List (Event R)} (h : Performs access p s tr q s') (hall : ∀ e ∈ tr, allows e = true) :
    Performs (Sections.restrict access allows) p s tr q s' := by
  induction h with
  | refl p s => exact .refl p s
  | access ha _ ih =>
      refine .access ?_ (ih fun e he => hall e (List.mem_cons_of_mem _ he))
      rw [Sections.restrict, if_pos (hall _ List.mem_cons_self), ha]

variable (asks : C → Bool)

/-- The program makes none of the calls. -/
def Avoids : Prog C R E ρ → Prop
  | .ret _ => True
  | .raise _ => True
  | .call c k => asks c = false ∧ ∀ r, Avoids (k r)

/-- The program makes none of the calls twice, and none that is in `made`. -/
def Once : List C → Prog C R E ρ → Prop
  | _, .ret _ => True
  | _, .raise _ => True
  | made, .call c k =>
      (asks c = true → c ∉ made) ∧ ∀ r, Once (if asks c then c :: made else made) (k r)

variable {asks}

lemma avoids_bind {α : Type} {p : Prog C R E α} {f : α → Prog C R E ρ} (hp : Avoids asks p)
    (hf : ∀ a, Avoids asks (f a)) : Avoids asks (p.bind f) := by
  induction p with
  | ret a => exact hf a
  | raise e => trivial
  | call c k ih => exact ⟨hp.1, fun r => ih r (hp.2 r)⟩

lemma once_skip {made : List C} {c : C} {k : R c → Prog C R E ρ} (hc : asks c = false)
    (hk : ∀ r, Once asks made (k r)) : Once asks made (.call c k) := by
  refine ⟨fun h => absurd (hc.symm.trans h) (by simp), fun r => ?_⟩
  rw [hc]
  exact hk r

lemma once_ask {made : List C} {c : C} {k : R c → Prog C R E ρ} (hc : asks c = true)
    (hnew : c ∉ made) (hk : ∀ r, Once asks (c :: made) (k r)) : Once asks made (.call c k) := by
  refine ⟨fun _ => hnew, fun r => ?_⟩
  rw [hc]
  exact hk r

lemma once_ite {made : List C} {P : Prop} [Decidable P] {p q : Prog C R E ρ}
    (hp : Once asks made p) (hq : Once asks made q) : Once asks made (if P then p else q) := by
  split
  · exact hp
  · exact hq

/-- A part that makes none of the calls. -/
lemma once_bind {α : Type} {made : List C} {p : Prog C R E α} {f : α → Prog C R E ρ}
    (hp : Avoids asks p) (hf : ∀ a, Once asks made (f a)) : Once asks made (p.bind f) := by
  induction p with
  | ret a => exact hf a
  | raise e => trivial
  | call c k ih => exact once_skip hp.1 fun r => ih r (hp.2 r)

/-- A call that is made at most once has one answer. -/
lemma Once.answers {made : List C} {p q : Prog C R E ρ} {s s' : σ} {tr : List (Event R)}
    (hp : Once asks made p) (h : Performs access p s tr q s') :
    (∀ e ∈ tr, asks e.1 = true → e.1 ∉ made) ∧
      ∀ c r r', asks c = true → ⟨c, r⟩ ∈ tr → ⟨c, r'⟩ ∈ tr → r = r' := by
  induction h generalizing made with
  | refl p s => exact ⟨fun e he => by simp at he, fun c r r' _ he => by simp at he⟩
  | @access c k r s s₁ tr q s' ha _ ih =>
      obtain ⟨hfirst, hrest⟩ := hp
      obtain ⟨hnew, hsame⟩ := ih (hrest r)
      have hlater : asks c = true → ∀ e ∈ tr, e.1 ≠ c := by
        intro hc e he heq
        refine hnew e he (heq ▸ hc) ?_
        rw [if_pos hc, heq]
        exact List.mem_cons_self
      refine ⟨fun e he hasks => ?_, fun c' r₁ r₂ hc' h₁ h₂ => ?_⟩
      · rcases List.mem_cons.mp he with rfl | he
        · exact hfirst hasks
        · intro hmade
          refine hnew e he hasks ?_
          split
          · exact List.mem_cons_of_mem _ hmade
          · exact hmade
      · rcases List.mem_cons.mp h₁ with h₁ | h₁
        · cases h₁
          rcases List.mem_cons.mp h₂ with h₂ | h₂
          · cases h₂
            rfl
          · exact absurd rfl (hlater hc' _ h₂)
        · rcases List.mem_cons.mp h₂ with h₂ | h₂
          · cases h₂
            exact absurd rfl (hlater hc' _ h₁)
          · exact hsame c' r₁ r₂ hc' h₁ h₂

/-- **There are answers** that agree with all that such a program met. -/
lemma exists_answers [∀ c, Inhabited (R c)] {p q : Prog C R E ρ} {s s' : σ} {tr : List (Event R)}
    (hp : Once asks [] p) (h : Performs access p s tr q s') :
    ∃ answer : (c : C) → R c, ∀ c r, asks c = true → ⟨c, r⟩ ∈ tr → answer c = r := by
  classical
  refine ⟨fun c => if hc : ∃ r, ⟨c, r⟩ ∈ tr then hc.choose else default, fun c r hc hr => ?_⟩
  have hex : ∃ r, ⟨c, r⟩ ∈ tr := ⟨r, hr⟩
  simp only [dif_pos hex]
  exact (hp.answers h).2 c _ r hc hex.choose_spec hr

end Answers

/-! ### The threads -/

/-- Where a thread is: outside, at the mutex with an operation, or in its section. -/
inductive Place {C : Type} (ι : Type) (R : C → Type) (E ρ : Type) where
  | outside
  | waiting (op : ι)
  | inside (op : ι) (thread : Thread R E ρ)

/-- The memory, the thread that holds the mutex, and where the threads are. -/
structure System {C : Type} (T σ ι : Type) (R : C → Type) (E ρ : Type) where
  memory : σ
  owner : Option T
  places : T → Place ι R E ρ

/-- Nobody has called anything yet. -/
def System.idle (s₀ : σ) : System T σ ι R E ρ where
  memory := s₀
  owner := none
  places := fun _ => .outside

/-- What a thread does: it calls an operation, takes the mutex, makes an access with its
answer, or lets the mutex go. -/
inductive Move {C : Type} (T ι : Type) (R : C → Type) where
  | call (t : T) (op : ι)
  | lock (t : T)
  | access (t : T) (e : Event R)
  | unlock (t : T)

/-- A step of a thread; there is none where the thread is not at that point. The output is
the operation that is completed with its result. -/
def sectionStep [DecidableEq T] [DecidableEq C] (access : σ → Event R → Option σ)
    (body : ι → Prog C R E ρ) (s : System T σ ι R E ρ) :
    Move T ι R → Option (Option (ι × ρ) × System T σ ι R E ρ)
  | .call t op =>
      match s.places t with
      | .outside => some (none, { s with places := Function.update s.places t (.waiting op) })
      | _ => none
  | .lock t =>
      match s.owner, s.places t with
      | none, .waiting op =>
          let place := .inside op (.start (body op))
          some (none, { s with owner := some t, places := Function.update s.places t place })
      | _, _ => none
  | .access t e =>
      match s.places t with
      | .inside op thread =>
          (thread.advance e).bind fun thread =>
            (access s.memory e).map fun memory =>
              (none, { s with memory, places := Function.update s.places t (.inside op thread) })
      | _ => none
  | .unlock t =>
      match s.places t with
      | .inside op ⟨_, .ret a⟩ =>
          some (some (op, a),
            { s with owner := none, places := Function.update s.places t .outside })
      | _ => none

/-- The operations that a log completes, in order, with their results. -/
def completed (log : List (Move T ι R × Option (ι × ρ))) : List (ι × ρ) := log.filterMap Prod.snd

/-- What is seen of the sections: the accesses of each thread since it took the mutex, and the
operations that are completed, with their results and their accesses. -/
structure Seen {C : Type} (T ι : Type) (R : C → Type) (ρ : Type) where
  accesses : T → List (Event R)
  done : List ((ι × ρ) × List (Event R))

/-- One entry of the log more. -/
def Seen.after [DecidableEq T] (seen : Seen T ι R ρ) :
    Move T ι R × Option (ι × ρ) → Seen T ι R ρ
  | (.call _ _, _) => seen
  | (.lock t, _) => { seen with accesses := Function.update seen.accesses t [] }
  | (.access t e, _) =>
      { seen with accesses := Function.update seen.accesses t (seen.accesses t ++ [e]) }
  | (.unlock t, some result) => { seen with done := seen.done ++ [(result, seen.accesses t)] }
  | (.unlock _, none) => seen

/-- What is seen in a log. -/
def seenIn [DecidableEq T] (log : List (Move T ι R × Option (ι × ρ))) : Seen T ι R ρ :=
  log.foldl Seen.after ⟨fun _ => [], []⟩

/-- The operations that a log completes, in order, with their results and the accesses of their
threads between lock and unlock. -/
def performed [DecidableEq T] (log : List (Move T ι R × Option (ι × ρ))) :
    List ((ι × ρ) × List (Event R)) :=
  (seenIn log).done

/-! ### One section after the other -/

section Serial

variable (access : σ → Event R → Option σ) (body : ι → Prog C R E ρ)

/-- The operations are performed one after the other, each as a whole, from the memory `s₀`. -/
inductive Serial (s₀ : σ) : List (ι × ρ) → σ → Prop
  | nil : Serial s₀ [] s₀
  | snoc {ops s op a s'} (h : Serial s₀ ops s) (hop : Does access (body op) s a s') :
      Serial s₀ (ops ++ [(op, a)]) s'

/-- The operations are performed one after the other with these accesses, each as a whole. -/
inductive Performed (s₀ : σ) : List ((ι × ρ) × List (Event R)) → σ → Prop
  | nil : Performed s₀ [] s₀
  | snoc {ops s op a tr s'} (h : Performed s₀ ops s)
      (hop : Performs access (body op) s tr (.ret a) s') :
      Performed s₀ (ops ++ [((op, a), tr)]) s'

/-- **The invariant.** The threads in their section are those that hold the mutex. Where
none does, the memory is the one the last section left, and a thread that does has
performed a part of its operation on it. -/
structure Guarded (base : σ) (s : System T σ ι R E ρ) : Prop where
  holds : ∀ t op thread, s.places t = .inside op thread → s.owner = some t
  free : s.owner = none → s.memory = base
  taken : ∀ t, s.owner = some t → ∃ op thread, s.places t = .inside op thread ∧
    Performs access (body op) base thread.trace thread.rest s.memory

variable {access body}

/-- What every operation keeps, when it is performed alone, holds after all of them. -/
lemma Serial.invariant {P : List (ι × ρ) → σ → Prop} {s₀ : σ}
    (hstep : ∀ ops s op a s', P ops s → Does access (body op) s a s' → P (ops ++ [(op, a)]) s')
    (h₀ : P [] s₀) {ops : List (ι × ρ)} {s : σ} (h : Serial access body s₀ ops s) : P ops s := by
  induction h with
  | nil => exact h₀
  | snoc _ hop ih => exact hstep _ _ _ _ _ ih hop

lemma Performed.serial {s₀ s : σ} {ops : List ((ι × ρ) × List (Event R))}
    (h : Performed access body s₀ ops s) : Serial access body s₀ (ops.map Prod.fst) s := by
  induction h with
  | nil => exact .nil
  | snoc _ hop ih =>
      rw [List.map_append]
      exact ih.snoc ⟨_, hop⟩

/-- What every operation keeps, with the accesses that it makes. -/
lemma Performed.invariant {P : List ((ι × ρ) × List (Event R)) → σ → Prop} {s₀ : σ}
    (hstep : ∀ ops s op a tr s', P ops s → Performs access (body op) s tr (.ret a) s' →
      P (ops ++ [((op, a), tr)]) s')
    (h₀ : P [] s₀) {ops : List ((ι × ρ) × List (Event R))} {s : σ}
    (h : Performed access body s₀ ops s) : P ops s := by
  induction h with
  | nil => exact h₀
  | snoc _ hop ih => exact hstep _ _ _ _ _ _ ih hop

lemma guarded_idle (s₀ : σ) :
    Guarded access body s₀ (System.idle s₀ : System T σ ι R E ρ) where
  holds := fun t op thread h => by cases h
  free := fun _ => rfl
  taken := fun t h => by cases h

variable [DecidableEq T]

/-- Where a thread is after a thread has moved. -/
lemma update_eq_cases {β : Type} {f : T → β} {t t' : T} {a b : β}
    (h : Function.update f t a t' = b) : (t' = t ∧ a = b) ∨ (t' ≠ t ∧ f t' = b) := by
  by_cases ht : t' = t
  · subst ht
    exact .inl ⟨rfl, (Function.update_self ..).symm.trans h⟩
  · exact .inr ⟨ht, (Function.update_of_ne ht ..).symm.trans h⟩

/-- A thread outside the sections moves to another place outside them. -/
lemma Guarded.move {base : σ} {s : System T σ ι R E ρ} (hs : Guarded access body base s) {t : T}
    {place : Place ι R E ρ} (hfrom : ∀ op thread, s.places t ≠ .inside op thread)
    (hto : ∀ op thread, place ≠ .inside op thread) :
    Guarded access body base { s with places := Function.update s.places t place } where
  holds := by
    intro t' op thread h
    rcases update_eq_cases h with ⟨-, hplace⟩ | ⟨-, hplace⟩
    · exact absurd hplace (hto op thread)
    · exact hs.holds t' op thread hplace
  free := hs.free
  taken := by
    intro t' h
    obtain ⟨op, thread, hplace, hperf⟩ := hs.taken t' h
    have ht : t' ≠ t := by
      rintro rfl
      exact hfrom op thread hplace
    exact ⟨op, thread, (Function.update_of_ne ht ..).trans hplace, hperf⟩

/-- Who takes the mutex is at the start of its operation. -/
lemma Guarded.lock {base : σ} {s : System T σ ι R E ρ} (hs : Guarded access body base s) {t : T}
    {op : ι} (hfree : s.owner = none) :
    Guarded access body base
      { s with
        owner := some t
        places := Function.update s.places t (.inside op (.start (body op))) } where
  holds := by
    intro t' op' thread h
    rcases update_eq_cases h with ⟨rfl, -⟩ | ⟨-, hplace⟩
    · rfl
    · rw [hs.holds t' op' thread hplace] at hfree
      cases hfree
  free := fun h => by cases h
  taken := by
    rintro t' ⟨⟩
    refine ⟨op, _, Function.update_self .., ?_⟩
    rw [hs.free hfree]
    exact .refl _ _

/-- Who lets the mutex go has performed its operation. -/
lemma Guarded.unlock {base : σ} {s : System T σ ι R E ρ} (hs : Guarded access body base s)
    {t : T} {op : ι} {tr : List (Event R)} {a : ρ} (hplace : s.places t = .inside op ⟨tr, .ret a⟩) :
    Performs access (body op) base tr (.ret a) s.memory ∧
      Guarded access body s.memory
        { s with owner := none, places := Function.update s.places t .outside } := by
  have howner := hs.holds t op _ hplace
  refine ⟨?_, ?_, fun _ => rfl, fun t' h => by cases h⟩
  · obtain ⟨op', thread, hplace', hperf⟩ := hs.taken t howner
    rw [hplace] at hplace'
    obtain ⟨rfl, rfl⟩ := Place.inside.inj hplace'
    exact hperf
  · intro t' op' thread h
    rcases update_eq_cases h with ⟨-, hplace'⟩ | ⟨ht, hplace'⟩
    · cases hplace'
    · rw [hs.holds t' op' thread hplace'] at howner
      exact absurd (Option.some.inj howner) ht

variable [DecidableEq C]

/-- An access is one more step of the owner's operation. -/
lemma Guarded.advance {base : σ} {s : System T σ ι R E ρ} (hs : Guarded access body base s)
    {t : T} {op : ι} {thread thread' : Thread R E ρ} {e : Event R} {memory : σ}
    (hplace : s.places t = .inside op thread) (hthread : thread.advance e = some thread')
    (hmemory : access s.memory e = some memory) :
    Guarded access body base
      { s with memory, places := Function.update s.places t (.inside op thread') } where
  holds := by
    intro t' op' thread'' h
    rcases update_eq_cases h with ⟨rfl, -⟩ | ⟨-, hplace'⟩
    · exact hs.holds t' op thread hplace
    · exact hs.holds t' op' thread'' hplace'
  free := fun h => by
    have howner := hs.holds t op thread hplace
    rw [h] at howner
    cases howner
  taken := by
    intro t' h
    obtain rfl : t' = t := by
      have howner := hs.holds t op thread hplace
      rw [h] at howner
      exact Option.some.inj howner
    obtain ⟨op', thread'', hplace', hperf⟩ := hs.taken t' h
    rw [hplace] at hplace'
    obtain ⟨rfl, rfl⟩ := Place.inside.inj hplace'
    obtain ⟨k, hk, rfl⟩ := Thread.advance_eq_some hthread
    rw [hk] at hperf
    exact ⟨op, _, Function.update_self .., hperf.snoc hmemory⟩

/-- **What a step can be**: a call, the mutex taken where it is free, an access, or the end of a
section with its result. -/
lemma sectionStep_cases {s s' : System T σ ι R E ρ} {move : Move T ι R} {out : Option (ι × ρ)}
    (hstep : sectionStep access body s move = some (out, s')) :
    (∃ t op, move = .call t op ∧ s.places t = .outside ∧ out = none ∧
      s' = { s with places := Function.update s.places t (.waiting op) }) ∨
    (∃ t op, move = .lock t ∧ s.owner = none ∧ s.places t = .waiting op ∧ out = none ∧
      s' = { s with
        owner := some t
        places := Function.update s.places t (.inside op (.start (body op))) }) ∨
    (∃ t e op thread thread' memory, move = .access t e ∧ s.places t = .inside op thread ∧
      thread.advance e = some thread' ∧ access s.memory e = some memory ∧ out = none ∧
      s' = { s with memory, places := Function.update s.places t (.inside op thread') }) ∨
    (∃ t op tr a, move = .unlock t ∧ s.places t = .inside op ⟨tr, .ret a⟩ ∧ out = some (op, a) ∧
      s' = { s with owner := none, places := Function.update s.places t .outside }) := by
  cases move with
  | call t op =>
      cases hplace : s.places t with
      | outside =>
          simp only [sectionStep, hplace, Option.some.injEq, Prod.mk.injEq] at hstep
          exact .inl ⟨t, op, rfl, hplace, hstep.1.symm, hstep.2.symm⟩
      | waiting op' => simp [sectionStep, hplace] at hstep
      | inside op' thread => simp [sectionStep, hplace] at hstep
  | lock t =>
      cases howner : s.owner with
      | some t' => simp [sectionStep, howner] at hstep
      | none =>
          cases hplace : s.places t with
          | outside => simp [sectionStep, howner, hplace] at hstep
          | inside op thread => simp [sectionStep, howner, hplace] at hstep
          | waiting op =>
              simp only [sectionStep, howner, hplace, Option.some.injEq, Prod.mk.injEq] at hstep
              exact .inr (.inl ⟨t, op, rfl, rfl, hplace, hstep.1.symm, hstep.2.symm⟩)
  | access t e =>
      cases hplace : s.places t with
      | outside => simp [sectionStep, hplace] at hstep
      | waiting op => simp [sectionStep, hplace] at hstep
      | inside op thread =>
          simp only [sectionStep, hplace, Option.bind_eq_some_iff, Option.map_eq_some_iff,
            Prod.mk.injEq] at hstep
          obtain ⟨thread', hthread, memory, hmemory, hout, hs'⟩ := hstep
          exact .inr (.inr (.inl ⟨t, e, op, thread, thread', memory, rfl, hplace, hthread, hmemory,
            hout.symm, hs'.symm⟩))
  | unlock t =>
      cases hplace : s.places t with
      | outside => simp [sectionStep, hplace] at hstep
      | waiting op => simp [sectionStep, hplace] at hstep
      | inside op thread =>
          -- only a section that has come to its end can be left
          obtain ⟨tr, rest⟩ := thread
          cases rest with
          | raise e => simp [sectionStep, hplace] at hstep
          | call c k => simp [sectionStep, hplace] at hstep
          | ret a =>
              simp only [sectionStep, hplace, Option.some.injEq, Prod.mk.injEq] at hstep
              exact .inr (.inr (.inr ⟨t, op, tr, a, rfl, hplace, hstep.1.symm, hstep.2.symm⟩))

/-- **The step lemma.** A step leaves the sections as they were, or completes one. -/
lemma sectionStep_guarded {base : σ} {s s' : System T σ ι R E ρ} {move : Move T ι R}
    {out : Option (ι × ρ)} (hs : Guarded access body base s)
    (hstep : sectionStep access body s move = some (out, s')) :
    (out = none ∧ Guarded access body base s') ∨
      ∃ t op tr a, move = .unlock t ∧ s.places t = .inside op ⟨tr, .ret a⟩ ∧ out = some (op, a) ∧
        Performs access (body op) base tr (.ret a) s'.memory ∧
        Guarded access body s'.memory s' := by
  rcases sectionStep_cases hstep with
    ⟨t, op, rfl, hplace, rfl, rfl⟩ | ⟨t, op, rfl, howner, hplace, rfl, rfl⟩ |
    ⟨t, e, op, thread, thread', memory, rfl, hplace, hthread, hmemory, rfl, rfl⟩ |
    ⟨t, op, tr, a, rfl, hplace, rfl, rfl⟩
  · exact .inl ⟨rfl, hs.move (by simp [hplace]) (by simp)⟩
  · exact .inl ⟨rfl, hs.lock howner⟩
  · exact .inl ⟨rfl, hs.advance hplace hthread hmemory⟩
  · exact .inr ⟨t, op, tr, a, rfl, hplace, rfl, hs.unlock hplace⟩

/-- Where a thread is in its section, its accesses are those that are seen. -/
def Traced (seen : Seen T ι R ρ) (s : System T σ ι R E ρ) : Prop :=
  ∀ t op thread, s.places t = .inside op thread → seen.accesses t = thread.trace

lemma sectionStep_traced {seen : Seen T ι R ρ} {s s' : System T σ ι R E ρ} {move : Move T ι R}
    {out : Option (ι × ρ)} (hs : Traced seen s)
    (hstep : sectionStep access body s move = some (out, s')) :
    Traced (seen.after (move, out)) s' := by
  rcases sectionStep_cases hstep with
    ⟨t, op, rfl, hplace, rfl, rfl⟩ | ⟨t, op, rfl, howner, hplace, rfl, rfl⟩ |
    ⟨t, e, op, thread, thread', memory, rfl, hplace, hthread, hmemory, rfl, rfl⟩ |
    ⟨t, op, tr, a, rfl, hplace, rfl, rfl⟩
  all_goals intro t' op' thread'' h
  · rcases update_eq_cases h with ⟨-, hnow⟩ | ⟨-, hbefore⟩
    · cases hnow
    · exact hs t' op' thread'' hbefore
  · rcases update_eq_cases h with ⟨rfl, hnow⟩ | ⟨ht, hbefore⟩
    · obtain ⟨rfl, rfl⟩ := Place.inside.inj hnow
      exact Function.update_self ..
    · exact (Function.update_of_ne ht ..).trans (hs t' op' thread'' hbefore)
  · rcases update_eq_cases h with ⟨rfl, hnow⟩ | ⟨ht, hbefore⟩
    · obtain ⟨rfl, rfl⟩ := Place.inside.inj hnow
      obtain ⟨k, -, rfl⟩ := Thread.advance_eq_some hthread
      change Function.update seen.accesses t' (seen.accesses t' ++ [e]) t' = thread.trace ++ [e]
      rw [Function.update_self, hs t' op thread hplace]
    · exact (Function.update_of_ne ht ..).trans (hs t' op' thread'' hbefore)
  · rcases update_eq_cases h with ⟨-, hnow⟩ | ⟨-, hbefore⟩
    · cases hnow
    · exact hs t' op' thread'' hbefore

/-- **Critical sections are atomic.** In every run, the operations completed so far were
performed one after the other, in the order of their sections and with the accesses of their
threads; the memory is what they left, up to what the thread that holds the mutex has done of its
own operation. -/
theorem performed_serial {s₀ : σ} {moves : List (Move T ι R)}
    {log : List (Move T ι R × Option (ι × ρ))} {s : System T σ ι R E ρ}
    (hrun : exec (sectionStep access body) (System.idle s₀) moves = some (log, s)) :
    ∃ base, Performed access body s₀ (performed log) base ∧
      (performed log).map Prod.fst = completed log ∧ Guarded access body base s := by
  have hidle : Traced (seenIn []) (System.idle s₀ : System T σ ι R E ρ) := by
    intro t op thread h
    cases h
  suffices hall : Traced (seenIn log) s ∧ ∃ base, Performed access body s₀ (performed log) base ∧
      (performed log).map Prod.fst = completed log ∧ Guarded access body base s from hall.2
  refine exec_keeps (sectionStep access body)
    (P := fun log s => Traced (seenIn log) s ∧ ∃ base,
      Performed access body s₀ (performed log) base ∧
      (performed log).map Prod.fst = completed log ∧ Guarded access body base s) ?_
    ⟨hidle, s₀, .nil, rfl, guarded_idle s₀⟩ hrun
  rintro log s move out s' - ⟨htraced, base, hperf, hfst, hs⟩ hstep
  have hseen : seenIn (log ++ [(move, out)]) = (seenIn log).after (move, out) := by
    rw [seenIn, List.foldl_append]
    rfl
  refine ⟨hseen ▸ sectionStep_traced htraced hstep, ?_⟩
  have hcompleted : completed (log ++ [(move, out)]) = completed log ++ out.toList := by
    cases out <;> simp [completed]
  rw [performed, hseen, hcompleted]
  rcases sectionStep_guarded hs hstep with
    ⟨rfl, hs'⟩ | ⟨t, op, tr, a, rfl, hplace, rfl, hop, hs'⟩
  · have hsame : ((seenIn log).after (move, none)).done = performed log := by
      cases move <;> rfl
    rw [hsame, Option.toList_none, List.append_nil]
    exact ⟨base, hperf, hfst, hs'⟩
  · have hmore : ((seenIn log).after (.unlock t, some (op, a))).done =
        performed log ++ [((op, a), tr)] := by
      rw [Seen.after, htraced t op _ hplace]
      rfl
    rw [hmore]
    exact ⟨s'.memory, hperf.snoc hop, by simp [hfst], hs'⟩

/-- The same, without the accesses. -/
theorem serializable {s₀ : σ} {moves : List (Move T ι R)}
    {log : List (Move T ι R × Option (ι × ρ))} {s : System T σ ι R E ρ}
    (hrun : exec (sectionStep access body) (System.idle s₀) moves = some (log, s)) :
    ∃ base, Serial access body s₀ (completed log) base ∧ Guarded access body base s := by
  obtain ⟨base, hperf, hfst, hs⟩ := performed_serial hrun
  exact ⟨base, hfst ▸ hperf.serial, hs⟩

end Serial

end Sections
