import Mathlib.Tactic

/-!
Singly linked chains of nodes in a memory.

* `Node`: a value and the address of the next node; a memory maps an address to
  the node stored there, if one is.
* `Chain mem p ns`: following the links from `p` meets the nodes `ns` and then
  the null pointer.
* `chain_functional`, `chain_nodup`, `chain_reachable_iff`: a chain is determined
  by its first address, has no node twice, and holds exactly the nodes that
  `Reachable` gives.
* `chain_update`: a write elsewhere leaves a chain as it was.
* `chain_snoc`: a node is linked behind the last one; `chain_free_first` and
  `chain_unlink`: a node is unlinked and freed.
-/

namespace LinkedList

variable {P α : Type*}

/-- A node of a linked list. -/
structure Node (P α : Type*) where
  value : α
  next : Option P

/-- The nodes met from `p` on, with their addresses, up to the null pointer. -/
def Chain (mem : P → Option (Node P α)) : Option P → List (P × α) → Prop
  | p, [] => p = none
  | p, (q, a) :: ns => p = some q ∧ ∃ nx, mem q = some ⟨a, nx⟩ ∧ Chain mem nx ns

/-- The addresses met from `p` on. -/
inductive Reachable (mem : P → Option (Node P α)) (p : Option P) : P → Prop
  | first {q} (h : p = some q) : Reachable mem p q
  | next {q q' n} (h : Reachable mem p q) (hn : mem q = some n) (hq : n.next = some q') :
      Reachable mem p q'

/-- The address of the last node. -/
def lastAddress (ns : List (P × α)) : Option P := (ns.map Prod.fst).getLast?

@[simp] lemma lastAddress_nil : lastAddress ([] : List (P × α)) = none := rfl

@[simp] lemma lastAddress_snoc (ns : List (P × α)) (n : P × α) :
    lastAddress (ns ++ [n]) = some n.1 := by
  simp [lastAddress]

@[simp] lemma lastAddress_eq_none {ns : List (P × α)} : lastAddress ns = none ↔ ns = [] := by
  simp [lastAddress]

lemma lastAddress_cons_cons (m n : P × α) (ns : List (P × α)) :
    lastAddress (m :: n :: ns) = lastAddress (n :: ns) := by
  simp [lastAddress]

section Chains

variable {mem : P → Option (Node P α)} {p : Option P} {ns ms : List (P × α)}

@[simp] lemma chain_nil : Chain mem p ([] : List (P × α)) ↔ p = none := Iff.rfl

@[simp] lemma chain_cons {q : P} {a : α} :
    Chain mem p ((q, a) :: ns) ↔ p = some q ∧ ∃ nx, mem q = some ⟨a, nx⟩ ∧ Chain mem nx ns :=
  Iff.rfl

/-- The head of a chain that is not empty. -/
lemma chain_some {q : P} (h : Chain mem (some q) ns) :
    ∃ a nx ms, ns = (q, a) :: ms ∧ mem q = some ⟨a, nx⟩ ∧ Chain mem nx ms := by
  cases ns with
  | nil => simp at h
  | cons n ns =>
      obtain ⟨hq, nx, hmem, hrest⟩ := h
      obtain rfl := Option.some.inj hq
      exact ⟨n.2, nx, ns, rfl, hmem, hrest⟩

lemma chain_none (h : Chain mem none ns) : ns = [] := by
  cases ns with
  | nil => rfl
  | cons n ns => simp [Chain] at h

/-- The address that a chain begins with. -/
lemma chain_first (h : Chain mem p ns) : p = (ns.map Prod.fst).head? := by
  cases ns with
  | nil => exact h
  | cons n ns => exact h.1

/-- Every node of a chain is stored in the memory. -/
lemma chain_mem (h : Chain mem p ns) {n : P × α} (hn : n ∈ ns) :
    ∃ nx, mem n.1 = some ⟨n.2, nx⟩ := by
  induction ns generalizing p with
  | nil => simp at hn
  | cons m ns ih =>
      obtain ⟨-, nx, hmem, hrest⟩ := h
      rcases List.mem_cons.mp hn with rfl | hn
      · exact ⟨nx, hmem⟩
      · exact ih hrest hn

/-- A chain is determined by its first address. -/
lemma chain_functional (h : Chain mem p ns) (h' : Chain mem p ms) : ns = ms := by
  induction ns generalizing p ms with
  | nil =>
      rw [chain_nil] at h
      exact (chain_none (h ▸ h')).symm
  | cons n ns ih =>
      obtain ⟨rfl, nx, hmem, hrest⟩ := h
      obtain ⟨a, nx', ms', rfl, hmem', hrest'⟩ := chain_some h'
      rw [hmem] at hmem'
      cases hmem'
      rw [ih hrest hrest']

/-- The part of a chain from one of its nodes on is a chain. -/
lemma chain_suffix {pre : List (P × α)} {q : P} {a : α} (h : Chain mem p (pre ++ (q, a) :: ns)) :
    Chain mem (some q) ((q, a) :: ns) := by
  induction pre generalizing p with
  | nil =>
      obtain ⟨rfl, hrest⟩ := h
      exact ⟨rfl, hrest⟩
  | cons n pre ih =>
      obtain ⟨-, nx, -, hrest⟩ := h
      exact ih hrest

/-- **A chain that ends meets no node twice**: from the same address on it
would be as long as a part of itself. -/
theorem chain_nodup (h : Chain mem p ns) : (ns.map Prod.fst).Nodup := by
  induction ns generalizing p with
  | nil => simp
  | cons n ns ih =>
      obtain ⟨q, a⟩ := n
      have hall := h
      obtain ⟨rfl, nx, hmem, hrest⟩ := h
      rw [List.map_cons, List.nodup_cons]
      refine ⟨fun hq => ?_, ih hrest⟩
      obtain ⟨⟨q', b⟩, hn, rfl⟩ := List.mem_map.mp hq
      obtain ⟨pre, post, rfl⟩ := List.append_of_mem hn
      have hlen := congrArg List.length (chain_functional hall (chain_suffix hrest))
      simp at hlen
      omega

/-- What is reached from the next node is reached. -/
lemma Reachable.of_next {q r : P} {n : Node P α} (h : Reachable mem p q) (hn : mem q = some n)
    (hr : Reachable mem n.next r) : Reachable mem p r := by
  induction hr with
  | first hq => exact h.next hn hq
  | next _ hm hq ih => exact ih.next hm hq

/-- The nodes of a chain are the reachable ones. -/
theorem chain_reachable_iff (h : Chain mem p ns) {q : P} :
    Reachable mem p q ↔ q ∈ ns.map Prod.fst := by
  constructor
  · intro hq
    induction hq with
    | first hp =>
        obtain ⟨a, nx, ms, rfl, -, -⟩ := chain_some (hp ▸ h)
        simp
    | @next q q' n _ hn hq' ih =>
        obtain ⟨⟨r, a⟩, hmem, rfl⟩ := List.mem_map.mp ih
        obtain ⟨pre, post, rfl⟩ := List.append_of_mem hmem
        obtain ⟨-, nx, hr, hrest⟩ := chain_suffix h
        rw [hn] at hr
        cases hr
        obtain rfl : nx = some q' := hq'
        obtain ⟨b, nx', ms, rfl, -, -⟩ := chain_some hrest
        simp
  · intro hq
    induction ns generalizing p with
    | nil => simp at hq
    | cons n ns ih =>
        obtain ⟨rfl, nx, hmem, hrest⟩ := h
        rcases List.mem_cons.mp hq with rfl | hq
        · exact .first rfl
        · exact (Reachable.first rfl).of_next hmem (ih hrest hq)

variable [DecidableEq P]

/-- A write at an address that the chain does not meet leaves it as it was. -/
lemma chain_update (h : Chain mem p ns) {q : P} (hq : q ∉ ns.map Prod.fst)
    (n : Option (Node P α)) : Chain (Function.update mem q n) p ns := by
  induction ns generalizing p with
  | nil => exact h
  | cons m ns ih =>
      obtain ⟨rfl, nx, hmem, hrest⟩ := h
      rw [List.map_cons, List.mem_cons, not_or] at hq
      exact ⟨rfl, nx, by rw [Function.update_of_ne (Ne.symm hq.1), hmem], ih hrest hq.2⟩

/-- **A node is linked behind the last one**: the last node's link is set to the
new node, whose own link is null. -/
lemma chain_snoc {t q : P} {a b : α} (h : Chain mem p (ns ++ [(t, a)]))
    (hq : mem q = some ⟨b, none⟩) (hnew : q ∉ (ns ++ [(t, a)]).map Prod.fst) :
    Chain (Function.update mem t (some ⟨a, some q⟩)) p (ns ++ [(t, a), (q, b)]) := by
  induction ns generalizing p with
  | nil =>
      simp only [List.nil_append, List.map_cons, List.map_nil, List.mem_singleton] at hnew
      obtain ⟨rfl, -⟩ := h
      exact ⟨rfl, some q, by simp, rfl, none, by rw [Function.update_of_ne hnew, hq], rfl⟩
  | cons m ns ih =>
      have hnd := chain_nodup h
      obtain ⟨rfl, nx, hmem, hrest⟩ := h
      rw [List.cons_append, List.map_cons] at hnd hnew
      rw [List.nodup_cons] at hnd
      rw [List.mem_cons, not_or] at hnew
      have hne : m.1 ≠ t := fun he => hnd.1 (by simp [he])
      exact ⟨rfl, nx, by rw [Function.update_of_ne hne, hmem], ih hrest hnew.2⟩

/-- **The first node is freed**: the rest is a chain. -/
lemma chain_free_first {q : P} {a : α} {nx : Option P} (h : Chain mem (some q) ((q, a) :: ns))
    (hq : mem q = some ⟨a, nx⟩) : Chain (Function.update mem q none) nx ns := by
  have hnd := chain_nodup h
  rw [List.map_cons, List.nodup_cons] at hnd
  obtain ⟨-, nx', hmem, hrest⟩ := h
  obtain rfl : nx = nx' := by simpa using hq.symm.trans hmem
  exact chain_update hrest hnd.1 none

/-- **A node is unlinked and freed**: the link of the node before it is set past it. -/
lemma chain_unlink {t q : P} {a b : α} {nx : Option P}
    (h : Chain mem p (ns ++ (t, a) :: (q, b) :: ms)) (hq : mem q = some ⟨b, nx⟩) :
    Chain (Function.update (Function.update mem t (some ⟨a, nx⟩)) q none) p
      (ns ++ (t, a) :: ms) := by
  induction ns generalizing p with
  | nil =>
      have hnd := chain_nodup h
      simp only [List.nil_append, List.map_cons, List.nodup_cons, List.mem_cons, not_or] at hnd
      obtain ⟨⟨htq, ht⟩, hqm, -⟩ := hnd
      obtain ⟨rfl, nx', -, rfl, nx'', hmem, hrest⟩ := h
      obtain rfl : nx = nx'' := by simpa using hq.symm.trans hmem
      refine ⟨rfl, nx, ?_, chain_update (chain_update hrest ht _) hqm _⟩
      rw [Function.update_of_ne htq, Function.update_self]
  | cons m ns ih =>
      have hnd := chain_nodup h
      obtain ⟨rfl, nx', hmem, hrest⟩ := h
      rw [List.cons_append, List.map_cons, List.nodup_cons] at hnd
      have hmt : m.1 ≠ t := fun he => hnd.1 (by simp [he])
      have hmq : m.1 ≠ q := fun he => hnd.1 (by simp [he])
      exact ⟨rfl, nx', by rw [Function.update_of_ne hmq, Function.update_of_ne hmt, hmem],
        ih hrest⟩

end Chains

end LinkedList
