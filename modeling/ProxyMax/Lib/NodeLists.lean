import ProxyMax.Lib.LinkedList

/-!
Walks over linked lists, and a memory that holds one list.

* `findNode`, `countNodes`, `readNodes`, `mapNodes`, `freeNodes`: the loops that search a list,
  count it, read it, change it and free it; they stop where they come to an address without a node.
* `findNode_chain`, `countNodes_chain`, `readNodes_chain`, `mapNodes_chain`, `freeNodes_chain`: on a
  chain they do not, and what they give.
* `chain_drop`, `chain_getElem`: the nodes of a chain by their positions.
* `NodeList`, `NodeList.Holds`: a memory with the first address of a list, where the nodes of the
  list are all that is allocated.
* `Holds.push`, `Holds.update`, `Holds.mapAll`, `Holds.freeAll`: what keeps this.
-/

namespace LinkedList

section Walks

variable {P α : Type*}

/-- "while (node)": the first node whose value passes the test, within at most `fuel` passes. -/
def findNode (test : α → Bool) (mem : P → Option (Node P α)) : ℕ → Option P → Option (Option P)
  | _, none => some none
  | 0, some _ => none
  | fuel + 1, some p =>
      (mem p).bind fun node =>
        if test node.value then some (some p) else findNode test mem fuel node.next

/-- The number of the nodes from an address on. -/
def countNodes (mem : P → Option (Node P α)) : ℕ → Option P → Option ℕ
  | _, none => some 0
  | 0, some _ => none
  | fuel + 1, some p => (mem p).bind fun node => (countNodes mem fuel node.next).map (· + 1)

/-- The values of the nodes from an address on. -/
def readNodes (mem : P → Option (Node P α)) : ℕ → Option P → Option (List α)
  | _, none => some []
  | 0, some _ => none
  | fuel + 1, some p =>
      (mem p).bind fun node => (readNodes mem fuel node.next).map (node.value :: ·)

/-- Each node from an address on is changed by `f`, which knows how many came before it, and its
answers are collected. -/
def mapNodes [DecidableEq P] {β : Type*} (f : ℕ → α → β × α) :
    ℕ → ℕ → (P → Option (Node P α)) → Option P → Option (List β × (P → Option (Node P α)))
  | _, _, mem, none => some ([], mem)
  | 0, _, _, some _ => none
  | fuel + 1, k, mem, some p =>
      (mem p).bind fun node =>
        (mapNodes f fuel (k + 1) (Function.update mem p (some ⟨(f k node.value).2, node.next⟩))
          node.next).map fun r => ((f k node.value).1 :: r.1, r.2)

/-- The link of a node is read, and the node is freed, from an address on. -/
def freeNodes [DecidableEq P] : ℕ → (P → Option (Node P α)) → Option P →
    Option (P → Option (Node P α))
  | _, mem, none => some mem
  | 0, _, some _ => none
  | fuel + 1, mem, some p =>
      (mem p).bind fun node => freeNodes fuel (Function.update mem p none) node.next

variable {mem : P → Option (Node P α)} {p : Option P} {ns : List (P × α)} {fuel : ℕ}

/-- **The search** finds the first node that passes. -/
lemma findNode_chain (test : α → Bool) (h : Chain mem p ns) (hfuel : ns.length ≤ fuel) :
    findNode test mem fuel p = some ((ns.find? fun n => test n.2).map Prod.fst) := by
  induction ns generalizing p fuel with
  | nil =>
      obtain rfl : p = none := h
      cases fuel <;> rfl
  | cons n ns ih =>
      obtain ⟨rfl, nx, hmem, hrest⟩ := h
      obtain ⟨fuel, rfl⟩ := Nat.exists_eq_add_one_of_ne_zero (Nat.ne_zero_of_lt hfuel)
      rw [findNode, hmem, Option.bind_some]
      by_cases htest : test n.2 = true
      · rw [if_pos htest, List.find?_cons_of_pos (by exact htest), Option.map_some]
      · rw [if_neg htest, List.find?_cons_of_neg (by exact htest)]
        exact ih hrest (Nat.le_of_succ_le_succ hfuel)

/-- **The count** is the length. -/
lemma countNodes_chain (h : Chain mem p ns) (hfuel : ns.length ≤ fuel) :
    countNodes mem fuel p = some ns.length := by
  induction ns generalizing p fuel with
  | nil =>
      obtain rfl : p = none := h
      cases fuel <;> rfl
  | cons n ns ih =>
      obtain ⟨rfl, nx, hmem, hrest⟩ := h
      obtain ⟨fuel, rfl⟩ := Nat.exists_eq_add_one_of_ne_zero (Nat.ne_zero_of_lt hfuel)
      rw [countNodes, hmem, Option.bind_some, ih hrest (Nat.le_of_succ_le_succ hfuel),
        Option.map_some, List.length_cons]

/-- **The values** are read in order. -/
lemma readNodes_chain (h : Chain mem p ns) (hfuel : ns.length ≤ fuel) :
    readNodes mem fuel p = some (ns.map Prod.snd) := by
  induction ns generalizing p fuel with
  | nil =>
      obtain rfl : p = none := h
      cases fuel <;> rfl
  | cons n ns ih =>
      obtain ⟨rfl, nx, hmem, hrest⟩ := h
      obtain ⟨fuel, rfl⟩ := Nat.exists_eq_add_one_of_ne_zero (Nat.ne_zero_of_lt hfuel)
      rw [readNodes, hmem, Option.bind_some, ih hrest (Nat.le_of_succ_le_succ hfuel),
        Option.map_some, List.map_cons]

/-- The chain from a position on. -/
lemma chain_drop (h : Chain mem p ns) (i : ℕ) : Chain mem (ns.map Prod.fst)[i]? (ns.drop i) := by
  induction ns generalizing p i with
  | nil => simp
  | cons n ns ih =>
      have hall := h
      obtain ⟨rfl, nx, -, hrest⟩ := h
      cases i with
      | zero => exact hall
      | succ i => exact ih hrest i

/-- **The node at a position** has the value there and the address of the next position. -/
lemma chain_getElem (h : Chain mem p ns) {i : ℕ} {n : P × α} (hn : ns[i]? = some n) :
    mem n.1 = some ⟨n.2, (ns.map Prod.fst)[i + 1]?⟩ := by
  obtain ⟨hi, rfl⟩ := List.getElem?_eq_some_iff.mp hn
  have hdrop := chain_drop h i
  rw [List.drop_eq_getElem_cons hi] at hdrop
  obtain ⟨-, nx, hmem, hrest⟩ := hdrop
  rw [chain_first hrest, List.map_drop, List.head?_drop] at hmem
  exact hmem

variable [DecidableEq P]

/-- **The loop that changes** comes to each node once, and leaves the links and the rest of the
memory. -/
lemma mapNodes_chain {β : Type*} (f : ℕ → α → β × α) (h : Chain mem p ns)
    (hfuel : ns.length ≤ fuel) (k : ℕ) :
    ∃ mem', mapNodes f fuel k mem p = some (ns.mapIdx fun i n => (f (k + i) n.2).1, mem') ∧
      Chain mem' p (ns.mapIdx fun i n => (n.1, (f (k + i) n.2).2)) ∧
      ∀ q, q ∉ ns.map Prod.fst → mem' q = mem q := by
  induction ns generalizing p mem fuel k with
  | nil =>
      obtain rfl : p = none := h
      exact ⟨mem, by cases fuel <;> rfl, rfl, fun _ _ => rfl⟩
  | cons n ns ih =>
      have hnodup := chain_nodup h
      rw [List.map_cons, List.nodup_cons] at hnodup
      obtain ⟨rfl, nx, hmem, hrest⟩ := h
      obtain ⟨fuel, rfl⟩ := Nat.exists_eq_add_one_of_ne_zero (Nat.ne_zero_of_lt hfuel)
      obtain ⟨mem', hmap, hchain, hframe⟩ := ih (chain_update hrest hnodup.1
        (some ⟨(f k n.2).2, nx⟩)) (Nat.le_of_succ_le_succ hfuel) (k + 1)
      have hshift : ∀ i, k + 1 + i = k + (i + 1) := by omega
      simp only [hshift] at hmap hchain
      refine ⟨mem', ?_, ?_, fun q hq => ?_⟩
      · rw [mapNodes, hmem, Option.bind_some, hmap, Option.map_some, List.mapIdx_cons]
        rfl
      · rw [List.mapIdx_cons]
        exact ⟨rfl, nx, (hframe _ hnodup.1).trans (Function.update_self ..), hchain⟩
      · rw [List.map_cons, List.mem_cons, not_or] at hq
        rw [hframe q hq.2, Function.update_of_ne hq.1]

/-- **The loop that frees** comes to each node once, and leaves the rest of the memory. -/
lemma freeNodes_chain (h : Chain mem p ns) (hfuel : ns.length ≤ fuel) :
    freeNodes fuel mem p = some fun q => if q ∈ ns.map Prod.fst then none else mem q := by
  induction ns generalizing p mem fuel with
  | nil =>
      obtain rfl : p = none := h
      cases fuel <;> simp [freeNodes]
  | cons n ns ih =>
      obtain ⟨q, a⟩ := n
      have hall := h
      obtain ⟨rfl, nx, hmem, -⟩ := h
      obtain ⟨fuel, rfl⟩ := Nat.exists_eq_add_one_of_ne_zero (Nat.ne_zero_of_lt hfuel)
      rw [freeNodes, hmem, Option.bind_some,
        ih (chain_free_first hall hmem) (Nat.le_of_succ_le_succ hfuel)]
      congr 1
      funext r
      by_cases hr : r = q
      · subst hr
        simp
      · have hiff : r ∈ ((q, a) :: ns).map Prod.fst ↔ r ∈ ns.map Prod.fst := by simp [hr]
        rw [Function.update_of_ne hr]
        exact if_congr hiff.symm rfl rfl

/-- A node is linked in before the first one. -/
lemma chain_push {q : P} (a : α) (h : Chain mem p ns) (hq : q ∉ ns.map Prod.fst) :
    Chain (Function.update mem q (some ⟨a, p⟩)) (some q) ((q, a) :: ns) :=
  ⟨rfl, p, Function.update_self .., chain_update h hq _⟩

/-- The value of a node is changed. -/
lemma chain_setValue {q : P} {a : α} {nx : Option P} (h : Chain mem p ns)
    (hq : mem q = some ⟨a, nx⟩) (b : α) :
    Chain (Function.update mem q (some ⟨b, nx⟩)) p
      (ns.map fun n => if n.1 = q then (q, b) else n) := by
  induction ns generalizing p with
  | nil => exact h
  | cons n ns ih =>
      have hnodup := chain_nodup h
      rw [List.map_cons, List.nodup_cons] at hnodup
      obtain ⟨rfl, nx', hmem, hrest⟩ := h
      rw [List.map_cons]
      by_cases hn : n.1 = q
      · subst hn
        rw [hq] at hmem
        obtain ⟨-, rfl⟩ := Node.mk.inj (Option.some.inj hmem)
        rw [if_pos rfl]
        refine ⟨rfl, nx, Function.update_self .., ?_⟩
        have hsame : (ns.map fun m => if m.1 = n.1 then (n.1, b) else m) = ns := by
          refine (List.map_congr_left fun m hm => if_neg ?_).trans (List.map_id _)
          rintro heq
          exact hnodup.1 (heq ▸ List.mem_map_of_mem hm)
        rw [hsame]
        exact chain_update hrest hnodup.1 _
      · rw [if_neg hn]
        exact ⟨rfl, nx', by rw [Function.update_of_ne hn, hmem], ih hrest⟩

end Walks

/-! ### A memory that holds one list -/

/-- The memory, the first address, and the next address that `malloc` gives. -/
structure NodeList (α : Type*) where
  mem : ℕ → Option (Node ℕ α)
  head : Option ℕ
  fresh : ℕ

namespace NodeList

variable {α β : Type*}

/-- No node. -/
def empty : NodeList α := ⟨fun _ => none, none, 0⟩

/-- A node is allocated and linked in before the first one. -/
def push (l : NodeList α) (a : α) : NodeList α where
  mem := Function.update l.mem l.fresh (some ⟨a, l.head⟩)
  head := some l.fresh
  fresh := l.fresh + 1

/-- The value of a node is read and written back as `f` has it. -/
def update (l : NodeList α) (p : ℕ) (f : α → β × α) : Option (β × NodeList α) :=
  (l.mem p).map fun node =>
    ((f node.value).1,
      { l with mem := Function.update l.mem p (some ⟨(f node.value).2, node.next⟩) })

/-- All values are changed. -/
def mapAll (f : ℕ → α → β × α) (fuel : ℕ) (l : NodeList α) : Option (List β × NodeList α) :=
  (mapNodes f fuel 0 l.mem l.head).map fun r => (r.1, { l with mem := r.2 })

/-- All nodes are freed, and the list is empty. -/
def freeAll (fuel : ℕ) (l : NodeList α) : Option (NodeList α) :=
  (freeNodes fuel l.mem l.head).map fun mem => ⟨mem, none, l.fresh⟩

/-- The list is that of the nodes `ns`, which are all that is allocated. -/
structure Holds (l : NodeList α) (ns : List (ℕ × α)) : Prop where
  chain : Chain l.mem l.head ns
  only : ∀ p, p ∉ ns.map Prod.fst → l.mem p = none
  lt_fresh : ∀ n ∈ ns, n.1 < l.fresh

variable {l : NodeList α} {ns : List (ℕ × α)}

lemma holds_empty : (empty : NodeList α).Holds [] := ⟨rfl, fun _ _ => rfl, by simp⟩

lemma Holds.fresh_notMem (h : l.Holds ns) : l.fresh ∉ ns.map Prod.fst := by
  intro hmem
  obtain ⟨n, hn, heq⟩ := List.mem_map.mp hmem
  exact absurd (h.lt_fresh n hn) (by omega)

lemma Holds.push (h : l.Holds ns) (a : α) : (l.push a).Holds ((l.fresh, a) :: ns) where
  chain := chain_push a h.chain h.fresh_notMem
  only := by
    intro p hp
    rw [List.map_cons, List.mem_cons, not_or] at hp
    exact (Function.update_of_ne hp.1 ..).trans (h.only p hp.2)
  lt_fresh := by
    intro n hn
    rcases List.mem_cons.mp hn with rfl | hn
    · exact Nat.lt_succ_self _
    · exact Nat.lt_succ_of_lt (h.lt_fresh n hn)

/-- The addresses after a change of one value. -/
lemma map_fst_change (ns : List (ℕ × α)) (p : ℕ) (b : α) :
    (ns.map fun n => if n.1 = p then (p, b) else n).map Prod.fst = ns.map Prod.fst := by
  rw [List.map_map]
  refine List.map_congr_left fun n _ => ?_
  by_cases hn : n.1 = p <;> simp [hn]

/-- **A change of one value.** -/
lemma Holds.update (h : l.Holds ns) {p : ℕ} {a : α} (hp : (p, a) ∈ ns) (f : α → β × α) :
    ∃ l', l.update p f = some ((f a).1, l') ∧ l'.fresh = l.fresh ∧
      l'.Holds (ns.map fun n => if n.1 = p then (p, (f a).2) else n) := by
  obtain ⟨nx, hmem⟩ := chain_mem h.chain hp
  refine ⟨{ l with mem := Function.update l.mem p (some ⟨(f a).2, nx⟩) }, ?_, rfl,
    chain_setValue h.chain hmem _, fun q hq => ?_, fun n hn => ?_⟩
  · rw [NodeList.update, hmem, Option.map_some]
  · rw [map_fst_change] at hq
    have hne : q ≠ p := fun heq => hq (heq ▸ List.mem_map_of_mem hp)
    exact (Function.update_of_ne hne ..).trans (h.only q hq)
  · have hfst := List.mem_map_of_mem (f := Prod.fst) hn
    rw [map_fst_change] at hfst
    obtain ⟨m, hm, hmn⟩ := List.mem_map.mp hfst
    exact hmn ▸ h.lt_fresh m hm

/-- **A change of all values.** -/
lemma Holds.mapAll (h : l.Holds ns) (f : ℕ → α → β × α) {fuel : ℕ} (hfuel : ns.length ≤ fuel) :
    ∃ l', l.mapAll f fuel = some (ns.mapIdx fun i n => (f i n.2).1, l') ∧ l'.fresh = l.fresh ∧
      l'.Holds (ns.mapIdx fun i n => (n.1, (f i n.2).2)) := by
  obtain ⟨mem', hmap, hchain, hframe⟩ := mapNodes_chain f h.chain hfuel 0
  simp only [Nat.zero_add] at hmap hchain
  have hfst : (ns.mapIdx fun i n => (n.1, (f i n.2).2)).map Prod.fst = ns.map Prod.fst := by
    refine List.ext_getElem (by simp) fun i hi _ => ?_
    simp
  refine ⟨{ l with mem := mem' }, ?_, rfl, hchain, fun p hp => ?_, fun n hn => ?_⟩
  · rw [NodeList.mapAll, hmap, Option.map_some]
  · rw [hfst] at hp
    exact (hframe p hp).trans (h.only p hp)
  · have hmem := List.mem_map_of_mem (f := Prod.fst) hn
    rw [hfst] at hmem
    obtain ⟨m, hm, hmn⟩ := List.mem_map.mp hmem
    exact hmn ▸ h.lt_fresh m hm

/-- **Everything is freed**, each node once, and nothing is left. -/
lemma Holds.freeAll (h : l.Holds ns) {fuel : ℕ} (hfuel : ns.length ≤ fuel) :
    ∃ l', l.freeAll fuel = some l' ∧ l'.fresh = l.fresh ∧ l'.Holds [] := by
  refine ⟨⟨fun q => if q ∈ ns.map Prod.fst then none else l.mem q, none, l.fresh⟩, ?_, rfl, rfl,
    fun p _ => ?_, by simp⟩
  · rw [NodeList.freeAll, freeNodes_chain h.chain hfuel, Option.map_some]
  by_cases hp : p ∈ ns.map Prod.fst
  · exact if_pos hp
  · exact (if_neg hp).trans (h.only p hp)

/-- Nothing is allocated. -/
lemma Holds.mem_eq_none (h : l.Holds []) (p : ℕ) : l.mem p = none := h.only p (by simp)

end NodeList

end LinkedList
