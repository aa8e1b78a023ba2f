import Mathlib.Tactic

/-!
Recency lists: keyed items, at most one for each key, ordered from the least
to the most recently used one.

* `lookup`, `del`, `touch`: the item of a key, a list without it, and a list
  in which an item is the most recently used one of its key.
* `KeysNodup`: at most one item for each key, kept by every operation.
* `mem_touch`: the members of a touched list, the fact that relates what is
  stored to the history of the operations.
* `evict`: the least recently used items dropped while the rest is too much;
  `exists_evict_eq_drop` says how many these are.
* `pairwise_rank_snoc`: a list that is ordered by a rank of the keys, and a new item.
* `weight`: the sum of the weights of the items, and what the operations do to it.
-/

namespace Recency

variable {α κ : Type*} [DecidableEq κ] (key : α → κ)

/-- At most one item for each key. -/
def KeysNodup (l : List α) : Prop := (l.map key).Nodup

/-- The item stored under a key. -/
def lookup (k : κ) (l : List α) : Option α := l.find? (key · = k)

/-- The list without the item of a key. -/
def del (k : κ) (l : List α) : List α := l.filter (key · ≠ k)

/-- The list without its oldest items, dropped one by one while what is left is
`heavy`. -/
def evict (heavy : List α → Bool) : List α → List α
  | [] => []
  | a :: l => if heavy (a :: l) then evict heavy l else a :: l

/-- The list in which `a` is the item of its key and the most recently used one. -/
def touch (a : α) (l : List α) : List α := del key (key a) l ++ [a]

variable {key}

lemma mem_del {k : κ} {l : List α} {a : α} : a ∈ del key k l ↔ a ∈ l ∧ key a ≠ k := by
  simp [del]

lemma mem_touch {a b : α} {l : List α} :
    b ∈ touch key a l ↔ b = a ∨ b ∈ l ∧ key b ≠ key a := by
  simp only [touch, List.mem_append, mem_del, List.mem_singleton]
  tauto

lemma mem_of_lookup {k : κ} {l : List α} {a : α} (h : lookup key k l = some a) :
    a ∈ l ∧ key a = k :=
  ⟨List.mem_of_find?_eq_some h, by simpa using List.find?_some h⟩

lemma lookup_eq_none {k : κ} {l : List α} : lookup key k l = none ↔ ∀ a ∈ l, key a ≠ k := by
  simp [lookup]

/-- A list without the key is unchanged by deleting it. -/
lemma del_of_lookup_none {k : κ} {l : List α} (h : lookup key k l = none) : del key k l = l := by
  rw [del, List.filter_eq_self]
  simpa using lookup_eq_none.mp h

/-- With at most one item for each key, every member is found under its key. -/
lemma KeysNodup.lookup_eq {l : List α} (h : KeysNodup key l) {a : α} (ha : a ∈ l) :
    lookup key (key a) l = some a := by
  cases hl : lookup key (key a) l with
  | none => exact absurd rfl (lookup_eq_none.mp hl a ha)
  | some b =>
      obtain ⟨hb, hk⟩ := mem_of_lookup hl
      rw [List.inj_on_of_nodup_map h hb ha hk]

omit [DecidableEq κ] in
/-- Eviction keeps the most recently used items. -/
lemma evict_suffix (heavy : List α → Bool) (l : List α) : evict heavy l <:+ l := by
  induction l with
  | nil => exact List.suffix_refl _
  | cons a l ih =>
      rw [evict]
      split
      · exact ih.trans (List.suffix_cons a l)
      · exact List.suffix_refl _

omit [DecidableEq κ] in
/-- What eviction leaves is not too much, or nothing. -/
lemma evict_light (heavy : List α → Bool) (l : List α) :
    evict heavy l = [] ∨ heavy (evict heavy l) = false := by
  induction l with
  | nil => exact Or.inl rfl
  | cons a l ih =>
      rw [evict]
      split
      · exact ih
      · next h => exact Or.inr (by simpa using h)

omit [DecidableEq κ] in
lemma evict_eq_self {heavy : List α → Bool} {l : List α} (h : heavy l = false) :
    evict heavy l = l := by
  cases l with
  | nil => rfl
  | cons a l => rw [evict, h]; rfl

omit [DecidableEq κ] in
/-- As few of the oldest items are dropped as possible. -/
lemma exists_evict_eq_drop {heavy : List α → Bool} (hnil : heavy [] = false) (l : List α) :
    ∃ n, evict heavy l = l.drop n ∧ IsLeast {k | heavy (l.drop k) = false} n := by
  induction l with
  | nil => exact ⟨0, rfl, hnil, fun _ _ => Nat.zero_le _⟩
  | cons a l ih =>
      cases hheavy : heavy (a :: l) with
      | false => exact ⟨0, evict_eq_self hheavy, hheavy, fun _ _ => Nat.zero_le _⟩
      | true =>
          obtain ⟨n, hevict, hlight, hleast⟩ := ih
          refine ⟨n + 1, ?_, hlight, ?_⟩
          · rw [evict, if_pos hheavy, hevict, List.drop_succ_cons]
          · intro k hk
            cases k with
            | zero =>
                have hlight' : heavy (a :: l) = false := hk
                rw [hheavy] at hlight'
                cases hlight'
            | succ k => exact Nat.succ_le_succ (hleast hk)

omit [DecidableEq κ] in
/-- An item of the greatest rank after items whose ranks stay as they were. -/
lemma pairwise_rank_snoc {rank rank' : κ → ℕ} {l : List α} {a : α}
    (h : l.Pairwise fun b c => rank (key b) < rank (key c))
    (hsame : ∀ b ∈ l, rank' (key b) = rank (key b))
    (hlast : ∀ b ∈ l, rank (key b) < rank' (key a)) :
    (l ++ [a]).Pairwise fun b c => rank' (key b) < rank' (key c) := by
  refine List.pairwise_append.mpr ⟨?_, List.pairwise_singleton _ _, ?_⟩
  · refine h.imp_of_mem fun hb hc hlt => ?_
    rwa [hsame _ hb, hsame _ hc]
  · intro b hb c hc
    rw [List.mem_singleton.mp hc, hsame b hb]
    exact hlast b hb

/-! ### Weights -/

/-- The weight of a list of weighted items. -/
def weight (w : α → ℕ) (l : List α) : ℕ := (l.map w).sum

omit [DecidableEq κ] in
lemma weight_mono (w : α → ℕ) {l l' : List α} (h : List.Sublist l' l) :
    weight w l' ≤ weight w l :=
  List.Sublist.sum_le_sum (h.map w) fun _ _ => Nat.zero_le _

/-- The weight of a list is that of the item of a key and that of the others. -/
lemma KeysNodup.weight_eq (w : α → ℕ) {l : List α} (h : KeysNodup key l) {k : κ} {a : α}
    (ha : lookup key k l = some a) : weight w l = w a + weight w (del key k l) := by
  induction l with
  | nil => simp [lookup] at ha
  | cons b l ih =>
      rw [KeysNodup, List.map_cons, List.nodup_cons] at h
      by_cases hb : key b = k
      · have hab : a = b := by simpa [lookup, hb, eq_comm] using ha
        have hnone : lookup key k l = none :=
          lookup_eq_none.mpr fun c hc hk => h.1 (List.mem_map.mpr ⟨c, hc, by rw [hk, hb]⟩)
        have hdel : del key k (b :: l) = l := by
          rw [del, List.filter_cons_of_neg (by simpa using hb)]
          exact del_of_lookup_none hnone
        rw [hdel, hab]
        simp [weight]
      · have ha' : lookup key k l = some a := by simpa [lookup, hb] using ha
        have hdel : del key k (b :: l) = b :: del key k l :=
          List.filter_cons_of_pos (by simpa using hb)
        have hih := ih h.2 ha'
        rw [hdel]
        simp only [weight, List.map_cons, List.sum_cons] at hih ⊢
        omega

lemma weight_touch (w : α → ℕ) (a : α) (l : List α) :
    weight w (touch key a l) = weight w (del key (key a) l) + w a := by
  simp [weight, touch]

end Recency
