import Mathlib.Tactic
import Mathlib.Data.List.Rotate

/-!
A circle of `n` places, and its division into shares.

* `range_rotate`: a round from any place on is a rotation of the round from the first;
  `filter_rotate_isRotated` keeps some of the places only.
* `steps_of_return`, `exists_steps`: a walk along the circle comes back to its place after
  a whole round, and meets every other place before.
* `owner`: where the running sum of the shares first exceeds a place.
* `count_owner_rotate`: in a round from any place on, everyone owns as many places as the
  share says.
-/

namespace Shares

/-- A round from the place `c` on. -/
lemma range_rotate (n c : ℕ) :
    (List.range n).rotate c = (List.range n).map fun i => (c + i) % n := by
  refine List.ext_getElem (by simp) fun i hi hi' => ?_
  simp [List.getElem_rotate, Nat.add_comm]

/-- The elements of a kind keep their cyclic order in a rotation. -/
lemma filter_rotate_isRotated {α : Type*} (q : α → Bool) (l : List α) (c : ℕ) :
    (l.rotate c).filter q ~r l.filter q := by
  rw [List.rotate_eq_drop_append_take_mod, List.filter_append]
  refine List.isRotated_append.trans ?_
  rw [← List.filter_append, List.take_append_drop]

/-- A walk that comes back to the place it left has gone through the circle. -/
lemma steps_of_return {n k j : ℕ} (hk : k < n) (hj : j < n) (h : (k + 1 + j) % n = k) :
    j = n - 1 := by
  have hback : (k + (j + 1)) % n = (k + 0) % n := calc
    (k + (j + 1)) % n = (k + 1 + j) % n := by rw [Nat.add_right_comm, Nat.add_assoc]
    _ = k := h
    _ = (k + 0) % n := (Nat.mod_eq_of_lt hk).symm
  have hmod := Nat.ModEq.add_left_cancel' k hback
  rw [Nat.ModEq, Nat.zero_mod] at hmod
  have hle := Nat.le_of_dvd (by omega) (Nat.dvd_of_mod_eq_zero hmod)
  omega

/-- It meets every other place before. -/
lemma exists_steps {n k q : ℕ} (hk : k < n) (hq : q < n) (hne : q ≠ k) :
    ∃ j < n - 1, (k + 1 + j) % n = q := by
  rcases Nat.lt_or_gt_of_ne hne with hlt | hgt
  · refine ⟨q + n - (k + 1), by omega, ?_⟩
    rw [show k + 1 + (q + n - (k + 1)) = q + n by omega, Nat.add_mod_right, Nat.mod_eq_of_lt hq]
  · refine ⟨q - (k + 1), by omega, ?_⟩
    rw [show k + 1 + (q - (k + 1)) = q by omega, Nat.mod_eq_of_lt hq]

/-- The first position at which the running sum of the shares exceeds the place `t`. -/
def owner : List ℕ → ℕ → ℕ
  | [], _ => 0
  | w :: ws, t => if t < w then 0 else owner ws (t - w) + 1

/-- Everyone owns as many places as the share says. -/
lemma count_owner (ws : List ℕ) (p : ℕ) :
    ((List.range ws.sum).map (owner ws)).count p = ws.getD p 0 := by
  induction ws generalizing p with
  | nil => simp
  | cons w ws ih =>
      have hfirst : (List.range w).map (owner (w :: ws)) = List.replicate w 0 := by
        refine List.eq_replicate_iff.mpr ⟨by simp, fun q hq => ?_⟩
        obtain ⟨t, ht, rfl⟩ := List.mem_map.mp hq
        exact if_pos (List.mem_range.mp ht)
      have hrest : (List.range ws.sum).map (owner (w :: ws) ∘ (w + ·)) =
          ((List.range ws.sum).map (owner ws)).map (· + 1) := by
        rw [List.map_map]
        refine List.map_congr_left fun t _ => ?_
        rw [Function.comp_apply, owner, if_neg (by omega), Nat.add_sub_cancel_left]
        rfl
      rw [List.sum_cons, List.range_add, List.map_append, List.map_map, hfirst, hrest,
        List.count_append]
      cases p with
      | zero =>
          have hnone : (((List.range ws.sum).map (owner ws)).map (· + 1)).count 0 = 0 :=
            List.count_eq_zero.mpr fun h => by
              obtain ⟨q, -, hq⟩ := List.mem_map.mp h
              omega
          rw [hnone, List.count_replicate_self]
          rfl
      | succ p =>
          have hshift : (((List.range ws.sum).map (owner ws)).map (· + 1)).count (p + 1) =
              ((List.range ws.sum).map (owner ws)).count p :=
            List.count_map_of_injective _ _ (add_left_injective 1) p
          have hnone : (List.replicate w 0).count (p + 1) = 0 := by
            simp [List.count_replicate]
          rw [hshift, hnone, Nat.zero_add, ih]
          rfl

/-- **The full round**: it does not matter where it starts. -/
theorem count_owner_rotate (ws : List ℕ) (c p : ℕ) :
    (((List.range ws.sum).map fun i => (c + i) % ws.sum).map (owner ws)).count p =
      ws.getD p 0 := by
  rw [← range_rotate, List.map_rotate, (List.rotate_perm _ c).count_eq, count_owner]

end Shares
