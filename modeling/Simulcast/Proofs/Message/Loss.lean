import Simulcast.Message.Basic
import Simulcast.Proofs.Binary64.Order

/-!
# Loss rates

A loss rate is held between zero and one, both when it is sent and when it is read. What is not finite counts
as no loss. Negative zero is a loss rate as well and stays what it is.

## Main definitions

* `HeldAsLoss` — the loss rate that a number stands for

## Main results

* `heldAsLoss_iff` — every number stands for exactly one loss rate
* `HeldAsLoss.spec` — a loss rate lies between zero and one
* `clampLoss_eq_self` — what lies between zero and one stands for itself
-/

namespace Simulcast

variable {x y : Binary64}

/-- The loss rate that a number stands for: zero without being finite, the nearer end of the range outside of
it, and within it the number itself. -/
inductive HeldAsLoss (x : Binary64) : Binary64 → Prop
  | unusable (h : x.isFinite = false) : HeldAsLoss x 0
  | below (hfinite : x.isFinite = true) (h : x < 0) : HeldAsLoss x 0
  | above (hfinite : x.isFinite = true) (h : 1 < x) : HeldAsLoss x 1
  | within (hzero : 0 ≤ x) (hone : x ≤ 1) : HeldAsLoss x x

theorem infinity_outside :
    ¬ (0 : Binary64) ≤ .infinity true ∧ ¬ Binary64.infinity false ≤ 1 := by
  decide +kernel

/-- Neither of the infinities lies between zero and one. -/
theorem isFinite_of_within (hzero : 0 ≤ x) (hone : x ≤ 1) : x.isFinite = true := by
  rcases x with _ | s | ⟨s, m, h⟩
  · exact absurd rfl (Binary64.ne_nan_of_le hzero).2
  · cases s
    · exact absurd hone infinity_outside.2
    · exact absurd hzero infinity_outside.1
  · rfl

theorem heldAsLoss_clampLoss (x : Binary64) : HeldAsLoss x (clampLoss x) := by
  unfold clampLoss
  split
  · next hfinite =>
    have hx := Binary64.ne_nan_of_isFinite hfinite
    have hzero : (0 : Binary64) ≠ .nan := by decide +kernel
    have hone : (1 : Binary64) ≠ .nan := by decide +kernel
    split
    · next hbelow => exact .below hfinite hbelow
    split
    · next habove => exact .above hfinite habove
    · next hbelow habove =>
      rw [Binary64.lt_iff_place_lt hx hzero, not_lt] at hbelow
      rw [Binary64.lt_iff_place_lt hone hx, not_lt] at habove
      exact .within ((Binary64.le_iff_place_le hzero hx).2 hbelow)
        ((Binary64.le_iff_place_le hx hone).2 habove)
  · next h => exact .unusable (Bool.eq_false_iff.2 h)

/-- What lies between zero and one stays as it is. -/
theorem clampLoss_eq_self (hzero : 0 ≤ x) (hone : x ≤ 1) : clampLoss x = x := by
  have hfinite := isFinite_of_within hzero hone
  obtain ⟨hzero_ne, hx⟩ := Binary64.ne_nan_of_le hzero
  obtain ⟨-, hone_ne⟩ := Binary64.ne_nan_of_le hone
  rw [Binary64.le_iff_place_le hzero_ne hx] at hzero
  rw [Binary64.le_iff_place_le hx hone_ne] at hone
  rw [clampLoss, if_pos hfinite, if_neg, if_neg]
  · rw [Binary64.lt_iff_place_lt hone_ne hx]
    exact not_lt.2 hone
  · rw [Binary64.lt_iff_place_lt hx hzero_ne]
    exact not_lt.2 hzero

/-- A number above one is not below zero. -/
theorem not_neg_of_one_lt (h : 1 < x) : ¬ x < 0 := by
  have hone : (1 : Binary64) ≠ .nan := by decide +kernel
  have hzero : (0 : Binary64) ≠ .nan := by decide +kernel
  have hplaces : (0 : Binary64).place < (1 : Binary64).place := by decide +kernel
  intro hneg
  obtain ⟨-, hx⟩ := Binary64.ne_nan_of_le (Or.inl h : (1 : Binary64) ≤ x)
  rw [Binary64.lt_iff_place_lt hone hx] at h
  rw [Binary64.lt_iff_place_lt hx hzero] at hneg
  omega

theorem HeldAsLoss.eq_clampLoss (h : HeldAsLoss x y) : y = clampLoss x := by
  cases h with
  | unusable h => rw [clampLoss, if_neg (Bool.eq_false_iff.1 h)]
  | below hfinite h => rw [clampLoss, if_pos hfinite, if_pos h]
  | above hfinite h => rw [clampLoss, if_pos hfinite, if_neg (not_neg_of_one_lt h), if_pos h]
  | within hzero hone => exact (clampLoss_eq_self hzero hone).symm

/-- Every number stands for exactly one loss rate. -/
theorem heldAsLoss_iff : HeldAsLoss x y ↔ y = clampLoss x :=
  ⟨HeldAsLoss.eq_clampLoss, fun h => h ▸ heldAsLoss_clampLoss x⟩

/-- A loss rate lies between zero and one. -/
theorem HeldAsLoss.spec (h : HeldAsLoss x y) : y.isFinite = true ∧ 0 ≤ y ∧ y ≤ 1 := by
  cases h with
  | unusable => decide +kernel
  | below => decide +kernel
  | above => decide +kernel
  | within hzero hone => exact ⟨isFinite_of_within hzero hone, hzero, hone⟩

theorem clampLoss_spec (x : Binary64) :
    (clampLoss x).isFinite = true ∧ 0 ≤ clampLoss x ∧ clampLoss x ≤ 1 :=
  (heldAsLoss_clampLoss x).spec

@[simp] theorem clampLoss_clampLoss (x : Binary64) : clampLoss (clampLoss x) = clampLoss x :=
  clampLoss_eq_self (clampLoss_spec x).2.1 (clampLoss_spec x).2.2

end Simulcast
