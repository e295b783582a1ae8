import Mathlib.Algebra.Order.Ring.Int
import Mathlib.Order.Compare
import Simulcast.Binary64.Basic

/-!
# The order of binary64 numbers

Numbers are compared by their place among the integers, in units of the least positive number, with
both zeros in one place. The operations that select the smaller or the larger operand use a finer
order, in which negative zero lies below zero. This file ties the two together: whatever is
selected, its place is the smaller or the larger of the two places.

NaN has no place. It is excluded by the hypothesis `x ≠ .nan`, which the selecting operations
preserve.

## Main definitions

* `Binary64.place` — the place of a number among the integers

## Main results

* `Binary64.le_iff_place_le`, `Binary64.same_iff_place_eq` — comparison by places
* `Binary64.place_min` — the place of what is selected
-/

namespace Simulcast.Binary64

variable {x y z : Binary64}

/-- The place of a number among the integers, in units of the least positive number. -/
def place (x : Binary64) : Int := x.scaled?.getD 0

@[simp] theorem place_infinity (s : Bool) : (infinity s).place = signed s limit := rfl

@[simp] theorem place_finite (s : Bool) (m : Nat) (h : Representable m) :
    (finite s m h).place = signed s m := rfl

/-- A finite number above zero has no sign. -/
theorem exists_finite_of_place_pos (hfinite : x.isFinite = true) (hpos : 0 < x.place) :
    ∃ m h, x = finite false m h := by
  rcases x with _ | s | ⟨s, m, h⟩
  · cases hfinite
  · cases hfinite
  · cases s with
    | true =>
      rw [place_finite, signed, if_pos rfl] at hpos
      omega
    | false => exact ⟨m, h, rfl⟩

/-- A number above zero is finite if there is a finite one that is no smaller. -/
theorem isFinite_of_place_le (hx : x ≠ .nan) (hpos : 0 < x.place) (h : x.place ≤ y.place)
    (hy : y.isFinite = true) : x.isFinite = true := by
  obtain ⟨m, hm, rfl⟩ := exists_finite_of_place_pos hy (hpos.trans_le h)
  have hlt := hm.1
  rcases x with _ | s | _
  · exact absurd rfl hx
  · -- An infinity is below zero or past the finite numbers.
    cases s with
    | true =>
      rw [place_infinity, signed, if_pos rfl] at hpos
      omega
    | false =>
      simp only [place_infinity, place_finite, signed, if_neg Bool.false_ne_true] at h
      omega
  · rfl

theorem scaled?_eq_some (h : x ≠ .nan) : x.scaled? = some x.place := by
  cases x with
  | nan => exact absurd rfl h
  | infinity s => rfl
  | finite s m hm => rfl

theorem ne_nan_of_isFinite (h : x.isFinite = true) : x ≠ .nan := by
  rintro rfl
  simp [isFinite] at h

theorem compare?_eq_some (hx : x ≠ .nan) (hy : y ≠ .nan) :
    x.compare? y = some (compare x.place y.place) := by
  simp only [compare?, scaled?_eq_some hx, scaled?_eq_some hy]

theorem compare?_eq_none (h : x = .nan ∨ y = .nan) : x.compare? y = none := by
  rcases h with rfl | rfl
  · rfl
  · cases x <;> rfl

theorem lt_iff_place_lt (hx : x ≠ .nan) (hy : y ≠ .nan) : x < y ↔ x.place < y.place := by
  change x.compare? y = some .lt ↔ _
  rw [compare?_eq_some hx hy, Option.some_inj, compare_lt_iff_lt]

theorem le_iff_place_le (hx : x ≠ .nan) (hy : y ≠ .nan) : x ≤ y ↔ x.place ≤ y.place := by
  change x.compare? y = some .lt ∨ x.compare? y = some .eq ↔ _
  rw [compare?_eq_some hx hy, Option.some_inj, Option.some_inj, compare_lt_iff_lt,
    compare_eq_iff_eq, le_iff_lt_or_eq]

theorem ne_nan_of_le (h : x ≤ y) : x ≠ .nan ∧ y ≠ .nan := by
  change x.compare? y = some .lt ∨ x.compare? y = some .eq at h
  constructor <;> rintro rfl <;> simp [compare?_eq_none] at h

theorem ne_nan_of_same (h : x.same y = true) : x ≠ .nan ∧ y ≠ .nan := by
  constructor <;> rintro rfl <;> simp [same, compare?_eq_none] at h

theorem same_iff_place_eq (hx : x ≠ .nan) (hy : y ≠ .nan) :
    x.same y = true ↔ x.place = y.place := by
  simp only [same, compare?_eq_some hx hy, beq_iff_eq, Option.some_inj, compare_eq_iff_eq]

theorem place_eq_of_same (h : x.same y = true) : x.place = y.place :=
  (same_iff_place_eq (ne_nan_of_same h).1 (ne_nan_of_same h).2).1 h

/-- The place of a number follows from its place in the finer order, where negative numbers stand
one lower. -/
theorem place_eq_of_rank (x : Binary64) :
    x.place = if x.rank < 0 then x.rank + 1 else x.rank := by
  rcases x with _ | s | ⟨s, m, h⟩
  · rfl
  · cases s <;> simp only [rank, place_infinity, signed] <;> grind
  · cases s <;> simp only [rank, place_finite, signed] <;> grind

theorem place_le_of_rank_le (h : x.rank ≤ y.rank) : x.place ≤ y.place := by
  rw [place_eq_of_rank x, place_eq_of_rank y]
  grind

/-! ### Selection -/

theorem min_def (hx : x ≠ .nan) (hy : y ≠ .nan) :
    min x y = if x.rank ≤ y.rank then x else y := by
  cases x <;> cases y <;> first | rfl | contradiction

theorem max_def (hx : x ≠ .nan) (hy : y ≠ .nan) :
    max x y = if x.rank ≤ y.rank then y else x := by
  cases x <;> cases y <;> first | rfl | contradiction

/-- Only two NaNs have no smaller one. -/
theorem min_eq_nan_iff : min x y = .nan ↔ x = .nan ∧ y = .nan := by
  by_cases hx : x = .nan
  · subst hx
    simp only [true_and]
    rfl
  by_cases hy : y = .nan
  · subst hy
    have hmin : min x .nan = x := by cases x <;> rfl
    simp [hmin]
  · rw [min_def hx hy]
    split <;> simp [hx, hy]

/-- Only two NaNs have no larger one. -/
theorem max_eq_nan_iff : max x y = .nan ↔ x = .nan ∧ y = .nan := by
  by_cases hx : x = .nan
  · subst hx
    simp only [true_and]
    rfl
  by_cases hy : y = .nan
  · subst hy
    have hmax : max x .nan = x := by cases x <;> rfl
    simp [hmax]
  · rw [max_def hx hy]
    split <;> simp [hx, hy]

theorem min_ne_nan (hx : x ≠ .nan) : min x y ≠ .nan := fun h => hx (min_eq_nan_iff.1 h).1

theorem max_ne_nan (hx : x ≠ .nan) : max x y ≠ .nan := fun h => hx (max_eq_nan_iff.1 h).1

theorem place_min (hx : x ≠ .nan) (hy : y ≠ .nan) :
    (min x y).place = min x.place y.place := by
  rw [min_def hx hy]
  split
  · next h => exact (min_eq_left (place_le_of_rank_le h)).symm
  · next h => exact (min_eq_right (place_le_of_rank_le (not_le.1 h).le)).symm

end Simulcast.Binary64
