import Simulcast.Proofs.Bitrate
import Simulcast.Proofs.Caps.Sanitize

/-!
# Numbers that are not negative

Sums of numbers without a sign have no sign, and they are never NaN, for that takes infinities of both
signs. A product is NaN if one of the factors is zero and the other one infinite, and a quotient if both are
zero or both infinite. So numbers without a sign can be multiplied and divided by positive finite numbers
without ever coming to NaN, even where they overflow.

To know that they do not overflow takes a bound. A bound that is a power of two is not affected by rounding.

## Main definitions

* `Binary64.IsNonneg` — a number or an infinity without a sign
* `Binary64.IsUpTo` — a number without a sign that is at most a power of two

## Main results

* `Binary64.IsNonneg.add`, `Binary64.IsNonneg.mul`, `Binary64.IsNonneg.div` — no sign, and no NaN
* `Binary64.IsUpTo.add`, `Binary64.IsUpTo.mul`, `Binary64.IsUpTo.div` — bounds
-/

namespace Simulcast.Binary64

variable {x y : Binary64} {m num den k : Nat}

/-! ### Without a sign -/

/-- A number or an infinity without a sign. Negative zero is none. -/
inductive IsNonneg : Binary64 → Prop
  | finite {m : Nat} (h : Representable m) : IsNonneg (.finite false m h)
  | infinity : IsNonneg (.infinity false)

theorem IsNonneg.ne_nan (h : x.IsNonneg) : x ≠ .nan := by
  rintro rfl
  cases h

theorem IsNonneg.rank_nonneg (h : x.IsNonneg) : 0 ≤ x.rank := by
  cases h with
  | finite h => exact Int.natCast_nonneg _
  | infinity => exact Int.natCast_nonneg limit

theorem isNonneg_of_rank (hx : x ≠ .nan) (h : 0 ≤ x.rank) : x.IsNonneg := by
  -- Whatever has a sign ranks below zero, negative zero included.
  rcases x with _ | s | ⟨s, m, hm⟩
  · exact absurd rfl hx
  · cases s with
    | true =>
      simp only [rank, if_true] at h
      omega
    | false => exact .infinity
  · cases s with
    | true => exact absurd h (rank_neg_finite hm)
    | false => exact .finite hm

theorem isNonneg_of_place_pos (hfinite : x.isFinite = true) (hpos : 0 < x.place) : x.IsNonneg := by
  obtain ⟨m, hm, rfl⟩ := exists_finite_of_place_pos hfinite hpos
  exact .finite hm

theorem ne_zero_of_place_pos {s : Bool} {h : Representable m} (hpos : 0 < (finite s m h).place) :
    m ≠ 0 := by
  rintro rfl
  cases s <;> exact absurd hpos (lt_irrefl 0)

theorem isNonneg_zero : (0 : Binary64).IsNonneg := by
  rw [zero_eq]
  exact .finite representable_zero

theorem IsNonneg.zero_le (h : x.IsNonneg) : 0 ≤ x := by
  rw [le_iff_place_le isNonneg_zero.ne_nan h.ne_nan, zero_eq]
  cases h with
  | finite h => exact Int.natCast_nonneg _
  | infinity => exact Int.natCast_nonneg limit

theorem isNonneg_nearest (num den : Nat) : (nearest false num den).IsNonneg := by
  rw [nearest_eq]
  by_cases h : Representable (roundedMagnitude num den)
  · rw [ofMagnitude_eq_finite h]
    exact .finite h
  · rw [ofMagnitude, dif_neg h]
    exact .infinity

/-- With a sign, what is rounded stays below zero. -/
theorem rank_nearest_neg (num den : Nat) : (nearest true num den).rank ≤ rank 0 := by
  rw [nearest_eq, zero_eq]
  by_cases h : Representable (roundedMagnitude num den)
  · rw [ofMagnitude_eq_finite h, signedZero, rank_finite, rank_finite, if_pos rfl,
      if_neg Bool.false_ne_true]
    omega
  · rw [ofMagnitude, dif_neg h]
    decide +kernel

/-- The larger of two numbers is not below the one of them that is not negative. -/
theorem isNonneg_max (hx : x ≠ .nan) (hy : y.IsNonneg) :
    (max x y).IsNonneg ∧ y.place ≤ (max x y).place := by
  have hrank : y.rank ≤ (max x y).rank := by
    rw [rank_max hx hy.ne_nan]
    exact le_max_right _ _
  exact ⟨isNonneg_of_rank (max_ne_nan hx) (hy.rank_nonneg.trans hrank), place_le_of_rank_le hrank⟩

/-! ### Arithmetic -/

theorem finite_add_finite (m n : Nat) (hm : Representable m) (hn : Representable n) :
    finite false m hm + finite false n hn = nearest false (m + n) 1 := by
  have hsum : finite false m hm + finite false n hn = ofUnits false ((m + n : Nat) : Int) := by
    simp only [HAdd.hAdd, Add.add, Binary64.add]
    rfl
  rw [hsum, ofUnits]
  -- A sum of zero is not rounded at all, but rounding would not change it either.
  split
  · next h =>
    rw [Int.natCast_eq_zero.1 h]
    exact (nearest_of_representable representable_zero false).symm
  · have hsign : decide (((m + n : Nat) : Int) < 0) = false :=
      decide_eq_false (Int.natCast_nonneg _).not_gt
    rw [hsign, Int.natAbs_natCast]

theorem finite_div_finite (s t : Bool) {n : Nat} (hm : Representable m) (hn : Representable n)
    (hne : n ≠ 0) : finite s m hm / finite t n hn = nearest (s ^^ t) (m * unit) n := by
  simp only [HDiv.hDiv, Div.div, Binary64.div]
  rw [if_neg hne]

theorem IsNonneg.add (hx : x.IsNonneg) (hy : y.IsNonneg) : (x + y).IsNonneg := by
  cases hx with
  | finite hm =>
    cases hy with
    | finite hn =>
      rw [finite_add_finite]
      exact isNonneg_nearest _ _
    | infinity => exact .infinity
  | infinity =>
    cases hy with
    | finite hn => exact .infinity
    | infinity => exact .infinity

theorem IsNonneg.mul (hx : x.IsNonneg) (hy : y.isFinite = true) (hpos : 0 < y.place) :
    (x * y).IsNonneg := by
  obtain ⟨n, hn, rfl⟩ := exists_finite_of_place_pos hy hpos
  cases hx with
  | finite hm =>
    rw [finite_mul_finite]
    exact isNonneg_nearest _ _
  | infinity =>
    rw [infinity_mul_finite, if_neg (ne_zero_of_place_pos hpos)]
    exact .infinity

/-- A quotient by a number above zero is NaN only if both are infinite. -/
theorem IsNonneg.div (hx : x.IsNonneg) (hy : y.IsNonneg) (hpos : 0 < y.place)
    (hfinite : x.isFinite = true ∨ y.isFinite = true) : (x / y).IsNonneg := by
  -- Zero by zero is excluded by `hpos`, which leaves an infinity by an infinity.
  cases hy with
  | finite hn =>
    cases hx with
    | finite hm =>
      rw [finite_div_finite _ _ hm hn (ne_zero_of_place_pos hpos)]
      exact isNonneg_nearest _ _
    | infinity => exact .infinity
  | infinity =>
    cases hx with
    | finite hm => exact .finite representable_zero
    | infinity => rcases hfinite with h | h <;> cases h

theorem IsNonneg.div_of_isFinite (hx : x.IsNonneg) (hy : y.isFinite = true) (hpos : 0 < y.place) :
    (x / y).IsNonneg :=
  hx.div (isNonneg_of_place_pos hy hpos) hpos (Or.inr hy)

/-! ### Bounds -/

/-- A number without a sign that is at most `2 ^ k`. -/
def IsUpTo (k : Nat) (x : Binary64) : Prop :=
  ∃ m h, m ≤ powTwo k * unit ∧ x = finite false m h

theorem IsUpTo.isNonneg (h : x.IsUpTo k) : x.IsNonneg := by
  obtain ⟨m, hm, -, rfl⟩ := h
  exact .finite hm

theorem IsUpTo.isFinite (h : x.IsUpTo k) : x.isFinite = true := by
  obtain ⟨m, hm, -, rfl⟩ := h
  rfl

theorem IsUpTo.mono {l : Nat} (h : x.IsUpTo k) (hle : k ≤ l) : x.IsUpTo l := by
  obtain ⟨m, hm, hbound, rfl⟩ := h
  exact ⟨m, hm, hbound.trans (Nat.mul_le_mul_right unit (powTwo_le hle)), rfl⟩

theorem IsWhole.isUpTo (h : x.IsWhole) : x.IsUpTo 64 := by
  obtain ⟨n, hn, hle, rfl⟩ := h
  exact ⟨n * unit, hn, Nat.mul_le_mul_right unit hle, rfl⟩

theorem isUpTo_of_place (hfinite : x.isFinite = true) (hpos : 0 < x.place)
    (hle : x.place ≤ (powTwo k * unit : Nat)) : x.IsUpTo k := by
  obtain ⟨m, hm, rfl⟩ := exists_finite_of_place_pos hfinite hpos
  exact ⟨m, hm, Int.ofNat_le.1 hle, rfl⟩

/-- Rounding does not pass a power of two. -/
theorem isUpTo_nearest (hk : k < 1024) (hden : 0 < den) (h : num ≤ powTwo k * unit * den) :
    (nearest false num den).IsUpTo k := by
  have hbound : roundedMagnitude num den ≤ powTwo k * unit := by
    refine roundedMagnitude_le ?_ hden h
    -- A power of two has one significant bit.
    rw [powTwo_mul_unit]
    refine powTwo_dvd ?_
    have hlog : (powTwo (k + 1074)).log2 = k + 1074 := Nat.log2_two_pow
    omega
  have hlimit : powTwo k * unit < limit := by
    rw [limit_eq]
    exact Nat.mul_lt_mul_of_pos_right (powTwo_lt hk) unit_pos
  have hrep := representable_roundedMagnitude (hbound.trans_lt hlimit)
  exact ⟨_, hrep, hbound, ofMagnitude_eq_finite hrep false⟩

theorem IsUpTo.add (hx : x.IsUpTo k) (hy : y.IsUpTo k) (hk : k + 1 < 1024) :
    (x + y).IsUpTo (k + 1) := by
  obtain ⟨m, hm, hmle, rfl⟩ := hx
  obtain ⟨n, hn, hnle, rfl⟩ := hy
  rw [finite_add_finite]
  refine isUpTo_nearest hk Nat.one_pos ?_
  rw [powTwo_succ]
  linarith

/-- A product with a number up to one. -/
theorem IsUpTo.mul (hx : x.IsUpTo k) (hy : y.IsUpTo 0) (hk : k < 1024) : (x * y).IsUpTo k := by
  obtain ⟨m, hm, hmle, rfl⟩ := hx
  obtain ⟨n, hn, hnle, rfl⟩ := hy
  have hone : powTwo 0 = 1 := rfl
  rw [hone, Nat.one_mul] at hnle
  rw [finite_mul_finite]
  exact isUpTo_nearest hk unit_pos (Nat.mul_le_mul hmle hnle)

/-- A quotient by a number from one on. -/
theorem IsUpTo.div (hx : x.IsUpTo k) (hy : y.isFinite = true) (hone : (unit : Int) ≤ y.place)
    (hk : k < 1024) : (x / y).IsUpTo k := by
  have hunit : (0 : Int) < unit := Int.natCast_pos.2 unit_pos
  obtain ⟨n, hn, rfl⟩ := exists_finite_of_place_pos hy (hunit.trans_le hone)
  obtain ⟨m, hm, hmle, rfl⟩ := hx
  have hle : unit ≤ n := Int.ofNat_le.1 hone
  have hpos : 0 < n := unit_pos.trans_le hle
  rw [finite_div_finite _ _ hm hn hpos.ne']
  exact isUpTo_nearest hk hpos (Nat.mul_le_mul hmle hle)

/-! ### Several numbers -/

theorem isNonneg_foldl {xs : List Binary64} (hx : x.IsNonneg) (hxs : ∀ y ∈ xs, y.IsNonneg) :
    (xs.foldl (· + ·) x).IsNonneg := by
  -- The sum so far is a number without a sign, whichever it is.
  induction xs generalizing x with
  | nil => exact hx
  | cons y ys ih =>
    rw [List.forall_mem_cons] at hxs
    exact ih (hx.add hxs.1) hxs.2

/-- With each summand the bound of a sum at most doubles. -/
theorem isUpTo_foldl {xs : List Binary64} (hx : x.IsUpTo k) (hxs : ∀ y ∈ xs, y.IsUpTo k)
    (hk : k + xs.length < 1024) : (xs.foldl (· + ·) x).IsUpTo (k + xs.length) := by
  induction xs generalizing x k with
  | nil => exact hx
  | cons y ys ih =>
    rw [List.forall_mem_cons] at hxs
    -- The numbers still to come are below the doubled bound as well.
    rw [List.length_cons, ← Nat.add_assoc, Nat.add_right_comm] at hk ⊢
    exact ih (hx.add hxs.1 (by omega)) (fun z hz => (hxs.2 z hz).mono (Nat.le_succ k)) hk

end Simulcast.Binary64
