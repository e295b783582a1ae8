import Simulcast.Proofs.Binary64.Monotone

/-!
# A share of a whole number

A whole number is multiplied by a share and the product is rounded to a whole number again. Both
the product and the whole number may be rounded up. From two on that is never enough to reach the
number that the share is taken of, as long as the share is no more than two thirds, and since
rounding keeps the order, a share of a larger number is no smaller.

## Main definitions

* `Binary64.IsShare` — a factor up to two thirds, with room for the rounding of a product
* `Binary64.shareOf` — the share as a count

## Main results

* `Binary64.IsShare.place_round_mul_lt` — a share is less than the whole
* `Binary64.IsShare.place_round_mul_mono` — a share of more is no less
-/

namespace Simulcast.Binary64

variable {x y share : Binary64} {m n k l : Nat}

/-- A whole number of a certain size is a count. -/
theorem IsInteger.exists_count (hx : x.IsInteger) (htwo : 2 * (unit : Int) ≤ x.place) :
    ∃ k h, 2 ≤ k ∧ x = finite false (k * unit) h := by
  have hunit := unit_pos
  obtain ⟨s, k, h, rfl⟩ := hx
  cases s with
  | true =>
    -- A number with a sign is not above zero.
    rw [place_finite, signed, if_pos rfl] at htwo
    omega
  | false =>
    rw [place_finite, signed, if_neg Bool.false_ne_true] at htwo
    have hle : 2 * unit ≤ k * unit := by omega
    exact ⟨k, h, Nat.le_of_mul_le_mul_right hle unit_pos, rfl⟩

theorem isInteger_round (h : x.isFinite = true) : x.round.IsInteger := by
  rcases x with _ | s | ⟨s, m, hm⟩
  · cases h
  · cases h
  · exact ⟨s, wholeMagnitude m, _, round_finite_eq s hm⟩

/-! ### Shares -/

/-- A factor that is no more than two thirds, also if a product with it is rounded up, and not so
small that products lose significant bits. -/
structure IsShare (x : Binary64) : Prop where
  isFinite : x.isFinite = true
  large : (powTwo 52 : Nat) ≤ x.place
  small : 3 * (x.place * (powTwo 53 + 1 : Nat)) ≤ (2 * (unit * powTwo 53) : Nat)

/-- The share of a count, in whole numbers. -/
def shareOf (n k : Nat) : Nat := wholeMagnitude (roundedMagnitude (k * unit * n) unit)

theorem shareOf_mono (h : k ≤ l) : shareOf n k ≤ shareOf n l := by
  unfold shareOf
  refine wholeMagnitude_mono (roundedMagnitude_mono unit_pos ?_)
  exact Nat.mul_le_mul_right n (Nat.mul_le_mul_right unit h)

/-- A product with a share is no more than two thirds. -/
theorem roundedMagnitude_share_le (hk : 2 ≤ k) (hlarge : powTwo 52 ≤ n)
    (hsmall : 3 * (n * (powTwo 53 + 1)) ≤ 2 * (unit * powTwo 53)) :
    3 * roundedMagnitude (k * unit * n) unit ≤ 2 * (k * unit) := by
  have hquotient : k * unit * n / unit = k * n := by
    rw [Nat.mul_right_comm, Nat.mul_div_cancel _ unit_pos]
  have hbits : powTwo 52 ≤ k * unit * n / unit := by
    rw [hquotient]
    exact hlarge.trans (Nat.le_mul_of_pos_left n (by omega))
  exact roundedMagnitude_mul_fraction_le hbits hsmall

/-- From two on, a share is less than the whole. -/
theorem shareOf_lt (hk : 2 ≤ k) (hlarge : powTwo 52 ≤ n)
    (hsmall : 3 * (n * (powTwo 53 + 1)) ≤ 2 * (unit * powTwo 53)) : shareOf n k < k := by
  have hproduct := roundedMagnitude_share_le hk hlarge hsmall
  have htwo : 2 * unit ≤ k * unit := Nat.mul_le_mul_right unit hk
  have hunit := unit_pos
  have hwhole : k * (2 * unit) = 2 * (k * unit) := by ring
  -- Two thirds of at least two are more than a half away from the whole.
  unfold shareOf wholeMagnitude
  rw [Nat.div_lt_iff_lt_mul (by omega), hwhole]
  omega

/-- A share, rounded to a whole number, is finite. -/
theorem IsShare.exists_round_mul (hshare : share.IsShare) :
    ∃ n, ∀ k (hk : Representable (k * unit)), 2 ≤ k → shareOf n k < k ∧
      ∃ h, (finite false (k * unit) hk * share).round = finite false (shareOf n k * unit) h := by
  obtain ⟨hfinite, hlarge, hsmall⟩ := hshare
  have hpos := powTwo_pos 52
  obtain ⟨n, hn, rfl⟩ := exists_finite_of_place_pos hfinite (by omega)
  rw [place_finite, signed, if_neg Bool.false_ne_true] at hlarge hsmall
  have hlarge : powTwo 52 ≤ n := Int.ofNat_le.1 hlarge
  have hsmall : 3 * (n * (powTwo 53 + 1)) ≤ 2 * (unit * powTwo 53) := by exact_mod_cast hsmall
  refine ⟨n, fun k hk htwo => ⟨shareOf_lt htwo hlarge hsmall, ?_⟩⟩
  have hproduct := roundedMagnitude_share_le htwo hlarge hsmall
  -- The product does not overflow, since it is below a number that did not.
  have hlimit : roundedMagnitude (k * unit * n) unit < limit := by
    have := hk.1
    omega
  exact ⟨_, round_mul_eq hk hn hlimit⟩

theorem IsShare.isInteger_round_mul (hshare : share.IsShare) (hx : x.IsInteger)
    (htwo : 2 * (unit : Int) ≤ x.place) : (x * share).round.IsInteger := by
  obtain ⟨k, hk, hle, rfl⟩ := hx.exists_count htwo
  obtain ⟨n, hn⟩ := hshare.exists_round_mul
  obtain ⟨-, h, heq⟩ := hn k hk hle
  exact ⟨false, shareOf n k, h, heq⟩

/-- A share is less than the whole. -/
theorem IsShare.place_round_mul_lt (hshare : share.IsShare) (hx : x.IsInteger)
    (htwo : 2 * (unit : Int) ≤ x.place) : (x * share).round.place < x.place := by
  obtain ⟨k, hk, hle, rfl⟩ := hx.exists_count htwo
  obtain ⟨n, hn⟩ := hshare.exists_round_mul
  obtain ⟨hlt, h, heq⟩ := hn k hk hle
  rw [heq]
  exact Int.ofNat_lt.2 (Nat.mul_lt_mul_of_pos_right hlt unit_pos)

/-- A share of more is no less. -/
theorem IsShare.place_round_mul_mono (hshare : share.IsShare) (hx : x.IsInteger)
    (hy : y.IsInteger) (htwo : 2 * (unit : Int) ≤ x.place) (h : x.place ≤ y.place) :
    (x * share).round.place ≤ (y * share).round.place := by
  obtain ⟨k, hk, hkle, rfl⟩ := hx.exists_count htwo
  obtain ⟨l, hl, hlle, rfl⟩ := hy.exists_count (htwo.trans h)
  have hkl : k ≤ l := Nat.le_of_mul_le_mul_right (Int.ofNat_le.1 h) unit_pos
  obtain ⟨n, hn⟩ := hshare.exists_round_mul
  obtain ⟨-, hrepk, heqk⟩ := hn k hk hkle
  obtain ⟨-, hrepl, heql⟩ := hn l hl hlle
  rw [heqk, heql]
  exact Int.ofNat_le.2 (Nat.mul_le_mul_right unit (shareOf_mono hkl))

end Simulcast.Binary64
