import Simulcast.Binary64.Basic

/-!
# Rounding to a binary64 number

Every operation of the format computes its exact result and then rounds it once, to the nearest
number and in a tie to the one with an even significand. The exact results are quotients of natural
numbers, so one function, `Binary64.nearest`, does the rounding for all of them: for sums, products
and quotients of numbers as for decimal numerals.

## Main definitions

* `roundDiv` — a quotient rounded to the nearest natural number, a tie to the even one
* `Binary64.nearest` — the number nearest to a quotient of magnitudes
* `Binary64.ofInt`, `Binary64.ofDecimal` — integers and decimal numerals as numbers
-/

namespace Simulcast

/-- The quotient rounded to the nearest natural number, a tie to the even one. -/
def roundDiv (num den : Nat) : Nat :=
  let below := num / den
  let twice := 2 * (num % den)
  if twice < den ∨ (twice = den ∧ below % 2 = 0) then below else below + 1

/-- A quotient that comes out even is not rounded. -/
theorem roundDiv_mul_left {n den : Nat} (h : 0 < den) : roundDiv (den * n) den = n := by
  simp [roundDiv, Nat.mul_div_cancel_left n h, h]

namespace Binary64

/-- The number nearest to the magnitude `num / den`. -/
def nearest (negative : Bool) (num den : Nat) : Binary64 :=
  let step := spacing (num / den)
  ofMagnitude negative (roundDiv num (den * step) * step)

/-- A representable magnitude is its own nearest number. -/
theorem nearest_of_representable {m : Nat} (h : Representable m) (negative : Bool) :
    nearest negative m 1 = .finite negative m h := by
  obtain ⟨k, hk⟩ := h.2
  have hpos : 0 < spacing m := powTwo_pos _
  have hround : roundDiv m (spacing m) = k := by
    conv => lhs; arg 1; rw [hk]
    exact roundDiv_mul_left hpos
  have hm : roundDiv m (1 * spacing (m / 1)) * spacing (m / 1) = m := by
    rw [Nat.div_one, Nat.one_mul, hround, Nat.mul_comm, ← hk]
  simp only [nearest, hm]
  exact ofMagnitude_eq_finite h negative

/-- The number nearest to an integer. -/
def ofInt (i : Int) : Binary64 := nearest (i < 0) (i.natAbs * unit) 1

/-- The number nearest to a natural number. -/
def ofNat (n : Nat) : Binary64 := nearest false (n * unit) 1

/-- The number nearest to `coefficient * 10 ^ exponent`. A binary digit is worth between 0.3 and 0.31
decimal ones. A numeral that therefore has more than 400 places before the point is infinite, and one
that has 400 zeros after it is zero, so that no power of ten is computed for it. -/
def ofDecimal (negative : Bool) (coefficient : Nat) (exponent : Int) : Binary64 :=
  let leastPlaces := exponent + (Nat.log2 coefficient * 3 / 10 : Nat)
  let mostPlaces := exponent + ((Nat.log2 coefficient + 1) * 31 / 100 : Nat)
  if coefficient = 0 then signedZero negative
  else if 400 < leastPlaces then .infinity negative
  else if mostPlaces < -400 then signedZero negative
  else nearest negative (coefficient * unit * powTen exponent.toNat) (powTen (-exponent).toNat)

instance (n : Nat) : OfNat Binary64 n := ⟨ofNat n⟩

/-- Decimal literals stand for the nearest number. -/
instance : OfScientific Binary64 :=
  ⟨fun coefficient below exponent =>
    ofDecimal false coefficient (if below then -(exponent : Int) else exponent)⟩

end Binary64

end Simulcast
