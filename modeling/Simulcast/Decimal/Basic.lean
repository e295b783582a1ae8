/-!
# Decimal numbers and their layout

A decimal number is a natural coefficient and a power of ten. This file says how one is written:
with the point in its place, or with an exponent once the number has too many places for that.

## Main definitions

* `Decimal` — a coefficient times a power of ten
* `Decimal.ofDigits` — digits, read in order, as a natural number
* `Decimal.positional`, `Decimal.scientific` — the two ways to write a decimal number
* `Decimal.Layout` — which of them is taken when, and how a whole number ends
-/

namespace Simulcast

/-- The number `coefficient * 10 ^ exponent`. -/
structure Decimal where
  coefficient : Nat
  exponent : Int
  deriving DecidableEq

namespace Decimal

/-- The number with these digits, the first one weighing most. -/
def ofDigits (digits : List Nat) : Nat := digits.foldl (fun n d => 10 * n + d) 0

/-- The digits of the coefficient, at least one. -/
def digits (d : Decimal) : List Char := Nat.toDigits 10 d.coefficient

/-- How many digits stand before the point; zero or less if the number is below one. -/
def places (d : Decimal) : Int := d.digits.length + d.exponent

/-- Moves trailing zeros of a coefficient into the exponent, at most `fuel` of them. -/
def trimLoop : Nat → Decimal → Decimal
  | 0, d => d
  | fuel + 1, d =>
    if d.coefficient % 10 = 0 ∧ d.coefficient ≠ 0 then
      trimLoop fuel ⟨d.coefficient / 10, d.exponent + 1⟩
    else d

/-- The same number with no zero at the end of the coefficient. -/
def trim (d : Decimal) : Decimal := trimLoop d.digits.length d

/-- Is it a whole number as it stands? -/
def isWhole (d : Decimal) : Bool := 0 ≤ d.exponent

/-- All digits with the point in its place, and none after a whole number. -/
def positional (d : Decimal) : List Char :=
  if d.isWhole then d.digits ++ List.replicate d.exponent.toNat '0'
  else if 0 < d.places then
    d.digits.take d.places.toNat ++ '.' :: d.digits.drop d.places.toNat
  else '0' :: '.' :: List.replicate (-d.places).toNat '0' ++ d.digits

/-- One digit before the point, and the exponent with its sign. -/
def scientific (d : Decimal) : List Char :=
  let exponent := d.places - 1
  let mantissa := match d.digits with
    | [] => []
    | [c] => [c]
    | c :: more => c :: '.' :: more
  mantissa ++ 'e' :: (if exponent < 0 then '-' else '+') :: Nat.toDigits 10 exponent.natAbs

/-- The conventions of one way to write numbers. -/
structure Layout where
  /-- The range of places that is written positionally; outside of it an exponent is used. -/
  positionalPlaces : Option (Int × Int)
  /-- What follows a whole number that is written positionally. -/
  wholeEnding : List Char

/-- Whether a number with this many places is written without an exponent. -/
def Layout.isPositional (l : Layout) (places : Int) : Bool :=
  match l.positionalPlaces with
  | none => true
  | some (least, most) => least ≤ places && places ≤ most

/-- A decimal number as its layout has it. -/
def Layout.write (l : Layout) (d : Decimal) : List Char :=
  if l.isPositional d.places then
    d.positional ++ if d.isWhole then l.wholeEnding else []
  else d.scientific

end Decimal

end Simulcast
