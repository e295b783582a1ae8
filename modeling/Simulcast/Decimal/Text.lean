import Simulcast.Binary64.Rounding
import Simulcast.Decimal.Shortest

/-!
# Numbers as text

The ways a binary number is written: with its shortest digits and no exponent ever, or with a fixed
count of decimals. Both are exact, since a finite number has a finite decimal expansion.

## Main definitions

* `Binary64.plain` — shortest digits, positional, whole numbers without a point
* `Binary64.fixed` — a fixed count of decimals, a half going to the even neighbour
-/

namespace Simulcast.Binary64

/-- The minus sign, if there is one. -/
def signText (negative : Bool) : String := if negative then "-" else ""

/-- Text of the shortest decimal in a layout; the sign of zero is kept. -/
def shortestText (halfway : Halfway) (layout : Decimal.Layout) (negative : Bool) (m : Nat) :
    String :=
  signText negative ++ String.ofList (layout.write (shortest halfway m))

/-- Plain numbers never use an exponent, and a half goes upwards. -/
def plainLayout : Decimal.Layout := ⟨none, []⟩

/-- A number with the fewest digits that read back, without exponent. -/
def plain : Binary64 → String
  | .nan => "NaN"
  | .infinity s => signText s ++ "inf"
  | .finite s m _ => shortestText .up plainLayout s m

/-- The digits of `n` with a point before the last `decimals` of them. -/
def withPoint (decimals n : Nat) : String :=
  let digits := Nat.toDigits 10 n
  let padded := List.replicate (decimals + 1 - digits.length) '0' ++ digits
  let whole := padded.take (padded.length - decimals)
  let fraction := padded.drop (padded.length - decimals)
  String.ofList (whole ++ '.' :: fraction)

/-- A number with a fixed, positive count of decimals. -/
def fixed (decimals : Nat) : Binary64 → String
  | .nan => "NaN"
  | .infinity s => signText s ++ "inf"
  | .finite s m _ => signText s ++ withPoint decimals (roundDiv (m * powTen decimals) unit)

end Simulcast.Binary64
