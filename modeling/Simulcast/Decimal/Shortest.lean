import Simulcast.Binary64.Basic
import Simulcast.Decimal.Basic

/-!
# The shortest decimal that reads back

A binary number is written with the fewest decimal digits that still round to it and, among the
decimals with that many digits, with the one nearest to it. The decimals with `n` digits form a grid
around the number. If any point of the grid rounds to the number, one of its two neighbours on the
grid does, so it is enough to look at these two, on one grid after the other.

## Main definitions

* `Binary64.lowerEnd`, `Binary64.upperEnd` — the reals that round to a magnitude
* `Binary64.onGrid?` — the nearest decimal of one grid that reads back, if there is any
* `Binary64.shortest` — the first such decimal, over grids from coarse to fine
-/

namespace Simulcast

/-- Which of two decimals is taken when the number is exactly halfway between them. -/
inductive Halfway where
  /-- The one with an even last digit. -/
  | toEven
  /-- The larger one. -/
  | up
  deriving DecidableEq

namespace Binary64

/-- The upper end of the interval of reals that round to magnitude `m`, in quarters of a unit. -/
def upperEnd (m : Nat) : Nat := 4 * m + 2 * spacing m

/-- The lower end of that interval. Numbers lie twice as dense below a power of two. -/
def lowerEnd (m : Nat) : Nat :=
  if m = powTwo m.log2 ∧ powTwo 53 ≤ m then 4 * m - spacing m else 4 * m - 2 * spacing m

/-- The ends belong to the interval when the significand is even, as ties are rounded to it. -/
def hasEvenSignificand (m : Nat) : Bool := m / spacing m % 2 == 0

/-- Does `c * 10 ^ e` round to magnitude `m`? -/
def readsBack (m c : Nat) (e : Int) : Bool :=
  let point := 4 * unit * c * powTen e.toNat
  let low := lowerEnd m * powTen (-e).toNat
  let high := upperEnd m * powTen (-e).toNat
  if hasEvenSignificand m then low ≤ point && point ≤ high else low < point && point < high

/-- The coefficient of the neighbour of magnitude `m` on the grid of multiples of `10 ^ e` that lies
nearer to it. -/
def nearerOnGrid (halfway : Halfway) (m : Nat) (e : Int) : Nat :=
  let num := m * powTen (-e).toNat
  let den := unit * powTen e.toNat
  let below := num / den
  let twice := 2 * (num % den)
  if twice < den then below
  else if den < twice then below + 1
  else match halfway with
    | .toEven => if below % 2 = 0 then below else below + 1
    | .up => below + 1

/-- The multiple of `10 ^ e` that reads back as magnitude `m` and is nearest to it. -/
def onGrid? (halfway : Halfway) (m : Nat) (e : Int) : Option Decimal :=
  let below := m * powTen (-e).toNat / (unit * powTen e.toNat)
  match readsBack m below e, readsBack m (below + 1) e with
  | true, true => some ⟨nearerOnGrid halfway m e, e⟩
  | true, false => some ⟨below, e⟩
  | false, true => some ⟨below + 1, e⟩
  | false, false => none

/-- The number of places before the point of a positive magnitude. Scaling by `10 ^ 400` makes a
natural number of at least one out of each of them. -/
def decimalPlaces (m : Nat) : Int :=
  (Nat.toDigits 10 (m * powTen 400 / unit)).length - 400

/-- The shortest decimal that reads back as the magnitude. Seventeen digits are always enough. -/
def shortest (halfway : Halfway) (m : Nat) : Decimal :=
  if m = 0 then ⟨0, 0⟩
  else
    let grids := (List.range 17).map fun (n : Nat) => decimalPlaces m - (n + 1 : Int)
    ((grids.findSome? (onGrid? halfway m)).getD ⟨0, 0⟩).trim

end Binary64

end Simulcast
