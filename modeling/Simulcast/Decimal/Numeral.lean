import Simulcast.Binary64.Rounding
import Simulcast.Decimal.Basic

/-!
# Reading numerals

A numeral in a text is an optional sign followed by decimal digits with an optional point and an
optional exponent, or by the name of an infinity or of NaN. On one side of the point there may be no
digit at all. Nothing else is a numeral: no blanks, no digit groups, no other base.

## Main definitions

* `Numeral.read?` — the number a text denotes, correctly rounded
-/

namespace Simulcast

/-- The decimal with these digits before and after the point, times a power of ten. -/
def Decimal.ofParts (whole fraction : List Nat) (exponent : Int) : Decimal :=
  ⟨ofDigits (whole ++ fraction), exponent - fraction.length⟩

/-- The number nearest to a decimal. -/
def Decimal.toBinary64 (negative : Bool) (d : Decimal) : Binary64 :=
  .ofDecimal negative d.coefficient d.exponent

namespace Numeral

/-- The values of decimal digits. -/
def digitValues (cs : List Char) : List Nat := cs.map fun c => c.toNat - '0'.toNat

/-- An exponent: an optional sign and at least one digit, up to the end. -/
def exponent? (cs : List Char) : Option Int :=
  let magnitude? (digits : List Char) : Option Nat :=
    if digits.isEmpty || !digits.all Char.isDigit then none
    else some (Decimal.ofDigits (digitValues digits))
  match cs with
  | '-' :: digits => (magnitude? digits).map fun n => -(n : Int)
  | '+' :: digits => (magnitude? digits).map fun n => (n : Int)
  | digits => (magnitude? digits).map fun n => (n : Int)

/-- Digits with an optional point and exponent, up to the end. -/
def decimal? (cs : List Char) : Option Decimal :=
  let whole := cs.takeWhile Char.isDigit
  let rest := cs.dropWhile Char.isDigit
  let (fraction, rest) := match rest with
    | '.' :: more => (more.takeWhile Char.isDigit, more.dropWhile Char.isDigit)
    | _ => ([], rest)
  let scaledBy := Decimal.ofParts (digitValues whole) (digitValues fraction)
  if whole.isEmpty && fraction.isEmpty then none
  else match rest with
    | [] => some (scaledBy 0)
    | c :: more => if c = 'e' ∨ c = 'E' then (exponent? more).map scaledBy else none

/-- A numeral without its sign. Names are read in any case. -/
def unsigned? (negative : Bool) (cs : List Char) : Option Binary64 :=
  let name := String.ofList (cs.map Char.toLower)
  if name = "inf" ∨ name = "infinity" then some (.infinity negative)
  else if name = "nan" then some .nan
  else (decimal? cs).map (Decimal.toBinary64 negative)

/-- The number that a numeral denotes. -/
def read? (cs : List Char) : Option Binary64 :=
  match cs with
  | '-' :: rest => unsigned? true rest
  | '+' :: rest => unsigned? false rest
  | rest => unsigned? false rest

end Numeral

end Simulcast
