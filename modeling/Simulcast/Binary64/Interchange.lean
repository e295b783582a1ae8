import Simulcast.Binary64.Rounding

/-!
# The interchange format of binary64 numbers

A number as a word of 64 bits: the sign, eleven bits of biased exponent and 52 bits of fraction.

## Main definitions

* `Binary64.ofBits` — the number of a word
* `Binary64.toBits` — the word of a number, with one word standing for all NaNs
-/

namespace Simulcast.Binary64

/-- The magnitude with this biased exponent, below 2047, and fraction. -/
def fieldMagnitude (exponent fraction : Nat) : Nat :=
  if exponent = 0 then fraction else (powTwo 52 + fraction) * powTwo (exponent - 1)

/-- The number of a word of 64 bits. -/
def ofBits (word : Nat) : Binary64 :=
  let negative := word / powTwo 63 % 2 == 1
  let exponent := word / powTwo 52 % powTwo 11
  let fraction := word % powTwo 52
  if exponent = 2047 then
    if fraction = 0 then .infinity negative else .nan
  else ofMagnitude negative (fieldMagnitude exponent fraction)

/-- Exponent and fraction of a magnitude, as the low 63 bits of a word. -/
def magnitudeBits (m : Nat) : Nat :=
  if m < powTwo 52 then m
  else (m.log2 - 51) * powTwo 52 + (m / spacing m - powTwo 52)

/-- The word of a number. -/
def toBits : Binary64 → Nat
  | .nan => 2047 * powTwo 52 + powTwo 51
  | .infinity s => (if s then powTwo 63 else 0) + 2047 * powTwo 52
  | .finite s m _ => (if s then powTwo 63 else 0) + magnitudeBits m

end Simulcast.Binary64
