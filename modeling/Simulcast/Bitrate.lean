import Simulcast.Binary64.Arithmetic
import Simulcast.Binary64.Interchange
import Simulcast.Decimal.Text

/-!
# Bitrates

A bitrate is a count of bits per second. It is a binary64 number, so that repeated scaling loses
little, and may therefore be fractional, infinite or not a number; where it leaves the program it is
rounded to whole bits per second and held between zero and the largest unsigned word.

## Main definitions

* `Bitrate` — bits per second
* `Bitrate.whole` — as a whole number, the form it has on the wire
* `Bitrate.clamp` — held within a range, with the lower end standing in for what is not finite
* `Bitrate.text` — with three decimals of the largest unit that fits
-/

namespace Simulcast

/-- A rate in bits per second. -/
structure Bitrate where
  bps : Binary64
  deriving DecidableEq, Inhabited

namespace Bitrate

/-- Bits per second. -/
def ofNat (n : Nat) : Bitrate := ⟨.ofNat n⟩

/-- Thousands of bits per second. -/
def kilo (n : Nat) : Bitrate := ofNat (n * 1000)

/-- Millions of bits per second. -/
def mega (n : Nat) : Bitrate := ofNat (n * 1000000)

/-- No bits at all. -/
def zero : Bitrate := ofNat 0

/-- Neither infinite nor NaN. -/
def isValid (r : Bitrate) : Bool := r.bps.isFinite

/-- The nearest count of whole bits per second, from zero to the largest unsigned word. An invalid
rate counts as zero. -/
def whole (r : Bitrate) : Nat := if r.isValid then (max r.bps 0).round.toWord else 0

/-- The rate in thousands of bits per second. -/
def inKilo (r : Bitrate) : Binary64 := r.bps / 1000

/-- Rounded to whole bits per second, a half away from zero. -/
def round (r : Bitrate) : Bitrate := ⟨r.bps.round⟩

/-- A multiple of the rate. -/
def times (r : Bitrate) (factor : Binary64) : Bitrate := ⟨r.bps * factor⟩

instance : HMul Bitrate Binary64 Bitrate := ⟨times⟩

instance : Min Bitrate := ⟨fun r s => ⟨min r.bps s.bps⟩⟩

instance : Max Bitrate := ⟨fun r s => ⟨max r.bps s.bps⟩⟩

instance : LT Bitrate := ⟨fun r s => r.bps < s.bps⟩

instance : LE Bitrate := ⟨fun r s => r.bps ≤ s.bps⟩

instance (r s : Bitrate) : Decidable (r < s) := inferInstanceAs (Decidable (r.bps < s.bps))

instance (r s : Bitrate) : Decidable (r ≤ s) := inferInstanceAs (Decidable (r.bps ≤ s.bps))

/-- Equality as numbers. -/
def same (r s : Bitrate) : Bool := r.bps.same s.bps

/-- The rate within the range from `least` to `most`. An invalid rate becomes the lower end. When
`least` is above `most`, the range is `most` alone. -/
def clamp (r least most : Bitrate) : Bitrate :=
  let least := min least most
  if r.isValid then min (max r least) most else least

/-- A unit that rates are written in. -/
structure Scale where
  /-- The least rate that is written in this unit. -/
  least : Binary64
  /-- The unit in bits per second. -/
  factor : Binary64
  name : String

/-- The units above the bit per second, from large to small. A rate is written in a unit as soon as
its decimal logarithm, computed to the precision of the format, reaches the exponent of the unit,
which it does a few last places before the power of ten. -/
def scales : List Scale :=
  [⟨.ofBits 0x41CDCD64FFFFFFEE, 1000000000, "Gbit/s"⟩,
    ⟨.ofBits 0x412E847FFFFFFFF7, 1000000, "Mbit/s"⟩,
    ⟨.ofBits 0x408F3FFFFFFFFFFB, 1000, "kbit/s"⟩]

/-- The rate for a human reader: three decimals in the largest unit it reaches, and plain digits
below a thousand bits per second. -/
def text (r : Bitrate) : String :=
  match scales.find? fun scale => scale.least ≤ r.bps with
  | some scale => (r.bps / scale.factor).fixed 3 ++ scale.name
  | none => r.bps.plain ++ "bit/s"

end Bitrate

end Simulcast
