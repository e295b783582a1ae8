/-!
# Time

Nothing in this library looks at a clock. Every operation that depends on the time is told what time
it is, in milliseconds after a start common to all calls. The time may go backwards; no time has then
passed.

## Main definitions

* `Time` — milliseconds, as a point in time and as a span
* `Time.since` — the span from an earlier point
* `Time.text` — a span for a human reader
-/

namespace Simulcast

/-- Milliseconds, after a common start or from one point to another. -/
abbrev Time := Nat

namespace Time

/-- The span that has passed since an earlier point; none if that point is still to come. -/
def since (now earlier : Time) : Time := now - earlier

/-- The digits of a number of thousandths after the point, without zeros at the end. -/
def fractionDigits (thousandths : Nat) : List Char :=
  let digits := Nat.toDigits 10 thousandths
  let padded := List.replicate (3 - digits.length) '0' ++ digits
  (padded.reverse.dropWhile (· == '0')).reverse

/-- A span in the largest unit of which it has at least one. -/
def text (t : Time) : String :=
  if t = 0 then "0ns"
  else if t < 1000 then toString t ++ "ms"
  else if t % 1000 = 0 then toString (t / 1000) ++ "s"
  else toString (t / 1000) ++ "." ++ String.ofList (fractionDigits (t % 1000)) ++ "s"

end Time

end Simulcast
