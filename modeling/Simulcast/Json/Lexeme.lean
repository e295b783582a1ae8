import Simulcast.Binary64.Arithmetic
import Simulcast.Json.Value
import Simulcast.Text.Octets

/-!
# Scalars of the JSON syntax

Reading of blanks, key words, numbers and strings from the octets of a text. Every reader either
gives what it read together with the octets that follow, or says in which of two ways the text is
at fault: it ended too early, or it went on with something that cannot stand there.

## Main definitions

* `Json.Fault` — why a text is not JSON
* `Json.keyword`, `Json.number`, `Json.string` — readers of the scalars
-/

namespace Simulcast.Json

/-- Why a text is not JSON. -/
inductive Fault where
  /-- Something stands where it cannot. -/
  | malformed
  /-- The text ends before the value does. -/
  | truncated
  deriving DecidableEq, Repr

/-- What a reader found, and the octets after it. -/
abbrev Read (α : Type) := Except Fault (α × Octets)

/-- White space between the parts of a text. -/
def isBlank (b : UInt8) : Bool :=
  b == octet ' ' || b == octet '\n' || b == octet '\t' || b == octet '\r'

/-- The text after its leading white space. -/
def skipBlanks (s : Octets) : Octets := s.dropWhile isBlank

/-- The text after the given word, which has to come next. -/
def keyword : Octets → Octets → Except Fault Octets
  | [], s => .ok s
  | _ :: _, [] => .error .truncated
  | w :: word, b :: s => if b = w then keyword word s else .error .malformed

/-! ### Numbers -/

/-- Is the octet a decimal digit? -/
def isDigit (b : UInt8) : Bool := octet '0' ≤ b && b ≤ octet '9'

/-- The value of a decimal digit. -/
def digitValue (b : UInt8) : Nat := b.toNat - (octet '0').toNat

/-- All digits that come next, of which there has to be one. -/
def digits (s : Octets) : Read (List Nat) :=
  match s with
  | [] => .error .truncated
  | b :: _ =>
    if isDigit b then .ok ((s.takeWhile isDigit).map digitValue, s.dropWhile isDigit)
    else .error .malformed

/-- The digits before the point: a zero alone, or any number that does not begin with one. -/
def wholeDigits : Octets → Read (List Nat)
  | [] => .error .truncated
  | b :: s =>
    if b = octet '0' then
      match s with
      | [] => .ok ([0], [])
      | c :: _ => if isDigit c then .error .malformed else .ok ([0], s)
    else digits (b :: s)

/-- The digits after the point, if there is a point. -/
def fractionDigits : Octets → Except Fault (Option (List Nat) × Octets)
  | [] => .ok (none, [])
  | b :: s =>
    if b = octet '.' then do
      let (ds, s) ← digits s
      return (some ds, s)
    else .ok (none, b :: s)

/-- The exponent, if there is one. -/
def exponentPart : Octets → Except Fault (Option Int × Octets)
  | [] => .ok (none, [])
  | b :: s =>
    if b = octet 'e' ∨ b = octet 'E' then do
      let (negative, s) := match s with
        | [] => (false, [])
        | c :: more =>
          if c = octet '-' then (true, more)
          else if c = octet '+' then (false, more)
          else (false, c :: more)
      let (ds, s) ← digits s
      let n : Int := Decimal.ofDigits ds
      return (some (if negative then -n else n), s)
    else .ok (none, b :: s)

/-- The number with the sign given. -/
def withSign (negative : Bool) (x : Binary64) : Binary64 := if negative then x.neg else x

/-- The value of an integer below `2 ^ 64` without its sign. Negative zero and what does not fit into
64 bits with its sign are no integers. -/
def integerValue (negative : Bool) (n : Nat) : Value :=
  if negative then
    if n = 0 ∨ powTwo 63 < n then .float (withSign true (.ofNat n)) else .integer (-n)
  else .integer n

/-- Appends digits to a number for as long as the result fits into 64 bits, and counts those that are
left over. -/
def gather : Nat → List Nat → Nat × Nat
  | n, [] => (n, 0)
  | n, d :: ds => if 10 * n + d < powTwo 64 then gather (10 * n + d) ds else (n, ds.length + 1)

/-- The largest power of ten that a number is scaled by at once. -/
def maxPower : Nat := 308

/-- A power of ten as a number. -/
def powerOfTen (n : Nat) : Binary64 := .ofDecimal false 1 n

/-- Scales a number by a power of ten. Small numbers are scaled in several steps, the first ones by the
largest power; two of these lead from any significand to zero. -/
def scaleByTen : (fuel : Nat) → Binary64 → Int → Except Fault Binary64
  | 0, x, _ => .ok x
  | fuel + 1, x, e =>
    if e.natAbs ≤ maxPower then
      if 0 ≤ e then
        let y := x * powerOfTen e.natAbs
        if y.isFinite then .ok y else .error .malformed
      else .ok (x / powerOfTen e.natAbs)
    else if x.same 0 then .ok x
    else if 0 ≤ e then .error .malformed
    else scaleByTen fuel (x / powerOfTen maxPower) (e + maxPower)

/-- The value of the parts of a number. The digits up to the first that no longer fits into 64 bits
make up the significand, and of the others only the count is used. The significand is rounded before
it is scaled, so that more than fifteen digits do not always give the nearest number. A number past
the finite ones is a fault. -/
def numberValue (negative : Bool) (whole : List Nat) (fraction : Option (List Nat))
    (exponent : Option Int) : Except Fault Value :=
  let (significand, above) := gather 0 whole
  match fraction, exponent, above with
  | none, none, 0 => .ok (integerValue negative significand)
  | _, _, _ =>
    let places := fraction.getD []
    let (significand, unused) := gather significand places
    let scale : Int := exponent.getD 0 + above - (places.length - unused : Nat)
    (scaleByTen 4 (.ofNat significand) scale).map fun x => .float (withSign negative x)

/-- A number. -/
def number (s : Octets) : Except Fault (Value × Octets) := do
  let (negative, s) := match s with
    | [] => (false, [])
    | b :: more => if b = octet '-' then (true, more) else (false, b :: more)
  let (whole, s) ← wholeDigits s
  let (fraction, s) ← fractionDigits s
  let (exponent, s) ← exponentPart s
  let value ← numberValue negative whole fraction exponent
  return (value, s)

/-! ### Strings -/

/-- The value of a hexadecimal digit. -/
def hexDigit? (b : UInt8) : Option Nat :=
  if isDigit b then some (digitValue b)
  else if octet 'a' ≤ b ∧ b ≤ octet 'f' then some (b.toNat - (octet 'a').toNat + 10)
  else if octet 'A' ≤ b ∧ b ≤ octet 'F' then some (b.toNat - (octet 'A').toNat + 10)
  else none

/-- The value of four hexadecimal digits. -/
def hexUnit? (a b c d : UInt8) : Option Nat := do
  return (((← hexDigit? a) * 16 + (← hexDigit? b)) * 16 + (← hexDigit? c)) * 16 + (← hexDigit? d)

/-- The first unit of a pair that stands for one character. -/
def isHighSurrogate (n : Nat) : Bool := 0xD800 ≤ n && n ≤ 0xDBFF

/-- The second unit of such a pair. -/
def isLowSurrogate (n : Nat) : Bool := 0xDC00 ≤ n && n ≤ 0xDFFF

/-- The character of a pair of units. -/
def joinSurrogates (high low : Nat) : Nat := 0x10000 + (high - 0xD800) * 0x400 + (low - 0xDC00)

/-- A character in UTF-8. -/
def codePoint (n : Nat) : Octets := String.utf8EncodeChar (Char.ofNat n)

/-- The octet that the letter after a backslash stands for. -/
def shortEscape? (b : UInt8) : Option UInt8 :=
  if b = octet '"' ∨ b = octet '\\' ∨ b = octet '/' then some b
  else if b = octet 'b' then some 8
  else if b = octet 't' then some 9
  else if b = octet 'n' then some 10
  else if b = octet 'f' then some 12
  else if b = octet 'r' then some 13
  else none

/-- Puts octets before what a reader found. -/
def Read.prepend (octets : Octets) (r : Read Octets) : Read Octets :=
  match r with
  | .ok (more, s) => .ok (octets ++ more, s)
  | .error f => .error f

/-- The contents of a string up to its closing quote. An escape counts four hexadecimal digits
before it looks at them, and the two halves of a pair have to follow each other directly. -/
def stringOctets : Octets → Read Octets
  | [] => .error .truncated
  | b :: s =>
    if b = octet '"' then .ok ([], s)
    else if b = octet '\\' then
      match s with
      | [] => .error .truncated
      | e :: s =>
        if e = octet 'u' then
          match s with
          | a :: b :: c :: d :: s =>
            match hexUnit? a b c d with
            | none => .error .malformed
            | some high =>
              if isLowSurrogate high then .error .malformed
              else if isHighSurrogate high then
                match s with
                | [] => .error .truncated
                | x :: s =>
                  if x ≠ octet '\\' then .error .malformed
                  else match s with
                    | [] => .error .truncated
                    | y :: s =>
                      if y ≠ octet 'u' then .error .malformed
                      else match s with
                        | a :: b :: c :: d :: s =>
                          match hexUnit? a b c d with
                          | none => .error .malformed
                          | some low =>
                            if isLowSurrogate low then
                              .prepend (codePoint (joinSurrogates high low)) (stringOctets s)
                            else .error .malformed
                        | _ => .error .truncated
              else .prepend (codePoint high) (stringOctets s)
          | _ => .error .truncated
        else match shortEscape? e with
          | some x => .prepend [x] (stringOctets s)
          | none => .error .malformed
    else if b < 0x20 then .error .malformed
    else .prepend [b] (stringOctets s)

/-- A string after its opening quote. The contents have to be valid UTF-8. -/
def string (s : Octets) : Read String :=
  match stringOctets s with
  | .error f => .error f
  | .ok (octets, rest) =>
    match Octets.toString? octets with
    | some text => .ok (text, rest)
    | none => .error .malformed

/-- A scalar value. -/
def scalar (s : Octets) : Read Value :=
  match s with
  | [] => .error .truncated
  | b :: rest =>
    if b = octet 'n' then (keyword (.ofString "ull") rest).map fun s => (.null, s)
    else if b = octet 't' then (keyword (.ofString "rue") rest).map fun s => (.bool true, s)
    else if b = octet 'f' then (keyword (.ofString "alse") rest).map fun s => (.bool false, s)
    else if b = octet '"' then (string rest).map fun (text, s) => (.string text, s)
    else if b = octet '-' ∨ isDigit b then number s
    else .error .malformed

end Simulcast.Json
