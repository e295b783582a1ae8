import Simulcast.Binary64.Rounding

/-!
# Arithmetic of binary64 numbers

Sum, product, quotient and powers, each the exact result rounded once, and the two ways back to
whole numbers: rounding to an integer with halves going away from zero, and the whole part as an
unsigned word.

## Main definitions

* `Binary64.add`, `Binary64.mul`, `Binary64.div` — also as `+`, `*` and `/`
* `Binary64.pow` — by repeated squaring, each step rounded
* `Binary64.round` — to the nearest integer, a half away from zero
* `Binary64.toWord` — the whole part, held between zero and the largest word of 64 bits
-/

namespace Simulcast.Binary64

/-- The number with the opposite sign. -/
def neg : Binary64 → Binary64
  | .nan => .nan
  | .infinity s => .infinity (!s)
  | .finite s m h => .finite (!s) m h

/-- The number nearest to an integer count of units. A count of zero takes the sign given. -/
def ofUnits (negativeZero : Bool) (i : Int) : Binary64 :=
  if i = 0 then signedZero negativeZero else nearest (i < 0) i.natAbs 1

/-- The sum. Two negative zeros add to a negative zero, any other sum of zero is positive. -/
protected def add : Binary64 → Binary64 → Binary64
  | .finite s m _, .finite t n _ => ofUnits (s && t) (signed s m + signed t n)
  | .nan, _ => .nan
  | _, .nan => .nan
  | .infinity s, .infinity t => if s = t then .infinity s else .nan
  | .infinity s, _ => .infinity s
  | _, .infinity t => .infinity t

/-- The product. -/
protected def mul : Binary64 → Binary64 → Binary64
  | .finite s m _, .finite t n _ => nearest (s ^^ t) (m * n) unit
  | .nan, _ => .nan
  | _, .nan => .nan
  | .infinity s, .infinity t => .infinity (s ^^ t)
  | .infinity s, .finite t n _ => if n = 0 then .nan else .infinity (s ^^ t)
  | .finite s m _, .infinity t => if m = 0 then .nan else .infinity (s ^^ t)

/-- The quotient. -/
protected def div : Binary64 → Binary64 → Binary64
  | .finite s m _, .finite t n _ =>
    if n = 0 then
      if m = 0 then .nan else .infinity (s ^^ t)
    else nearest (s ^^ t) (m * unit) n
  | .nan, _ => .nan
  | _, .nan => .nan
  | .infinity _, .infinity _ => .nan
  | .infinity s, .finite t _ _ => .infinity (s ^^ t)
  | .finite s _ _, .infinity t => signedZero (s ^^ t)

instance : Add Binary64 := ⟨Binary64.add⟩

instance : Mul Binary64 := ⟨Binary64.mul⟩

instance : Div Binary64 := ⟨Binary64.div⟩

/-- Multiplies `acc` by the powers of `x` that the binary digits of `n` ask for, the least first. -/
def powLoop : Nat → Binary64 → Binary64 → Nat → Binary64
  | 0, acc, _, _ => acc
  | fuel + 1, acc, x, n =>
    let acc := if n % 2 = 1 then acc * x else acc
    if n / 2 = 0 then acc else powLoop fuel acc (x * x) (n / 2)

/-- A power by repeated squaring. -/
protected def pow (x : Binary64) (n : Nat) : Binary64 := powLoop (n + 1) 1 x n

instance : HPow Binary64 Nat Binary64 := ⟨Binary64.pow⟩

/-- A magnitude rounded to whole units of one, a half upwards. -/
def wholeMagnitude (m : Nat) : Nat := (2 * m + unit) / (2 * unit)

/-- The nearest integer, a half away from zero. The sign stays, also on zero. -/
def round : Binary64 → Binary64
  | .finite s m _ => ofMagnitude s (wholeMagnitude m * unit)
  | x => x

/-- The largest unsigned word of 64 bits. -/
def maxWord : Nat := powTwo 64 - 1

/-- The whole part as an unsigned word of 64 bits: negative numbers and NaN are zero, numbers past
the largest word are that word. -/
def toWord : Binary64 → Nat
  | .nan => 0
  | .infinity s => if s then 0 else maxWord
  | .finite s m _ => if s then 0 else Nat.min (m / unit) maxWord

theorem toWord_le (x : Binary64) : x.toWord ≤ maxWord := by
  rcases x with _ | s | ⟨s, m, h⟩
  · exact Nat.zero_le _
  · cases s <;> simp [toWord]
  · cases s
    · exact Nat.min_le_right _ _
    · simp [toWord]

end Simulcast.Binary64
