import Simulcast.Power

/-!
# Binary64 numbers

Bitrates, loss rates and frame rates are kept as binary floating point numbers of 64 bits. This
file says what such a number is, independently of any arithmetic on it.

A finite number is a sign and a magnitude, and the magnitude is a natural number that counts how
often the least positive number, `2 ^ -1074`, goes into it. In this unit every finite number is
exact, sums of numbers are sums of naturals, and comparing numbers is comparing integers. Not every
natural number is a magnitude: `Binary64.Representable` says which are, and a finite number carries
the proof, so that two numbers are equal as values of the type exactly when they have the same bits
(all NaNs counting as one).

## Main definitions

* `Binary64.Representable` — the magnitudes the format has room for
* `Binary64` — a number that may be infinite, negative zero or no number at all
* `Binary64.compare?` — the order of numbers, in which NaN stands apart and both zeros are one
* `Binary64.rank` — a refinement to a linear order that puts negative zero below zero
-/

namespace Simulcast

/-- The distance between the representable magnitudes around `m`: the significand has 53 bits, and
below `2 ^ 53` every magnitude is representable. -/
def Binary64.spacing (m : Nat) : Nat := powTwo (m.log2 - 52)

/-- The first magnitude past the finite numbers, which is the number `2 ^ 1024`. -/
def Binary64.limit : Nat := powTwo 2098

/-- A magnitude the format can hold, in units of `2 ^ -1074`: below the limit, and with no more than 53
significant bits. -/
def Binary64.Representable (m : Nat) : Prop :=
  m < Binary64.limit ∧ Binary64.spacing m ∣ m

instance (m : Nat) : Decidable (Binary64.Representable m) :=
  inferInstanceAs (Decidable (_ ∧ _))

/-- A binary floating point number of 64 bits. The payload and sign of a NaN are not kept, since
nothing depends on them. -/
inductive Binary64 where
  /-- The outcome of an operation without a value. -/
  | nan
  /-- One of the two infinities. -/
  | infinity (negative : Bool)
  /-- A finite number; zero has both signs. -/
  | finite (negative : Bool) (magnitude : Nat) (representable : Binary64.Representable magnitude)
  deriving DecidableEq

namespace Binary64

/-- The magnitude of the number one. -/
def unit : Nat := powTwo 1074

theorem unit_pos : 0 < unit := powTwo_pos 1074

theorem representable_zero : Representable 0 := ⟨powTwo_pos 2098, Nat.dvd_zero _⟩

/-- Zero, with the sign given. -/
def signedZero (negative : Bool) : Binary64 := .finite negative 0 representable_zero

/-- The number of this magnitude, infinite where the format has no room for it. -/
def ofMagnitude (negative : Bool) (m : Nat) : Binary64 :=
  if h : Representable m then .finite negative m h else .infinity negative

theorem ofMagnitude_eq_finite {m : Nat} (h : Representable m) (negative : Bool) :
    ofMagnitude negative m = .finite negative m h := by
  simp [ofMagnitude, h]

instance : Inhabited Binary64 := ⟨signedZero false⟩

/-- Neither NaN nor an infinity. -/
def isFinite : Binary64 → Bool
  | .finite .. => true
  | _ => false

/-- An integer from its sign and its absolute value. -/
def signed (negative : Bool) (m : Nat) : Int := if negative then -(m : Int) else m

/-- A number in units of `2 ^ -1074`. An infinity counts as the first magnitude past the finite
ones, NaN has no place. -/
def scaled? : Binary64 → Option Int
  | .nan => none
  | .infinity s => some (signed s limit)
  | .finite s m _ => some (signed s m)

/-- How two numbers compare. NaN compares with nothing, and the two zeros are equal. -/
def compare? (x y : Binary64) : Option Ordering :=
  match x.scaled?, y.scaled? with
  | some a, some b => some (compare a b)
  | _, _ => none

/-- Equality as numbers, which NaN does not even have with itself. -/
def same (x y : Binary64) : Bool := x.compare? y == some .eq

instance : LT Binary64 := ⟨fun x y => x.compare? y = some .lt⟩

instance : LE Binary64 := ⟨fun x y => x.compare? y = some .lt ∨ x.compare? y = some .eq⟩

instance (x y : Binary64) : Decidable (x < y) :=
  inferInstanceAs (Decidable (x.compare? y = some .lt))

instance (x y : Binary64) : Decidable (x ≤ y) :=
  inferInstanceAs (Decidable (_ ∨ _))

/-- The place of a number in the linear order of all numbers but NaN, with negative zero just below
zero. -/
def rank : Binary64 → Int
  | .nan => 0
  | .infinity s => if s then -(limit : Int) - 1 else limit
  | .finite s m _ => if s then -(m : Int) - 1 else m

/-- The smaller of two numbers; NaN gives way to the other operand. -/
protected def min : Binary64 → Binary64 → Binary64
  | .nan, y => y
  | x, .nan => x
  | x, y => if x.rank ≤ y.rank then x else y

/-- The larger of two numbers; NaN gives way to the other operand. -/
protected def max : Binary64 → Binary64 → Binary64
  | .nan, y => y
  | x, .nan => x
  | x, y => if x.rank ≤ y.rank then y else x

instance : Min Binary64 := ⟨Binary64.min⟩

instance : Max Binary64 := ⟨Binary64.max⟩

end Binary64

end Simulcast
