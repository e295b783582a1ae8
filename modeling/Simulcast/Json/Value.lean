import Simulcast.Binary64.Rounding
import Simulcast.Decimal.Text

/-!
# JSON values

A JSON value as it is read: members of an object stay in the order of the text, repeated ones
included, and a number is an integer if it was written as one and fits into 64 bits.

## Main definitions

* `Json.Value` — a value
* `Json.Shape` — what kind of value it is, with the contents of a scalar
* `Json.numberText` — how a number with a fraction is written
-/

namespace Simulcast.Json

/-- A JSON value. -/
inductive Value where
  | null
  | bool (b : Bool)
  /-- A number without fraction and exponent, from `-2 ^ 63` up to, not including, `2 ^ 64`. -/
  | integer (i : Int)
  /-- Any other number. -/
  | float (x : Binary64)
  | string (s : String)
  | array (items : List Value)
  | object (members : List (String × Value))
  deriving Inhabited

/-- A name in an object together with its value. -/
abbrev Member := String × Value

/-- The kind of a value. Arrays and objects are known by their first character alone. -/
inductive Shape where
  | null
  | bool (b : Bool)
  | integer (i : Int)
  | float (x : Binary64)
  | string (s : String)
  | array
  | object
  deriving DecidableEq

/-- The kind of a value. -/
def Value.shape : Value → Shape
  | .null => .null
  | .bool b => .bool b
  | .integer i => .integer i
  | .float x => .float x
  | .string s => .string s
  | .array _ => .array
  | .object _ => .object

/-- Numbers have an exponent from `1e16` on and below `1e-5`, and whole ones end in `.0`. -/
def layout : Decimal.Layout := ⟨some (-4, 16), ['.', '0']⟩

/-- A number with its shortest digits, a half going to the even digit. JSON has no infinite numbers
and no NaN; `null` stands for them. -/
def numberText : Binary64 → String
  | .finite s m _ => Binary64.shortestText .toEven layout s m
  | _ => "null"

end Simulcast.Json
