import Simulcast.Json.Value
import Simulcast.Text.Octets

/-!
# Writing JSON

The compact text of a value: no white space, members in their order, and in strings nothing escaped
but quotes, backslashes and control characters.

## Main definitions

* `Json.quote` — a string with its quotes
* `Json.print` — any value
-/

namespace Simulcast.Json

/-- The hexadecimal digit of a number below sixteen. -/
def hexDigit (n : Nat) : UInt8 :=
  if n < 10 then (n + (octet '0').toNat).toUInt8 else (n - 10 + (octet 'a').toNat).toUInt8

/-- An octet of a string. Octets of characters outside ASCII stand for themselves. -/
def escapeOctet (b : UInt8) : Octets :=
  if b = octet '"' ∨ b = octet '\\' then [octet '\\', b]
  else if b = 8 then [octet '\\', octet 'b']
  else if b = 9 then [octet '\\', octet 't']
  else if b = 10 then [octet '\\', octet 'n']
  else if b = 12 then [octet '\\', octet 'f']
  else if b = 13 then [octet '\\', octet 'r']
  else if b < 0x20 then
    [octet '\\', octet 'u', octet '0', octet '0', hexDigit (b.toNat / 16), hexDigit (b.toNat % 16)]
  else [b]

/-- A string with its quotes. -/
def quote (s : String) : Octets :=
  octet '"' :: ((Octets.ofString s).flatMap escapeOctet ++ [octet '"'])

/-- Parts with a comma between any two. -/
def commaSeparated : List Octets → Octets
  | [] => []
  | [part] => part
  | part :: parts => part ++ octet ',' :: commaSeparated parts

mutual

/-- A value. -/
def print : Value → Octets
  | .null => .ofString "null"
  | .bool true => .ofString "true"
  | .bool false => .ofString "false"
  | .integer i => .ofString (toString i)
  | .float x => .ofString (numberText x)
  | .string s => quote s
  | .array items => octet '[' :: (commaSeparated (itemTexts items) ++ [octet ']'])
  | .object members => octet '\x7b' :: (commaSeparated (memberTexts members) ++ [octet '\x7d'])

/-- The elements of an array, each by itself. -/
def itemTexts : List Value → List Octets
  | [] => []
  | v :: items => print v :: itemTexts items

/-- The members of an object, each by itself. -/
def memberTexts : List (String × Value) → List Octets
  | [] => []
  | (k, v) :: members => (quote k ++ octet ':' :: print v) :: memberTexts members

end

end Simulcast.Json
