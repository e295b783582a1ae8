import Simulcast.Json.Value
import Simulcast.Text.Diagnostic

/-!
# JSON of the wrong form

A text may be JSON and still not what was expected. This file lists the ways in which that can be so
and words each of them.

## Main definitions

* `Json.Expected` — what should have been there
* `Json.Mismatch` — why a value is not of the form asked for
* `Json.Mismatch.text` — the wording
-/

namespace Simulcast.Json

/-- What should have been there. -/
inductive Expected where
  /-- A control message. -/
  | message
  /-- The name of a kind of message. -/
  | kind
  /-- A version number. -/
  | version
  /-- An acknowledgement as an array. -/
  | ack
  /-- An array with this many elements. -/
  | elements (count : Nat)
  /-- The bytes of a rid. -/
  | rid
  /-- One of these bytes. -/
  | octet
  deriving DecidableEq

/-- Why a value is not of the form asked for. -/
inductive Mismatch where
  /-- A value of another kind. -/
  | wrongShape (found : Shape) (expected : Expected)
  /-- An integer outside of the range. -/
  | outOfRange (found : Int) (expected : Expected)
  /-- An array that is too short or too long. -/
  | wrongLength (found : Nat) (expected : Expected)
  /-- A kind of message that does not exist. -/
  | unknownKind (name : String)
  /-- A member that may occur only once. -/
  | repeated (name : String)
  /-- A member that has to be there. -/
  | missing (name : String)
  deriving DecidableEq

/-- The wording of what was expected. -/
def Expected.text : Expected → String
  | .message => "internally tagged enum ControlMessage"
  | .kind => "variant identifier"
  | .version => "u32"
  | .ack => "struct BitrateCapAck with 3 elements"
  | .elements count => toString count ++ " elements in sequence"
  | .rid => "an array of length 8"
  | .octet => "u8"

/-- A scalar is named with its value, an array or object without its contents. -/
def Shape.text : Shape → String
  | .null => "null"
  | .bool b => "boolean `" ++ (if b then "true" else "false") ++ "`"
  | .integer i => "integer `" ++ toString i ++ "`"
  | .float x => "floating point `" ++ numberText x ++ "`"
  | .string s => "string " ++ Text.diagnostic s
  | .array => "sequence"
  | .object => "map"

/-- The wording of a mismatch. -/
def Mismatch.text : Mismatch → String
  | .wrongShape found expected =>
    "invalid type: " ++ found.text ++ ", expected " ++ expected.text
  | .outOfRange found expected =>
    "invalid value: integer `" ++ toString found ++ "`, expected " ++ expected.text
  | .wrongLength found expected =>
    "invalid length " ++ toString found ++ ", expected " ++ expected.text
  | .unknownKind name =>
    "unknown variant `" ++ name ++ "`, expected `bitrate-cap` or `bitrate-cap-ack`"
  | .repeated name => "duplicate field `" ++ name ++ "`"
  | .missing name => "missing field `" ++ name ++ "`"

end Simulcast.Json
