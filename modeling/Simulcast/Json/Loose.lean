import Simulcast.Decimal.Numeral
import Simulcast.Json.Value
import Simulcast.Text.Blank

/-!
# Values of the wrong kind

What other participants send is not always what was asked for: there are strings where numbers belong,
and `null`, and worse. A value of the wrong kind is read as no signal, which is NaN for a number and
the empty text for a text, and later checks of the range do the rest.

## Main definitions

* `Json.Value.looseNumber` — what a value says where a number is asked for
* `Json.Value.looseString` — what it says where a text is asked for
-/

namespace Simulcast.Json.Value

/-- The number a value stands for: its own, or the numeral in a string, or else NaN. -/
def looseNumber : Value → Binary64
  | .integer i => .ofInt i
  | .float x => x
  | .string s => (Numeral.read? (Text.trim s.toList)).getD .nan
  | _ => .nan

/-- The text a value stands for, empty if it is no string. -/
def looseString : Value → String
  | .string s => s
  | _ => ""

end Simulcast.Json.Value
