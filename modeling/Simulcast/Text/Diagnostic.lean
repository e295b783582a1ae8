import Simulcast.Text.Invisible

/-!
# Texts inside diagnostics

A text that is quoted in an error message is made visible: quotes, backslashes and characters without
a glyph of their own appear as escapes.

## Main definitions

* `Text.diagnosticChar` — a character as it is shown
* `Text.diagnostic` — a text in quotes
-/

namespace Simulcast.Text

/-- A character inside quotes. -/
def diagnosticChar (c : Char) : List Char :=
  if c = '"' then ['\\', '"']
  else if c = '\\' then ['\\', '\\']
  else if c = '\t' then ['\\', 't']
  else if c = '\n' then ['\\', 'n']
  else if c = '\r' then ['\\', 'r']
  else if c = '\x00' then ['\\', '0']
  else if isInvisible c then
    '\\' :: 'u' :: '\x7b' :: (Nat.toDigits 16 c.toNat ++ ['\x7d'])
  else [c]

/-- A text in quotes. -/
def diagnostic (s : String) : String :=
  String.ofList ('"' :: (s.toList.flatMap diagnosticChar ++ ['"']))

end Simulcast.Text
