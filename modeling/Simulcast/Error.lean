import Simulcast.Json.Lexeme
import Simulcast.Json.Mismatch

/-!
# Errors

What can go wrong at the edges of the program: a payload that is no control message, a sender whose
parameters cannot be read or set, a channel that does not send.

## Main definitions

* `Error` — the causes
* `Error.text` — their wording
-/

namespace Simulcast

/-- A failed operation. -/
inductive Error where
  /-- The payload is not JSON. -/
  | notJson (fault : Json.Fault)
  /-- The payload is JSON but no control message. -/
  | mismatch (cause : Json.Mismatch)
  /-- The message is of a version of the protocol that is not spoken here. -/
  | unsupportedVersion (version : UInt32)
  /-- The sender has no encodings. -/
  | noEncodings
  /-- The sender refused to give or take parameters. -/
  | sender (reason : String)
  /-- The channel did not send. -/
  | channel (reason : String)
  deriving DecidableEq

namespace Error

/-- The wording of an error. -/
def text : Error → String
  | .notJson .malformed => "malformed JSON"
  | .notJson .truncated => "truncated JSON"
  | .mismatch cause => cause.text
  | .unsupportedVersion version => "Unsupported protocol version: " ++ toString version.toNat
  | .noEncodings => "Sender has no encodings"
  | .sender reason => "Sender: " ++ reason
  | .channel reason => "Channel: " ++ reason

end Error

end Simulcast
