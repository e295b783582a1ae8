import Simulcast.Log

/-!
# Senders

The encoder of an outgoing stream is not part of this library. It is reached through two operations,
reading its parameters and setting them, either of which may fail at any time. What changes the
parameters therefore does what it can: a failure is noted and nothing else happens.

## Main definitions

* `Sender` — a sender as its user sees it
* `Sender.update` — reads the parameters, changes them and sets them
-/

namespace Simulcast

/-- A sender whose parameters can be read and set. Its state after either operation is part of the
outcome, also when the operation fails. -/
class Sender (σ : Type) where
  /-- The parameters at present. -/
  read : σ → Except Error Parameters × σ
  /-- New parameters in place of the present ones. -/
  write : σ → Parameters → Except Error Unit × σ

namespace Sender

variable {σ : Type} [Sender σ]

/-- Changes the parameters, unless there are no encodings. -/
def tryUpdate (sender : σ) (change : Parameters → Parameters) : Except Error Unit × σ :=
  match read sender with
  | (.error e, sender) => (.error e, sender)
  | (.ok parameters, sender) =>
    if parameters.encodings.isEmpty then (.error .noEncodings, sender)
    else write sender (change parameters)

/-- Changes the parameters if possible, and says whether it was. -/
def update (sender : σ) (what : String) (change : Parameters → Parameters) : Logged (Bool × σ) := do
  match tryUpdate sender change with
  | (.ok (), sender) => return (true, sender)
  | (.error e, sender) =>
    note (.applyFailed what e)
    return (false, sender)

end Sender

end Simulcast
