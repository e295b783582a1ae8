import Simulcast.Log
import Simulcast.Message.Encoder

/-!
# Channels

Messages go to other participants through a channel that is not part of this library. It is expected
to deliver what it accepts, but it may refuse a message, which is then lost.

## Main definitions

* `Channel` — a channel as its user sees it
* `Channel.sendMessage` — encodes a message and sends it
-/

namespace Simulcast

/-- A channel to other participants. Its state after a call is part of the outcome, also when the
call fails. -/
class Channel (κ : Type) where
  /-- Sends a payload to the participant of this identity. -/
  send : κ → Octets → String → Except Error Unit × κ

namespace Channel

variable {κ : Type} [Channel κ]

/-- Sends a message if possible, and says whether it was. -/
def sendMessage (channel : κ) (message : Message) (destination : String) : Logged (Bool × κ) := do
  match send channel message.encode destination with
  | (.ok (), channel) => return (true, channel)
  | (.error e, channel) =>
    note (.sendFailed destination e)
    return (false, channel)

end Channel

end Simulcast
