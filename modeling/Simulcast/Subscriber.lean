import Simulcast.Endpoint.Channel
import Simulcast.Estimator.Basic
import Simulcast.Message.Decoder

/-!
# The receiving side of a stream

One incoming stream: the congestion control of its receiver, and the channel to the publisher.

## Main definitions

* `Subscriber` — an incoming stream
* `Subscriber.tick` — what is done once per tick
* `Subscriber.receive` — a payload from another participant
-/

namespace Simulcast

/-- An incoming stream over a channel `κ`. -/
structure Subscriber (κ : Type) where
  identity : String
  /-- The identity of the publisher of the stream. -/
  publisher : String
  estimator : Estimator
  channel : κ

namespace Subscriber

variable {κ : Type} [Channel κ]

/-- A new subscription. -/
def ofConfig (identity publisher : String) (config : Config) (channel : κ) : Subscriber κ :=
  ⟨identity, publisher, .ofConfig config, channel⟩

/-- Takes in the sample of a tick and sends the request that comes of it. -/
def tick (s : Subscriber κ) (now : Time) (sample : InboundSample) :
    Logged (Decision × Subscriber κ) := do
  let (estimator, decision) ← s.estimator.update sample s.identity now
  let s := { s with estimator }
  match decision.outbound with
  | none => return (decision, s)
  | some r =>
    let (_, channel) ← Channel.sendMessage s.channel (.request r) s.publisher
    return (decision, { s with channel })

/-- A tick that may come without a sample; nothing happens then. -/
def poll (s : Subscriber κ) (now : Time) (sample : Option InboundSample) :
    Logged (Option Decision × Subscriber κ) := do
  match sample with
  | none => return (none, s)
  | some sample =>
    let (decision, s) ← s.tick now sample
    return (some decision, s)

/-- Takes in a payload. Only an acknowledgement of the publisher makes a difference. Who sent it is
what the channel says or, if the channel does not know, what the message says. -/
def receive (s : Subscriber κ) (payload : Octets) (source : String) :
    Logged (Except Error Unit × Subscriber κ) := do
  match Message.decode payload with
  | .error e => return (.error e, s)
  | .ok (.ack a) =>
    let source := if source = "" then a.identity else source
    if source = s.publisher then
      note (.ackReceived source a.appliedHigh)
      return (.ok (), { s with estimator := s.estimator.acknowledge })
    else
      note (.foreignAck source)
      return (.ok (), s)
  | .ok (.request _) =>
    note (.requestAtReceiver source)
    return (.ok (), s)

/-- Back to a new subscription. -/
def reset (s : Subscriber κ) : Subscriber κ := { s with estimator := s.estimator.reset }

end Subscriber

end Simulcast
