import Simulcast.Arbitrator
import Simulcast.Endpoint.Channel
import Simulcast.Endpoint.Sender
import Simulcast.Message.Decoder
import Simulcast.Watchdog.Detector

/-!
# The publishing side of a stream

One outgoing stream: the arbitrator between its receivers, the watchdog of its sender, the sender
itself and the channel to the receivers. All changes to the sender's parameters, whoever decides on
them, are made here one after the other.

## Main definitions

* `Publisher` — an outgoing stream
* `Publisher.receive` — a payload from a receiver
* `Publisher.tick` — what is done once per tick
* `Publisher.clear` — the end of a connection
-/

namespace Simulcast

/-- An outgoing stream over a sender `σ` and a channel `κ`. -/
structure Publisher (σ κ : Type) where
  arbitrator : Arbitrator
  watchdog : Watchdog
  sender : σ
  channel : κ

namespace Publisher

variable {σ κ : Type} [Sender σ] [Channel κ]

/-- A stream without receivers. -/
def ofConfig (identity : String) (config : Config) (sender : σ) (channel : κ) : Publisher σ κ :=
  ⟨.ofConfig identity config, .ofCeilings config.ceilings, sender, channel⟩

/-- Does one thing that the arbitrator decided on. -/
def perform (p : Publisher σ κ) (task : Arbitrator.Task) : Logged (Publisher σ κ) := do
  match task with
  | .apply caps =>
    let (_, sender) ← Sender.update p.sender "caps" (·.setCaps caps)
    return { p with sender }
  | .ack destination message =>
    let (_, channel) ← Channel.sendMessage p.channel (.ack message) destination
    return { p with channel }

/-- Does everything that the arbitrator decided on. -/
def settle (p : Publisher σ κ) : Logged (Publisher σ κ) :=
  let (tasks, arbitrator) := p.arbitrator.drain
  tasks.foldlM perform { p with arbitrator }

/-- Takes in a payload from a receiver. Payloads that are no message change nothing. -/
def receive (p : Publisher σ κ) (payload : Octets) (source : String) (now : Time) :
    Logged (Except Error Unit × Publisher σ κ) := do
  match Message.decode payload with
  | .error e => return (.error e, p)
  | .ok (.request r) =>
    let (arbitrator, _) ← p.arbitrator.request r source now
    let p ← { p with arbitrator }.settle
    return (.ok (), p)
  | .ok (.ack _) =>
    note (.ackAtPublisher source)
    return (.ok (), p)

/-- Does what the watchdog decided on. -/
def intervene (p : Publisher σ κ) (action : Action) : Logged (Publisher σ κ) := do
  let (_, sender) ← Sender.update p.sender action.kind.name action.apply
  return { p with sender }

/-- Expires caps, and then has the watchdog look at the statistics, if there are any. -/
def tick (p : Publisher σ κ) (now : Time) (sample : Option OutboundSample) :
    Logged (Publisher σ κ) := do
  let arbitrator ← p.arbitrator.cleanup now
  let p ← { p with arbitrator }.settle
  match sample with
  | none => return p
  | some sample =>
    let (watchdog, actions) ← p.watchdog.evaluate sample p.arbitrator.applied
    actions.foldlM intervene { p with watchdog }

/-- Drops the caps of all receivers and starts the watchdog anew. -/
def clear (p : Publisher σ κ) : Logged (Publisher σ κ) :=
  { p with arbitrator := p.arbitrator.clear, watchdog := p.watchdog.reset }.settle

end Publisher

end Simulcast
