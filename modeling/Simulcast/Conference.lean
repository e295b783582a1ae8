import Simulcast.Endpoint.Memory
import Simulcast.Publisher
import Simulcast.Subscriber

/-!
# A conference

One publisher and its receivers, connected in memory. In each tick every message is delivered at
once, unless it is lost on its way up to the publisher or down to a receiver.

## Main definitions

* `Conference` — a publisher and its receivers
* `Conference.tick` — one tick of all of them
-/

namespace Simulcast

/-- A publisher and its receivers. -/
structure Conference where
  publisher : Publisher MemorySender MemoryChannel
  receivers : List (Subscriber MemoryChannel)

namespace Conference

/-- What happens from outside during a tick. -/
structure Circumstances where
  now : Time
  /-- The samples of the first receivers. -/
  samples : List (Option InboundSample)
  /-- The sample of the publisher. -/
  statistics : Option OutboundSample
  /-- Receivers whose messages are lost. -/
  lostUp : List String
  /-- Receivers whom no message reaches. -/
  lostDown : List String

/-- A conference under common settings. -/
def ofConfig (publisher : String) (receivers : List String) (config : Config)
    (parameters : Parameters) : Conference where
  publisher := .ofConfig publisher config { parameters } {}
  receivers := receivers.map fun identity => .ofConfig identity publisher config {}

/-- The ticks of the receivers that have a place in the list of samples. -/
def tickReceivers (now : Time) :
    List (Subscriber MemoryChannel) → List (Option InboundSample) →
      Logged (List (Option Decision) × List (Subscriber MemoryChannel))
  | s :: receivers, sample :: samples => do
    let (decision, s) ← s.poll now sample
    let (decisions, receivers) ← tickReceivers now receivers samples
    return (decision :: decisions, s :: receivers)
  | receivers, _ => return ([], receivers)

/-- The payloads that wait in the channels of the receivers and are not lost, with their senders, and
the receivers with empty channels. -/
def collectRequests (lostUp : List String) (receivers : List (Subscriber MemoryChannel)) :
    List (String × Octets) × List (Subscriber MemoryChannel) :=
  let requests := receivers.flatMap fun s =>
    if s.identity ∈ lostUp then []
    else s.channel.sent.map fun parcel => (s.identity, parcel.payload)
  (requests, receivers.map fun s => { s with channel := s.channel.collect.2 })

/-- Hands a payload to the first receiver of this identity. -/
def deliver (source : String) (parcel : Parcel) :
    List (Subscriber MemoryChannel) → Logged (List (Subscriber MemoryChannel))
  | [] => return []
  | s :: receivers => do
    if s.identity = parcel.destination then
      let (_, s) ← s.receive parcel.payload source
      return s :: receivers
    else
      let receivers ← deliver source parcel receivers
      return s :: receivers

/-- One tick: the receivers, the publisher, the requests and the acknowledgements, in this order.
Given are the decisions of the receivers and everything that the publisher sent. -/
def tick (c : Conference) (t : Circumstances) :
    Logged (List (Option Decision) × List Parcel × Conference) := do
  let (decisions, receivers) ← tickReceivers t.now c.receivers t.samples
  let publisher ← c.publisher.tick t.now t.statistics
  let (requests, receivers) := collectRequests t.lostUp receivers
  let publisher ← requests.foldlM
    (fun p (source, payload) => do
      let (_, p) ← p.receive payload source t.now
      return p)
    publisher
  let (parcels, channel) := publisher.channel.collect
  let arriving := parcels.filter fun parcel => parcel.destination ∉ t.lostDown
  let receivers ← arriving.foldlM
    (fun receivers parcel => deliver publisher.arbitrator.identity parcel receivers) receivers
  return (decisions, parcels, ⟨{ publisher with channel }, receivers⟩)

end Conference

end Simulcast
