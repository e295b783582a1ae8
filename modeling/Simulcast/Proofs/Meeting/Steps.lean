import Simulcast.Endpoint.Memory
import Simulcast.Proofs.Estimator.Cap
import Simulcast.Proofs.Message.RoundTrip
import Simulcast.Proofs.Publisher.Calls
import Simulcast.Subscriber

/-!
# A publisher and receivers that are far apart

Unlike in a conference, nothing happens at the same time here. Receivers tick when they like, each
request waits in the queue of its receiver for as long as it takes, and the publisher takes in
requests and ticks in between. A step is one of these three things, at any time and in any order.

Beside the states of the participants a meeting holds two records that no participant looks at: with
each request on its way the cap that its receiver had when it was sent, and what has happened at the
publisher so far.

## Main definitions

* `Meeting` — the participants, the requests on their way, and what has happened
* `Meeting.Step`, `Meeting.step`, `Meeting.run` — what can happen next, and one after the other

## Main results

* `Subscriber.IsReady.tick` — what a receiver sends in a tick conveys its cap
* `Publisher.channel_receive` — a request is acknowledged once
-/

namespace Simulcast

/-- A payload on its way, and the cap that its receiver had when it was sent. -/
structure Letter where
  payload : Octets
  cap : Bitrate

/-- Something that happened at the publisher. -/
inductive Meeting.Event (ι : Type) where
  /-- A request came in. The cap is that of its letter, and `applied` the cap of the high layer that
  was in force then. -/
  | delivered (receiver : ι) (now : Time) (cap applied : Bitrate)
  /-- A tick, in which caps may have expired. -/
  | cleaned (now : Time)

/-- A publisher over a sender `σ` and its receivers `ι`. -/
structure Meeting (σ ι : Type) where
  publisher : Publisher σ MemoryChannel
  receivers : ι → Subscriber MemoryChannel
  /-- The requests on their way from each receiver, oldest first. -/
  inFlight : ι → List Letter
  /-- What has happened at the publisher, oldest first. -/
  log : List (Meeting.Event ι)

namespace Meeting

variable {σ ι : Type} [Sender σ] [DecidableEq ι]

/-- A meeting in which nothing has happened. -/
def ofConfig (publisher : String) (identity : ι → String) (config : Config) (sender : σ) :
    Meeting σ ι where
  publisher := .ofConfig publisher config sender {}
  receivers i := .ofConfig (identity i) publisher config {}
  inFlight _ := []
  log := []

/-- A receiver ticks, and what it sends joins the queue. -/
def tickReceiver (m : Meeting σ ι) (i : ι) (now : Time) (sample : InboundSample) : Meeting σ ι :=
  let s := ((m.receivers i).tick now sample).value.2
  let (parcels, channel) := s.channel.collect
  let letters := parcels.map fun parcel => ⟨parcel.payload, s.estimator.capHigh⟩
  { m with
    receivers := Function.update m.receivers i { s with channel }
    inFlight := Function.update m.inFlight i (m.inFlight i ++ letters) }

/-- The oldest request of a receiver comes in at the publisher, if there is one on its way. The
channel may or may not know who sent it. -/
def deliver (m : Meeting σ ι) (i : ι) (now : Time) (isKnown : Bool) : Meeting σ ι :=
  match m.inFlight i with
  | [] => m
  | letter :: rest =>
    let source := if isKnown then (m.receivers i).identity else ""
    let publisher := (m.publisher.receive letter.payload source now).value.2
    { m with
      publisher
      inFlight := Function.update m.inFlight i rest
      log := m.log ++ [.delivered i now letter.cap publisher.arbitrator.effective.high] }

/-- The publisher ticks. -/
def tickPublisher (m : Meeting σ ι) (now : Time) (sample : Option OutboundSample) : Meeting σ ι :=
  { m with
    publisher := (m.publisher.tick now sample).value
    log := m.log ++ [.cleaned now] }

/-- Something that can happen next. -/
inductive Step (ι : Type) where
  | tickReceiver (i : ι) (now : Time) (sample : InboundSample)
  | deliver (i : ι) (now : Time) (isKnown : Bool)
  | tickPublisher (now : Time) (sample : Option OutboundSample)

/-- The state after a step. -/
def step (m : Meeting σ ι) : Step ι → Meeting σ ι
  | .tickReceiver i now sample => m.tickReceiver i now sample
  | .deliver i now isKnown => m.deliver i now isKnown
  | .tickPublisher now sample => m.tickPublisher now sample

/-- The state after some steps. -/
def run (m : Meeting σ ι) (steps : List (Step ι)) : Meeting σ ι := steps.foldl step m

theorem run_append_singleton (m : Meeting σ ι) (steps : List (Step ι)) (s : Step ι) :
    m.run (steps ++ [s]) = (m.run steps).step s := by
  simp only [run, List.foldl_append, List.foldl_cons, List.foldl_nil]

end Meeting

/-! ### Requests on their way -/

/-- The letter holds a request of the receiver of this identity, and a publisher under these ceilings
takes it for the cap of the letter. -/
structure Letter.Conveys (ceilings : Caps) (identity : String) (l : Letter) (r : CapRequest) :
    Prop where
  decode_eq : Message.decode l.payload = .ok (.request r)
  identity_eq : r.identity = identity
  high_eq : (r.caps ceilings).high = l.cap
  restore : r.reason = .restore → l.cap = ceilings.high

/-- Whether the channel knows the receiver or only the message does, its identity is the key. -/
theorem Letter.Conveys.keyOf_eq {ceilings : Caps} {identity : String} {l : Letter} {r : CapRequest}
    (h : l.Conveys ceilings identity r) (hne : identity ≠ "") (isKnown : Bool) :
    Arbitrator.keyOf (if isKnown then identity else "") r = identity := by
  unfold Arbitrator.keyOf
  cases isKnown with
  | true => exact if_pos hne
  | false =>
    rw [h.identity_eq]
    simp [hne]

/-- The cap of a request survives the wire and the sanitizing. -/
theorem Letter.exists_conveys {ceilings : Caps} {identity : String} {rate : Bitrate}
    {r : CapRequest} (hceiling : ceilings.high.bps.IsWhole)
    (hasks : Estimator.AsksFor ceilings.high identity r rate)
    (hrate : Estimator.Permits ceilings.high rate) :
    ∃ r', Conveys ceilings identity ⟨Message.encode (.request r), rate⟩ r' := by
  -- The medium and the low target may change on the way, but they have no part in the high cap.
  obtain ⟨lossRate, hdecode⟩ := Message.decode_encode_request hasks.version
  refine ⟨_, hdecode, hasks.identity_eq, ?_, hasks.restore⟩
  have hhigh : r.targets.onWire.high = some rate := by
    rw [Caps.Targets.onWire, hasks.high, Option.map_some, Bitrate.onWire_eq_self (hrate.isWhole hceiling)]
  exact Caps.high_sanitize_of_permits hceiling.isInteger hrate hhigh

theorem MemoryChannel.sendMessage_value {c : MemoryChannel} (h : c.isClosed = false)
    (message : Message) (destination : String) :
    (Channel.sendMessage c message destination).value =
      (true, { c with sent := c.sent ++ [⟨destination, message.encode⟩] }) := by
  have hsend : Channel.send c message.encode destination =
      (.ok (), { c with sent := c.sent ++ [⟨destination, message.encode⟩] }) := by
    change (if c.isClosed then _ else _ : Except Error Unit × MemoryChannel) = _
    rw [h]
    rfl
  rw [Channel.sendMessage, hsend]
  rfl

namespace Subscriber

variable {s : Subscriber MemoryChannel} {identity : String} {config : Config}

/-- A receiver between two ticks. Its channel is open and holds nothing. -/
structure IsReady (identity : String) (config : Config) (s : Subscriber MemoryChannel) : Prop where
  identity_eq : s.identity = identity
  config_eq : s.estimator.config = config
  isSound : s.estimator.IsSound
  channel_eq : s.channel = {}

theorem isReady_ofConfig (identity publisher : String)
    (hceiling : config.ceilings.high.bps.IsWhole) :
    (ofConfig identity publisher config ({} : MemoryChannel)).IsReady identity config :=
  ⟨rfl, rfl, Estimator.isSound_ofConfig hceiling.isInteger, rfl⟩

theorem tick_value (s : Subscriber MemoryChannel) (now : Time) (sample : InboundSample) :
    (s.tick now sample).value.2 =
      let (estimator, decision) := (s.estimator.update sample s.identity now).value
      match decision.outbound with
      | none => { s with estimator }
      | some r =>
        let channel := (Channel.sendMessage s.channel (.request r) s.publisher).value.2
        { s with estimator, channel } := by
  unfold tick
  rw [Logged.value_bind]
  dsimp only
  cases (s.estimator.update sample s.identity now).value.2.outbound <;> rfl

/-- After a tick and once its channel is collected, a receiver is ready again. What was sent conveys
the cap that the estimator then has. -/
theorem IsReady.tick (h : s.IsReady identity config)
    (hceiling : config.ceilings.high.bps.IsWhole) (now : Time) (sample : InboundSample) :
    let s' := (s.tick now sample).value.2
    ({ s' with channel := s'.channel.collect.2 }).IsReady identity config ∧
      Estimator.Permits config.ceilings.high s'.estimator.capHigh ∧
      ∀ parcel ∈ s'.channel.sent,
        ∃ r, Letter.Conveys config.ceilings identity ⟨parcel.payload, s'.estimator.capHigh⟩ r := by
  obtain ⟨hidentity, rfl, hsound, hchannel⟩ := h
  have hnew := hsound.update hceiling.isInteger sample s.identity now
  have hconfig := Estimator.update_config s.estimator sample s.identity now
  have hpermits := hnew.permits
  rw [hconfig] at hpermits
  intro s'
  have hs' : s' = _ := tick_value s now sample
  dsimp only at hs'
  cases hout : (s.estimator.update sample s.identity now).value.2.outbound with
  | none =>
    rw [hout] at hs'
    rw [hs']
    refine ⟨⟨hidentity, hconfig, hnew, ?_⟩, hpermits, ?_⟩
    · rw [hchannel]
      rfl
    · rw [hchannel]
      intro parcel hparcel
      cases hparcel
  | some r =>
    have hopen : s.channel.isClosed = false := by rw [hchannel]
    simp only [hout, MemoryChannel.sendMessage_value hopen] at hs'
    rw [hchannel] at hs'
    rw [hs']
    refine ⟨⟨hidentity, hconfig, hnew, rfl⟩, hpermits, ?_⟩
    intro parcel hparcel
    obtain rfl := List.mem_singleton.1 hparcel
    rw [← hidentity]
    exact Letter.exists_conveys hceiling (hsound.asksFor_update hceiling.isInteger hout) hpermits

end Subscriber

namespace Publisher

variable {σ : Type} [Sender σ] {p : Publisher σ MemoryChannel}

/-- A request is acknowledged once, with the cap of the high layer that is in force after it. -/
theorem channel_receive (h : p.Settled) (hopen : p.channel.isClosed = false) {payload : Octets}
    {r : CapRequest} (hdecode : Message.decode payload = .ok (.request r)) (source : String)
    (now : Time) :
    let p' := p.step (.receive payload source now)
    let ack := CapAck.ofHigh p'.arbitrator.effective.high p'.arbitrator.identity
    p'.channel.sent =
        p.channel.sent ++ [⟨Arbitrator.keyOf source r, Message.encode (.ack ack)⟩] ∧
      p'.channel.isClosed = false := by
  rw [step_eq h, decided_of_decision? (decision?_receive hdecode source now), Arbitrator.step]
  -- Whether caps are set or not, the acknowledgement is the only thing that is sent.
  rcases Arbitrator.request_queue h.queue r source now with ⟨hqueue, -⟩ | hqueue
  · rw [hqueue]
    simp only [Channel.sendAcks, List.foldl_cons, List.foldl_nil,
      MemoryChannel.sendMessage_value hopen]
    exact ⟨rfl, hopen⟩
  · rw [hqueue]
    simp only [Channel.sendAcks, List.foldl_cons, List.foldl_nil,
      MemoryChannel.sendMessage_value hopen]
    exact ⟨rfl, hopen⟩

/-- A tick sends nothing. -/
theorem channel_tick (h : p.Settled) (now : Time) (sample : Option OutboundSample) :
    (p.step (.tick now sample)).channel = p.channel := by
  rw [step_eq h]
  change Channel.sendAcks p.channel (p.arbitrator.cleanup now).value.queue = p.channel
  rcases Arbitrator.cleanup_queue h.queue now with ⟨hqueue, -⟩ | hqueue
  · rw [hqueue]
    rfl
  · rw [hqueue]
    rfl

end Publisher

end Simulcast
