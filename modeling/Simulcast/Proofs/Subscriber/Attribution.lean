import Simulcast.Proofs.Message.NormalForm
import Simulcast.Proofs.Publisher.Accounting
import Simulcast.Subscriber

/-!
# Who can tell a receiver anything

A payload means something to a receiver only if it is an acknowledgement of the publisher of its
stream, and then it means one bit: that there is someone who listens. Who it is from is what the
channel says, or what the acknowledgement says if the channel does not know. All other payloads
can be left out of a history and the rates in acknowledgements can be changed, without a difference
to any later decision or to the channel.

What a publisher answers to a request is such an acknowledgement, on either account of who sent it.

## Main definitions

* `Subscriber.isAccepted` — is a payload an acknowledgement of the publisher?
* `Subscriber.Call`, `Subscriber.step`, `Subscriber.run` — sequences of operations
* `Subscriber.outputs` — the decisions of the ticks among them
* `Subscriber.Alike` — operations that differ in the rate of an acknowledgement at most

## Main results

* `Subscriber.receive_value` — what a payload does to a receiver
* `Subscriber.run_filter_matters`, `Subscriber.Alike.run_eq` — what makes no difference
* `Subscriber.isAccepted_answer` — the answer of a publisher is accepted
-/

namespace Simulcast

/-- What is decoded is of the version spoken here. -/
theorem Message.version_of_decode {payload : Octets} {m : Message} (h : decode payload = .ok m) :
    m.version = protocolVersion := by
  have haccept : ∀ {read : Except Json.Mismatch Message} {rest : Octets},
      accept read rest = .ok m → m.version = protocolVersion := by
    intro read rest h
    unfold accept at h
    split at h
    · cases h
    split at h
    · split at h
      · next hversion =>
        obtain rfl := Except.ok.inj h
        exact hversion
      · cases h
    · cases h
  -- All ways to a message end with its acceptance.
  unfold decode at h
  split at h
  · cases h
  · cases h
  · split at h
    · exact haccept h
    · cases h
  · split at h
    · exact haccept h
    · cases h

namespace Subscriber

variable {κ : Type} {s : Subscriber κ} {publisher source : String} {payload : Octets}

/-- Is the payload an acknowledgement, of the version spoken here, of the publisher? It is if the
channel says that the publisher sent it, or if the channel does not know and the acknowledgement
says so itself. -/
def isAccepted (publisher : String) (payload : Octets) (source : String) : Bool :=
  match Message.decode payload with
  | .ok (.ack a) => (if source = "" then a.identity else source) == publisher
  | _ => false

theorem isAccepted_iff :
    isAccepted publisher payload source = true ↔
      ∃ a, Message.decode payload = .ok (.ack a) ∧ a.version = protocolVersion ∧
        (if source = "" then a.identity else source) = publisher := by
  unfold isAccepted
  constructor
  · intro h
    split at h
    · next a hdecode =>
      exact ⟨a, hdecode, Message.version_of_decode hdecode, beq_iff_eq.1 h⟩
    · cases h
  · rintro ⟨a, hdecode, -, hsource⟩
    simp only [hdecode]
    exact beq_iff_eq.2 hsource

/-- A payload that is accepted is noted by the estimator, and any other changes nothing. -/
theorem receive_value (h : s.publisher = publisher) (payload : Octets) (source : String) :
    (s.receive payload source).value.2 =
      if isAccepted publisher payload source then { s with estimator := s.estimator.acknowledge }
      else s := by
  subst h
  unfold receive isAccepted
  cases Message.decode payload with
  | error e => rfl
  | ok m =>
    cases m with
    | request r => rfl
    | ack a =>
      dsimp only
      by_cases hsource : (if source = "" then a.identity else source) = s.publisher
      · rw [if_pos hsource, if_pos (beq_iff_eq.2 hsource)]
        rfl
      · rw [if_neg hsource, if_neg (mt beq_iff_eq.1 hsource)]
        rfl

/-! ### Sequences of operations -/

/-- An operation of a receiver, or something that happens to its channel. -/
inductive Call (κ : Type) where
  | poll (now : Time) (sample : Option InboundSample)
  | receive (payload : Octets) (source : String)
  | reset
  | surroundings (change : κ → κ)

variable [Channel κ]

/-- The state after an operation. -/
def step (s : Subscriber κ) : Call κ → Subscriber κ
  | .poll now sample => (s.poll now sample).value.2
  | .receive payload source => (s.receive payload source).value.2
  | .reset => s.reset
  | .surroundings change => { s with channel := change s.channel }

/-- The state after some operations. -/
def run (s : Subscriber κ) (calls : List (Call κ)) : Subscriber κ := calls.foldl step s

/-- The decision that an operation answers with. -/
def output? (s : Subscriber κ) : Call κ → Option (Option Decision)
  | .poll now sample => some (s.poll now sample).value.1
  | _ => none

/-- The decisions that some operations answer with, in order. -/
def outputs (s : Subscriber κ) : List (Call κ) → List (Option Decision)
  | [] => []
  | call :: calls => (s.output? call).toList ++ (s.step call).outputs calls

theorem run_cons (s : Subscriber κ) (call : Call κ) (calls : List (Call κ)) :
    s.run (call :: calls) = (s.step call).run calls := rfl

theorem outputs_cons (s : Subscriber κ) (call : Call κ) (calls : List (Call κ)) :
    s.outputs (call :: calls) = (s.output? call).toList ++ (s.step call).outputs calls := rfl

theorem step_publisher (s : Subscriber κ) (call : Call κ) :
    (s.step call).publisher = s.publisher := by
  cases call with
  | poll now sample =>
    cases sample with
    | none => rfl
    | some sample =>
      simp only [step, poll, tick, Logged.value_bind, Logged.value_pure]
      split <;> rfl
  | receive payload source =>
    rw [step, receive_value rfl]
    split <;> rfl
  | reset => rfl
  | surroundings change => rfl

theorem run_publisher (s : Subscriber κ) (calls : List (Call κ)) :
    (s.run calls).publisher = s.publisher := by
  induction calls generalizing s with
  | nil => rfl
  | cons call calls ih => exact (ih (s.step call)).trans (step_publisher s call)

/-! ### Payloads that make no difference -/

/-- Can the operation make a difference? A payload can only if it is accepted. -/
def Call.matters (publisher : String) : Call κ → Bool
  | .receive payload source => isAccepted publisher payload source
  | _ => true

theorem step_of_not_matters {call : Call κ} (h : call.matters s.publisher = false) :
    s.step call = s ∧ s.output? call = none := by
  cases call with
  | receive payload source =>
    have h : isAccepted s.publisher payload source = false := h
    refine ⟨?_, rfl⟩
    rw [step, receive_value rfl, h]
    rfl
  | poll now sample => cases h
  | reset => cases h
  | surroundings change => cases h

/-- Payloads that are not accepted can be left out. -/
theorem run_filter_matters (s : Subscriber κ) (calls : List (Call κ)) :
    s.run (calls.filter (Call.matters s.publisher)) = s.run calls ∧
      s.outputs (calls.filter (Call.matters s.publisher)) = s.outputs calls := by
  induction calls generalizing s with
  | nil => exact ⟨rfl, rfl⟩
  | cons call calls ih =>
    obtain ⟨hrun, houtputs⟩ := ih (s.step call)
    rw [step_publisher] at hrun houtputs
    by_cases hmatters : call.matters s.publisher = true
    · rw [List.filter_cons_of_pos hmatters]
      exact ⟨hrun, congrArg ((s.output? call).toList ++ ·) houtputs⟩
    · -- What is left out changes nothing and is answered with nothing.
      obtain ⟨hstep, houtput⟩ := step_of_not_matters (Bool.eq_false_iff.2 hmatters)
      rw [hstep] at hrun houtputs
      rw [List.filter_cons_of_neg hmatters, hrun, houtputs, run_cons, hstep, outputs_cons, houtput,
        hstep]
      exact ⟨rfl, rfl⟩

/-! ### Rates that make no difference -/

/-- The same operation, or the same acknowledgement with another rate. -/
inductive Alike : Call κ → Call κ → Prop where
  | same (call : Call κ) : Alike call call
  | rate {payload other : Octets} {a : CapAck} (appliedHigh : Bitrate) (source : String)
    (hdecode : Message.decode payload = .ok (.ack a))
    (hother : Message.decode other = .ok (.ack { a with appliedHigh })) :
    Alike (.receive payload source) (.receive other source)

theorem Alike.step_eq {call other : Call κ} (h : Alike call other) (s : Subscriber κ) :
    s.step other = s.step call ∧ s.output? other = s.output? call := by
  cases h with
  | same => exact ⟨rfl, rfl⟩
  | rate appliedHigh source hdecode hother =>
    -- Who an acknowledgement is from is read from everything but its rate.
    refine ⟨?_, rfl⟩
    rw [step, step, receive_value rfl, receive_value rfl, isAccepted, hother, isAccepted, hdecode]

/-- Acknowledgements can come with other rates. -/
theorem Alike.run_eq {calls others : List (Call κ)} (h : List.Forall₂ Alike calls others)
    (s : Subscriber κ) : s.run others = s.run calls ∧ s.outputs others = s.outputs calls := by
  induction h generalizing s with
  | nil => exact ⟨rfl, rfl⟩
  | cons hcall _ ih =>
    obtain ⟨hstep, houtput⟩ := hcall.step_eq s
    obtain ⟨hrun, houtputs⟩ := ih (s.step _)
    rw [run_cons, hstep, outputs_cons, houtput, hstep]
    exact ⟨hrun, congrArg _ houtputs⟩

/-! ### Answers of the publisher -/

omit [Channel κ] in
/-- An acknowledgement that a publisher signs is accepted, whether or not the channel knows who sent
it. -/
theorem isAccepted_answer (publisher : String) (high : Bitrate) :
    isAccepted publisher (Message.ack (.ofHigh high publisher)).encode publisher = true ∧
      isAccepted publisher (Message.ack (.ofHigh high publisher)).encode "" = true := by
  have hdecode : Message.decode (Message.ack (.ofHigh high publisher)).encode =
      .ok (Message.ack (.ofHigh high publisher)).onWire := by
    rw [Message.decode_encode_eq fun x hx => by cases hx]
    exact if_pos rfl
  rw [isAccepted_iff, isAccepted_iff]
  refine ⟨⟨_, hdecode, rfl, ?_⟩, ⟨_, hdecode, rfl, if_pos rfl⟩⟩
  -- A publisher without a name is named by its acknowledgement just as well.
  exact ite_self _

/-- After any operations a payload either changes nothing or is noted as an acknowledgement, and the
latter exactly if it is one of the publisher. So all other payloads can be left out, and the rates in
acknowledgements can be changed, and neither the decisions nor the channel become any different. What
the publisher of this identity answers to a request, after any operations of its own and whatever its
ports did, is an acknowledgement that is accepted on either account of who sent it. -/
theorem run_listens_to_publisher (identity publisher : String) (config : Config) (channel : κ)
    (calls : List (Call κ)) :
    let s := ofConfig identity publisher config channel
    (∀ payload source,
      (isAccepted publisher payload source = true ↔
        ∃ a, Message.decode payload = .ok (.ack a) ∧ a.version = protocolVersion ∧
          (if source = "" then a.identity else source) = publisher) ∧
      ((s.run calls).receive payload source).value.2 =
        if isAccepted publisher payload source then
          { s.run calls with estimator := (s.run calls).estimator.acknowledge }
        else s.run calls) ∧
    (s.run (calls.filter (Call.matters publisher)) = s.run calls ∧
      s.outputs (calls.filter (Call.matters publisher)) = s.outputs calls) ∧
    (∀ others, List.Forall₂ Alike calls others →
      s.run others = s.run calls ∧ s.outputs others = s.outputs calls) ∧
    (∀ {σ μ : Type} [Sender σ] [Channel μ] (settings : Config) (sender : σ) (outlet : μ)
      (history : List ((σ × μ) × Publisher.Call)) (ports : σ × μ) (payload : Octets)
      (r : CapRequest) (source : String) (now : Time),
      Message.decode payload = .ok (.request r) →
        let p := ((Publisher.ofConfig publisher settings sender outlet).runAmid history).withPorts
          ports
        let q := p.step (.receive payload source now)
        let answer := (Message.ack (.ofHigh q.arbitrator.effective.high publisher)).encode
        p.Makes (.receive payload source now)
            (Publisher.capsAttempts p.arbitrator q.arbitrator ++
              [.send (Arbitrator.keyOf source r) answer]) ∧
          isAccepted publisher answer publisher = true ∧
          isAccepted publisher answer "" = true) := by
  intro s
  refine ⟨fun payload source => ⟨isAccepted_iff, receive_value (run_publisher s calls) _ _⟩,
    run_filter_matters s calls, fun others h => Alike.run_eq h s, ?_⟩
  intro σ μ _ _ settings sender outlet history ports payload r source now hdecode p q answer
  have hready : p.IsReady publisher settings :=
    ((Publisher.isReady_ofConfig publisher settings sender outlet).runAmid history).withPorts ports
  exact ⟨hready.makes_receive hdecode source now, isAccepted_answer publisher _⟩

/-- The acknowledgement of a rate, from a channel that does not know who sent it. -/
def ackOf (rate : Bitrate) : Call MemoryChannel :=
  .receive (Message.ack (.ofHigh rate "publisher")).encode ""

/-- Acknowledgements of two rates make no difference to a receiver, and a request for the lowest caps
is answered with one that is accepted. -/
theorem acked_rate_makes_no_difference :
    List.Forall₂ Alike [ackOf (.kilo 500), .poll 5 none] [ackOf (.kilo 700), .poll 5 none] ∧
      (ofConfig "receiver" "publisher" {} ({} : MemoryChannel)).outputs
          [ackOf (.kilo 700), .poll 5 none] =
        (ofConfig "receiver" "publisher" {} ({} : MemoryChannel)).outputs
          [ackOf (.kilo 500), .poll 5 none] ∧
      Message.decode (Message.request (.ofCaps .floor .congestion 0 "receiver")).encode =
        .ok (.request (.ofCaps .floor .congestion 0 "receiver")) ∧
      ∃ attempts answer,
        (((Publisher.ofConfig "publisher" {} Publisher.willingPorts.1
          Publisher.willingPorts.2).runAmid []).withPorts Publisher.willingPorts).Makes
            Publisher.floorRequest (attempts ++ [.send "receiver" answer]) ∧
          isAccepted "publisher" answer "" = true := by
  have halike : List.Forall₂ Alike [ackOf (.kilo 500), .poll 5 none]
      [ackOf (.kilo 700), .poll 5 none] := by
    have hdecode : ∀ rate, Message.decode (Message.ack (.ofHigh rate "publisher")).encode =
        .ok (.ack (.ofHigh rate.onWire "publisher")) := fun rate => by
      rw [Message.decode_encode_eq fun x hx => by cases hx]
      exact if_pos rfl
    exact .cons (.rate _ "" (hdecode _) (hdecode _)) (.cons (.same _) .nil)
  have hrequest : Message.decode (Message.request (.ofCaps .floor .congestion 0 "receiver")).encode =
      .ok (.request (.ofCaps .floor .congestion 0 "receiver")) := by
    decide +kernel
  obtain ⟨-, -, hrates, hanswers⟩ := run_listens_to_publisher "receiver" "publisher" {}
    ({} : MemoryChannel) [ackOf (.kilo 500), .poll 5 none]
  obtain ⟨hmakes, -, haccepted⟩ := hanswers {} Publisher.willingPorts.1 Publisher.willingPorts.2 []
    Publisher.willingPorts _ _ "receiver" 5 hrequest
  exact ⟨halike, (hrates _ halike).2, hrequest, _, _, hmakes, haccepted⟩

end Subscriber

end Simulcast
