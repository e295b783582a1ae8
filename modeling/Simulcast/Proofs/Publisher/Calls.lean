import Simulcast.Proofs.Arbitration.Queue
import Simulcast.Proofs.Endpoint.Sender
import Simulcast.Proofs.Watchdog.Counters
import Simulcast.Publisher

/-!
# What the operations of a publisher do

Every operation of a publisher has the same shape. It makes at most one decision of the arbitrator,
drains the queue, and lets the watchdog add actions of its own. So the sender sees the caps of the
decision first and the actions of the watchdog after them, and all of them carry the caps that are in
force at the end.

## Main definitions

* `Publisher.Call`, `Publisher.step`, `Publisher.run` — sequences of operations
* `Publisher.Call.decision?` — the operation of the arbitrator behind an operation
* `Publisher.actions` — what an operation tells the sender
* `Publisher.Settled` — nothing is waiting, and the watchdog has the ceilings of the arbitrator

## Main results

* `Publisher.step_eq` — the shape of an operation
* `Publisher.caps_of_mem_actions` — all actions carry the caps in force
-/

namespace Simulcast

namespace Watchdog

/-- The watchdog in a tick that may come without a sample. -/
def watch (w : Watchdog) (sample : Option OutboundSample) (applied : Option Caps) :
    Watchdog × List Action :=
  match sample with
  | none => (w, [])
  | some sample => (w.evaluate sample applied).value

theorem watch_ceilings (w : Watchdog) (sample : Option OutboundSample) (applied : Option Caps) :
    (w.watch sample applied).1.ceilings = w.ceilings := by
  cases sample with
  | none => rfl
  | some sample => exact step_ceilings w sample

theorem caps_of_mem_watch {w : Watchdog} {sample : Option OutboundSample} {applied : Option Caps}
    {a : Action} (ha : a ∈ (w.watch sample applied).2) : a.caps = applied.getD w.ceilings := by
  cases sample with
  | none => cases ha
  | some sample =>
    obtain ⟨kind, -, rfl⟩ := List.mem_map.1 ha
    rfl

end Watchdog

namespace Channel

variable {κ : Type} [Channel κ]

/-- The channel after the acknowledgements among some tasks. -/
def sendAcks (channel : κ) (tasks : List Arbitrator.Task) : κ :=
  tasks.foldl
    (fun channel task =>
      match task with
      | .apply _ => channel
      | .ack destination message => (sendMessage channel (.ack message) destination).value.2)
    channel

end Channel

namespace Publisher

variable {σ κ : Type} {p : Publisher σ κ}

/-! ### What is decided -/

/-- An operation of a publisher. -/
inductive Call where
  | receive (payload : Octets) (source : String) (now : Time)
  | tick (now : Time) (sample : Option OutboundSample)
  | clear

/-- The operation of the arbitrator behind an operation. Only a payload that is no request has
none. -/
def Call.decision? : Call → Option Arbitrator.Call
  | .receive payload source now =>
    match Message.decode payload with
    | .ok (.request r) => some (.request r source now)
    | _ => none
  | .tick now _ => some (.cleanup now)
  | .clear => some .clear

/-- The arbitrator with its decision, before the queue is drained. -/
def decided (p : Publisher σ κ) (call : Call) : Arbitrator :=
  (call.decision?.map p.arbitrator.step).getD p.arbitrator

theorem decision?_receive {payload : Octets} {r : CapRequest}
    (h : Message.decode payload = .ok (.request r)) (source : String) (now : Time) :
    (Call.receive payload source now).decision? = some (.request r source now) := by
  simp only [Call.decision?, h]

theorem decided_of_decision? {call : Call} {c : Arbitrator.Call} (h : call.decision? = some c) :
    p.decided call = p.arbitrator.step c := by
  rw [decided, h, Option.map_some, Option.getD_some]

/-- What the watchdog makes of an operation. -/
def watched (p : Publisher σ κ) (call : Call) : Watchdog × List Action :=
  match call with
  | .receive .. => (p.watchdog, [])
  | .tick _ sample => p.watchdog.watch sample (p.decided call).applied
  | .clear => (p.watchdog.reset, [])

/-- What an operation tells the sender: the caps of the decision, and what the watchdog adds. -/
def actions (p : Publisher σ κ) (call : Call) : List Action :=
  Arbitrator.kicks (p.decided call).queue ++ (p.watched call).2

/-- Between two operations nothing is waiting, and the watchdog has the ceilings of the
arbitrator. -/
structure Settled (p : Publisher σ κ) : Prop where
  queue : p.arbitrator.queue = []
  ceilings : p.watchdog.ceilings = p.arbitrator.ceilings

theorem settled_ofConfig (identity : String) (config : Config) (sender : σ) (channel : κ) :
    (ofConfig identity config sender channel).Settled := ⟨rfl, rfl⟩

theorem decided_ceilings (p : Publisher σ κ) (call : Call) :
    (p.decided call).ceilings = p.arbitrator.ceilings := by
  unfold decided
  cases call.decision? with
  | none => rfl
  | some c => exact Arbitrator.step_ceilings p.arbitrator c

/-- What an operation hands on to the sender are the caps in force after it. It hands on nothing
only if these are the caps that were in force before. -/
theorem kicks_decided (h : p.Settled) (call : Call) :
    (Arbitrator.kicks (p.decided call).queue = [] ∧
        (p.decided call).applied = p.arbitrator.applied ∧ call ≠ .clear) ∨
      Arbitrator.kicks (p.decided call).queue = [⟨.kick, (p.decided call).effective⟩] := by
  unfold decided
  cases hdecision : call.decision? with
  | none =>
    refine Or.inl ⟨by simp [h.queue, Arbitrator.kicks], rfl, ?_⟩
    rintro rfl
    cases hdecision
  | some c =>
    rcases Arbitrator.kicks_step h.queue c with ⟨hkicks, happlied, hclear⟩ | hkicks
    · refine Or.inl ⟨hkicks, happlied, ?_⟩
      rintro rfl
      exact hclear (Option.some.inj hdecision.symm)
    · exact Or.inr hkicks

/-- All actions carry the caps in force after the operation. -/
theorem caps_of_mem_actions (h : p.Settled) {call : Call} {a : Action} (ha : a ∈ p.actions call) :
    a.caps = (p.decided call).effective := by
  rcases List.mem_append.1 ha with hkick | hwatch
  · rcases kicks_decided h call with ⟨hnone, -⟩ | hone
    · rw [hnone] at hkick
      cases hkick
    · rw [hone, List.mem_singleton] at hkick
      rw [hkick]
  · cases call with
    | receive payload source now => cases hwatch
    | tick now sample =>
      rw [Watchdog.caps_of_mem_watch hwatch, h.ceilings, ← decided_ceilings p (.tick now sample)]
      rfl
    | clear => cases hwatch

/-! ### What is done -/

variable [Sender σ]

theorem foldlM_intervene (actions : List Action) (p : Publisher σ κ) :
    (actions.foldlM intervene p).value =
      { p with sender := Sender.attemptAll p.sender actions } := by
  induction actions generalizing p with
  | nil => rfl
  | cons a actions ih =>
    rw [List.foldlM_cons, Logged.value_bind, ih]
    rfl

variable [Channel κ]

theorem foldlM_perform (tasks : List Arbitrator.Task) (p : Publisher σ κ) :
    (tasks.foldlM perform p).value =
      { p with
        sender := Sender.attemptAll p.sender (Arbitrator.kicks tasks)
        channel := Channel.sendAcks p.channel tasks } := by
  induction tasks generalizing p with
  | nil => rfl
  | cons task tasks ih =>
    rw [List.foldlM_cons, Logged.value_bind, ih]
    cases task with
    | apply caps =>
      have hsender : (perform p (.apply caps)).value =
          { p with sender := (Sender.attempt p.sender ⟨.kick, caps⟩).2 } := by
        rw [Sender.attempt, Sender.update_value _ _ "caps"]
        rfl
      rw [hsender]
      rfl
    | ack destination message => rfl

theorem settle_value (p : Publisher σ κ) :
    p.settle.value =
      { arbitrator := { p.arbitrator with queue := [] }
        watchdog := p.watchdog
        sender := Sender.attemptAll p.sender (Arbitrator.kicks p.arbitrator.queue)
        channel := Channel.sendAcks p.channel p.arbitrator.queue } :=
  foldlM_perform _ _

/-! ### Sequences of operations -/

/-- The state after an operation. -/
def step (p : Publisher σ κ) : Call → Publisher σ κ
  | .receive payload source now => (p.receive payload source now).value.2
  | .tick now sample => (p.tick now sample).value
  | .clear => p.clear.value

/-- The state after some operations. -/
def run (p : Publisher σ κ) (calls : List Call) : Publisher σ κ := calls.foldl step p

theorem run_append_singleton (p : Publisher σ κ) (calls : List Call) (call : Call) :
    p.run (calls ++ [call]) = (p.run calls).step call := by
  simp only [run, List.foldl_append, List.foldl_cons, List.foldl_nil]

theorem tick_value (p : Publisher σ κ) (now : Time) (sample : Option OutboundSample) :
    (p.tick now sample).value =
      let a := (p.arbitrator.cleanup now).value
      { arbitrator := { a with queue := [] }
        watchdog := (p.watchdog.watch sample a.applied).1
        sender := Sender.attemptAll p.sender
          (Arbitrator.kicks a.queue ++ (p.watchdog.watch sample a.applied).2)
        channel := Channel.sendAcks p.channel a.queue } := by
  unfold tick
  rw [Logged.value_bind, Logged.value_bind, settle_value]
  cases sample with
  | none => simp only [Watchdog.watch, List.append_nil, Logged.value_pure]
  | some sample =>
    dsimp only
    rw [Sender.attemptAll_append]
    exact foldlM_intervene _ _

/-- The shape of an operation. -/
theorem step_eq (h : p.Settled) (call : Call) :
    p.step call =
      { arbitrator := { p.decided call with queue := [] }
        watchdog := (p.watched call).1
        sender := Sender.attemptAll p.sender (p.actions call)
        channel := Channel.sendAcks p.channel (p.decided call).queue } := by
  cases call with
  | receive payload source now =>
    -- Without a decision the queue is as empty as it was before.
    have hidle : p = ⟨{ p.arbitrator with queue := [] }, p.watchdog, p.sender, p.channel⟩ := by
      obtain ⟨hqueue, -⟩ := h
      obtain ⟨⟨identity, ceilings, lifetime, entries, applied, queue⟩, w, s, c⟩ := p
      obtain rfl : queue = [] := hqueue
      rfl
    cases hdecode : Message.decode payload with
    | error e =>
      have hdecided : p.decided (.receive payload source now) = p.arbitrator := by
        simp only [decided, Call.decision?, hdecode, Option.map_none, Option.getD_none]
      rw [actions, hdecided, watched, h.queue]
      simp only [step, receive, hdecode, Logged.value_pure]
      exact hidle
    | ok m =>
      cases m with
      | request r =>
        have hdecided : p.decided (.receive payload source now) =
            (p.arbitrator.request r source now).value.1 :=
          decided_of_decision? (decision?_receive hdecode source now)
        rw [actions, hdecided, watched, List.append_nil]
        simp only [step, receive, hdecode, Logged.value_bind, Logged.value_pure]
        exact settle_value _
      | ack m =>
        have hdecided : p.decided (.receive payload source now) = p.arbitrator := by
          simp only [decided, Call.decision?, hdecode, Option.map_none, Option.getD_none]
        rw [actions, hdecided, watched, h.queue]
        simp only [step, receive, hdecode, Logged.value_bind, Logged.value_pure]
        exact hidle
  | tick now sample => exact tick_value p now sample
  | clear =>
    rw [actions, watched, List.append_nil]
    exact settle_value _

theorem Settled.step (h : p.Settled) (call : Call) : (p.step call).Settled := by
  rw [step_eq h]
  refine ⟨rfl, ?_⟩
  change (p.watched call).1.ceilings = (p.decided call).ceilings
  rw [decided_ceilings, ← h.ceilings]
  cases call with
  | receive payload source now => rfl
  | tick now sample => exact Watchdog.watch_ceilings _ _ _
  | clear => rfl

theorem Settled.run (h : p.Settled) (calls : List Call) : (p.run calls).Settled := by
  induction calls using List.reverseRecOn with
  | nil => exact h
  | append_singleton calls call ih =>
    rw [run_append_singleton]
    exact ih.step call

end Publisher

end Simulcast
