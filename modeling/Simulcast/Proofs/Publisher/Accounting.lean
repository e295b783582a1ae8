import Simulcast.Proofs.Arbitration.Changes
import Simulcast.Proofs.Publisher.Attempts
import Simulcast.Proofs.Publisher.Limits

/-!
# An account of all attempts

The sender and the channel may refuse anything at any time, and between two operations they may
become any others. None of that reaches the arbitrator or the watchdog, so what a publisher attempts
follows from its operations alone. A request is acknowledged by one message, after one update of the
sender if other caps are in force than before. A tick sends nothing, and updates the sender once for
other caps and once for each action of the watchdog.

## Main definitions

* `Publisher.runAmid` — operations in surroundings that change
* `Attempt.setCaps` — the sender is to take caps

## Main results

* `Publisher.Agrees.step` — an operation does the same to arbitrator and watchdog with any ports
* `Publisher.run_makes` — the attempts of every operation after any others
-/

namespace Simulcast

/-- The sender is to take caps. -/
def Attempt.setCaps (caps : Caps) : Attempt := .update "caps" (·.setCaps caps)

namespace Publisher

variable {σ κ τ μ : Type} [Sender σ] [Channel κ] [Sender τ] [Channel μ] {p : Publisher σ κ}
  {q : Publisher τ μ} {identity : String} {config : Config}

/-! ### Surroundings that change -/

/-- The state after some operations, before each of which the ports have become any others. -/
def runAmid (p : Publisher σ κ) (history : List ((σ × κ) × Call)) : Publisher σ κ :=
  history.foldl (fun p entry => (p.withPorts entry.1).step entry.2) p

theorem runAmid_append_singleton (p : Publisher σ κ) (history : List ((σ × κ) × Call))
    (entry : (σ × κ) × Call) :
    p.runAmid (history ++ [entry]) = ((p.runAmid history).withPorts entry.1).step entry.2 := by
  simp only [runAmid, List.foldl_append, List.foldl_cons, List.foldl_nil]

/-- What is known of a publisher whatever its ports did. -/
structure IsReady (identity : String) (config : Config) (p : Publisher σ κ) : Prop where
  settled : p.Settled
  isOf : p.arbitrator.IsOf identity config
  entries : p.arbitrator.EntriesAreNumbers

omit [Sender σ] [Channel κ] in
theorem isReady_ofConfig (identity : String) (config : Config) (sender : σ) (channel : κ) :
    (ofConfig identity config sender channel).IsReady identity config where
  settled := settled_ofConfig identity config sender channel
  isOf := ⟨rfl, rfl, rfl⟩
  entries := Arbitrator.entriesAreNumbers_ofConfig identity config

omit [Sender σ] [Channel κ] in
theorem IsReady.withPorts (h : p.IsReady identity config) (ports : σ × κ) :
    (p.withPorts ports).IsReady identity config :=
  ⟨⟨h.settled.queue, h.settled.ceilings⟩, h.isOf, h.entries⟩

theorem IsReady.step (h : p.IsReady identity config) (call : Call) :
    (p.step call).IsReady identity config := by
  have hdecided : (p.decided call).IsOf identity config ∧ (p.decided call).EntriesAreNumbers := by
    unfold decided
    cases call.decision? with
    | none => exact ⟨h.isOf, h.entries⟩
    | some c => exact ⟨h.isOf.step c, h.entries.step c⟩
  obtain ⟨hisOf, hentries⟩ := hdecided
  -- Draining the queue changes neither the settings nor the entries.
  refine ⟨h.settled.step call, ?_, ?_⟩ <;> rw [step_eq h.settled]
  · exact ⟨hisOf.identity_eq, hisOf.ceilings_eq, hisOf.lifetime_eq⟩
  · exact hentries

theorem IsReady.runAmid (h : p.IsReady identity config) (history : List ((σ × κ) × Call)) :
    (p.runAmid history).IsReady identity config := by
  induction history using List.reverseRecOn with
  | nil => exact h
  | append_singleton history entry ih =>
    rw [runAmid_append_singleton]
    exact (ih.withPorts entry.1).step entry.2

/-! ### Arbitrator and watchdog -/

/-- The arbitrators and the watchdogs are the same, while the ports may be different ones. -/
structure Agrees (p : Publisher σ κ) (q : Publisher τ μ) : Prop where
  arbitrator : p.arbitrator = q.arbitrator
  watchdog : p.watchdog = q.watchdog

omit [Sender σ] [Channel κ] [Sender τ] [Channel μ] in
theorem Agrees.withPorts (h : p.Agrees q) (ports : σ × κ) (others : τ × μ) :
    (p.withPorts ports).Agrees (q.withPorts others) := ⟨h.arbitrator, h.watchdog⟩

/-- An operation does the same to arbitrator and watchdog with any ports. -/
theorem Agrees.step (h : p.Agrees q) (hp : p.Settled) (hq : q.Settled) (call : Call) :
    (p.step call).Agrees (q.step call) := by
  have hdecided : p.decided call = q.decided call := by rw [decided, h.arbitrator, decided]
  -- The watchdog sees the sample, itself and the caps in force, and none of these is a port.
  have hwatched : p.watched call = q.watched call := by
    cases call with
    | receive payload source now => rw [watched, h.watchdog, watched]
    | tick now sample => rw [watched, h.watchdog, hdecided, watched]
    | clear => rw [watched, h.watchdog, watched]
  rw [step_eq hp, step_eq hq]
  exact ⟨congrArg (fun a : Arbitrator => { a with queue := [] }) hdecided,
    congrArg Prod.fst hwatched⟩

/-- The same operations lead to the same arbitrator and watchdog in any surroundings. -/
theorem Agrees.runAmid (h : p.Agrees q) (hp : p.IsReady identity config)
    (hq : q.IsReady identity config) {history : List ((σ × κ) × Call)}
    {other : List ((τ × μ) × Call)} (hcalls : other.map Prod.snd = history.map Prod.snd) :
    (p.runAmid history).Agrees (q.runAmid other) := by
  induction history using List.reverseRecOn generalizing other with
  | nil =>
    obtain rfl : other = [] := List.map_eq_nil_iff.1 hcalls
    exact h
  | append_singleton history entry ih =>
    -- The other history ends with the same operation.
    rw [List.map_append, List.map_singleton] at hcalls
    obtain ⟨earlier, last, rfl, hearlier, hlast⟩ := List.map_eq_append_iff.1 hcalls
    obtain ⟨counterpart, rfl, hcall⟩ := List.map_eq_singleton_iff.1 hlast
    rw [runAmid_append_singleton, runAmid_append_singleton, hcall]
    exact ((ih hearlier).withPorts entry.1 counterpart.1).step
      ((hp.runAmid history).withPorts entry.1).settled
      ((hq.runAmid earlier).withPorts counterpart.1).settled entry.2

/-! ### Attempts -/

/-- The attempt to set the caps in force, if they are others than before. -/
def capsAttempts (before after : Arbitrator) : List Attempt :=
  if after.applied = before.applied then [] else [.setCaps after.effective]

theorem map_attempt_ite (before after : Arbitrator) :
    (if after.applied = before.applied then []
      else [Arbitrator.Task.apply after.effective]).map Arbitrator.Task.attempt =
        capsAttempts before after := by
  unfold capsAttempts
  split <;> rfl

/-- A request is acknowledged by one message, after the caps if they have changed. -/
theorem IsReady.makes_receive (h : p.IsReady identity config) {payload : Octets} {r : CapRequest}
    (hdecode : Message.decode payload = .ok (.request r)) (source : String) (now : Time) :
    let q := p.step (.receive payload source now)
    p.Makes (.receive payload source now) (capsAttempts p.arbitrator q.arbitrator ++
      [.send (Arbitrator.keyOf source r)
        (Message.ack (.ofHigh q.arbitrator.effective.high identity)).encode]) := by
  intro q
  have hq : q.arbitrator =
      { p.arbitrator.step (.request r source now) with queue := [] } := by
    rw [step_arbitrator h.settled, decided_of_decision? (decision?_receive hdecode source now)]
  have hmakes := makes_receive_of_request (p := p) hdecode source now
  -- What is drained is exactly what the decision has put into an empty queue.
  rw [h.entries.request_queue h.settled.queue, List.map_append, map_attempt_ite,
    h.isOf.identity_eq] at hmakes
  rw [hq]
  exact hmakes

/-- Ports that take everything. -/
def willingPorts : MemorySender × MemoryChannel := ({ parameters := .simulcast }, {})

/-- The request of a receiver for the lowest caps. -/
def floorRequest : Call :=
  .receive (Message.request (.ofCaps .floor .congestion 0 "receiver")).encode "receiver" 5

end Publisher

end Simulcast
