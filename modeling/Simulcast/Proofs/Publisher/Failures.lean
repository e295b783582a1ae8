import Simulcast.Proofs.Endpoint.Memory
import Simulcast.Proofs.Publisher.Limits

/-!
# After a refusal of the sender

The caps in force count as handed on as soon as they are decided, whether or not the sender took
them. A tick hands them on again only if its own cleanup puts caps in force, and the watchdog writes
only when it acts. So a sender that refused its caps once, and takes everything afterwards, may be
left without them.

This file says exactly which layers a tick brings to the caps in force when the sender takes all it
is told in that tick, from any state that can be reached with any refusals before.

## Main definitions

* `Publisher.Reachable` — states reached by operations, between which sender and channel may change

## Main results

* `Publisher.tick_reaches_effective_iff` — when a tick without refusals makes up for earlier ones
* `Publisher.refused_caps_stay_missing` — a refusal that nothing makes up for
-/

namespace Simulcast.Publisher

variable {σ κ : Type} [Sender σ] [Channel κ] {p : Publisher σ κ} {held : σ → Parameters}
  {l : Layer} {m : Option Bitrate}

/-- The states of a publisher. Between two operations the sender and the channel may change in any
way, and so may their readiness to take anything. -/
inductive Reachable : Publisher σ κ → Prop where
  | start (identity : String) (config : Config) (sender : σ) (channel : κ) :
    Reachable (ofConfig identity config sender channel)
  | step {p : Publisher σ κ} (h : Reachable p) (call : Call) : Reachable (p.step call)
  | surroundings {p : Publisher σ κ} (h : Reachable p) (sender : σ) (channel : κ) :
    Reachable { p with sender, channel }

theorem Reachable.settled (h : p.Reachable) : p.Settled := by
  induction h with
  | start identity config sender channel => exact settled_ofConfig identity config sender channel
  | step h call ih => exact ih.step call
  | surroundings h sender channel ih => exact ⟨ih.queue, ih.ceilings⟩

omit [Sender σ] [Channel κ] in
/-- A tick hands caps on when its cleanup leaves any in the queue. -/
theorem kicks_cleanup_eq_nil_iff (h : p.Settled) (now : Time) :
    Arbitrator.kicks (p.arbitrator.cleanup now).value.queue = [] ↔
      (p.arbitrator.cleanup now).value.queue = [] := by
  rcases Arbitrator.cleanup_queue h.queue now with ⟨hqueue, -⟩ | hqueue
  · rw [hqueue]
    exact iff_of_true rfl rfl
  · rw [hqueue]
    exact iff_of_false (by simp [Arbitrator.kicks]) (by simp)

omit [Sender σ] [Channel κ] in
theorem exists_tick_action_iff (h : p.Settled) (now : Time) (sample : Option OutboundSample)
    (l : Layer) :
    (∃ a ∈ p.actions (.tick now sample), a.kind.sets l = true) ↔
      (p.arbitrator.cleanup now).value.queue ≠ [] ∨
        ∃ a ∈ (p.watchdog.watch sample (p.arbitrator.cleanup now).value.applied).2,
          a.kind.sets l = true := by
  -- The caps of the cleanup set every layer, so it is enough that there are any.
  have hactions : p.actions (.tick now sample) =
      Arbitrator.kicks (p.arbitrator.cleanup now).value.queue ++
        (p.watchdog.watch sample (p.arbitrator.cleanup now).value.applied).2 := rfl
  rw [hactions, Ne, ← kicks_cleanup_eq_nil_iff h now]
  constructor
  · rintro ⟨a, ha, hsets⟩
    rcases List.mem_append.1 ha with hkick | hwatch
    · exact Or.inl (List.ne_nil_of_mem hkick)
    · exact Or.inr ⟨a, hwatch, hsets⟩
  · rintro (hkicks | ⟨a, ha, hsets⟩)
    · rcases kicks_decided h (.tick now sample) with ⟨hnone, -⟩ | hone
      · exact absurd hnone hkicks
      · have hone : Arbitrator.kicks (p.arbitrator.cleanup now).value.queue = _ := hone
        rw [hone]
        exact ⟨_, List.mem_append_left _ (List.mem_singleton.2 rfl), rfl⟩
    · exact ⟨a, List.mem_append_right _ ha, hsets⟩

/-- In a tick in which the sender takes all it is told, a layer comes to the cap in force exactly if
it was there before, or the cleanup of that very tick put caps in force, or the watchdog acted on
the layer. -/
theorem tick_reaches_effective_iff (hheld : Sender.Holds held) (hreach : p.Reachable) (now : Time)
    (sample : Option OutboundSample)
    (htakes : Sender.takesAll p.sender (p.actions (.tick now sample)) = true)
    (hm : (held p.sender).limit? l = some m) :
    let after := (p.tick now sample).value
    (held after.sender).limit? l = some (some (after.arbitrator.effective.get l)) ↔
      m = some (after.arbitrator.effective.get l) ∨
        (p.arbitrator.cleanup now).value.queue ≠ [] ∨
        ∃ a ∈ (p.watchdog.watch sample (p.arbitrator.cleanup now).value.applied).2,
          a.kind.sets l = true := by
  intro after
  have hp := hreach.settled
  have hafter : after = p.step (.tick now sample) := rfl
  have hlimit := Sender.limit?_attemptAll_of_obeys (l := l) (hheld.obeys_of_takesAll htakes)
    fun a ha => caps_of_mem_actions hp ha
  rw [← exists_tick_action_iff hp now sample l, hafter, step_eq hp]
  -- What the sender was told before leaves no trace but the limit `m`.
  change (held (Sender.attemptAll p.sender (p.actions (.tick now sample)))).limit? l =
    some (some ((p.decided (.tick now sample)).effective.get l)) ↔ _
  rw [hlimit, hm]
  by_cases hsets : ∃ a ∈ p.actions (.tick now sample), a.kind.sets l = true
  · rw [if_pos hsets]
    exact iff_of_true rfl (Or.inr hsets)
  · rw [if_neg hsets, Option.some_inj]
    exact ⟨Or.inl, fun h => h.resolve_right hsets⟩

/-! ### One refusal -/

/-- What a receiver asks for. -/
def someCaps : Caps := ⟨.kilo 2000, .kilo 660, .kilo 200⟩

/-- A publisher after the request of a receiver that its sender refused to follow. -/
def refusing : Publisher MemorySender MemoryChannel :=
  (ofConfig "publisher" {} { parameters := .simulcast, failsToWrite := true } {}).step
    (.receive (Message.request (.ofCaps someCaps .congestion 0 "receiver")).encode "receiver" 0)

/-- The same publisher when its sender takes everything again. -/
def recovered : Publisher MemorySender MemoryChannel :=
  { refusing with sender := { refusing.sender with failsToWrite := false } }

theorem reachable_recovered : recovered.Reachable :=
  .surroundings (p := refusing) (.step (.start "publisher" {} _ _) _) _ _

/-- A tick in which the last entry expires makes up for the refusal. -/
theorem expiry_makes_up_for_refusal :
    recovered.sender.parameters.limit? .low = some none ∧
      Sender.takesAll recovered.sender (recovered.actions (.tick 15001 none)) = true ∧
      (recovered.arbitrator.cleanup 15001).value.queue ≠ [] ∧
      (recovered.tick 15001 none).value.sender.parameters.limit? .low =
        some (some ((recovered.tick 15001 none).value.arbitrator.effective.get .low)) := by
  have hm : recovered.sender.parameters.limit? .low = some none := by decide +kernel
  have htakes : Sender.takesAll recovered.sender (recovered.actions (.tick 15001 none)) = true := by
    decide +kernel
  have hexpired : (recovered.arbitrator.cleanup 15001).value.queue ≠ [] := by decide +kernel
  exact ⟨hm, htakes, hexpired,
    (tick_reaches_effective_iff MemorySender.holds reachable_recovered 15001 none htakes hm).2
      (Or.inr (Or.inl hexpired))⟩

/-- A tick in which nothing expires does not: the caps of the receiver are in force and the sender
takes everything, but the tick tells it nothing, so no layer has a limit. -/
theorem refused_caps_stay_missing :
    recovered.Reachable ∧ recovered.sender.IsWilling ∧
      Sender.takesAll recovered.sender (recovered.actions (.tick 1000 none)) = true ∧
      recovered.arbitrator.effective = someCaps ∧
      (recovered.tick 1000 none).value.arbitrator.effective = someCaps ∧
      ∀ l, (recovered.tick 1000 none).value.sender.parameters.limit? l = some none := by
  refine ⟨reachable_recovered, ⟨by decide +kernel, rfl⟩, by decide +kernel, by decide +kernel,
    by decide +kernel, fun l => ?_⟩
  cases l <;> decide +kernel

end Simulcast.Publisher
